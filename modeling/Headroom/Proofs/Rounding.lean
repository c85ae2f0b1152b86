import Headroom.Proofs.Accounting
import Headroom.Scaling.Planner

/-! From blocks to nodes. Blocks are counted in raw units, held to the signed word. The nodes to add
are the least number whose capacity holds the units, the nodes to cordon the greatest number whose
capacity the units hold, and on the way to either nothing leaves the word. -/

namespace Headroom.Scaling

variable {block : BlockSize} {capacity : UInt64} {units c : Int}

/-! ### Units -/

theorem unitsOf_eq (hblock : block.raw.toNat < 2 ^ 63) (blocks : Int) :
    unitsOf block blocks = Word.clamp (blocks * block.raw.toNat) := by
  rw [unitsOf, BlockSize.signed, Word.signed_of_lt hblock]

theorem unitsOf_pos (hblock : block.raw.toNat < 2 ^ 63) {blocks : Int} (h : 0 < blocks) :
    0 < unitsOf block blocks := by
  have hmul := mul_pos h (by exact_mod_cast block.pos : (0 : Int) < block.raw.toNat)
  rw [unitsOf_eq hblock]
  unfold Word.clamp Word.least Word.greatest
  omega

theorem unitsOf_of_fits {deficit : Int} (hpos : 0 < deficit)
    (h : Word.Fits (deficit * block.raw.toNat)) :
    unitsOf block deficit = deficit * block.raw.toNat := by
  have hblock : block.raw.toNat < 2 ^ 63 := by
    have hle := le_mul_of_one_le_left (Int.natCast_nonneg block.raw.toNat) (by omega : 1 ≤ deficit)
    have := h.2
    unfold Word.greatest at this
    omega
  rw [unitsOf_eq hblock, Word.clamp_of_fits h]

/-- A number of blocks within the word is at least counted in full, and exactly so if there are
any. -/
theorem unitsOf_clamp (hblock : block.raw.toNat < 2 ^ 63) {blocks : Int}
    (h : blocks * block.raw.toNat ≤ Word.greatest) :
    blocks * block.raw.toNat ≤ unitsOf block (Word.clamp blocks) ∧
      (0 ≤ blocks → unitsOf block (Word.clamp blocks) = blocks * block.raw.toNat) := by
  have hpos : (1 : Int) ≤ block.raw.toNat := by exact_mod_cast block.pos
  rw [unitsOf_eq hblock]
  generalize (block.raw.toNat : Int) = size at h hpos ⊢
  have hle : blocks ≤ Word.clamp blocks := by
    unfold Word.clamp Word.greatest at *
    rcases le_total blocks 0 with hneg | hnonneg
    · omega
    · have := le_mul_of_one_le_right hnonneg hpos
      omega
  have hexact : 0 ≤ blocks → Word.clamp blocks = blocks := by
    unfold Word.clamp Word.least at *
    omega
  have hmul : blocks * size ≤ Word.clamp blocks * size :=
    mul_le_mul_of_nonneg_right hle (by omega)
  constructor
  · unfold Word.clamp at hmul ⊢
    omega
  · intro hnonneg
    rw [hexact hnonneg, Word.clamp_of_fits]
    have := mul_nonneg hnonneg (by omega : 0 ≤ size)
    exact ⟨by unfold Word.least; omega, h⟩

/-- A surplus is never counted for more than it is. -/
theorem unitsOf_le (hblock : block.raw.toNat < 2 ^ 63) {blocks : Int} (h : 0 ≤ blocks) :
    unitsOf block blocks ≤ blocks * block.raw.toNat := by
  rw [unitsOf_eq hblock]
  have hnonneg := mul_nonneg h (Int.natCast_nonneg block.raw.toNat)
  unfold Word.clamp Word.least
  omega

theorem unitsOf_mono (hblock : block.raw.toNat < 2 ^ 63) {fewer more : Int} (h : fewer ≤ more) :
    unitsOf block fewer ≤ unitsOf block more := by
  rw [unitsOf_eq hblock, unitsOf_eq hblock]
  exact Word.clamp_mono (mul_le_mul_of_nonneg_right h (Int.natCast_nonneg _))

/-! ### Capacities that divide -/

theorem divisor?_eq_some_iff :
    divisor? capacity = some c ↔
      0 < capacity.toNat ∧ (capacity.toNat : Int) ≤ Word.greatest ∧ c = capacity.toNat := by
  unfold divisor?
  split <;> simp_all [eq_comm]

theorem divisor?_eq_none_iff :
    divisor? capacity = none ↔ capacity = 0 ∨ Word.greatest < capacity.toNat := by
  have hzero : capacity = 0 ↔ capacity.toNat = 0 := by
    rw [← UInt64.toNat_inj]
    rfl
  rw [hzero, divisor?]
  split
  · simp only [reduceCtorEq, false_iff]
    omega
  · simp only [true_iff]
    omega

/-! ### Quotients rounded up and down -/

/-- Rounding toward zero is rounding up where nothing is positive. -/
theorem isLeast_tdiv (hc : 0 < c) (hunits : units ≤ 0) :
    IsLeast {n : Int | units ≤ n * c} (units.tdiv c) := by
  have heq : units.tdiv c = -(-units / c) := by
    rw [← Int.tdiv_eq_ediv_of_nonneg (by omega : 0 ≤ -units), Int.neg_tdiv, neg_neg]
  rw [heq]
  constructor
  · have hle := Int.ediv_mul_le (-units) hc.ne'
    show units ≤ -(-units / c) * c
    rw [neg_mul]
    omega
  · intro n hn
    have hle : -n ≤ -units / c := Int.le_ediv_of_mul_le hc (by rw [neg_mul]; exact neg_le_neg hn)
    omega

/-- A positive quotient is rounded up by one more than what a unit less gives. -/
theorem isLeast_tdiv_add_one (hc : 0 < c) (hunits : 0 < units) :
    IsLeast {n : Int | units ≤ n * c} ((units - 1).tdiv c + 1) := by
  rw [Int.tdiv_eq_ediv_of_nonneg (by omega)]
  constructor
  · have hlt := Int.lt_ediv_add_one_mul_self (units - 1) hc
    show units ≤ ((units - 1) / c + 1) * c
    omega
  · intro n hn
    have hn : units ≤ n * c := hn
    have hlt := Int.ediv_lt_of_lt_mul hc (by omega : units - 1 < n * c)
    omega

theorem isGreatest_ediv (hc : 0 < c) (units : Int) :
    IsGreatest {n : Int | n * c ≤ units} (units / c) :=
  ⟨Int.ediv_mul_le units hc.ne', fun _ hn => Int.le_ediv_of_mul_le hc hn⟩

/-! ### Nodes -/

/-- Where the capacity divides, the nodes to add are the least number that holds the units, and
their number has a place in the word: the units are held to it before they are divided. -/
theorem nodesToAdd_of_divisor (block : BlockSize) (hdivisor : divisor? capacity = some c)
    (deficit : Int) :
    ∃ add, nodesToAdd block deficit capacity = .ok (some add) ∧ Word.Fits add ∧
      IsLeast {n : Int | unitsOf block deficit ≤ n * c} add := by
  have hc : 0 < c := by
    obtain ⟨hpos, -, rfl⟩ := divisor?_eq_some_iff.mp hdivisor
    omega
  have hunits : Word.Fits (unitsOf block deficit) := Word.fits_clamp _
  simp only [nodesToAdd, hdivisor]
  generalize unitsOf block deficit = units at hunits ⊢
  by_cases hneeds : 0 < units
  · have hless : Word.Fits (units - 1) := by
      unfold Word.Fits Word.least at *
      omega
    have hquotient := Word.fits_tdiv hless hc
    have hle := Int.tdiv_le_self c (by omega : 0 ≤ units - 1)
    have hsum : Word.Fits ((units - 1).tdiv c + 1) := by
      unfold Word.Fits at *
      omega
    refine ⟨_, ?_, hsum, isLeast_tdiv_add_one hc hneeds⟩
    rw [if_pos hneeds]
    refine bind_eq_ok_iff.mpr ⟨_, Word.sub_eq_ok_iff.mpr ⟨hless, rfl⟩, ?_⟩
    refine bind_eq_ok_iff.mpr ⟨_, Word.quot_eq_ok_iff.mpr ⟨hquotient, rfl⟩, ?_⟩
    exact bind_eq_ok_iff.mpr ⟨_, Word.add_eq_ok_iff.mpr ⟨hsum, rfl⟩, rfl⟩
  · have hquotient := Word.fits_tdiv hunits hc
    refine ⟨_, ?_, hquotient, isLeast_tdiv hc (not_lt.mp hneeds)⟩
    rw [if_neg hneeds]
    exact bind_eq_ok_iff.mpr ⟨_, Word.quot_eq_ok_iff.mpr ⟨hquotient, rfl⟩, rfl⟩

theorem nodesToAdd_eq_none_iff {deficit : Int} :
    nodesToAdd block deficit capacity = .ok none ↔ divisor? capacity = none := by
  cases hdivisor : divisor? capacity with
  | none => simp only [nodesToAdd, hdivisor]
  | some c =>
    obtain ⟨add, hadd, -⟩ := nodesToAdd_of_divisor block hdivisor deficit
    simp [hadd]

theorem exists_nodesToAdd (block : BlockSize) (deficit : Int) (capacity : UInt64) :
    ∃ add, nodesToAdd block deficit capacity = .ok add := by
  cases hdivisor : divisor? capacity with
  | none => exact ⟨none, nodesToAdd_eq_none_iff.mpr hdivisor⟩
  | some c =>
    obtain ⟨add, hadd, -⟩ := nodesToAdd_of_divisor block hdivisor deficit
    exact ⟨some add, hadd⟩

theorem nodesToAdd_least {deficit add : Int}
    (h : nodesToAdd block deficit capacity = .ok (some add)) :
    Word.Fits add ∧ IsLeast {n : Int | unitsOf block deficit ≤ n * capacity.toNat} add := by
  cases hdivisor : divisor? capacity with
  | none =>
    rw [nodesToAdd_eq_none_iff.mpr hdivisor] at h
    simp at h
  | some c =>
    obtain ⟨-, -, rfl⟩ := divisor?_eq_some_iff.mp hdivisor
    obtain ⟨least, hleast, hspec⟩ := nodesToAdd_of_divisor block hdivisor deficit
    obtain rfl := Option.some.inj (Except.ok.inj (h.symm.trans hleast))
    exact hspec

/-- More units need no fewer nodes. -/
theorem nodesToAdd_mono {fewer more few many : Int}
    (h : unitsOf block fewer ≤ unitsOf block more)
    (hfew : nodesToAdd block fewer capacity = .ok (some few))
    (hmany : nodesToAdd block more capacity = .ok (some many)) : few ≤ many :=
  (nodesToAdd_least hfew).2.2 (h.trans (nodesToAdd_least hmany).2.1)

theorem nodesToCordon_eq (block : BlockSize) (surplus : Int) (capacity : UInt64) :
    nodesToCordon block surplus capacity =
      .ok ((divisor? capacity).map fun c => unitsOf block surplus / c) := by
  unfold nodesToCordon
  cases hdivisor : divisor? capacity with
  | none => rfl
  | some c =>
    obtain ⟨hpos, -, rfl⟩ := divisor?_eq_some_iff.mp hdivisor
    have hfits : Word.Fits (unitsOf block surplus / capacity.toNat) :=
      Word.fits_ediv (Word.fits_clamp _) (by omega)
    exact bind_eq_ok_iff.mpr ⟨_, Word.div_eq_ok_iff.mpr ⟨hfits, rfl⟩, rfl⟩

/-- Let a block lie below 2^63. For any number of blocks and any capacity no step towards the nodes
to add or to cordon leaves the word. There is no such number exactly if the capacity is zero or has
no place in the signed word. Otherwise the blocks in raw units are held to that word, and the nodes
to add are the least number whose capacity is at least as much, the nodes to cordon the greatest
number whose capacity is no more. -/
theorem nodes_rounded_exactly (block : BlockSize) (hblock : block.raw.toNat < 2 ^ 63)
    (blocks : Int) (capacity : UInt64) :
    (nodesToAdd block blocks capacity = .ok none ↔
      capacity = 0 ∨ Word.greatest < capacity.toNat) ∧
    (nodesToCordon block blocks capacity = .ok none ↔
      capacity = 0 ∨ Word.greatest < capacity.toNat) ∧
    (capacity ≠ 0 → (capacity.toNat : Int) ≤ Word.greatest → ∃ add cordon,
      nodesToAdd block blocks capacity = .ok (some add) ∧
      nodesToCordon block blocks capacity = .ok (some cordon) ∧
      Word.Fits add ∧ Word.Fits cordon ∧
      IsLeast {n : Int | Word.clamp (blocks * block.raw.toNat) ≤ n * capacity.toNat} add ∧
      IsGreatest {n : Int | n * capacity.toNat ≤ Word.clamp (blocks * block.raw.toNat)}
        cordon) := by
  rw [nodesToCordon_eq, nodesToAdd_eq_none_iff, ← divisor?_eq_none_iff, ← unitsOf_eq hblock]
  refine ⟨Iff.rfl, by simp, fun hzero hle => ?_⟩
  cases hdivisor : divisor? capacity with
  | none =>
    rcases divisor?_eq_none_iff.mp hdivisor with h | h
    · exact absurd h hzero
    · exact absurd hle (not_le.mpr h)
  | some c =>
    obtain ⟨add, hadd, hfits, hleast⟩ := nodesToAdd_of_divisor block hdivisor blocks
    obtain ⟨hpos, -, rfl⟩ := divisor?_eq_some_iff.mp hdivisor
    have hc : (0 : Int) < capacity.toNat := by omega
    exact ⟨add, _, hadd, rfl, hfits, Word.fits_ediv (Word.fits_clamp _) hc, hleast,
      isGreatest_ediv hc _⟩

/-- The least number of blocks, of three units each, for nodes of two: the product is held to the
word, and its quotient is exact. -/
theorem nodes_rounded_exactly_least : (3 : UInt64).toNat < 2 ^ 63 ∧ (2 : UInt64) ≠ 0 ∧
    ((2 : UInt64).toNat : Int) ≤ Word.greatest ∧
    nodesToAdd ⟨3, by decide⟩ Word.least 2 = .ok (some (-4611686018427387904)) ∧
    nodesToCordon ⟨3, by decide⟩ Word.greatest 2 = .ok (some 4611686018427387903) ∧
    IsLeast {n : Int | Word.least ≤ n * 2} (-4611686018427387904) ∧
    IsGreatest {n : Int | n * 2 ≤ Word.greatest} 4611686018427387903 := by
  have hadd : nodesToAdd ⟨3, by decide⟩ Word.least 2 = .ok (some (-4611686018427387904)) := by
    decide
  have hcordon : nodesToCordon ⟨3, by decide⟩ Word.greatest 2 = .ok (some 4611686018427387903) := by
    decide
  obtain ⟨low, -, hlow, -, -, -, hleast, -⟩ :=
    (nodes_rounded_exactly ⟨3, by decide⟩ (by decide) Word.least 2).2.2 (by decide) (by decide)
  obtain ⟨-, high, -, hhigh, -, -, -, hgreatest⟩ :=
    (nodes_rounded_exactly ⟨3, by decide⟩ (by decide) Word.greatest 2).2.2 (by decide) (by decide)
  obtain rfl := Option.some.inj (Except.ok.inj (hadd.symm.trans hlow))
  obtain rfl := Option.some.inj (Except.ok.inj (hcordon.symm.trans hhigh))
  exact ⟨by decide, by decide, by decide, hadd, hcordon, hleast, hgreatest⟩

end Headroom.Scaling
