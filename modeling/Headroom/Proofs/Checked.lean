import Mathlib
import Headroom.Word

/-! Computations that may fail: what a chain of them needs to succeed, and when arithmetic in the
signed word is exact. -/

namespace Headroom

theorem bind_eq_ok_iff {α β ε : Type} {x : Except ε α} {f : α → Except ε β} {b : β} :
    x >>= f = .ok b ↔ ∃ a, x = .ok a ∧ f a = .ok b := by
  cases x <;> simp [bind, Except.bind]

/-- A computation over a list succeeds when it does at each element, with the images in order. -/
theorem mapM_eq_ok_iff {α β ε : Type} {f : α → Except ε β} {known : α → Prop} {g : α → β}
    (hf : ∀ a b, f a = .ok b ↔ known a ∧ b = g a) {l : List α} {r : List β} :
    l.mapM f = .ok r ↔ (∀ a ∈ l, known a) ∧ r = l.map g := by
  induction l generalizing r with
  | nil =>
    rw [List.mapM_nil]
    show Except.ok [] = Except.ok r ↔ _
    rw [Except.ok.injEq, eq_comm]
    simp
  | cons a rest ih =>
    rw [List.mapM_cons, bind_eq_ok_iff, List.forall_mem_cons, List.map_cons]
    constructor
    · rintro ⟨b, hb, h⟩
      obtain ⟨later, hlater, h⟩ := bind_eq_ok_iff.mp h
      obtain ⟨hknown, rfl⟩ := (hf a b).mp hb
      obtain ⟨hall, rfl⟩ := ih.mp hlater
      exact ⟨⟨hknown, hall⟩, (Except.ok.inj h).symm⟩
    · rintro ⟨⟨hknown, hall⟩, rfl⟩
      exact ⟨g a, (hf a (g a)).mpr ⟨hknown, rfl⟩,
        bind_eq_ok_iff.mpr ⟨rest.map g, ih.mpr ⟨hall, rfl⟩, rfl⟩⟩

theorem mapM_eq_ok_iff_forall₂ {α β ε : Type} {f : α → Except ε β} {l : List α} {r : List β} :
    l.mapM f = .ok r ↔ List.Forall₂ (fun a b => f a = .ok b) l r := by
  induction l generalizing r with
  | nil => cases r <;> simp [pure, Except.pure]
  | cons a rest ih =>
    rw [List.mapM_cons, bind_eq_ok_iff, List.forall₂_cons_left_iff]
    refine exists_congr fun b => ?_
    rw [bind_eq_ok_iff]
    constructor
    · rintro ⟨hb, later, hlater, h⟩
      cases h
      exact ⟨later, hb, ih.mp hlater, rfl⟩
    · rintro ⟨later, hb, hlater, rfl⟩
      exact ⟨hb, later, ih.mpr hlater, rfl⟩

/-- A computation over the images of a list takes its course as over the list. -/
theorem mapM_image {α β γ δ ε : Type} {f : α → Except ε β} {g : γ → Except ε δ} {p : α → γ}
    {q : β → δ} (h : ∀ a, g (p a) = (f a).map q) (l : List α) :
    (l.map p).mapM g = (l.mapM f).map (List.map q) := by
  induction l with
  | nil => rfl
  | cons a rest ih =>
    rw [List.map_cons, List.mapM_cons, List.mapM_cons, ih, h]
    cases f a with
    | error e => rfl
    | ok b => cases rest.mapM f <;> rfl

namespace Word

theorem sum_eq_foldr (ns : List UInt64) :
    ns.foldr (fun n sum => n.toNat + sum) 0 = (ns.map UInt64.toNat).sum := by
  rw [List.sum, List.foldr_map]

theorem total_perm {l₁ l₂ : List UInt64} (h : l₁.Perm l₂) : total l₁ = total l₂ := by
  simp only [total, sum_eq_foldr, (h.map _).sum_eq]

/-- From 2^63 on a word read as a signed one falls by 2^64. -/
theorem signed_eq_ite (n : UInt64) :
    signed n = if n.toNat < 2 ^ 63 then (n.toNat : Int) else n.toNat - 2 ^ 64 := by
  have hlt : 2 * n.toNat < 2 ^ 64 ↔ n.toNat < 2 ^ 63 := by omega
  rw [signed, ← Int64.toInt_toBitVec, BitVec.toInt_eq_toNat_cond]
  simp only [← hlt]
  rfl

theorem signed_of_lt {n : UInt64} (h : n.toNat < 2 ^ 63) : signed n = n.toNat := by
  rw [signed_eq_ite, if_pos h]

theorem total_of_lt {ns : List UInt64} (h : (ns.map UInt64.toNat).sum < UInt64.size) :
    total ns = .ok (UInt64.ofNat (ns.map UInt64.toNat).sum) := by
  simp only [total, sum_eq_foldr, if_pos h]

/-- Divided by a positive number, a quantity of the word stays in it. -/
theorem fits_ediv {x y : Int} (h : Fits x) (hy : 0 < y) : Fits (x / y) := by
  have habs := Int.natAbs_ediv_le_natAbs x y
  unfold Fits least greatest at *
  rcases le_total 0 x with hx | hx
  · have := Int.ediv_nonneg hx hy.le
    omega
  · have := Int.ediv_nonpos_of_nonpos_of_neg hx hy
    omega

theorem fits_tdiv {x y : Int} (h : Fits x) (hy : 0 < y) : Fits (x.tdiv y) := by
  have habs := Int.natAbs_tdiv_le_natAbs x y
  unfold Fits least greatest at *
  rcases le_total 0 x with hx | hx
  · have := Int.tdiv_nonneg hx hy.le
    omega
  · have hnonneg := Int.tdiv_nonneg (a := -x) (by omega) hy.le
    rw [Int.neg_tdiv] at hnonneg
    omega

theorem add_eq_ok_iff {x y z : Int} : add x y = .ok z ↔ Fits (x + y) ∧ z = x + y := by
  unfold add
  split <;> simp_all [eq_comm]

theorem sub_eq_ok_iff {x y z : Int} : sub x y = .ok z ↔ Fits (x - y) ∧ z = x - y := by
  unfold sub
  split <;> simp_all [eq_comm]

theorem div_eq_ok_iff {x y z : Int} : div x y = .ok z ↔ Fits (x / y) ∧ z = x / y := by
  unfold div
  split <;> simp_all [eq_comm]

theorem quot_eq_ok_iff {x y z : Int} : quot x y = .ok z ↔ Fits (x.tdiv y) ∧ z = x.tdiv y := by
  unfold quot
  split <;> simp_all [eq_comm]

end Word

end Headroom
