import Headroom.Proofs.Planning

/-! More demand never selects less. The nodes to open for a smaller deficit are the first of those
for a greater one, the nodes to cordon for a smaller surplus the first of those for a greater one,
and a greater deficit adds no fewer nodes. All of this holds whatever is clamped on the way. -/

namespace Headroom.Scaling

open Cluster (Node Snapshot)

variable {block : BlockSize} {s : Snapshot} {fewer more : Int}

/-- Two draws through the same nodes keep step. The one for the smaller need stops no later, and
where the greater need is covered so is the smaller. -/
theorem drawDown_mono {nodes : List Node} {small large : UncordonPlan} (h : fewer ≤ more)
    (hsmall : drawDown s nodes fewer = .ok small) (hlarge : drawDown s nodes more = .ok large) :
    small.candidates <+: large.candidates ∧ (large.satisfied = true → small.satisfied = true) := by
  induction nodes generalizing fewer more small large with
  | nil =>
    obtain rfl := Except.ok.inj hsmall
    obtain rfl := Except.ok.inj hlarge
    exact ⟨List.prefix_rfl, id⟩
  | cons node rest ih =>
    obtain ⟨freed, hfreed, hsmall⟩ := drawDown_cons_eq_ok_iff.mp hsmall
    obtain ⟨freed', hfreed', hlarge⟩ := drawDown_cons_eq_ok_iff.mp hlarge
    obtain rfl := Except.ok.inj (hfreed.symm.trans hfreed')
    -- What is left of the two needs may be held to one bound, but it never changes places.
    have hleft : Word.clamp (fewer - freed) ≤ Word.clamp (more - freed) :=
      Word.clamp_mono (by omega)
    rcases hsmall with ⟨-, rfl⟩ | ⟨hneeds, earlier, hearlier, rfl⟩
    · rcases hlarge with ⟨-, rfl⟩ | ⟨-, later, -, rfl⟩
      · exact ⟨List.prefix_rfl, id⟩
      · exact ⟨⟨later.candidates, rfl⟩, fun _ => rfl⟩
    · rcases hlarge with ⟨hmet, -⟩ | ⟨-, later, hlater, rfl⟩
      · omega
      · obtain ⟨hfront, hcovered⟩ := ih hleft hearlier hlater
        exact ⟨(List.prefix_cons_inj _).mpr hfront, hcovered⟩

theorem pickToUncordon_mono (hblock : block.raw.toNat < 2 ^ 63) {small large : UncordonPlan}
    (h : fewer ≤ more) (hsmall : pickToUncordon block s fewer = .ok small)
    (hlarge : pickToUncordon block s more = .ok large) :
    small.candidates <+: large.candidates ∧ (large.satisfied = true → small.satisfied = true) := by
  by_cases hnone : fewer ≤ 0
  · rw [pickToUncordon, if_pos hnone] at hsmall
    obtain rfl := Except.ok.inj hsmall
    exact ⟨List.nil_prefix, fun _ => rfl⟩
  · rw [pickToUncordon, if_neg hnone] at hsmall
    rw [pickToUncordon, if_neg (by omega)] at hlarge
    obtain ⟨sorted, hsorted, hsmall⟩ := bind_eq_ok_iff.mp hsmall
    obtain ⟨sorted', hsorted', hlarge⟩ := bind_eq_ok_iff.mp hlarge
    obtain rfl := Except.ok.inj (hsorted.symm.trans hsorted')
    exact drawDown_mono (unitsOf_mono hblock h) hsmall hlarge

/-- Plans for two deficits start from the same number of nodes, and the greater deficit adds no
fewer; where there is no plan for one of them, there is none for the other. -/
theorem growthPlan_mono (s : Snapshot) (hblock : block.raw.toNat < 2 ^ 63) (h : fewer ≤ more) :
    ∃ small large, growthPlan block s fewer = .ok small ∧ growthPlan block s more = .ok large ∧
      Option.Rel (fun p q => p.current = q.current ∧ p.add ≤ q.add) small large := by
  unfold growthPlan
  cases s.capacityProxy? with
  | none => exact ⟨none, none, rfl, rfl, .none⟩
  | some capacity =>
    cases hdivisor : divisor? capacity with
    | none =>
      have hnone : ∀ deficit, nodesToAdd block deficit capacity = .ok none :=
        fun _ => nodesToAdd_eq_none_iff.mpr hdivisor
      exact ⟨none, none, bind_eq_ok_iff.mpr ⟨none, hnone fewer, rfl⟩,
        bind_eq_ok_iff.mpr ⟨none, hnone more, rfl⟩, .none⟩
    | some c =>
      obtain ⟨few, hfew, -⟩ := nodesToAdd_of_divisor block hdivisor fewer
      obtain ⟨many, hmany, -⟩ := nodesToAdd_of_divisor block hdivisor more
      exact ⟨some _, some _, bind_eq_ok_iff.mpr ⟨some few, hfew, rfl⟩,
        bind_eq_ok_iff.mpr ⟨some many, hmany, rfl⟩,
        .some ⟨rfl, nodesToAdd_mono (unitsOf_mono hblock h) hfew hmany⟩⟩

/-- Let a block lie below 2^63, and let what each cordoned node has free be computed without a
fault. Then for any two deficits and any two surpluses, in whatever way they are clamped, there are
selections. The candidates for the smaller deficit are the first of those for the greater, which is
covered only if the smaller is. The nodes to cordon for the smaller surplus are the first of those
for the greater. The plan to grow for the greater deficit adds no fewer nodes to the same number. -/
theorem selections_grow (block : BlockSize) (s : Snapshot) (hblock : block.raw.toNat < 2 ^ 63)
    (hfree : ∀ node ∈ s.cordoned, ∃ freed, s.free node = .ok freed) (h : fewer ≤ more) :
    (∃ small large, pickToUncordon block s fewer = .ok small ∧
      pickToUncordon block s more = .ok large ∧ small.candidates <+: large.candidates ∧
      (large.satisfied = true → small.satisfied = true)) ∧
    (∃ few many, pickToCordon block s fewer = .ok few ∧ pickToCordon block s more = .ok many ∧
      few <+: many) ∧
    (∃ small large, growthPlan block s fewer = .ok small ∧ growthPlan block s more = .ok large ∧
      Option.Rel (fun p q => p.current = q.current ∧ p.add ≤ q.add) small large) := by
  refine ⟨?_, ?_, growthPlan_mono s hblock h⟩
  · have hplan : ∀ deficit, ∃ plan, pickToUncordon block s deficit = .ok plan :=
      exists_pickToUncordon_of_free hfree
    obtain ⟨small, hsmall⟩ := hplan fewer
    obtain ⟨large, hlarge⟩ := hplan more
    exact ⟨small, large, hsmall, hlarge, pickToUncordon_mono hblock h hsmall hlarge⟩
  · refine ⟨_, _, pickToCordon_eq block s fewer, pickToCordon_eq block s more, ?_⟩
    rw [List.map_take, List.map_take]
    exact List.take_prefix_take_left (allowance_mono hblock (fun _ hproxy => hproxy) h)

/-- Three cordoned nodes, the first of them overcommitted, and an open one. -/
def strainedSnapshot : Snapshot where
  nodes := [
    ⟨"a", 1000, true, none⟩, ⟨"b", 1000, true, none⟩, ⟨"c", 1000, true, none⟩,
    ⟨"d", 1000, false, none⟩]
  pods := [⟨"games/x", "a", 1500, false⟩, ⟨"games/y", "b", 300, false⟩]

/-- Two blocks, and as many as the word holds: what is left of these after the first node is held to
the word. -/
theorem selections_grow_strained : (100 : UInt64).toNat < 2 ^ 63 ∧
    (∀ node ∈ strainedSnapshot.cordoned, ∃ freed, strainedSnapshot.free node = .ok freed) ∧
    (2 : Int) ≤ Word.greatest ∧
    pickToUncordon ⟨100, by decide⟩ strainedSnapshot 2 = .ok ⟨[⟨"a", -500⟩, ⟨"b", 700⟩], true⟩ ∧
    (∃ large, pickToUncordon ⟨100, by decide⟩ strainedSnapshot Word.greatest = .ok large ∧
      [⟨"a", -500⟩, ⟨"b", 700⟩] <+: large.candidates) ∧
    ∃ few many, pickToCordon ⟨100, by decide⟩ strainedSnapshot 2 = .ok few ∧
      pickToCordon ⟨100, by decide⟩ strainedSnapshot Word.greatest = .ok many ∧ few <+: many := by
  have hfree : ∀ node ∈ strainedSnapshot.cordoned,
      ∃ freed, strainedSnapshot.free node = .ok freed := by
    intro node hnode
    have hfits : (strainedSnapshot.free node).toBool = true := by
      revert node
      decide
    cases hfreed : strainedSnapshot.free node with
    | error fault => simp [hfreed, Except.toBool] at hfits
    | ok freed => exact ⟨freed, rfl⟩
  have hplan : pickToUncordon ⟨100, by decide⟩ strainedSnapshot 2 =
      .ok ⟨[⟨"a", -500⟩, ⟨"b", 700⟩], true⟩ := by cbv
  obtain ⟨⟨small, large, hsmall, hlarge, hfront, -⟩, hcordons, -⟩ :=
    selections_grow ⟨100, by decide⟩ strainedSnapshot (by decide) hfree
      (by decide : (2 : Int) ≤ Word.greatest)
  obtain rfl := Except.ok.inj (hplan.symm.trans hsmall)
  exact ⟨by decide, hfree, by decide, hplan, ⟨large, hlarge, hfront⟩, hcordons⟩

end Headroom.Scaling
