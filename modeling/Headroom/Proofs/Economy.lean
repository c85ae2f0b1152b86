import Headroom.Proofs.Covering
import Headroom.Proofs.Disturbance

/-! How many cordoned nodes are opened for a deficit, where all of them have one capacity. The most
heavily loaded come first, and of nodes of one capacity these have the least to free. So the
candidates are as many as an arbitrary choice of nodes needs, which is often more than the fewest
that would do. -/

namespace Headroom.Scaling

open Cluster (Node Snapshot State)

variable {s : Snapshot} {need : Int} {sorted picked other : List Node} {count : Nat}

/-! ### What the fronts of the order free -/

theorem freeOn_le_of_heavier {a b : Node} (hcapacity : a.capacity = b.capacity)
    (h : Heavier s a.id b.id) : s.freeOn a ≤ s.freeOn b := by
  have hload : s.load b.id ≤ s.load a.id := h.elim le_of_lt fun h => h.1.ge
  rw [Snapshot.freeOn, Snapshot.freeOn, hcapacity]
  omega

theorem ascending_freeOn (hcapacity : ∀ a ∈ sorted, ∀ b ∈ sorted, a.capacity = b.capacity)
    (hpairs : (sorted.map (·.id)).Pairwise (Heavier s)) :
    (sorted.map s.freeOn).Pairwise (· ≤ ·) := by
  rw [List.pairwise_map] at hpairs ⊢
  exact hpairs.imp_of_mem fun ha hb h => freeOn_le_of_heavier (hcapacity _ ha _ hb) h

theorem descending_freeOn (hcapacity : ∀ a ∈ sorted, ∀ b ∈ sorted, a.capacity = b.capacity)
    (heven : ∀ a ∈ sorted, ∀ b ∈ sorted, s.load a.id = s.load b.id) :
    (sorted.map s.freeOn).Pairwise (· ≥ ·) := by
  refine List.pairwise_map.mpr (List.pairwise_of_forall_mem_list fun a ha b hb => ge_of_eq ?_)
  rw [Snapshot.freeOn, Snapshot.freeOn, hcapacity a ha b hb, heven a ha b hb]

/-- No choice of nodes frees less than the front of its length. -/
theorem Covers.of_take (hascending : (sorted.map s.freeOn).Pairwise (· ≤ ·)) (hnodup : other.Nodup)
    (hsubset : other ⊆ sorted) (h : Covers s need (sorted.take other.length)) :
    Covers s need other :=
  h.trans (sum_map_take_le hascending hnodup hsubset)

/-- No choice of nodes frees more than the last ones of the order. -/
theorem Covers.take_reverse (hascending : (sorted.map s.freeOn).Pairwise (· ≤ ·))
    (hnodup : other.Nodup) (hsubset : other ⊆ sorted) (h : Covers s need other) :
    Covers s need (sorted.reverse.take other.length) := by
  have hdescending : (sorted.reverse.map s.freeOn).Pairwise (· ≥ ·) := by
    rw [List.map_reverse, List.pairwise_reverse]
    exact hascending
  exact h.trans (le_sum_map_take hdescending hnodup fun node hnode =>
    List.mem_reverse.mpr (hsubset hnode))

/-! ### Choices -/

/-- Some of the cordoned nodes, each once. -/
structure Choice (s : Snapshot) (nodes : List Node) : Prop where
  nodup : nodes.Nodup
  cordoned : nodes ⊆ s.cordoned

/-- Every choice of so many nodes covers the need. -/
def Enough (s : Snapshot) (need : Int) (count : Nat) : Prop :=
  ∀ nodes, Choice s nodes → nodes.length = count → Covers s need nodes

/-- No choice of fewer nodes covers the need. -/
def Fewest (s : Snapshot) (need : Int) (count : Nat) : Prop :=
  ∀ nodes, Choice s nodes → nodes.length < count → ¬Covers s need nodes

theorem Choice.of_sublist (hperm : sorted.Perm s.cordoned) (hnodup : s.cordoned.Nodup)
    {nodes : List Node} (h : nodes.Sublist sorted) : Choice s nodes :=
  ⟨(hperm.nodup_iff.mpr hnodup).sublist h, fun _ hnode => hperm.mem_iff.mp (h.subset hnode)⟩

theorem Choice.subset_sorted (hperm : sorted.Perm s.cordoned) {nodes : List Node}
    (h : Choice s nodes) : nodes ⊆ sorted :=
  fun _ hnode => hperm.mem_iff.mpr (h.cordoned hnode)

/-- Where the nodes of the order free more and more, its shortest cover has as many as any choice
needs. -/
theorem ShortestCover.isLeast_enough (h : ShortestCover s need sorted picked true)
    (hperm : sorted.Perm s.cordoned) (hnodup : s.cordoned.Nodup)
    (hascending : (sorted.map s.freeOn).Pairwise (· ≤ ·)) :
    IsLeast {count | Enough s need count} picked.length := by
  constructor
  · intro nodes hchoice hlength
    have hfront : picked = sorted.take nodes.length := by
      rw [hlength]
      exact List.prefix_iff_eq_take.mp h.front
    exact Covers.of_take hascending hchoice.nodup (hchoice.subset_sorted hperm)
      (hfront ▸ h.covers rfl)
  · intro count henough
    -- The front of so many nodes is one of the choices, if there are so many.
    by_contra hless
    have hlength : (sorted.take count).length = count := by
      have hle := h.front.length_le
      rw [List.length_take]
      omega
    have hcovers := henough _ (Choice.of_sublist hperm hnodup (List.take_sublist ..)) hlength
    have hle := (h.shortest rfl _ (List.take_prefix ..) hcovers).length_le
    omega

theorem fewest_iff (hperm : sorted.Perm s.cordoned) (hnodup : s.cordoned.Nodup)
    (hascending : (sorted.map s.freeOn).Pairwise (· ≤ ·)) :
    Fewest s need count ↔ ∀ fewer < count, ¬Covers s need (sorted.reverse.take fewer) := by
  constructor
  · intro h fewer hless
    refine h _ ⟨?_, fun node hnode => ?_⟩ ((List.length_take_le ..).trans_lt hless)
    · exact (List.nodup_reverse.mpr (hperm.nodup_iff.mpr hnodup)).sublist (List.take_sublist ..)
    · exact hperm.mem_iff.mp (List.mem_reverse.mp (List.mem_of_mem_take hnode))
  · intro h nodes hchoice hless hcovers
    exact h _ hless
      (hcovers.take_reverse hascending hchoice.nodup (hchoice.subset_sorted hperm))

/-- Where they free less and less, the shortest cover has the fewest nodes. -/
theorem ShortestCover.fewest (h : ShortestCover s need sorted picked true)
    (hperm : sorted.Perm s.cordoned) (hdescending : (sorted.map s.freeOn).Pairwise (· ≥ ·)) :
    Fewest s need picked.length := by
  intro nodes hchoice hless hcovers
  have hfront : Covers s need (sorted.take nodes.length) :=
    hcovers.trans (le_sum_map_take hdescending hchoice.nodup (hchoice.subset_sorted hperm))
  have hle := (h.shortest rfl _ (List.take_prefix ..) hfront).length_le
  rw [List.length_take] at hle
  omega

/-- Let the cordoned nodes have distinct ids and one capacity, which is read as the requests of each
are, and let there be a deficit. They stand in one order: those on which more is requested first,
equals by id. Let the need less what a front of this order frees always have a place in the signed
word. Then there is a plan, and if it is satisfied it has as many candidates as an arbitrary choice
of nodes needs: so many cover the need whichever they are, and of no smaller number is that true.
It has the fewest that any choice does with exactly if no fewer of the last nodes of the order cover
the need. If as much is requested on each of the nodes, it always has. -/
theorem opens_for_any_choice (block : BlockSize) (s : Snapshot) {deficit : Int}
    (hd : (s.cordoned.map (·.id)).Nodup) (hdeficit : 0 < deficit)
    (hcapacity : ∀ a ∈ s.cordoned, ∀ b ∈ s.cordoned, a.capacity = b.capacity)
    (haligned : ∀ node ∈ s.cordoned, s.Aligned node) :
    ∃ sorted : List Node, sorted.Perm s.cordoned ∧ (sorted.map (·.id)).Pairwise (Heavier s) ∧
      ((∀ front, front <+: sorted →
          Word.Fits (deficit * block.raw.toNat - (front.map s.freeOn).sum)) →
        ∃ plan, pickToUncordon block s deficit = .ok plan ∧
          (plan.satisfied = true →
            IsLeast {count | Enough s (deficit * block.raw.toNat) count} plan.candidates.length ∧
            (Fewest s (deficit * block.raw.toNat) plan.candidates.length ↔
              ∀ fewer < plan.candidates.length,
                ¬Covers s (deficit * block.raw.toNat) (sorted.reverse.take fewer)) ∧
            ((∀ a ∈ s.cordoned, ∀ b ∈ s.cordoned, s.load a.id = s.load b.id) →
              Fewest s (deficit * block.raw.toNat) plan.candidates.length))) := by
  obtain ⟨sorted, hsorted, hperm, hpairs⟩ :=
    exists_byUse_heavier hd fun node hnode => (haligned node hnode).1
  refine ⟨sorted, hperm, hpairs, fun hfits => ?_⟩
  obtain ⟨picked, satisfied, hplan, hcover⟩ :=
    exists_pickToUncordon_shortestCover hsorted hdeficit haligned hfits
  refine ⟨_, hplan, fun hsatisfied => ?_⟩
  obtain rfl : satisfied = true := hsatisfied
  have hnodup : s.cordoned.Nodup := List.Nodup.of_map _ hd
  have hsame : ∀ a ∈ sorted, ∀ b ∈ sorted, a.capacity = b.capacity := fun a ha b hb =>
    hcapacity a (hperm.mem_iff.mp ha) b (hperm.mem_iff.mp hb)
  have hascending := ascending_freeOn hsame hpairs
  rw [List.length_map]
  refine ⟨hcover.isLeast_enough hperm hnodup hascending, fewest_iff hperm hnodup hascending,
    fun heven => hcover.fewest hperm (descending_freeOn hsame fun a ha b hb => ?_)⟩
  exact heven a (hperm.mem_iff.mp ha) b (hperm.mem_iff.mp hb)

/-- Three cordoned nodes of one capacity that carry less and less. -/
def gradedSnapshot : Snapshot where
  nodes := [⟨"a", 1000, true, none⟩, ⟨"b", 1000, true, none⟩, ⟨"c", 1000, true, none⟩]
  pods := [⟨"games/x", "a", 600, false⟩, ⟨"games/y", "b", 300, false⟩]

/-- No node alone has 1100 to free, and of two any do. -/
theorem opens_for_any_choice_graded :
    (gradedSnapshot.cordoned.map (·.id)).Nodup ∧ (0 : Int) < 11 ∧
    (∀ a ∈ gradedSnapshot.cordoned, ∀ b ∈ gradedSnapshot.cordoned, a.capacity = b.capacity) ∧
    (∀ node ∈ gradedSnapshot.cordoned, gradedSnapshot.Aligned node) ∧
    pickToUncordon ⟨100, by decide⟩ gradedSnapshot 11 = .ok ⟨[⟨"a", 400⟩, ⟨"b", 700⟩], true⟩ ∧
    IsLeast {count | Enough gradedSnapshot (11 * (100 : UInt64).toNat) count} 2 ∧
    Fewest gradedSnapshot (11 * (100 : UInt64).toNat) 2 := by
  have hd : (gradedSnapshot.cordoned.map (·.id)).Nodup := by decide
  have hcapacity : ∀ a ∈ gradedSnapshot.cordoned, ∀ b ∈ gradedSnapshot.cordoned,
      a.capacity = b.capacity := by decide
  have haligned : ∀ node ∈ gradedSnapshot.cordoned, gradedSnapshot.Aligned node := by
    unfold Snapshot.Aligned
    decide
  have hplan : pickToUncordon ⟨100, by decide⟩ gradedSnapshot 11 =
      .ok ⟨[⟨"a", 400⟩, ⟨"b", 700⟩], true⟩ := by cbv
  obtain ⟨sorted, hperm, -, h⟩ := opens_for_any_choice ⟨100, by decide⟩ gradedSnapshot hd
    (by decide : (0 : Int) < 11) hcapacity haligned
  have hfronts := forall_front gradedSnapshot.cordoned (fun front =>
    Word.Fits (11 * (100 : UInt64).toNat - (front.map gradedSnapshot.freeOn).sum)) (by decide)
    sorted hperm
  obtain ⟨plan, hpicked, h⟩ := h hfronts
  obtain rfl := Except.ok.inj (hplan.symm.trans hpicked)
  obtain ⟨hleast, hfewest, -⟩ := h rfl
  refine ⟨hd, by decide, hcapacity, haligned, hplan, hleast, hfewest.mpr ?_⟩
  intro fewer hfewer
  have hlast := forall_front gradedSnapshot.cordoned (fun front =>
    front.length < 2 → ¬ (11 * (100 : UInt64).toNat : Int) ≤ (front.map gradedSnapshot.freeOn).sum)
    (by decide) sorted.reverse ((List.reverse_perm sorted).trans hperm)
  exact hlast _ (List.take_prefix ..) ((List.length_take_le ..).trans_lt hfewer)

/-- A cordoned node that is nearly full, and one of the same capacity that is empty. -/
def lopsidedState : State where
  nodes := [
    { id := "a", capacity := some 1000, unschedulable := true },
    { id := "b", capacity := some 1000, unschedulable := true }]
  pods := [{ space := "games", name := "x", nodeId := some "a", request := 900 }]

/-- The snapshot of these nodes. -/
def lopsidedSnapshot : Snapshot where
  nodes := [⟨"a", 1000, true, none⟩, ⟨"b", 1000, true, none⟩]
  pods := [⟨"games/x", "a", 900, false⟩]

/-- The empty node alone covers the need. The plan begins with the one that is nearly full and opens
both. -/
theorem lopsided_opens_both : Snapshot.ofState lopsidedState {} = .ok lopsidedSnapshot ∧
    (lopsidedSnapshot.nodes.map (·.id)).Nodup ∧
    (∀ a ∈ lopsidedSnapshot.nodes, ∀ b ∈ lopsidedSnapshot.nodes, a.capacity = b.capacity) ∧
    (∀ sorted, sorted.Perm lopsidedSnapshot.cordoned → ∀ front, front <+: sorted →
      Word.Fits (5 * (200 : UInt64).toNat - (front.map lopsidedSnapshot.freeOn).sum)) ∧
    pickToUncordon ⟨200, by decide⟩ lopsidedSnapshot 5 =
      .ok ⟨[⟨"a", 100⟩, ⟨"b", 1000⟩], true⟩ ∧
    ¬Fewest lopsidedSnapshot (5 * (200 : UInt64).toNat) 2 := by
  refine ⟨by cbv, by decide, by decide, forall_front _ _ (by decide), by cbv, fun hfewest => ?_⟩
  have hempty : Choice lopsidedSnapshot [⟨"b", 1000, true, none⟩] := ⟨by decide, by decide⟩
  exact hfewest _ hempty (by decide) (by decide : (1000 : Int) ≤ 1000)

end Headroom.Scaling
