import Headroom.Cluster.Store
import Headroom.Proofs.Snapshot
import Headroom.Proofs.Table

/-! Accounting in plain numbers. The spare capacity of a listing is what its schedulable nodes offer
less what is requested on them; a snapshot computes it in words, and while no total leaves the
signed word the two agree. -/

namespace Headroom

theorem BlockSize.pos (block : BlockSize) : 0 < block.raw.toNat := by
  have hnonzero : block.raw.toNat ≠ 0 := fun h => block.nonzero (UInt64.toNat_inj.mp h)
  omega

namespace Cluster

/-- What a node offers; a node of unknown capacity offers nothing. -/
def NodeRecord.offer (node : NodeRecord) : Nat := (node.capacity.getD 0).toNat

namespace State

variable {state : State} {rule : Protection}

/-- What is requested on an id. -/
def load (state : State) (id : String) : Nat := ((state.podsOn id).map (·.request.toNat)).sum

/-- What a node offers less what is requested on it. -/
def freeOn (state : State) (node : NodeRecord) : Int := node.offer - state.load node.id

/-- What the schedulable nodes offer less what is requested on them. -/
def spare (state : State) : Int := (state.schedulable.map state.freeOn).sum

/-- What all nodes offer. -/
def totalCapacity (state : State) : Nat := (state.nodes.map NodeRecord.offer).sum

/-- What all pods request, bound or not. -/
def totalRequests (state : State) : Nat := (state.pods.map (·.request.toNat)).sum

/-- The pods bound to one of some ids. -/
def boundTo (state : State) (ids : List String) : List PodRecord :=
  state.pods.filter fun pod => pod.nodeId.any (· ∈ ids)

theorem sum_map_le_of_sublist {α : Type} {l₁ l₂ : List α} (f : α → Nat) (h : l₁.Sublist l₂) :
    (l₁.map f).sum ≤ (l₂.map f).sum :=
  (h.map f).sum_le_sum fun _ _ => Nat.zero_le _

theorem offer_le_totalCapacity {node : NodeRecord} (h : node ∈ state.nodes) :
    node.offer ≤ state.totalCapacity :=
  List.le_sum_of_mem (List.mem_map_of_mem h)

theorem load_le_totalRequests (state : State) (id : String) :
    state.load id ≤ state.totalRequests :=
  sum_map_le_of_sublist _ List.filter_sublist

/-- The pods bound to some ids are those bound to each of them, one id after the other. -/
theorem flatMap_podsOn_perm {ids : List String} (h : ids.Nodup) :
    (ids.flatMap state.podsOn).Perm (state.boundTo ids) := by
  induction ids with
  | nil => simp [boundTo]
  | cons id rest ih =>
    obtain ⟨hid, hrest⟩ := List.nodup_cons.mp h
    have hhere : (state.boundTo (id :: rest)).filter (·.nodeId == some id) = state.podsOn id := by
      rw [boundTo, podsOn, List.filter_filter]
      refine List.filter_congr fun pod _ => ?_
      cases hpod : pod.nodeId with
      | none => simp
      | some nodeId => by_cases heq : nodeId = id <;> simp [heq]
    have hthere : (state.boundTo (id :: rest)).filter (fun pod => !(pod.nodeId == some id)) =
        state.boundTo rest := by
      rw [boundTo, boundTo, List.filter_filter]
      refine List.filter_congr fun pod _ => ?_
      cases hpod : pod.nodeId with
      | none => simp
      | some nodeId =>
        by_cases heq : nodeId = id
        · simp [heq, hid]
        · simp [heq]
    have hsplit := List.filter_append_perm (·.nodeId == some id) (state.boundTo (id :: rest))
    rw [hhere, hthere] at hsplit
    rw [List.flatMap_cons]
    exact ((ih hrest).append_left _).trans hsplit

/-- Each pod counts on one id only. -/
theorem sum_load {ids : List String} (h : ids.Nodup) :
    (ids.map state.load).sum = ((state.boundTo ids).map (·.request.toNat)).sum := by
  rw [← ((flatMap_podsOn_perm h).map _).sum_eq, List.map_flatMap, List.flatMap, List.sum_flatten,
    List.map_map]
  rfl

theorem sum_load_le {ids : List String} (h : ids.Nodup) :
    (ids.map state.load).sum ≤ state.totalRequests := by
  rw [sum_load h]
  exact sum_map_le_of_sublist _ List.filter_sublist

/-- What some nodes have free is what they offer less what is requested on them. -/
theorem sum_freeOn (state : State) (nodes : List NodeRecord) :
    (nodes.map state.freeOn).sum = ((nodes.map NodeRecord.offer).sum : Nat) -
      ((nodes.map fun node => state.load node.id).sum : Nat) := by
  induction nodes with
  | nil => simp
  | cons node rest ih =>
    simp only [List.map_cons, List.sum_cons, ih, freeOn]
    push_cast
    ring

theorem spare_eq (state : State) :
    state.spare = ((state.schedulable.map NodeRecord.offer).sum : Nat) -
      ((state.schedulable.map fun node => state.load node.id).sum : Nat) :=
  state.sum_freeOn state.schedulable

/-- The ids of the nodes are pairwise distinct. -/
def Distinct (state : State) : Prop := (state.nodes.map (·.id)).Nodup

theorem distinct_of_store (store : Store) : store.state.Distinct := store.nodes.nodup_keys

theorem Distinct.schedulable (h : state.Distinct) : (state.schedulable.map (·.id)).Nodup :=
  h.sublist (List.filter_sublist.map _)

theorem Distinct.cordoned (h : state.Distinct) : (state.cordoned.map (·.id)).Nodup :=
  h.sublist (List.filter_sublist.map _)

theorem sum_offer_schedulable_le (state : State) :
    (state.schedulable.map NodeRecord.offer).sum ≤ state.totalCapacity :=
  sum_map_le_of_sublist _ List.filter_sublist

theorem Distinct.sum_load_schedulable_le (h : state.Distinct) :
    (state.schedulable.map fun node => state.load node.id).sum ≤ state.totalRequests := by
  simpa [Function.comp_def] using sum_load_le h.schedulable

/-- What is requested on the nodes that are barred, less what is missing on the others, is within
the total. -/
theorem Distinct.sum_load_cordoned_le (h : state.Distinct) :
    ((state.cordoned.map fun node => state.load node.id).sum : Int) ≤
      state.spare + state.totalRequests := by
  have hsplit : (state.cordoned ++ state.schedulable).Perm state.nodes :=
    List.filter_append_perm _ _
  have hall : ((state.nodes.map (·.id)).map state.load).sum ≤ state.totalRequests := sum_load_le h
  rw [List.map_map, ← (hsplit.map _).sum_eq, List.map_append, List.sum_append] at hall
  rw [spare_eq]
  simp only [Function.comp_def] at hall
  omega

theorem Distinct.least_spare (h : state.Distinct) : -(state.totalRequests : Int) ≤ state.spare := by
  have hload := h.sum_load_schedulable_le
  rw [spare_eq]
  omega

/-- The totals of a listing lie below 2^63. -/
structure Moderate (state : State) : Prop where
  capacity : state.totalCapacity < 2 ^ 63
  requests : state.totalRequests < 2 ^ 63

/-! ### The queries of a snapshot -/

theorem inUse_snapshot (hm : state.Moderate) {id : String}
    (h : ∃ node ∈ state.nodes, node.id = id) :
    (state.snapshot rule).inUse id = .ok (UInt64.ofNat (state.load id)) := by
  have hsum : (((state.snapshot rule).podsOn id).map (·.request)).map UInt64.toNat =
      (state.podsOn id).map (·.request.toNat) := by
    rw [podsOn_snapshot h, List.map_map, List.map_map]
    rfl
  have hlt := (state.load_le_totalRequests id).trans_lt hm.requests
  rw [Snapshot.inUse, Word.total_of_lt, hsum, load]
  rw [hsum]
  exact hlt.trans (by decide)

theorem free_snapshot (hm : state.Moderate) {node : NodeRecord} (h : node ∈ state.nodes) :
    (state.snapshot rule).free node.view = .ok (state.freeOn node) := by
  have hoffer := (offer_le_totalCapacity h).trans_lt hm.capacity
  have hload := (state.load_le_totalRequests node.id).trans_lt hm.requests
  have hword : (UInt64.ofNat (state.load node.id)).toNat = state.load node.id :=
    UInt64.toNat_ofNat_of_lt' (hload.trans (by decide))
  have hsigned : Word.signed (UInt64.ofNat (state.load node.id)) = state.load node.id := by
    rw [Word.signed_of_lt (by rwa [hword]), hword]
  have hcapacity : Word.signed node.view.capacity = node.offer := Word.signed_of_lt hoffer
  have hfits : Word.Fits (state.freeOn node) := by
    unfold Word.Fits Word.least Word.greatest freeOn
    omega
  simp only [Snapshot.free, NodeRecord.id_view, inUse_snapshot hm ⟨node, h, rfl⟩, bind, Except.bind,
    Word.sub, hsigned, hcapacity]
  exact if_pos hfits

/-- Checked addition of free capacities is exact while what is offered and what is requested each
leave room in the word. -/
theorem foldlM_free (hm : state.Moderate) (nodes : List Node)
    (hnodes : ∀ node ∈ nodes, ∃ record ∈ state.nodes, node = record.view) (sum : Int)
    (hlow : Word.least ≤ sum - (nodes.map fun node => state.load node.id).sum)
    (hhigh : sum + (nodes.map (·.capacity.toNat)).sum ≤ Word.greatest) :
    nodes.foldlM (fun sum node => do Word.add sum (← (state.snapshot rule).free node)) sum =
      .ok (sum + (nodes.map fun node => (node.capacity.toNat - state.load node.id : Int)).sum) := by
  induction nodes generalizing sum with
  | nil => simp [pure, Except.pure]
  | cons node rest ih =>
    obtain ⟨record, hrecord, rfl⟩ := hnodes node List.mem_cons_self
    simp only [List.map_cons, List.sum_cons, Nat.cast_add] at hlow hhigh ⊢
    have hfree : state.freeOn record = record.view.capacity.toNat - state.load record.view.id := rfl
    have hfits : Word.Fits (sum + state.freeOn record) := by
      unfold Word.Fits
      omega
    have hrest := ih (fun node h => hnodes node (List.mem_cons_of_mem _ h))
      (sum + state.freeOn record) (by omega) (by omega)
    rw [List.foldlM_cons, free_snapshot hm hrecord]
    simp only [bind, Except.bind, Word.add, if_pos hfits] at hrest ⊢
    rw [hrest, hfree, add_assoc]

/-- The spare capacity that a snapshot computes is the exact one. -/
theorem availableCapacity_snapshot (hd : state.Distinct) (hm : state.Moderate) :
    (state.snapshot rule).availableCapacity = .ok state.spare := by
  have hperm := state.schedulable_snapshot_perm rule
  have hload : ((state.snapshot rule).schedulable.map fun node => state.load node.id).sum ≤
      state.totalRequests := by
    rw [(hperm.map _).sum_eq, List.map_map]
    exact hd.sum_load_schedulable_le
  have hoffer : ((state.snapshot rule).schedulable.map (·.capacity.toNat)).sum ≤
      state.totalCapacity := by
    rw [(hperm.map _).sum_eq, List.map_map]
    exact state.sum_offer_schedulable_le
  have hnodes : ∀ node ∈ (state.snapshot rule).schedulable, ∃ record ∈ state.nodes,
      node = record.view := by
    intro node hnode
    obtain ⟨record, hrecord, rfl⟩ := List.mem_map.mp (hperm.mem_iff.mp hnode)
    exact ⟨record, (List.mem_filter.mp hrecord).1, rfl⟩
  have hcapacity := hm.capacity
  have hrequests := hm.requests
  rw [Snapshot.availableCapacity, foldlM_free hm _ hnodes 0 (by unfold Word.least; omega)
    (by unfold Word.greatest; omega), (hperm.map _).sum_eq, List.map_map, zero_add]
  rfl

theorem Moderate.spare_bounds (hd : state.Distinct) (hm : state.Moderate) :
    -(2 ^ 63) < state.spare ∧ state.spare < 2 ^ 63 := by
  have hload := hd.sum_load_schedulable_le
  have hoffer := state.sum_offer_schedulable_le
  have hcapacity := hm.capacity
  have hrequests := hm.requests
  rw [spare_eq]
  omega

/-- The spare blocks that a snapshot counts are the exact ones, rounded down. -/
theorem availableBlocks_snapshot (hd : state.Distinct) (hm : state.Moderate) {block : BlockSize}
    (hblock : block.raw.toNat < 2 ^ 63) :
    (state.snapshot rule).availableBlocks block = .ok (state.spare / block.raw.toNat) := by
  obtain ⟨hlow, hhigh⟩ := hm.spare_bounds hd
  have hsigned : block.signed = block.raw.toNat := Word.signed_of_lt hblock
  have hspare : Word.Fits state.spare := by
    unfold Word.Fits Word.least Word.greatest
    omega
  have hfits : Word.Fits (state.spare / block.raw.toNat) :=
    Word.fits_ediv hspare (by exact_mod_cast block.pos)
  simp only [Snapshot.availableBlocks, availableCapacity_snapshot hd hm, bind, Except.bind,
    Word.div, hsigned, if_pos hfits]

/-! ### The whole account -/

/-- A listing has no snapshot exactly when a node states no capacity, and the first such node is
named. If it has one and its nodes have distinct ids, the snapshot shows under the id of a node the
pods bound to it, in their order, and under any other id none; so it shows each pod that is bound to
a node once, and no other pod. The spare blocks that it counts are then the capacity of the
schedulable nodes less what the pods bound to them request, divided by the block and rounded toward
minus infinity, as long as the totals and the block lie below 2^63. -/
theorem snapshot_accounts (state : State) (rule : Protection) :
    (∀ error, Snapshot.ofState state rule = .error error ↔
      ∃ before node after, state.nodes = before ++ node :: after ∧
        (∀ earlier ∈ before, earlier.capacity ≠ none) ∧ node.capacity = none ∧
        error = .missingCapacity node.id) ∧
    (state.Distinct → (∀ node ∈ state.nodes, node.capacity ≠ none) →
      ∃ s, Snapshot.ofState state rule = .ok s ∧
        (∀ id, s.podsOn id = if id ∈ state.nodes.map (·.id)
          then (state.podsOn id).map (PodRecord.view rule id) else []) ∧
        ((state.nodes.map (·.id)).flatMap s.podsOn).Perm
          ((state.boundTo (state.nodes.map (·.id))).map fun pod =>
            pod.view rule (pod.nodeId.getD "")) ∧
        (state.Moderate → ∀ block : BlockSize, block.raw.toNat < 2 ^ 63 →
          s.availableBlocks block = .ok (Int.fdiv
            ((state.schedulable.map NodeRecord.offer).sum -
              ((state.boundTo (state.schedulable.map (·.id))).map (·.request.toNat)).sum : Int)
            block.raw.toNat))) := by
  constructor
  · intro error
    rw [ofState_eq_error_iff, unreadable?, Option.map_eq_some_iff]
    constructor
    · rintro ⟨node, hfind, rfl⟩
      obtain ⟨hnode, before, after, hnodes, hbefore⟩ := List.find?_eq_some_iff_append.mp hfind
      refine ⟨before, node, after, hnodes, fun earlier hearlier => ?_, by simpa using hnode, rfl⟩
      simpa [Option.isSome_iff_ne_none] using hbefore earlier hearlier
    · rintro ⟨before, node, after, hnodes, hbefore, hnode, rfl⟩
      refine ⟨node, List.find?_eq_some_iff_append.mpr ⟨by simp [hnode], before, after, hnodes,
        fun earlier hearlier => ?_⟩, rfl⟩
      simpa [Option.isSome_iff_ne_none] using hbefore earlier hearlier
  · intro hd hknown
    have hsome : ∀ node ∈ state.nodes, node.capacity.isSome := fun node hnode =>
      Option.isSome_iff_ne_none.mpr (hknown node hnode)
    have hpods : ∀ id, (state.snapshot rule).podsOn id = if id ∈ state.nodes.map (·.id)
        then (state.podsOn id).map (PodRecord.view rule id) else [] := by
      intro id
      split
      · rename_i hid
        exact podsOn_snapshot (List.mem_map.mp hid)
      · rename_i hid
        exact podsOn_snapshot_of_unknown fun node hnode heq =>
          hid (List.mem_map.mpr ⟨node, hnode, heq⟩)
    refine ⟨state.snapshot rule, ofState_eq_ok_iff.mpr ⟨hsome, rfl⟩, hpods, ?_, ?_⟩
    · have hviews : ∀ id ∈ state.nodes.map (·.id), (state.snapshot rule).podsOn id =
          (state.podsOn id).map fun pod => pod.view rule (pod.nodeId.getD "") := by
        intro id hid
        rw [hpods, if_pos hid]
        refine List.map_congr_left fun pod hpod => ?_
        have hbound : pod.nodeId = some id := by simpa [podsOn] using (List.mem_filter.mp hpod).2
        rw [hbound, Option.getD_some]
      rw [List.flatMap_congr hviews, ← List.map_flatMap]
      exact (flatMap_podsOn_perm hd).map _
    · intro hm block hblock
      rw [availableBlocks_snapshot hd hm hblock, Int.fdiv_eq_ediv_of_nonneg _ (by omega), spare_eq,
        ← sum_load hd.schedulable, List.map_map]
      rfl

/-- Two nodes, the second open and overcommitted, with a pod that waits and one whose node is
gone. -/
def unevenState : State where
  nodes := [
    { id := "b", capacity := some 500, unschedulable := true },
    { id := "a", capacity := some 1000 }]
  pods := [
    { space := "games", name := "match", nodeId := some "a", request := 1050 },
    { space := "games", name := "idle", nodeId := some "b", request := 200 },
    { space := "games", name := "next", nodeId := none, request := 100 },
    { space := "games", name := "lost", nodeId := some "gone", request := 100 }]

theorem snapshot_accounts_uneven : unevenState.Distinct ∧
    (∀ node ∈ unevenState.nodes, node.capacity ≠ none) ∧ unevenState.Moderate ∧
    ∃ s, Snapshot.ofState unevenState {} = .ok s ∧
      s.podsOn "a" = [⟨"games/match", "a", 1050, false⟩] ∧ s.podsOn "gone" = [] ∧
      s.availableBlocks ⟨100, by decide⟩ = .ok (-1) := by
  have hd : unevenState.Distinct := by unfold Distinct; decide
  have hknown : ∀ node ∈ unevenState.nodes, node.capacity ≠ none := by decide
  have hm : unevenState.Moderate := ⟨by decide, by decide⟩
  obtain ⟨s, hs, hpods, -, hblocks⟩ := (snapshot_accounts unevenState {}).2 hd hknown
  refine ⟨hd, hknown, hm, s, hs, ?_, ?_, ?_⟩
  · rw [hpods]
    decide
  · rw [hpods]
    decide
  · rw [hblocks hm ⟨100, by decide⟩ (by decide)]
    decide

end State

end Cluster

end Headroom
