import Headroom.Proofs.Rounding
import Headroom.Scaling.Selection

/-! What is planned for a deficit and for a surplus. Nodes to uncordon are the front of the cordoned
nodes in some order, and cover the deficit unless they are all of them; nodes to add cover what is
missing; nodes to cordon hold no more than the surplus. -/

namespace Headroom.Scaling

open Cluster (Node NodeRecord Protection Snapshot State)

variable {block : BlockSize} {s : Snapshot} {state : State} {rule : Protection}

/-! ### Orders -/

/-- A node beside the use that it is ordered by. -/
def withUse (s : Snapshot) (node : Node) : Nat × Node :=
  (((s.inUse node.id).toOption.getD 0).toNat, node)

theorem withUse_spec (s : Snapshot) (node : Node) (row : Nat × Node) :
    (do return ((← s.inUse node.id).toNat, node)) = Except.ok row ↔
      (∃ used, s.inUse node.id = .ok used) ∧ row = withUse s node := by
  rw [bind_eq_ok_iff]
  constructor
  · rintro ⟨used, hused, h⟩
    exact ⟨⟨used, hused⟩, by rw [← Except.ok.inj h]; simp [withUse, hused, Except.toOption]⟩
  · rintro ⟨⟨used, hused⟩, rfl⟩
    exact ⟨used, hused, by simp [withUse, hused, Except.toOption, pure, Except.pure]⟩

theorem byUse_perm {nodes sorted : List Node} (h : byUse s nodes = .ok sorted) :
    sorted.Perm nodes := by
  unfold byUse at h
  split at h
  · rw [Except.ok.inj h]
  · obtain ⟨rows, hrows, h⟩ := bind_eq_ok_iff.mp h
    obtain ⟨-, rfl⟩ := (mapM_eq_ok_iff (withUse_spec s)).mp hrows
    have hnodes : (nodes.map (withUse s)).map Prod.snd = nodes := by
      rw [List.map_map]
      exact List.map_id _
    rw [← Except.ok.inj h]
    exact ((List.mergeSort_perm _ _).map Prod.snd).trans (.of_eq hnodes)

/-- Nodes can be ordered by their use when each use can be computed. -/
theorem exists_byUse {nodes : List Node}
    (h : ∀ node ∈ nodes, ∃ used, s.inUse node.id = .ok used) :
    ∃ sorted, byUse s nodes = .ok sorted := by
  unfold byUse
  split
  · exact ⟨nodes, rfl⟩
  · have hrows := (mapM_eq_ok_iff (withUse_spec s)).mpr ⟨h, rfl⟩
    exact ⟨_, bind_eq_ok_iff.mpr ⟨_, hrows, rfl⟩⟩

theorem byPodCount_perm (s : Snapshot) (nodes : List Node) : (byPodCount s nodes).Perm nodes :=
  List.mergeSort_perm _ _

/-- The node of the first id is taken no later than that of the second: it has fewer pods, or as
many and the smaller id. -/
def Lighter (s : Snapshot) (a b : String) : Prop :=
  (s.podsOn a).length < (s.podsOn b).length ∨ (s.podsOn a).length = (s.podsOn b).length ∧ a ≤ b

theorem Lighter.trans {a b c : String} (hab : Lighter s a b) (hbc : Lighter s b c) :
    Lighter s a c := by
  rcases hab with hab | ⟨hab, hle⟩ <;> rcases hbc with hbc | ⟨hbc, hle'⟩
  · exact .inl (hab.trans hbc)
  · exact .inl (hbc ▸ hab)
  · exact .inl (hab ▸ hbc)
  · exact .inr ⟨hab.trans hbc, hle.trans hle'⟩

theorem Lighter.total (s : Snapshot) (a b : String) : Lighter s a b ∨ Lighter s b a := by
  rcases Nat.lt_trichotomy (s.podsOn a).length (s.podsOn b).length with hlt | heq | hlt
  · exact .inl (.inl hlt)
  · rcases le_total a b with hle | hle
    · exact .inl (.inr ⟨heq, hle⟩)
    · exact .inr (.inr ⟨heq.symm, hle⟩)
  · exact .inr (.inl hlt)

theorem Lighter.antisymm {a b : String} (hab : Lighter s a b) (hba : Lighter s b a) : a = b := by
  rcases hab with hab | ⟨hab, hle⟩ <;> rcases hba with hba | ⟨hba, hle'⟩
  · omega
  · omega
  · omega
  · exact le_antisymm hle hle'

theorem pairwise_byPodCount (s : Snapshot) (nodes : List Node) :
    ((byPodCount s nodes).map (·.id)).Pairwise (Lighter s) := by
  have htest : ∀ a b : Node, (decide ((s.podsOn a.id).length < (s.podsOn b.id).length) ||
      ((s.podsOn a.id).length == (s.podsOn b.id).length && decide (a.id ≤ b.id))) = true ↔
        Lighter s a.id b.id := by
    intro a b
    simp [Lighter]
  rw [List.pairwise_map]
  refine (List.pairwise_mergeSort (fun a b c hab hbc => ?_) (fun a b => ?_) nodes).imp
    fun {a b} h => (htest a b).mp h
  · exact (htest a c).mpr (((htest a b).mp hab).trans ((htest b c).mp hbc))
  · rw [Bool.or_eq_true]
    exact (Lighter.total s a.id b.id).imp (htest a b).mpr (htest b a).mpr

/-- A snapshot that shows some nodes less, and as many pods on each of the others, orders these as
before. -/
theorem ids_byPodCount_filter {t : Snapshot} {stays : String → Bool}
    (hids : (t.nodes.map (·.id)).Perm ((s.nodes.map (·.id)).filter stays))
    (hpods : ∀ id ∈ t.nodes.map (·.id), (t.podsOn id).length = (s.podsOn id).length) :
    (byPodCount t t.nodes).map (·.id) = ((byPodCount s s.nodes).map (·.id)).filter stays := by
  have hold := (byPodCount_perm s s.nodes).map (·.id)
  have hnew := (byPodCount_perm t t.nodes).map (·.id)
  have hsorted : ((byPodCount t t.nodes).map (·.id)).Pairwise (Lighter s) := by
    refine (pairwise_byPodCount t t.nodes).imp_of_mem fun {a b} ha hb h => ?_
    unfold Lighter at h ⊢
    rwa [hpods a (hnew.mem_iff.mp ha), hpods b (hnew.mem_iff.mp hb)] at h
  refine List.Perm.eq_of_pairwise (fun a b _ _ => Lighter.antisymm) hsorted
    ((pairwise_byPodCount s s.nodes).filter _) ?_
  exact (hnew.trans hids).trans (hold.filter _).symm

/-! ### Uncordoning -/

/-- The ids of candidates, in their order. -/
def UncordonPlan.ids (plan : UncordonPlan) : List String := plan.candidates.map (·.nodeId)

/-- A node with what it frees. -/
def candidate (free : Node → Int) (node : Node) : Candidate := ⟨node.id, free node⟩

theorem sum_freed (free : Node → Int) (nodes : List Node) :
    ((nodes.map (candidate free)).map (·.freed)).sum = (nodes.map free).sum := by
  rw [List.map_map]
  rfl

/-- A draw takes the first node, and goes on with the others if it leaves a need. -/
theorem drawDown_cons_eq_ok_iff {node : Node} {rest : List Node} {need : Int}
    {plan : UncordonPlan} : drawDown s (node :: rest) need = .ok plan ↔
      ∃ freed, s.free node = .ok freed ∧
        (Word.clamp (need - freed) ≤ 0 ∧ plan = ⟨[⟨node.id, freed⟩], true⟩ ∨
          0 < Word.clamp (need - freed) ∧
            ∃ later, drawDown s rest (Word.clamp (need - freed)) = .ok later ∧
              plan = ⟨⟨node.id, freed⟩ :: later.candidates, later.satisfied⟩) := by
  have hpure : ∀ found : UncordonPlan,
      (pure found : Except Fault UncordonPlan) = .ok plan ↔ plan = found := fun found => by
    rw [show pure found = Except.ok found from rfl, Except.ok.injEq, eq_comm]
  rw [drawDown, bind_eq_ok_iff]
  refine exists_congr fun freed => and_congr_right fun _ => ?_
  dsimp only
  split
  · rename_i hmet
    simp only [hpure, hmet, not_lt.mpr hmet, true_and, false_and, or_false]
  · rename_i hleft
    simp only [bind_eq_ok_iff, hpure, hleft, not_le.mp hleft, true_and, false_and, false_or]

/-- The candidates are the front of the list, and all of it when they do not cover the need. -/
theorem drawDown_ids {nodes : List Node} {need : Int} {plan : UncordonPlan}
    (h : drawDown s nodes need = .ok plan) :
    ∃ picked rest, nodes = picked ++ rest ∧
      plan.ids = picked.map (·.id) ∧ (plan.satisfied = false → rest = []) := by
  induction nodes generalizing need plan with
  | nil =>
    obtain rfl := Except.ok.inj h
    exact ⟨[], [], rfl, rfl, fun _ => rfl⟩
  | cons node nodes ih =>
    obtain ⟨freed, -, ⟨-, rfl⟩ | ⟨-, later, hlater, rfl⟩⟩ := drawDown_cons_eq_ok_iff.mp h
    · exact ⟨[node], nodes, rfl, rfl, by simp⟩
    · obtain ⟨picked, rest, rfl, hids, hall⟩ := ih hlater
      exact ⟨node :: picked, rest, rfl, congrArg _ hids, hall⟩

/-- Where the nodes can be accounted for, each candidate comes with what it frees. -/
theorem exists_drawDown {free : Node → Int} {nodes : List Node}
    (hfree : ∀ node ∈ nodes, s.free node = .ok (free node)) (need : Int) :
    ∃ picked satisfied, picked <+: nodes ∧
      drawDown s nodes need = .ok ⟨picked.map (candidate free), satisfied⟩ ∧
      (satisfied = false → picked = nodes) := by
  induction nodes generalizing need with
  | nil => exact ⟨[], false, List.prefix_rfl, rfl, fun _ => rfl⟩
  | cons node rest ih =>
    obtain ⟨hnode, hrest⟩ := List.forall_mem_cons.mp hfree
    rcases le_or_gt (Word.clamp (need - free node)) 0 with hmet | hleft
    · exact ⟨[node], true, ⟨rest, rfl⟩,
        drawDown_cons_eq_ok_iff.mpr ⟨_, hnode, .inl ⟨hmet, rfl⟩⟩, by simp⟩
    · obtain ⟨picked, satisfied, hfront, hdraw, hall⟩ := ih hrest (Word.clamp (need - free node))
      exact ⟨node :: picked, satisfied, (List.prefix_cons_inj node).mpr hfront,
        drawDown_cons_eq_ok_iff.mpr ⟨_, hnode, .inr ⟨hleft, _, hdraw, rfl⟩⟩,
        fun hsatisfied => congrArg _ (hall hsatisfied)⟩

/-- Candidates short of the last free less than the need, whatever is clamped on the way. -/
theorem drawDown_undershoots {nodes : List Node} {need : Int} {plan : UncordonPlan}
    (h : drawDown s nodes need = .ok plan) (hneed : 0 < need) {before after : List Candidate}
    {last : Candidate} (hplan : plan.candidates = before ++ last :: after) :
    (before.map (·.freed)).sum < need := by
  induction nodes generalizing need plan before with
  | nil =>
    obtain rfl := Except.ok.inj h
    exact absurd hplan.symm (by simp)
  | cons node rest ih =>
    cases before with
    | nil => simpa using hneed
    | cons first before =>
      obtain ⟨freed, -, ⟨-, rfl⟩ | ⟨hleft, later, hlater, rfl⟩⟩ := drawDown_cons_eq_ok_iff.mp h
      · exact absurd hplan.symm (by simp)
      · rw [List.cons_append, List.cons.injEq] at hplan
        obtain ⟨rfl, hplan⟩ := hplan
        have hless := ih hlater hleft hplan
        -- A need that is left after clamping was not raised by it.
        unfold Word.clamp Word.least at hless hleft
        show freed + (before.map (·.freed)).sum < need
        omega

/-- Where what remains after each front leaves room in the word, the need is said to be covered
exactly if the candidates cover it. -/
theorem drawDown_satisfied_iff {free : Node → Int} {nodes : List Node} {need : Int}
    {plan : UncordonPlan} (h : drawDown s nodes need = .ok plan)
    (hfree : ∀ node ∈ nodes, s.free node = .ok (free node)) (hneed : 0 < need)
    (hroom : ∀ front, front <+: nodes → need - (front.map free).sum ≤ Word.greatest) :
    plan.satisfied = true ↔ need ≤ (plan.candidates.map (·.freed)).sum := by
  induction nodes generalizing need plan with
  | nil =>
    obtain rfl := Except.ok.inj h
    simpa using hneed
  | cons node rest ih =>
    obtain ⟨hnode, hrest⟩ := List.forall_mem_cons.mp hfree
    have hfirst : need - free node ≤ Word.greatest := by simpa using hroom [node] ⟨rest, rfl⟩
    obtain ⟨freed, hfreed, hcases⟩ := drawDown_cons_eq_ok_iff.mp h
    obtain rfl := Except.ok.inj (hnode.symm.trans hfreed)
    rcases hcases with ⟨hmet, rfl⟩ | ⟨hleft, later, hlater, rfl⟩
    · have hcovered : need ≤ free node := by
        unfold Word.clamp at hmet
        omega
      simpa using hcovered
    · have hexact : Word.clamp (need - free node) = need - free node := by
        unfold Word.clamp Word.least at hleft ⊢
        omega
      rw [hexact] at hlater hleft
      have hfront : ∀ front, front <+: rest →
          need - free node - (front.map free).sum ≤ Word.greatest := by
        intro front hfront
        have hlonger := hroom (node :: front) ((List.prefix_cons_inj node).mpr hfront)
        rwa [List.map_cons, List.sum_cons, ← sub_sub] at hlonger
      show later.satisfied = true ↔ need ≤ free node + (later.candidates.map (·.freed)).sum
      rw [ih hlater hrest hleft hfront]
      omega

/-- The candidates are distinct cordoned nodes, and all of them when they do not suffice. -/
theorem pickToUncordon_ids {deficit : Int} {plan : UncordonPlan}
    (h : pickToUncordon block s deficit = .ok plan) (hdeficit : 0 < deficit) :
    ∃ picked rest, (picked ++ rest).Perm s.cordoned ∧
      plan.ids = picked.map (·.id) ∧ (plan.satisfied = false → rest = []) := by
  rw [pickToUncordon, if_neg (by omega)] at h
  obtain ⟨sorted, hsorted, h⟩ := bind_eq_ok_iff.mp h
  obtain ⟨picked, rest, rfl, hids, hall⟩ := drawDown_ids h
  exact ⟨picked, rest, byUse_perm hsorted, hids, hall⟩

/-- A deficit has a plan where what each cordoned node has free can be computed. -/
theorem exists_pickToUncordon_of_free
    (h : ∀ node ∈ s.cordoned, ∃ freed, s.free node = .ok freed) (deficit : Int) :
    ∃ plan, pickToUncordon block s deficit = .ok plan := by
  unfold pickToUncordon
  split
  · exact ⟨_, rfl⟩
  obtain ⟨sorted, hsorted⟩ : ∃ sorted, byUse s s.cordoned = .ok sorted := by
    refine exists_byUse fun node hnode => ?_
    obtain ⟨freed, hfreed⟩ := h node hnode
    obtain ⟨used, hused, -⟩ := bind_eq_ok_iff.mp hfreed
    exact ⟨used, hused⟩
  have hfree : ∀ node ∈ sorted, s.free node = .ok ((s.free node).toOption.getD 0) := by
    intro node hnode
    obtain ⟨freed, hfreed⟩ := h node ((byUse_perm hsorted).mem_iff.mp hnode)
    rw [hfreed]
    rfl
  obtain ⟨picked, satisfied, -, hdraw, -⟩ := exists_drawDown hfree (unitsOf block deficit)
  exact ⟨_, bind_eq_ok_iff.mpr ⟨sorted, hsorted, hdraw⟩⟩

/-- If no node lacks more than its load, all of them lack no more than their loads. -/
theorem neg_load_le_free {free : Node → Int} {load : Node → Nat} {nodes : List Node}
    (h : ∀ node ∈ nodes, -(load node : Int) ≤ free node) :
    -((nodes.map load).sum : Int) ≤ (nodes.map free).sum := by
  induction nodes with
  | nil => simp
  | cons node rest ih =>
    obtain ⟨hnode, hrest⟩ := List.forall_mem_cons.mp h
    have hsum := ih hrest
    rw [List.map_cons, List.map_cons, List.sum_cons, List.sum_cons, Nat.cast_add]
    omega

/-- While the deficit leaves room in the word, candidates that are said to cover it do. -/
theorem pickToUncordon_covers {deficit : Int} {plan : UncordonPlan} {free : Node → Int}
    {load : Node → Nat} (h : pickToUncordon block s deficit = .ok plan) (hdeficit : 0 < deficit)
    (hpos : 0 < unitsOf block deficit)
    (hfree : ∀ node ∈ s.cordoned, s.free node = .ok (free node) ∧ -(load node : Int) ≤ free node)
    (hroom : unitsOf block deficit + (s.cordoned.map load).sum ≤ Word.greatest)
    (hcovers : plan.satisfied = true) :
    ∃ picked : List Node, plan.ids = picked.map (·.id) ∧
      unitsOf block deficit ≤ (picked.map free).sum := by
  rw [pickToUncordon, if_neg (by omega)] at h
  obtain ⟨sorted, hsorted, hdraw⟩ := bind_eq_ok_iff.mp h
  have hperm := byUse_perm hsorted
  have hknown : ∀ node ∈ sorted, s.free node = .ok (free node) := fun node hnode =>
    (hfree node (hperm.mem_iff.mp hnode)).1
  have hfronts : ∀ front, front <+: sorted →
      unitsOf block deficit - (front.map free).sum ≤ Word.greatest := by
    intro front hfront
    have hlow := neg_load_le_free fun node hnode =>
      (hfree node (hperm.mem_iff.mp (hfront.subset hnode))).2
    have hload := State.sum_map_le_of_sublist load hfront.sublist
    rw [(hperm.map load).sum_eq] at hload
    omega
  obtain ⟨picked, satisfied, -, hresult, -⟩ := exists_drawDown hknown (unitsOf block deficit)
  obtain rfl := Except.ok.inj (hresult.symm.trans hdraw)
  have hcovered := (drawDown_satisfied_iff hresult hknown hpos hfronts).mp hcovers
  rw [sum_freed] at hcovered
  exact ⟨picked, List.map_map, hcovered⟩

/-- Nothing does not cover a deficit. -/
theorem uncordon_ne_nil {deficit : Int} {plan : UncordonPlan}
    (h : pickToUncordon block s deficit = .ok plan) (hdeficit : 0 < deficit)
    (hcovers : plan.satisfied = true) : plan.ids ≠ [] := by
  rw [pickToUncordon, if_neg (by omega)] at h
  obtain ⟨sorted, -, h⟩ := bind_eq_ok_iff.mp h
  cases sorted with
  | nil =>
    obtain rfl := Except.ok.inj h
    exact absurd hcovers Bool.false_ne_true
  | cons node rest =>
    obtain ⟨freed, -, ⟨-, rfl⟩ | ⟨-, later, -, rfl⟩⟩ := drawDown_cons_eq_ok_iff.mp h
    · exact List.cons_ne_nil _ _
    · exact List.cons_ne_nil _ _

theorem exists_of_mem_uncordon {deficit : Int} {plan : UncordonPlan} {id : String}
    (h : pickToUncordon block (state.snapshot rule) deficit = .ok plan) (hdeficit : 0 < deficit)
    (hid : id ∈ plan.ids) : ∃ node ∈ state.cordoned, node.id = id := by
  obtain ⟨picked, rest, hperm, hids, -⟩ := pickToUncordon_ids h hdeficit
  rw [hids, List.mem_map] at hid
  obtain ⟨node, hnode, rfl⟩ := hid
  obtain ⟨record, hrecord, rfl⟩ := State.exists_of_mem_cordoned_snapshot
    (hperm.mem_iff.mp (List.mem_append_left _ hnode))
  exact ⟨record, hrecord, rfl⟩

theorem nodup_uncordon (hd : state.Distinct) {deficit : Int} {plan : UncordonPlan}
    (h : pickToUncordon block (state.snapshot rule) deficit = .ok plan) (hdeficit : 0 < deficit) :
    plan.ids.Nodup := by
  obtain ⟨picked, rest, hperm, hids, -⟩ := pickToUncordon_ids h hdeficit
  have hnodup : ((picked ++ rest).map (·.id)).Nodup := by
    rw [((hperm.trans (state.cordoned_snapshot_perm rule)).map _).nodup_iff, List.map_map]
    exact hd.cordoned
  rw [List.map_append] at hnodup
  exact hids ▸ hnodup.of_append_left

theorem mem_uncordon_of_misses {deficit : Int} {plan : UncordonPlan} {node : NodeRecord}
    (h : pickToUncordon block (state.snapshot rule) deficit = .ok plan) (hdeficit : 0 < deficit)
    (hmisses : plan.satisfied = false) (hnode : node ∈ state.cordoned) : node.id ∈ plan.ids := by
  obtain ⟨picked, rest, hperm, hids, hall⟩ := pickToUncordon_ids h hdeficit
  obtain rfl := hall hmisses
  rw [List.append_nil] at hperm
  have hview := (hperm.trans (state.cordoned_snapshot_perm rule)).mem_iff.mpr
    (List.mem_map_of_mem hnode)
  rw [hids]
  exact List.mem_map_of_mem hview

/-! ### Adding nodes -/

theorem growthPlan_eq_some {deficit : Int} {plan : GrowthPlan}
    (h : growthPlan block s deficit = .ok (some plan)) :
    plan.current = s.schedulable.length ∧ ∃ capacity, s.capacityProxy? = some capacity ∧
      nodesToAdd block deficit capacity = .ok (some plan.add) := by
  unfold growthPlan at h
  cases hproxy : s.capacityProxy? with
  | none => simp [hproxy] at h
  | some capacity =>
    simp only [hproxy] at h
    obtain ⟨add, hadd, h⟩ := bind_eq_ok_iff.mp h
    obtain ⟨add, rfl, rfl⟩ := Option.map_eq_some_iff.mp (Except.ok.inj h)
    exact ⟨rfl, capacity, rfl, hadd⟩

/-- There is no plan only where no node gives a capacity to divide by. -/
theorem growthPlan_eq_none {deficit : Int} (h : growthPlan block s deficit = .ok none) :
    ∀ capacity, s.capacityProxy? = some capacity → divisor? capacity = none := by
  intro capacity hproxy
  unfold growthPlan at h
  simp only [hproxy] at h
  obtain ⟨add, hadd, h⟩ := bind_eq_ok_iff.mp h
  obtain rfl := Option.map_eq_none_iff.mp (Except.ok.inj h)
  exact nodesToAdd_eq_none_iff.mp hadd

/-! ### Cordoning -/

/-- How many nodes may be cordoned for a surplus. -/
def allowance (block : BlockSize) (s : Snapshot) (surplus : Int) : Nat :=
  ((s.capacityProxy?.bind divisor?).map fun c => (unitsOf block surplus / c).toNat).getD 0

theorem allowance_mono (hblock : block.raw.toNat < 2 ^ 63) {t : Snapshot}
    (hproxy : ∀ capacity, t.capacityProxy? = some capacity → s.capacityProxy? = some capacity)
    {fewer more : Int} (h : fewer ≤ more) : allowance block t fewer ≤ allowance block s more := by
  unfold allowance
  cases ht : t.capacityProxy? with
  | none => simp
  | some capacity =>
    rw [hproxy capacity ht]
    simp only [Option.bind_some]
    cases hdivisor : divisor? capacity with
    | none => simp
    | some c =>
      obtain ⟨hpos, -, rfl⟩ := divisor?_eq_some_iff.mp hdivisor
      exact Int.toNat_le_toNat (Int.ediv_le_ediv (by omega) (unitsOf_mono hblock h))

/-- The nodes picked are the first in their order. -/
theorem pickToCordon_eq (block : BlockSize) (s : Snapshot) (surplus : Int) :
    pickToCordon block s surplus =
      .ok (((byPodCount s s.nodes).take (allowance block s surplus)).map (·.id)) := by
  unfold pickToCordon allowance
  cases s.capacityProxy? with
  | none => simp
  | some capacity =>
    simp only [Option.bind_some, nodesToCordon_eq]
    cases divisor? capacity with
    | none => rfl
    | some c => rfl

/-- The nodes picked are the first in their order, and together hold no more than the surplus. -/
theorem pickToCordon_bound {surplus : Int} {ids : List String}
    (h : pickToCordon block s surplus = .ok ids) :
    ∃ count : Nat, ids = ((byPodCount s s.nodes).take count).map (·.id) ∧
      ∀ capacity, s.capacityProxy? = some capacity → 0 < count →
        count * (capacity.toNat : Int) ≤ unitsOf block surplus := by
  rw [pickToCordon_eq, Except.ok.injEq] at h
  refine ⟨_, h.symm, fun capacity hproxy hpos => ?_⟩
  simp only [allowance, hproxy, Option.bind_some] at hpos ⊢
  cases hdivisor : divisor? capacity with
  | none => simp [hdivisor] at hpos
  | some c =>
    obtain ⟨hcapacity, -, rfl⟩ := divisor?_eq_some_iff.mp hdivisor
    simp only [hdivisor, Option.map_some, Option.getD_some] at hpos ⊢
    rw [Int.toNat_of_nonneg (by omega)]
    exact Int.ediv_mul_le _ (by omega)

/-- The ids picked that are not those of cordoned nodes. -/
def openIds (s : Snapshot) (picked : List String) : List String :=
  picked.filter fun id => !(s.node? id).any (·.cordoned)

theorem node?_snapshot (hd : state.Distinct) {node : NodeRecord} (h : node ∈ state.nodes) :
    (state.snapshot rule).node? node.id = some node.view := by
  have hmem : ∀ view, view ∈ (state.snapshot rule).nodes ↔ ∃ record ∈ state.nodes,
      record.view = view := fun view => by
    rw [(state.nodes_snapshot_perm rule).mem_iff, List.mem_map]
  unfold Snapshot.node?
  cases hfind : (state.snapshot rule).nodes.find? (·.id == node.id) with
  | none =>
    have hnone := List.find?_eq_none.mp hfind node.view ((hmem _).mpr ⟨node, h, rfl⟩)
    simp at hnone
  | some view =>
    obtain ⟨record, hrecord, rfl⟩ := (hmem _).mp (List.mem_of_find?_eq_some hfind)
    have hid : record.id = node.id := by simpa using List.find?_some hfind
    rw [List.inj_on_of_nodup_map hd hrecord h hid]

/-- The nodes to be cordoned are open ones, each once. -/
theorem openIds_spec (hd : state.Distinct) {surplus : Int} {picked : List String}
    (h : pickToCordon block (state.snapshot rule) surplus = .ok picked) :
    (openIds (state.snapshot rule) picked).Nodup ∧
      ∀ id ∈ openIds (state.snapshot rule) picked, ∃ node ∈ state.schedulable, node.id = id := by
  obtain ⟨count, rfl, -⟩ := pickToCordon_bound h
  have hperm := (byPodCount_perm (state.snapshot rule) _).trans (state.nodes_snapshot_perm rule)
  have hnodup : ((byPodCount (state.snapshot rule) (state.snapshot rule).nodes).map
      (·.id)).Nodup := by
    rw [(hperm.map _).nodup_iff, List.map_map]
    exact hd
  refine ⟨(hnodup.sublist ((List.take_sublist _ _).map _)).filter _, fun id hid => ?_⟩
  obtain ⟨hpicked, hopen⟩ := List.mem_filter.mp hid
  obtain ⟨view, hview, rfl⟩ := List.mem_map.mp hpicked
  have hnode := hperm.mem_iff.mp (List.mem_of_mem_take hview)
  obtain ⟨record, hrecord, rfl⟩ := List.mem_map.mp hnode
  rw [NodeRecord.id_view, node?_snapshot hd hrecord] at hopen
  exact ⟨record, List.mem_filter.mpr ⟨hrecord, by simpa using hopen⟩, rfl⟩

end Headroom.Scaling
