import Headroom.Proofs.Reaping

/-! Edits of a store from outside. A pod is kept under its namespace and its name, joined by a
slash. As long as no namespace holds a slash itself, the joined text tells which pod it is, so no
pod takes the place of another; with a slash in a namespace one may, and then it is lost. -/

namespace Headroom

namespace Cluster

def PodRecord.Same (pod other : PodRecord) : Prop :=
  pod.space = other.space ∧ pod.name = other.name

/-- The namespace of the pod holds no slash. -/
def PodRecord.Plain (pod : PodRecord) : Prop := '/' ∉ pod.space.toList

instance (pod other : PodRecord) : Decidable (pod.Same other) := inferInstanceAs (Decidable (_ ∧ _))

instance (pod : PodRecord) : Decidable pod.Plain := inferInstanceAs (Decidable (¬ _))

theorem takeWhile_joined {space : List Char} (h : '/' ∉ space) (name : List Char) :
    (space ++ '/' :: name).takeWhile (· ≠ '/') = space := by
  have hspace : ∀ c ∈ space, (decide (c ≠ '/')) = true := by
    intro c hc
    have hne : c ≠ '/' := fun heq => h (heq ▸ hc)
    simpa using hne
  rw [List.takeWhile_append_of_pos hspace]
  simp

/-- Where the namespaces hold no slash, the first slash of a key is the one that was put in. -/
theorem PodRecord.same_of_key_eq {pod other : PodRecord} (hpod : pod.Plain) (hother : other.Plain)
    (h : pod.key = other.key) : pod.Same other := by
  have hkeys : pod.space.toList ++ '/' :: pod.name.toList =
      other.space.toList ++ '/' :: other.name.toList := by
    simpa [key] using congrArg String.toList h
  have hspace : pod.space.toList = other.space.toList := by
    rw [← takeWhile_joined hpod pod.name.toList, hkeys, takeWhile_joined hother]
  rw [hspace, List.append_right_inj, List.cons.injEq] at hkeys
  exact ⟨String.toList_inj.mp hspace, String.toList_inj.mp hkeys.2⟩

/-- A change of a store that is asked for from outside. -/
inductive Edit where
  | loadState (state : State)
  | putNode (node : NodeRecord)
  | putPod (pod : PodRecord)
  | removeNode (id : String)
  | removePod (key : String)
  | cordon (id : String) (at_ : Instant)
  | uncordon (id : String)

namespace Edit

/-- The store that an edit leaves. One that fails leaves it as it is. -/
def apply : Edit → Store → Store
  | .loadState state, _ => .ofState state
  | .putNode node, store => store.putNode node
  | .putPod pod, store => store.putPod pod
  | .removeNode id, store => (store.removeNode id).2
  | .removePod key, store => (store.removePod key).2
  | .cordon id t, store => (store.cordon id t).toOption.getD store
  | .uncordon id, store => (store.uncordon id).toOption.getD store

/-- The store that edits leave, one after the other. -/
def applyAll (edits : List Edit) (store : Store) : Store :=
  edits.foldl (fun store edit => edit.apply store) store

/-- The pods that an edit writes, in their order. -/
def pods : Edit → List PodRecord
  | .loadState state => state.pods
  | .putPod pod => [pod]
  | _ => []

/-- The edit writes the pod, and no other of its namespace and name after it. -/
def Writes (edit : Edit) (pod : PodRecord) : Prop :=
  ∃ earlier later, edit.pods = earlier ++ pod :: later ∧ ∀ other ∈ later, ¬ other.Same pod

/-- The edit does not replace the pod with all others, does not overwrite it with one of its
namespace and name, and deletes neither the pod nor the node that it is bound to. -/
def Spares (pod : PodRecord) : Edit → Prop
  | .loadState _ => False
  | .putPod other => ¬ other.Same pod
  | .removeNode id => pod.nodeId ≠ some id
  | .removePod key => key ≠ pod.key
  | _ => True

variable {edit : Edit} {pod : PodRecord} {store : Store}

def Plain (edit : Edit) : Prop := ∀ pod ∈ edit.pods, pod.Plain

theorem pods_updateNode {id : String} {f : NodeRecord → NodeRecord}
    (hf : ∀ node, (f node).id = node.id) :
    ((store.updateNode id f).toOption.getD store).pods = store.pods := by
  rcases h : store.updateNode id f with error | after
  · rfl
  · obtain ⟨-, rfl⟩ := (Store.updateNode_eq_ok_iff hf).mp h
    rfl

theorem Writes.mem_pods (h : edit.Writes pod) : pod ∈ edit.pods := by
  obtain ⟨earlier, later, hpods, -⟩ := h
  rw [hpods]
  exact List.mem_append_right _ List.mem_cons_self

theorem Writes.mem_apply (h : edit.Writes pod) (hplain : edit.Plain) :
    pod ∈ (edit.apply store).pods.rows := by
  obtain ⟨earlier, later, hpods, hlater⟩ := h
  cases edit with
  | loadState state =>
    refine Table.mem_ofList.mpr ⟨earlier, later, hpods, fun other hother heq => ?_⟩
    have hmem : ∀ p ∈ pod :: later, p ∈ (loadState state).pods := fun p hp =>
      hpods ▸ List.mem_append_right _ hp
    have hotherPlain := hplain other (hmem other (List.mem_cons_of_mem _ hother))
    have hpodPlain := hplain pod (hmem pod List.mem_cons_self)
    exact hlater other hother (PodRecord.same_of_key_eq hotherPlain hpodPlain heq)
  | putPod written =>
    have hmem : pod ∈ [written] := by
      rw [show [written] = _ from hpods]
      exact List.mem_append_right _ List.mem_cons_self
    obtain rfl := List.mem_singleton.mp hmem
    exact Table.mem_insert.mpr (.inl rfl)
  | putNode node => simp [pods] at hpods
  | removeNode id => simp [pods] at hpods
  | removePod key => simp [pods] at hpods
  | cordon id t => simp [pods] at hpods
  | uncordon id => simp [pods] at hpods

theorem Spares.mem_apply (h : edit.Spares pod) (hpod : pod.Plain) (hplain : edit.Plain)
    (hmem : pod ∈ store.pods.rows) : pod ∈ (edit.apply store).pods.rows := by
  cases edit with
  | loadState state => exact h.elim
  | putNode node => exact hmem
  | putPod other =>
    refine Table.mem_insert.mpr (.inr ⟨hmem, fun heq => ?_⟩)
    exact h (PodRecord.same_of_key_eq (hplain other List.mem_cons_self) hpod heq.symm)
  | removeNode id =>
    have hkept : (pod.nodeId != some id) = true := by simpa [Edit.Spares] using h
    exact Table.mem_filter.mpr ⟨hmem, hkept⟩
  | removePod key => exact Table.mem_erase.mpr ⟨hmem, fun heq => h heq.symm⟩
  | cordon id t =>
    show pod ∈ ((store.updateNode id _).toOption.getD store).pods.rows
    rwa [pods_updateNode (NodeRecord.id_cordon · t)]
  | uncordon id =>
    show pod ∈ ((store.updateNode id _).toOption.getD store).pods.rows
    rwa [pods_updateNode NodeRecord.id_uncordon]

theorem mem_applyAll {edits : List Edit} (h : ∀ edit ∈ edits, edit.Spares pod) (hpod : pod.Plain)
    (hplain : ∀ edit ∈ edits, edit.Plain) (hmem : pod ∈ store.pods.rows) :
    pod ∈ (applyAll edits store).pods.rows := by
  induction edits generalizing store with
  | nil => exact hmem
  | cons edit rest ih =>
    obtain ⟨hedit, hrest⟩ := List.forall_mem_cons.mp h
    obtain ⟨heditPlain, hrestPlain⟩ := List.forall_mem_cons.mp hplain
    exact ih hrest hrestPlain (hedit.mem_apply hpod heditPlain hmem)

end Edit

end Cluster

namespace Scaling

open Cluster (Edit NodeRecord PodRecord Protection State Store)

theorem not_reapable {config : Config} {store : Store} {now : Instant} {node : NodeRecord}
    {pod : PodRecord} (hpod : pod ∈ store.pods.rows) (hbound : pod.nodeId = some node.id)
    (hprotected : config.protection.protects pod = true) : ¬ Reapable config store now node := by
  intro h
  exact h.unprotected pod hpod hbound (by simpa [Protection.protects] using hprotected)

/-- Let no namespace that is written hold a slash. A pod that an edit writes is listed as it was
written for as long as the edits that follow spare it. If the pods of a state differ in their
namespaces or names, loading the state keeps exactly these pods, and a node that a protected one is
bound to may not be deleted. -/
theorem written_stays (store : Store) :
    (∀ (edit : Edit) later pod, edit.Writes pod → (∀ e ∈ later, e.Spares pod) →
      (∀ e ∈ edit :: later, e.Plain) →
      pod ∈ (Edit.applyAll (edit :: later) store).state.pods) ∧
    ∀ state : State, (∀ pod ∈ state.pods, pod.Plain) →
      (state.pods.map fun pod => (pod.space, pod.name)).Nodup →
      (Edit.apply (.loadState state) store).state.pods.Perm state.pods ∧
      ∀ config now node, ∀ pod ∈ state.pods, pod.nodeId = some node.id →
        config.protection.protects pod = true →
        ¬ Reapable config (Edit.apply (.loadState state) store) now node := by
  constructor
  · intro edit later pod hwrites hspares hplain
    obtain ⟨hedit, hlater⟩ := List.forall_mem_cons.mp hplain
    have hpod := hedit pod hwrites.mem_pods
    show pod ∈ (Edit.applyAll later (edit.apply store)).pods.rows
    exact Edit.mem_applyAll hspares hpod hlater (hwrites.mem_apply hedit)
  · intro state hplain hdistinct
    have hkeys : (state.pods.map PodRecord.key).Nodup := by
      refine List.Nodup.map_on (fun pod hpod other hother heq => ?_) hdistinct.of_map
      obtain ⟨hspace, hname⟩ :=
        PodRecord.same_of_key_eq (hplain pod hpod) (hplain other hother) heq
      exact List.inj_on_of_nodup_map hdistinct hpod hother (Prod.ext hspace hname)
    have hperm : (Edit.apply (.loadState state) store).state.pods.Perm state.pods :=
      Table.ofList_perm hkeys
    refine ⟨hperm, fun config now node pod hpod hbound hprotected => ?_⟩
    exact not_reapable (hperm.mem_iff.mpr hpod) hbound hprotected

def guard (space name : String) : PodRecord :=
  { space, name, nodeId := some "n", labels := .ofList [("sessions", "game")] }

/-- An open node, a node that was cordoned long ago, and some pods. -/
def guardedState (pods : List PodRecord) : State where
  nodes := [
    { id := "m", capacity := some 1000 },
    { id := "n", capacity := some 1000, unschedulable := true,
      annotations := .ofList [(Cluster.cordonKey, "2023-01-01T00:00:00Z")] }]
  pods := pods

def guest (space name : String) : PodRecord := { space, name, nodeId := some "m" }

theorem written_stays_guarded :
    guard "games" "match" ∈ (Edit.applyAll [.loadState (guardedState [guard "games" "match"]),
      .putPod (guest "games" "next"), .removeNode "m"] {}).state.pods ∧
    ∀ now node, node.id = "n" → ¬ Reapable smallConfig
      (Edit.apply (.loadState (guardedState [guard "games" "match", guest "games" "next"])) {})
      now node := by
  obtain ⟨hstays, hloads⟩ := written_stays {}
  constructor
  · refine hstays _ _ _ ⟨[], [], rfl, by simp⟩ ?_ ?_
    · simp [Edit.Spares, PodRecord.Same, guard, guest]
    · simp [Edit.Plain, Edit.pods, PodRecord.Plain, guardedState, guard, guest]
  · intro now node hid
    refine (hloads _ (by decide) (by decide)).2 smallConfig now node (guard "games" "match")
      (by decide) ?_ (by decide)
    rw [hid]
    rfl

set_option maxRecDepth 10000 in
/-- Two pods of different namespaces are kept under one key: the second takes the place of the
first, which was protected, and the node of the first is deleted. -/
theorem displaced_by_slash :
    (Edit.Writes (.loadState (guardedState [guard "a/b" "c"])) (guard "a/b" "c") ∧
      Edit.Spares (guard "a/b" "c") (.putPod (guest "a" "b/c")) ∧
      guard "a/b" "c" ∉ (Edit.applyAll [.loadState (guardedState [guard "a/b" "c"]),
        .putPod (guest "a" "b/c")] {}).state.pods) ∧
    ((guardedState [guard "a/b" "c", guest "a" "b/c"]).pods.map
      fun pod => (pod.space, pod.name)).Nodup ∧
    ((tick { smallConfig with target := 10, target_le := by decide } smallNow).run
      (NodeShape.backend {}) (Edit.apply (.loadState
        (guardedState [guard "a/b" "c", guest "a" "b/c"])) {})).1 =
      .ok ⟨10, 10, .unchanged, ["n"]⟩ := by
  refine ⟨⟨⟨[], [], rfl, by simp⟩, ?_, by decide⟩, by decide, by cbv⟩
  rintro ⟨hspace, -⟩
  exact absurd hspace (by decide)

end Scaling

end Headroom
