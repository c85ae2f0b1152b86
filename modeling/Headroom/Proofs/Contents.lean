import Headroom.Proofs.Archive
import Headroom.Proofs.Encoding
import Headroom.Rehearsal

/-! A store is a pair of maps. What it holds is read off by a function, and each edit of the store
is the same edit of the maps, answers included; so after any edits a listing shows what the maps
hold, in the order of the keys. -/

namespace Headroom

namespace Cluster

open Rehearsal (Answer Step World perform)

/-- A node under each of some ids, and a pod under each of some keys. -/
structure Contents where
  nodes : String → Option NodeRecord := fun _ => none
  pods : String → Option PodRecord := fun _ => none

/-- What a store holds. -/
def Store.contents (store : Store) : Contents := ⟨store.nodes.find?, store.pods.find?⟩

namespace Contents

/-- The contents with the image of a node under `f`. What is not there stays away. -/
def updateNode (contents : Contents) (id : String) (f : NodeRecord → NodeRecord) : Contents :=
  { contents with nodes := Function.update contents.nodes id ((contents.nodes id).map f) }

/-- The contents that an edit leaves. A state replaces all, and of its records of one key the last
counts. -/
def apply : Edit → Contents → Contents
  | .loadState state, _ => {
      nodes id := state.nodes.reverse.find? (·.id == id)
      pods key := state.pods.reverse.find? (·.key == key) }
  | .putNode node, contents =>
    { contents with nodes := Function.update contents.nodes node.id (some node) }
  | .putPod pod, contents =>
    { contents with pods := Function.update contents.pods pod.key (some pod) }
  | .removeNode id, contents => {
      nodes := Function.update contents.nodes id none
      pods key := (contents.pods key).filter (·.nodeId != some id) }
  | .removePod key, contents => { contents with pods := Function.update contents.pods key none }
  | .cordon id t, contents => contents.updateNode id (·.cordon t)
  | .uncordon id, contents => contents.updateNode id NodeRecord.uncordon

/-- The contents after edits, one after the other. -/
def applyAll (edits : List Edit) (contents : Contents) : Contents :=
  edits.foldl (fun contents edit => contents.apply edit) contents

/-- What an edit of these contents answers. -/
def answer (contents : Contents) : Edit → Answer
  | .removeNode id => .found (contents.nodes id).isSome
  | .removePod key => .found (contents.pods key).isSome
  | .cordon id _ | .uncordon id =>
    if (contents.nodes id).isSome then .done else .clusterError (.nodeNotFound id)
  | _ => .done

end Contents

/-! ### One edit -/

theorem Store.contents_updateNode (store : Store) {id : String} {f : NodeRecord → NodeRecord}
    (hf : ∀ node, (f node).id = node.id) :
    ((store.updateNode id f).toOption.getD store).contents = store.contents.updateNode id f := by
  unfold Store.updateNode Contents.updateNode
  have hfind : store.contents.nodes id = store.node? id := rfl
  rw [hfind]
  cases hnode : store.node? id with
  | none =>
    rw [Option.map_none, Function.update_eq_self_iff.mpr hnode.symm]
    rfl
  | some node =>
    have hid : (f node).id = id := (hf node).trans (Table.find?_eq_some_iff.mp hnode).2
    show (⟨(store.nodes.insert (f node)).find?, _⟩ : Contents) = _
    rw [Table.find?_insert_eq_update, hid]
    rfl

/-- An edit does to the contents of a store what it does to the store. -/
theorem Store.contents_apply (edit : Edit) (store : Store) :
    (edit.apply store).contents = store.contents.apply edit := by
  cases edit with
  | loadState state =>
    show (⟨(Table.ofList state.nodes).find?, (Table.ofList state.pods).find?⟩ : Contents) = _
    rw [funext (Table.find?_ofList state.nodes), funext (Table.find?_ofList state.pods)]
    rfl
  | putNode node =>
    show (⟨(store.nodes.insert node).find?, _⟩ : Contents) = _
    rw [Table.find?_insert_eq_update]
    rfl
  | putPod pod =>
    show (⟨_, (store.pods.insert pod).find?⟩ : Contents) = _
    rw [Table.find?_insert_eq_update]
    rfl
  | removeNode id =>
    show (⟨(store.nodes.erase id).find?, (store.pods.filter _).find?⟩ : Contents) = _
    rw [Table.find?_erase_eq_update, funext (Table.find?_filter store.pods _)]
    rfl
  | removePod key =>
    show (⟨_, (store.pods.erase key).find?⟩ : Contents) = _
    rw [Table.find?_erase_eq_update]
    rfl
  | cordon id t => exact store.contents_updateNode (NodeRecord.id_cordon · t)
  | uncordon id => exact store.contents_updateNode NodeRecord.id_uncordon

/-- The step of a rehearsal that makes an edit. -/
def Edit.step : Edit → Step
  | .loadState state => .loadState state
  | .putNode node => .putNode node
  | .putPod pod => .putPod pod
  | .removeNode id => .removeNode id
  | .removePod key => .removePod key
  | .cordon id t => .cordon id t
  | .uncordon id => .uncordon id

variable (backend : Scaling.Backend World) (config : Scaling.Config)

theorem perform_updateNode (world : World) {id : String} {f : NodeRecord → NodeRecord} :
    Rehearsal.change world (world.store.updateNode id f) =
      (if (world.store.contents.nodes id).isSome then .done else .clusterError (.nodeNotFound id),
        { world with store := (world.store.updateNode id f).toOption.getD world.store }) := by
  unfold Store.updateNode
  have hfind : world.store.contents.nodes id = world.store.node? id := rfl
  rw [hfind]
  cases world.store.node? id <;> rfl

/-- A step that makes an edit answers as the contents do, and leaves what the edit leaves. -/
theorem perform_step (edit : Edit) (world : World) : perform backend config edit.step world =
    (world.store.contents.answer edit, { world with store := edit.apply world.store }) := by
  cases edit with
  | cordon id t => exact perform_updateNode world
  | uncordon id => exact perform_updateNode world
  | _ => rfl

/-- An edit that fails leaves the store as it was. -/
theorem Store.apply_of_error {edit : Edit} {store : Store} {error : Error}
    (h : store.contents.answer edit = .clusterError error) : edit.apply store = store := by
  have habsent : ∀ {id : String} {f : NodeRecord → NodeRecord},
      (if (store.contents.nodes id).isSome then Answer.done
        else .clusterError (.nodeNotFound id)) = .clusterError error →
      (store.updateNode id f).toOption.getD store = store := by
    intro id f h
    split at h
    · exact nomatch h
    · rename_i hnode
      have hnone : store.node? id = none := Option.not_isSome_iff_eq_none.mp hnode
      rw [Store.updateNode, hnone]
      rfl
  cases edit with
  | cordon id t => exact habsent h
  | uncordon id => exact habsent h
  | loadState | putNode | putPod | removeNode | removePod => exact nomatch h

/-! ### Many edits -/

/-- The world of a rehearsal after edits, one step for each. -/
def rehearse (edits : List Edit) (world : World) : World :=
  edits.foldl (fun world edit => (perform backend config edit.step world).2) world

theorem rehearse_eq (edits : List Edit) (world : World) : rehearse backend config edits world =
    { world with store := Edit.applyAll edits world.store } := by
  induction edits generalizing world with
  | nil => rfl
  | cons edit rest ih =>
    show rehearse backend config rest (perform backend config edit.step world).2 = _
    rw [ih, perform_step]
    rfl

theorem Store.contents_applyAll (edits : List Edit) (store : Store) :
    (Edit.applyAll edits store).contents = store.contents.applyAll edits := by
  induction edits generalizing store with
  | nil => rfl
  | cons edit rest ih =>
    show (Edit.applyAll rest (edit.apply store)).contents = _
    rw [ih, Store.contents_apply]
    rfl

end Cluster

end Headroom
