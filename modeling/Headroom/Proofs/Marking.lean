import Headroom.Proofs.Contents
import Headroom.Proofs.History

/-! Nodes that are barred and opened again, in any order and as often as one likes. A node keeps the
time at which it was barred first, until it is opened; nothing but the mark of a node ever changes,
and no other node. -/

namespace Headroom.Cluster

open Rehearsal (Answer World perform)

/-- What a call does to the node that it names: bar it at a time, or open it. -/
inductive Mark where
  | cordon (at_ : Instant)
  | uncordon
  deriving DecidableEq

namespace Mark

/-- The edit that puts a mark on the node of an id. -/
def edit (id : String) : Mark → Edit
  | .cordon t => .cordon id t
  | .uncordon => .uncordon id

/-- What a mark makes of a node. -/
def apply : Mark → NodeRecord → NodeRecord
  | .cordon t, node => node.cordon t
  | .uncordon, node => node.uncordon

end Mark

/-- The marks that calls put on the node of an id, in their order. -/
def marksOn (id : String) (calls : List (String × Mark)) : List Mark :=
  calls.filterMap fun call => if call.1 = id then some call.2 else none

namespace NodeRecord

/-- Another node is the same but for what a mark may change: the flag and the time of cordoning. -/
structure SameButMark (node other : NodeRecord) : Prop where
  id : other.id = node.id
  capacity : other.capacity = node.capacity
  labels : other.labels = node.labels
  annotations : ∀ key ≠ cordonKey, other.annotations.get? key = node.annotations.get? key

variable {node other : NodeRecord}

theorem SameButMark.refl (node : NodeRecord) : node.SameButMark node :=
  ⟨rfl, rfl, rfl, fun _ _ => rfl⟩

theorem SameButMark.trans {third : NodeRecord} (h : node.SameButMark other)
    (h' : other.SameButMark third) : node.SameButMark third where
  id := h'.id.trans h.id
  capacity := h'.capacity.trans h.capacity
  labels := h'.labels.trans h.labels
  annotations key hkey := (h'.annotations key hkey).trans (h.annotations key hkey)

theorem sameButMark_apply (mark : Mark) (node : NodeRecord) :
    node.SameButMark (mark.apply node) := by
  cases mark with
  | uncordon =>
    exact ⟨rfl, rfl, rfl, fun key hkey => Dictionary.get?_erase_of_ne _ hkey⟩
  | cordon t =>
    show node.SameButMark (node.cordon t)
    unfold NodeRecord.cordon
    split
    · exact .refl node
    · exact ⟨rfl, rfl, rfl, fun key hkey => Dictionary.get?_put_of_ne _ _ hkey⟩

/-- The time that a node carries once it is barred: its own if it was barred with one, else now. -/
theorem get?_cordon_eq (node : NodeRecord) (t : Instant) :
    (node.cordon t).annotations.get? cordonKey = some (if node.unschedulable
      then (node.annotations.get? cordonKey).getD (Rfc3339.print .stamp t)
      else Rfc3339.print .stamp t) := by
  cases hkeeps : node.unschedulable && node.annotations.contains cordonKey with
  | true =>
    obtain ⟨hbarred, hcarried⟩ := Bool.and_eq_true_iff.mp hkeeps
    rw [Dictionary.contains_eq_isSome] at hcarried
    obtain ⟨stamp, hstamp⟩ := Option.isSome_iff_exists.mp hcarried
    rw [show node.cordon t = node by simp [NodeRecord.cordon, hkeeps], hbarred, if_pos rfl, hstamp,
      Option.getD_some]
  | false =>
    rw [get?_cordon hkeeps]
    split
    · rename_i hbarred
      rw [hbarred, Bool.true_and, Dictionary.contains_eq_isSome] at hkeeps
      have hnone : node.annotations.get? cordonKey = none := by simpa using hkeeps
      rw [hnone, Option.getD_none]
    · rfl

/-- A node after marks, one after the other. -/
def markAll (node : NodeRecord) (marks : List Mark) : NodeRecord :=
  marks.foldl (fun node mark => mark.apply node) node

theorem sameButMark_markAll (marks : List Mark) (node : NodeRecord) :
    node.SameButMark (node.markAll marks) := by
  induction marks generalizing node with
  | nil => exact .refl node
  | cons mark rest ih => exact (sameButMark_apply mark node).trans (ih (mark.apply node))

theorem markAll_append (node : NodeRecord) (marks more : List Mark) :
    node.markAll (marks ++ more) = (node.markAll marks).markAll more :=
  List.foldl_append

/-- To bar a node again is in vain. -/
theorem markAll_cordons (node : NodeRecord) (first : Instant) (later : List Instant) :
    node.markAll (.cordon first :: later.map .cordon) = node.cordon first := by
  show (node.cordon first).markAll (later.map .cordon) = _
  induction later with
  | nil => rfl
  | cons t rest ih =>
    show ((node.cordon first).cordon t).markAll (rest.map .cordon) = _
    rw [cordon_cordon, ih]

end NodeRecord

/-! ### Many calls -/

/-- The edits that calls make. -/
def editsOf (calls : List (String × Mark)) : List Edit := calls.map fun call => call.2.edit call.1

theorem Contents.apply_edit (id : String) (mark : Mark) (contents : Contents) :
    contents.apply (mark.edit id) = contents.updateNode id mark.apply := by
  cases mark <;> rfl

/-- What calls leave of a node is what the calls that name it leave. -/
theorem Contents.nodes_applyAll_edits (calls : List (String × Mark)) (contents : Contents)
    (id : String) : (contents.applyAll (editsOf calls)).nodes id =
      (contents.nodes id).map (·.markAll (marksOn id calls)) := by
  induction calls generalizing contents with
  | nil => exact Option.map_id'.symm
  | cons call rest ih =>
    obtain ⟨named, mark⟩ := call
    show ((contents.apply (mark.edit named)).applyAll (editsOf rest)).nodes id = _
    rw [ih, apply_edit]
    simp only [updateNode, marksOn, List.filterMap_cons]
    by_cases hid : named = id
    · subst hid
      rw [Function.update_self, Option.map_map, if_pos rfl]
      rfl
    · rw [Function.update_of_ne (Ne.symm hid), if_neg hid]

theorem Edit.pods_applyAll_edits (calls : List (String × Mark)) (store : Store) :
    (Edit.applyAll (editsOf calls) store).pods = store.pods := by
  induction calls generalizing store with
  | nil => rfl
  | cons call rest ih =>
    obtain ⟨named, mark⟩ := call
    refine (ih ((mark.edit named).apply store)).trans ?_
    cases mark with
    | cordon t => exact pods_updateNode (NodeRecord.id_cordon · t)
    | uncordon => exact pods_updateNode NodeRecord.id_uncordon

variable (backend : Scaling.Backend World) (config : Scaling.Config)

theorem node?_rehearse (world : World) (calls : List (String × Mark)) (id : String) :
    (rehearse backend config (editsOf calls) world).store.node? id =
      (world.store.node? id).map (·.markAll (marksOn id calls)) := by
  have hnodes := Contents.nodes_applyAll_edits calls world.store.contents id
  rw [← Store.contents_applyAll] at hnodes
  rw [rehearse_eq]
  exact hnodes

theorem answer_perform (world : World) (id : String) (mark : Mark) :
    (perform backend config (mark.edit id).step world).1 =
      if (world.store.node? id).isSome then .done else .clusterError (.nodeNotFound id) := by
  rw [perform_step]
  cases mark <;> rfl

/-- A call that names no node changes nothing. -/
theorem perform_of_absent {world : World} {id : String} (h : world.store.node? id = none)
    (mark : Mark) : perform backend config (mark.edit id).step world =
      (.clusterError (.nodeNotFound id), world) := by
  have hfails := answer_perform backend config world id mark
  rw [h, Option.isSome_none, if_neg Bool.false_ne_true] at hfails
  refine Prod.ext hfails ?_
  rw [perform_step] at hfails ⊢
  exact congrArg (fun store => { world with store }) (Store.apply_of_error hfails)

/-- Let nodes be barred and opened by calls in any order, on any ids. No pod changes. Under an id
that no node has none appears, and a call that names it answers so and changes nothing. A node stays
the same but for its mark, which depends on nothing but the calls that name the node. If the last of
these opens it, it is open and carries no time. If they bar it after it was opened, it is barred and
carries the time of the first call since then. If they only bar it, it carries the time that it was
barred with at the start, or that of the first call if it was open or carried none. -/
theorem first_cordon_stays (world : World) (calls : List (String × Mark)) :
    let after := rehearse backend config (editsOf calls) world
    after.store.pods = world.store.pods ∧
    (∀ id, world.store.node? id = none → after.store.node? id = none ∧
      ∀ mark : Mark, perform backend config (mark.edit id).step after =
        (.clusterError (.nodeNotFound id), after)) ∧
    ∀ id node, world.store.node? id = some node →
      ∃ final, after.store.node? id = some final ∧ node.SameButMark final ∧
      (∀ mark : Mark, (perform backend config (mark.edit id).step after).1 = .done) ∧
      (∀ (other : World) others, other.store.node? id = some node →
        marksOn id others = marksOn id calls →
        (rehearse backend config (editsOf others) other).store.node? id = some final) ∧
      (marksOn id calls = [] → final = node) ∧
      (∀ earlier, marksOn id calls = earlier ++ [.uncordon] →
        final.unschedulable = false ∧ final.annotations.get? cordonKey = none) ∧
      (∀ earlier first (later : List Instant),
        marksOn id calls = earlier ++ .uncordon :: .cordon first :: later.map .cordon →
        final.unschedulable = true ∧
          final.annotations.get? cordonKey = some (Rfc3339.print .stamp first)) ∧
      ∀ first (later : List Instant), marksOn id calls = .cordon first :: later.map .cordon →
        final.unschedulable = true ∧ final.annotations.get? cordonKey =
          some (if node.unschedulable
            then (node.annotations.get? cordonKey).getD (Rfc3339.print .stamp first)
            else Rfc3339.print .stamp first) := by
  intro after
  have hnode : ∀ id, after.store.node? id =
      (world.store.node? id).map (·.markAll (marksOn id calls)) :=
    node?_rehearse backend config world calls
  refine ⟨?_, fun id habsent => ?_, fun id node hthere => ?_⟩
  · show (rehearse backend config (editsOf calls) world).store.pods = _
    rw [rehearse_eq]
    exact Edit.pods_applyAll_edits calls world.store
  · have hgone : after.store.node? id = none := by rw [hnode, habsent, Option.map_none]
    exact ⟨hgone, perform_of_absent backend config hgone⟩
  · have hfinal : after.store.node? id = some (node.markAll (marksOn id calls)) := by
      rw [hnode, hthere, Option.map_some]
    refine ⟨_, hfinal, node.sameButMark_markAll _, fun mark => ?_,
      fun other others hother hmarks => ?_, fun hnone => ?_, fun earlier hmarks => ?_,
      fun earlier first later hmarks => ?_, fun first later hmarks => ?_⟩
    · rw [answer_perform, hfinal]
      rfl
    · rw [node?_rehearse, hother, hmarks, Option.map_some]
    · rw [hnone]
      rfl
    · rw [hmarks, NodeRecord.markAll_append]
      exact ⟨rfl, Dictionary.get?_erase _ _⟩
    · have hmarked : node.markAll (marksOn id calls) =
          (node.markAll earlier).uncordon.cordon first := by
        rw [hmarks, NodeRecord.markAll_append]
        exact NodeRecord.markAll_cordons (node.markAll earlier).uncordon first later
      rw [hmarked, NodeRecord.get?_cordon_eq]
      exact ⟨NodeRecord.unschedulable_cordon _ _, rfl⟩
    · rw [hmarks, NodeRecord.markAll_cordons, NodeRecord.get?_cordon_eq]
      exact ⟨NodeRecord.unschedulable_cordon _ _, rfl⟩

/-- The small pool, where a and c are open and b is barred. -/
def smallWorld : World := { store := Scaling.smallStore, now := Scaling.smallNow }

/-- The barred node is barred again, an open one is barred, opened and barred twice, and one call
names no node. -/
def mixedCalls : List (String × Mark) := [
  ("c", .cordon Scaling.smallNow),
  ("b", .cordon Scaling.smallNow),
  ("x", .uncordon),
  ("c", .uncordon),
  ("c", .cordon .latest),
  ("b", .cordon .latest),
  ("c", .cordon Scaling.smallNow)]

theorem first_cordon_stays_mixed :
    let backend := Rehearsal.backend (Scaling.NodeShape.backend {})
    let after := rehearse backend Scaling.smallConfig (editsOf mixedCalls) smallWorld
    marksOn "b" mixedCalls = [.cordon Scaling.smallNow, .cordon .latest] ∧
    (∃ final, after.store.node? "b" = some final ∧ final.unschedulable = true ∧
      final.annotations.get? cordonKey = some "2023-01-01T00:00:00Z") ∧
    marksOn "c" mixedCalls =
      [.cordon Scaling.smallNow, .uncordon, .cordon .latest, .cordon Scaling.smallNow] ∧
    (∃ final, after.store.node? "c" = some final ∧ final.unschedulable = true ∧
      final.annotations.get? cordonKey = some (Rfc3339.print .stamp .latest)) ∧
    smallWorld.store.node? "x" = none ∧ perform backend Scaling.smallConfig (.uncordon "x") after =
      (.clusterError (.nodeNotFound "x"), after) := by
  intro backend after
  obtain ⟨-, habsent, hthere⟩ :=
    first_cordon_stays backend Scaling.smallConfig smallWorld mixedCalls
  obtain ⟨b, hb, -, -, -, -, -, -, hbarred⟩ := hthere "b" _ rfl
  obtain ⟨c, hc, -, -, -, -, -, hreopened, -⟩ := hthere "c" _ rfl
  exact ⟨rfl, ⟨b, hb, hbarred Scaling.smallNow [.latest] rfl⟩, rfl,
    ⟨c, hc, hreopened [.cordon Scaling.smallNow] .latest [Scaling.smallNow] rfl⟩, rfl,
    (habsent "x" rfl).2 .uncordon⟩

end Headroom.Cluster
