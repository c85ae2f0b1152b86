import Headroom.Proofs.Course
import Headroom.Proofs.Likeness
import Headroom.Proofs.Reaping

/-! Two runs side by side. Procedures are parallel when, shown listings that agree but for
annotations and labels, they make the same moves; followed in stores that agree so, they end alike
and leave stores that agree. The scaling part of a reconciliation is parallel to that of any other
with the same block and target, at any other time. -/

namespace Headroom

namespace Cluster

/-! ### Records without annotations and labels -/

def NodeRecord.bare (node : NodeRecord) : NodeRecord := { node with annotations := ∅, labels := ∅ }

def PodRecord.bare (pod : PodRecord) : PodRecord := { pod with labels := ∅ }

theorem NodeRecord.id_bare (node : NodeRecord) : node.bare.id = node.id := rfl

theorem PodRecord.key_bare (pod : PodRecord) : pod.bare.key = pod.key := rfl

def State.bare (state : State) : State where
  nodes := state.nodes.map NodeRecord.bare
  pods := state.pods.map PodRecord.bare

/-- The store whose records carry neither annotations nor labels. -/
def Store.bare (store : Store) : Store where
  nodes := store.nodes.mapRows NodeRecord.bare NodeRecord.id_bare
  pods := store.pods.mapRows PodRecord.bare PodRecord.key_bare

namespace NodeRecord

variable {node other : NodeRecord}

theorem bare_uncordon (h : node.bare = other.bare) : node.uncordon.bare = other.uncordon.bare := by
  show { node.bare with unschedulable := false } = { other.bare with unschedulable := false }
  rw [h]

theorem bare_cordon {t u : Instant} (h : node.bare = other.bare) :
    (node.cordon t).bare = (other.cordon u).bare := by
  have hbarred : ∀ (node : NodeRecord) (t : Instant),
      (node.cordon t).bare = { node.bare with unschedulable := true } := by
    intro node t
    unfold cordon
    split
    · rename_i hkept
      show node.bare = { node.bare with unschedulable := true }
      rw [← (Bool.and_eq_true_iff.mp hkept).1]
      rfl
    · rfl
  rw [hbarred, hbarred, h]

end NodeRecord

theorem NodeRecord.view_bare (record : NodeRecord) : record.bare.view = record.view.bare := by
  unfold view bare Node.bare
  cases record.unschedulable <;> rfl

namespace State

variable {s t : State}

theorem nodes_snapshot_bare (state : State) (rule : Protection) :
    (state.snapshot rule).nodes.map Node.bare = (state.bare.snapshot rule).nodes := by
  have hviews : (state.nodes.map NodeRecord.view).map Node.bare =
      state.bare.nodes.map NodeRecord.view := by
    rw [bare, List.map_map, List.map_map]
    exact List.map_congr_left fun record _ => record.view_bare.symm
  show ((state.nodes.map NodeRecord.view).mergeSort _).map Node.bare = List.mergeSort _ _
  rw [← hviews]
  exact List.map_mergeSort fun _ _ _ _ => rfl

/-- What is requested under an id, as a snapshot shows it. -/
theorem requests_snapshot (state : State) (rule : Protection) (id : String) :
    ((state.snapshot rule).podsOn id).map (·.request) =
      if state.bare.nodes.any (·.id == id) then (state.bare.podsOn id).map (·.request) else [] := by
  have hany : state.bare.nodes.any (·.id == id) = true ↔ ∃ node ∈ state.nodes, node.id = id := by
    simp [bare, NodeRecord.bare]
  have hpods : (state.podsOn id).map (·.request) = (state.bare.podsOn id).map (·.request) := by
    rw [podsOn, podsOn, bare, List.filter_map, List.map_map]
    rfl
  split
  · rename_i hknown
    rw [podsOn_snapshot (hany.mp hknown), List.map_map, ← hpods]
    rfl
  · rename_i hunknown
    rw [podsOn_snapshot_of_unknown, List.map_nil]
    exact fun node hnode hid => hunknown (hany.mpr ⟨node, hnode, hid⟩)

theorem alike_snapshot (h : s.bare = t.bare) (rule rule' : Protection) :
    (s.snapshot rule).Alike (t.snapshot rule') := by
  refine ⟨?_, fun id => ?_⟩
  · rw [nodes_snapshot_bare, nodes_snapshot_bare, h]
    rfl
  · rw [requests_snapshot, requests_snapshot, h]

/-- Listings that agree but for annotations and labels have snapshots that are alike, or lack one
for the same reason. -/
theorem ofState_alike (h : s.bare = t.bare) (rule rule' : Protection) :
    (∃ error, Snapshot.ofState s rule = .error error ∧ Snapshot.ofState t rule' = .error error) ∨
    ∃ x y, Snapshot.ofState s rule = .ok x ∧ Snapshot.ofState t rule' = .ok y ∧ x.Alike y := by
  have hunreadable : ∀ state : State, state.bare.unreadable? = state.unreadable? := by
    intro state
    rw [unreadable?, bare, List.find?_map, Option.map_map]
    rfl
  have hsame : s.unreadable? = t.unreadable? := by rw [← hunreadable, h, hunreadable]
  rcases hs : Snapshot.ofState s rule with error | x
  · refine .inl ⟨error, rfl, ?_⟩
    rw [ofState_eq_error_iff, ← hsame]
    exact ofState_eq_error_iff.mp hs
  · rcases ht : Snapshot.ofState t rule' with error | y
    · rw [ofState_eq_error_iff, ← hsame] at ht
      rw [ofState_eq_error_iff.mpr ht] at hs
      contradiction
    · obtain ⟨-, rfl⟩ := ofState_eq_ok_iff.mp hs
      obtain ⟨-, rfl⟩ := ofState_eq_ok_iff.mp ht
      exact .inr ⟨_, _, rfl, rfl, alike_snapshot h rule rule'⟩

end State

/-! ### Stores that agree but for annotations and labels -/

namespace Store

variable {a b : Store}

theorem bare_putNode (store : Store) (node : NodeRecord) :
    (store.putNode node).bare = store.bare.putNode node.bare :=
  congrArg (Store.mk · _) (Table.mapRows_insert NodeRecord.id_bare store.nodes node)

theorem node?_bare (store : Store) (id : String) :
    store.bare.node? id = (store.node? id).map NodeRecord.bare :=
  Table.find?_mapRows NodeRecord.id_bare store.nodes id

theorem bare_updateNode {f g : NodeRecord → NodeRecord}
    (hfg : ∀ node other, node.bare = other.bare → (f node).bare = (g other).bare)
    (h : a.bare = b.bare) (id : String) :
    (a.updateNode id f).map bare = (b.updateNode id g).map bare := by
  have hfind : (a.node? id).map NodeRecord.bare = (b.node? id).map NodeRecord.bare := by
    rw [← node?_bare, ← node?_bare, h]
  unfold updateNode
  cases ha : a.node? id with
  | none =>
    rw [ha, eq_comm, Option.map_none, Option.map_eq_none_iff] at hfind
    rw [hfind]
  | some node =>
    rw [ha, eq_comm, Option.map_some, Option.map_eq_some_iff] at hfind
    obtain ⟨other, hother, hbare⟩ := hfind
    rw [hother]
    refine congrArg Except.ok ?_
    rw [bare_putNode, bare_putNode, h, hfg node other hbare.symm]

end Store

end Cluster

namespace Scaling

open Cluster (NodeRecord Protection Snapshot State Store)
open Procedure

/-! ### Moves -/

/-- A change of the size of the pool, without the time at which a node is cordoned. -/
inductive Move where
  | uncordon (id : String)
  | cordon (id : String)
  | increaseToSize (size : Nat)
  deriving DecidableEq

namespace Command

/-- The move that the command makes, if it does not remove. -/
def move? : Command → Option Move
  | .uncordon id => some (.uncordon id)
  | .cordon id _ => some (.cordon id)
  | .increaseToSize size => some (.increaseToSize size)
  | .deleteNodes _ | .deregister _ => none

variable {c d : Command}

/-- Commands that make the same move differ at most in the time of a cordoning. -/
theorem eq_or_cordon_of_move (h : c.move? = d.move?) (hmoves : c.move?.isSome) :
    c = d ∨ ∃ id t u, c = .cordon id t ∧ d = .cordon id u := by
  cases c <;> cases d <;> simp_all [move?]

theorem Scales.isSome_move (h : c.Scales) : c.move?.isSome := by
  cases c with
  | deleteNodes ids => exact h.elim
  | deregister id => exact h.elim
  | _ => rfl

theorem refused_congr (h : c.move? = d.move?) (hmoves : c.move?.isSome) (cause : Refusal) :
    c.refused cause = d.refused cause := by
  rcases eq_or_cordon_of_move h hmoves with rfl | ⟨id, t, u, rfl, rfl⟩
  · rfl
  · rfl

end Command

theorem NodeShape.bare_addNodes (shape : NodeShape) (count n : Nat) (store : Store) :
    (shape.addNodes count n store).bare = shape.addNodes count n store.bare := by
  induction count generalizing n store with
  | zero => rfl
  | succ count ih =>
    have hfree : shape.freeNumber store.bare n = shape.freeNumber store n := by
      unfold NodeShape.freeNumber
      simp only [Store.bare, Table.contains_mapRows NodeRecord.id_bare,
        Table.size_mapRows NodeRecord.id_bare]
    rw [NodeShape.addNodes, NodeShape.addNodes, ih, Store.bare_putNode, hfree]
    rfl

theorem NodeShape.bare_increaseToSize (shape : NodeShape) (size : Nat) (store : Store) :
    (shape.increaseToSize size store).bare = shape.increaseToSize size store.bare := by
  have hsize : store.bare.nodes.size = store.nodes.size :=
    Table.size_mapRows NodeRecord.id_bare store.nodes
  rw [NodeShape.increaseToSize, NodeShape.increaseToSize, shape.bare_addNodes, hsize]

theorem bare_changed {a b : Store} {result other : Except Cluster.Error Store}
    (h : a.bare = b.bare) (hresult : result.map Store.bare = other.map Store.bare) :
    (changed a result).1 = (changed b other).1 ∧
      (changed a result).2.bare = (changed b other).2.bare := by
  cases result <;> cases other <;> simp_all [changed, Except.map]

/-- Commands that make the same move fare alike in stores that agree. -/
theorem bare_execute (shape : NodeShape) {c d : Command} (hmove : c.move? = d.move?)
    (hmoves : c.move?.isSome) {a b : Store} (h : a.bare = b.bare) :
    (shape.backend.execute c a).1 = (shape.backend.execute d b).1 ∧
      (shape.backend.execute c a).2.bare = (shape.backend.execute d b).2.bare := by
  rcases Command.eq_or_cordon_of_move hmove hmoves with rfl | ⟨id, t, u, rfl, rfl⟩
  · cases c with
    | uncordon id =>
      exact bare_changed h (Store.bare_updateNode (fun _ _ => NodeRecord.bare_uncordon) h id)
    | cordon id t =>
      exact bare_changed h (Store.bare_updateNode (fun _ _ => NodeRecord.bare_cordon) h id)
    | increaseToSize size =>
      refine ⟨rfl, ?_⟩
      show (shape.increaseToSize size a).bare = (shape.increaseToSize size b).bare
      rw [shape.bare_increaseToSize, shape.bare_increaseToSize, h]
    | deleteNodes ids => exact nomatch hmoves
    | deregister id => exact nomatch hmoves
  · exact bare_changed h (Store.bare_updateNode (fun _ _ => NodeRecord.bare_cordon) h id)

/-! ### Procedures that move alike -/

namespace Procedure

variable {α β : Type}

/-- Two procedures that, shown listings which agree but for annotations and labels, make the same
moves and come to the same end. -/
inductive Parallel : Procedure α → Procedure α → Prop
  | finish (result : Except Halt α) : Parallel (.finish result) (.finish result)
  | fetch {f g : State → Procedure α}
      (next : ∀ s t : State, s.bare = t.bare → Parallel (f s) (g t)) :
      Parallel (.fetch f) (.fetch g)
  | issue {c d : Command} {p q : Procedure α} (move_eq : c.move? = d.move?)
      (moves : c.move?.isSome) (next : Parallel p q) : Parallel (.issue c p) (.issue d q)

theorem Parallel.bind {p q : Procedure α} {f g : α → Procedure β} (h : Parallel p q)
    (hfg : ∀ a, Parallel (f a) (g a)) : Parallel (p >>= f) (q >>= g) := by
  induction h with
  | finish result =>
    cases result with
    | ok a => exact hfg a
    | error halt => exact .finish _
  | fetch next ih => exact .fetch ih
  | issue move_eq moves next ih => exact .issue move_eq moves ih

theorem Parallel.capture_bind {rule rule' : Protection} {f g : Snapshot → Procedure β}
    (hfg : ∀ x y : Snapshot, x.Alike y → Parallel (f x) (g y)) :
    Parallel (capture rule >>= f) (capture rule' >>= g) := by
  refine .fetch fun s t h => ?_
  dsimp only
  rcases State.ofState_alike h rule rule' with ⟨error, hs, ht⟩ | ⟨x, y, hs, ht, halike⟩
  · rw [hs, ht]
    exact .finish _
  · rw [hs, ht]
    exact hfg x y halike

theorem Parallel.issueAll {ids : List String} {f g : String → Command}
    (h : ∀ id, (f id).move? = (g id).move? ∧ (f id).move?.isSome) :
    Parallel (issueAll (ids.map f)) (issueAll (ids.map g)) := by
  induction ids with
  | nil => exact .finish _
  | cons id rest ih => exact .issue (h id).1 (h id).2 ih

/-- Followed in stores that agree but for annotations and labels, they end alike, leave stores that
agree so, and have made the same moves. -/
theorem Parallel.run {p q : Procedure α} (h : Parallel p q) (shape : NodeShape) {a b : Store}
    (hab : a.bare = b.bare) :
    (p.run shape.backend a).1 = (q.run shape.backend b).1 ∧
    (p.run shape.backend a).2.bare = (q.run shape.backend b).2.bare ∧
    (p.issued shape.backend a).map (·.1.move?) = (q.issued shape.backend b).map (·.1.move?) := by
  induction h generalizing a b with
  | finish result => exact ⟨rfl, hab, rfl⟩
  | fetch next ih => exact ih a.state b.state (congrArg Store.state hab) hab
  | @issue c d p q move_eq moves next ih =>
    obtain ⟨hresult, hafter⟩ := bare_execute shape move_eq moves hab
    simp only [Procedure.run, issued, List.map_cons]
    rcases hc : shape.backend.execute c a with ⟨cause | _, a'⟩ <;>
      rcases hd : shape.backend.execute d b with ⟨cause' | _, b'⟩ <;>
      rw [hc, hd] at hresult hafter
    · obtain rfl : cause = cause' := Except.error.inj hresult
      refine ⟨?_, hafter, by rw [move_eq]⟩
      dsimp only
      rw [Command.refused_congr move_eq moves]
    · cases hresult
    · cases hresult
    · obtain ⟨hrun, hbare, hmoves⟩ := ih hafter
      exact ⟨hrun, hbare, congrArg₂ List.cons move_eq hmoves⟩

end Procedure

/-! ### Scaling moves alike -/

section Scaling

variable {config other : Config} {x y : Snapshot}

theorem parallel_enlarge (hblock : config.block = other.block)
    (htarget : config.target = other.target) : Parallel (enlarge config) (enlarge other) := by
  refine Parallel.capture_bind fun x y h => ?_
  rw [hblock, h.availableBlocks]
  refine Parallel.bind (.finish _) fun available => ?_
  rw [growthPlan_congr h, Config.deficit, htarget]
  refine Parallel.bind (.finish _) fun plan => ?_
  cases plan with
  | none => exact .finish _
  | some plan =>
    dsimp only
    split
    · exact .finish _
    · exact .issue rfl rfl (.finish _)

theorem parallel_grow (hblock : config.block = other.block)
    (htarget : config.target = other.target) (h : x.Alike y) (deficit : Int) :
    Parallel (grow config x deficit) (grow other y deficit) := by
  unfold grow
  rw [hblock, pickToUncordon_congr h]
  refine Parallel.bind (.finish _) fun plan => ?_
  refine Parallel.bind (.issueAll fun id => ⟨rfl, rfl⟩) fun _ => ?_
  split
  · exact .finish _
  · exact (parallel_enlarge hblock htarget).bind fun added => .finish _

theorem parallel_shrink (hblock : config.block = other.block) (now now' : Instant) (h : x.Alike y)
    (surplus : Int) : Parallel (shrink config now x surplus) (shrink other now' y surplus) := by
  unfold shrink
  rw [hblock, pickToCordon_congr h]
  refine Parallel.bind (.finish _) fun picked => ?_
  rw [show (picked.filter fun id => !(x.node? id).any (·.cordoned)) =
    picked.filter fun id => !(y.node? id).any (·.cordoned) from openIds_congr h picked]
  exact Parallel.bind (.issueAll fun id => ⟨rfl, rfl⟩) fun _ => .finish _

theorem parallel_adjust (hblock : config.block = other.block)
    (htarget : config.target = other.target) (now now' : Instant) :
    Parallel (adjust config now) (adjust other now') := by
  refine Parallel.capture_bind fun x y h => ?_
  rw [hblock, h.availableBlocks]
  refine Parallel.bind (.finish _) fun available => Parallel.bind ?_ fun outcome => .finish _
  unfold scale
  rw [Config.deficit, Config.deficit, htarget]
  split
  · exact parallel_grow hblock htarget h _
  · split
    · exact Parallel.bind (.finish _) fun surplus => parallel_shrink hblock now now' h surplus
    · exact .finish _

end Scaling

end Scaling

end Headroom
