import Headroom.Cluster.Fixture
import Headroom.Proofs.Document
import Headroom.Proofs.Respelling

/-! The ways to write nodes, pods and states. -/

namespace Headroom

namespace Json.Items

variable {α : Type} (decode : Decoder α) (item : Tree) (items : List Tree) (ending : Ending)

@[simp] theorem run_next?_cons : (next? decode).run ⟨item :: items, ending⟩ =
    (do return (some (← decode item), ⟨items, ending⟩)) := rfl

@[simp] theorem run_next?_nil : (next? decode).run ⟨[], .closed⟩ =
    (pure (none, ⟨[], .closed⟩) : Except ReadError (Option α × Items)) := rfl

@[simp] theorem run_require_cons (wanted : String) (index : Nat) :
    (require wanted index decode).run ⟨item :: items, ending⟩ =
      (do return (← decode item, ⟨items, ending⟩)) := by
  rw [require, StateT.run_bind, run_next?_cons]
  cases decode item <;> rfl

end Json.Items

namespace Cluster

open Json (Agree Field Itemwise Place RecordForm Respelled Rewrites Tree Value decodeText_of_spelled
  strict_bool strict_dictionary strict_string strict_word)
open Json.Items (strict_next? strict_pure strict_require)

namespace NodeRecord

/-- The fields of a node, in their order. -/
def fields : List Field := [
  { name := "id" },
  { name := "capacity_millicpu", absent? := some .null },
  { name := "unschedulable", absent? := some (.bool false), endsArray := true },
  { name := "annotations", absent? := some (.object [] .closed), endsArray := true },
  { name := "labels", absent? := some (.object [] .closed), endsArray := true }]

/-- The places that a node is read into. -/
def places : List (Place Fields) := [
  { name := "id"
    Content := String
    decode := Json.Decode.string
    strict := strict_string
    get := Fields.id
    set := fun c fields => { fields with id := c } },
  { name := "capacity_millicpu"
    absent? := some .null
    Content := Option UInt64
    decode := Json.Decode.optional Json.Decode.word
    strict := strict_word.optional
    get := Fields.capacity
    set := fun c fields => { fields with capacity := c } },
  { name := "unschedulable"
    absent? := some (.bool false)
    endsArray := true
    Content := Bool
    decode := Json.Decode.bool
    strict := strict_bool
    get := Fields.unschedulable
    set := fun c fields => { fields with unschedulable := c } },
  { name := "annotations"
    absent? := some (.object [] .closed)
    endsArray := true
    Content := Dictionary
    decode := Json.Decode.dictionary
    strict := strict_dictionary
    get := Fields.annotations
    set := fun c fields => { fields with annotations := c } },
  { name := "labels"
    absent? := some (.object [] .closed)
    endsArray := true
    Content := Dictionary
    decode := Json.Decode.dictionary
    strict := strict_dictionary
    get := Fields.labels
    set := fun c fields => { fields with labels := c } }]

theorem hasPlaces : form.HasPlaces places where
  apart := by simp [places, Place.apart_iff]
  start := by simp [places, form]
  known := by
    simp only [places, List.forall_mem_cons]
    exact ⟨fun _ _ => rfl, fun _ _ => rfl, fun _ _ => rfl, fun _ _ => rfl, fun _ _ => rfl, by simp⟩
  unknown name hname value fields := by
    simp only [places, List.map_cons, List.map_nil, List.mem_cons, not_or] at hname
    show Fields.put name value fields = _
    unfold Fields.put
    split <;> simp_all
  absent := by
    simp only [places, List.forall_mem_cons]
    refine ⟨by simp, ?_, ?_, ?_, ?_, by simp⟩
    all_goals rintro _ ⟨⟩
    · exact ⟨none, rfl, fun fields hget => by simp_all [form, Fields.complete]⟩
    · exact ⟨false, rfl, fun fields hget => by simp_all [form, Fields.complete]⟩
    · exact ⟨∅, rfl, fun fields hget => by simp_all [form, Fields.complete]⟩
    · exact ⟨∅, rfl, fun fields hget => by simp_all [form, Fields.complete]⟩
  array values hlength hends := by
    rcases values with - | ⟨id, - | ⟨capacity, rest⟩⟩
    · simp [places] at hends
    · simp [places] at hends
    · rcases rest with - | ⟨unschedulable, - | ⟨annotations, - | ⟨labels, - | ⟨extra, rest⟩⟩⟩⟩
      case cons.cons.cons.cons =>
        simp only [places, List.length_cons, List.length_nil] at hlength
        omega
      all_goals
        simp only [RecordForm.decode, form, NodeRecord.ofItems, RecordForm.putAll, Fields.put,
          Json.fill, Json.Items.run_next?_cons, Json.Items.run_next?_nil,
          Json.Items.run_require_cons, StateT.run_bind, StateT.run_pure, bind_assoc, pure_bind,
          List.zipWith, places, List.map, Field.member]
        rfl

theorem agree {tree other : Tree} (h : Respelled fields tree other) :
    Agree form.decode tree other :=
  hasPlaces.agree h

theorem strict_decode : Json.Strict form.decode :=
  hasPlaces.strict_decode <|
    (strict_require strict_string _ _).bind fun _ =>
    (strict_require strict_word.optional _ _).bind fun _ =>
    (strict_next? strict_bool).bind fun _ =>
    (strict_next? strict_dictionary).bind fun _ =>
    (strict_next? strict_dictionary).bind fun _ => strict_pure _

end NodeRecord

namespace PodRecord

/-- The fields of a pod, in their order. -/
def fields : List Field := [
  { name := "namespace" },
  { name := "name" },
  { name := "node_id", absent? := some .null },
  { name := "cpu_request_millicpu"
    absent? := some (.number (some (.natural 0)))
    endsArray := true },
  { name := "labels", absent? := some (.object [] .closed), endsArray := true }]

/-- The places that a pod is read into. -/
def places : List (Place Fields) := [
  { name := "namespace"
    Content := String
    decode := Json.Decode.string
    strict := strict_string
    get := Fields.space
    set := fun c fields => { fields with space := c } },
  { name := "name"
    Content := String
    decode := Json.Decode.string
    strict := strict_string
    get := Fields.name
    set := fun c fields => { fields with name := c } },
  { name := "node_id"
    absent? := some .null
    Content := Option String
    decode := Json.Decode.optional Json.Decode.string
    strict := strict_string.optional
    get := Fields.nodeId
    set := fun c fields => { fields with nodeId := c } },
  { name := "cpu_request_millicpu"
    absent? := some (.number (some (.natural 0)))
    endsArray := true
    Content := UInt64
    decode := Json.Decode.word
    strict := strict_word
    get := Fields.request
    set := fun c fields => { fields with request := c } },
  { name := "labels"
    absent? := some (.object [] .closed)
    endsArray := true
    Content := Dictionary
    decode := Json.Decode.dictionary
    strict := strict_dictionary
    get := Fields.labels
    set := fun c fields => { fields with labels := c } }]

theorem hasPlaces : form.HasPlaces places where
  apart := by simp [places, Place.apart_iff]
  start := by simp [places, form]
  known := by
    simp only [places, List.forall_mem_cons]
    exact ⟨fun _ _ => rfl, fun _ _ => rfl, fun _ _ => rfl, fun _ _ => rfl, fun _ _ => rfl, by simp⟩
  unknown name hname value fields := by
    simp only [places, List.map_cons, List.map_nil, List.mem_cons, not_or] at hname
    show Fields.put name value fields = _
    unfold Fields.put
    split <;> simp_all
  absent := by
    simp only [places, List.forall_mem_cons]
    refine ⟨by simp, by simp, ?_, ?_, ?_, by simp⟩
    all_goals rintro _ ⟨⟩
    · exact ⟨none, rfl, fun fields hget => by simp_all [form, Fields.complete]⟩
    · exact ⟨0, rfl, fun fields hget => by simp_all [form, Fields.complete]⟩
    · exact ⟨∅, rfl, fun fields hget => by simp_all [form, Fields.complete]⟩
  array values hlength hends := by
    rcases values with - | ⟨space, - | ⟨name, - | ⟨node, rest⟩⟩⟩
    · simp [places] at hends
    · simp [places] at hends
    · simp [places] at hends
    · rcases rest with - | ⟨request, - | ⟨labels, - | ⟨extra, rest⟩⟩⟩
      case cons.cons.cons =>
        simp only [places, List.length_cons, List.length_nil] at hlength
        omega
      all_goals
        simp only [RecordForm.decode, form, PodRecord.ofItems, RecordForm.putAll, Fields.put,
          Json.fill, Json.Items.run_next?_cons, Json.Items.run_next?_nil,
          Json.Items.run_require_cons, StateT.run_bind, StateT.run_pure, bind_assoc, pure_bind,
          List.zipWith, places, List.map, Field.member]
        rfl

theorem agree {tree other : Tree} (h : Respelled fields tree other) :
    Agree form.decode tree other :=
  hasPlaces.agree h

theorem strict_decode : Json.Strict form.decode :=
  hasPlaces.strict_decode <|
    (strict_require strict_string _ _).bind fun _ =>
    (strict_require strict_string _ _).bind fun _ =>
    (strict_require strict_string.optional _ _).bind fun _ =>
    (strict_next? strict_word).bind fun _ =>
    (strict_next? strict_dictionary).bind fun _ => strict_pure _

end PodRecord

namespace State

/-- The fields of a state, in their order. -/
def fields : List Field := [
  { name := "nodes"
    absent? := some (.array [] .closed)
    endsArray := true
    Alike := Itemwise (Respelled NodeRecord.fields) },
  { name := "pods"
    absent? := some (.array [] .closed)
    endsArray := true
    Alike := Itemwise (Respelled PodRecord.fields) }]

/-- The places that a state is read into. -/
def places : List (Place Fields) := [
  { name := "nodes"
    absent? := some (.array [] .closed)
    endsArray := true
    Alike := Itemwise (Respelled NodeRecord.fields)
    Content := List NodeRecord
    decode := Json.Decode.list NodeRecord.form.decode
    strict := NodeRecord.strict_decode.list
    alike := fun _ _ h => .list (h.mono NodeRecord.agree)
    get := Fields.nodes
    set := fun c fields => { fields with nodes := c } },
  { name := "pods"
    absent? := some (.array [] .closed)
    endsArray := true
    Alike := Itemwise (Respelled PodRecord.fields)
    Content := List PodRecord
    decode := Json.Decode.list PodRecord.form.decode
    strict := PodRecord.strict_decode.list
    alike := fun _ _ h => .list (h.mono PodRecord.agree)
    get := Fields.pods
    set := fun c fields => { fields with pods := c } }]

theorem hasPlaces : form.HasPlaces places where
  apart := by simp [places, Place.apart_iff]
  start := by simp [places, form]
  known := by
    simp only [places, List.forall_mem_cons]
    exact ⟨fun _ _ => rfl, fun _ _ => rfl, by simp⟩
  unknown name hname value fields := by
    simp only [places, List.map_cons, List.map_nil, List.mem_cons, not_or] at hname
    show Fields.put name value fields = _
    unfold Fields.put
    split <;> simp_all
  absent := by
    simp only [places, List.forall_mem_cons]
    refine ⟨?_, ?_, by simp⟩
    all_goals rintro _ ⟨⟩
    · exact ⟨[], rfl, fun fields hget => by simp_all [form]⟩
    · exact ⟨[], rfl, fun fields hget => by simp_all [form]⟩
  array values hlength hends := by
    rcases values with - | ⟨nodes, - | ⟨pods, - | ⟨extra, rest⟩⟩⟩
    case cons.cons.cons =>
      simp only [places, List.length_cons, List.length_nil] at hlength
      omega
    all_goals
      simp only [RecordForm.decode, form, State.ofItems, RecordForm.putAll, Fields.put,
        Json.fill, Json.Items.run_next?_cons, Json.Items.run_next?_nil, StateT.run_bind,
        StateT.run_pure, bind_assoc, pure_bind, List.zipWith, places, List.map, Field.member]
      rfl

theorem agree {tree other : Tree} (h : Respelled fields tree other) :
    Agree form.decode tree other :=
  hasPlaces.agree h

theorem strict_decode : Json.Strict form.decode :=
  hasPlaces.strict_decode <|
    (strict_next? NodeRecord.strict_decode.list).bind fun _ =>
    (strict_next? PodRecord.strict_decode.list).bind fun _ => strict_pure _

end State

/-- Whatever is read as a state is the text of a JSON value. Take a text that is read as a state and
write the value another way: in any of its state, node or pod objects, put the members in another
order, add members of unknown names with any values or drop them, add or drop members whose value
is the default, or write the array of the values instead; then spell it with any white space. What
is read is the same state. -/
theorem spelling_immaterial :
    (∀ text state, State.parse text = .ok state → ∃ tree : Tree, tree.Spelled text.toList) ∧
    ∀ (tree other : Tree) (text respelled : String), tree.Spelled text.toList →
      Respelled State.fields tree other → other.Spelled respelled.toList →
      ∀ state, State.parse text = .ok state → State.parse respelled = .ok state := by
  refine ⟨fun text state h => State.strict_decode.exists_spelled h,
    fun tree other text respelled htext hrespelled hother state h => ?_⟩
  rw [State.parse, decodeText_of_spelled _ htext] at h
  rw [State.parse, decodeText_of_spelled _ hother]
  exact (State.agree hrespelled state).mp h

/-- A state in few words. -/
def terse : Value := .object [("pods", .array [.object [
  ("namespace", .string "x"), ("name", .string "b"), ("node_id", .string "a")]])]

/-- The same state with its defaults, a note and the pod as an array. -/
def ample : Value := .object [
  ("notes", .array [.object [("id", .null)]]),
  ("nodes", .array []),
  ("pods", .array [.array [.string "x", .string "b", .string "a", .number 0, .object []]])]

theorem respelled_pod (space name node : Tree) : Respelled PodRecord.fields
    (.object [(some "namespace", space), (some "name", name), (some "node_id", node)] .closed)
    (.array [space, name, node, .number (some (.natural 0)), .object [] .closed] .closed) := by
  let members : List (Option String × Tree) :=
    [(some "namespace", space), (some "name", name), (some "node_id", node)]
  have hlabels : Rewrites PodRecord.fields (.object members .closed)
      (.object ((some "labels", .object [] .closed) :: members) .closed) :=
    .absent (List.getElem_mem (show 4 < PodRecord.fields.length by decide)) rfl
      (by simp [members, PodRecord.fields])
  have hrequest : Rewrites PodRecord.fields
      (.object ((some "labels", .object [] .closed) :: members) .closed)
      (.object ([(some "cpu_request_millicpu", .number (some (.natural 0))),
        (some "labels", .object [] .closed)] ++ members) .closed) :=
    .absent (List.getElem_mem (show 3 < PodRecord.fields.length by decide)) rfl
      (by simp [members, PodRecord.fields])
  have harray : Rewrites PodRecord.fields _ (.array [space, name, node,
      .number (some (.natural 0)), .object [] .closed] .closed) :=
    .array le_rfl (by simp [PodRecord.fields])
  exact .trans _ _ _ (.rel _ _ hlabels) <| .trans _ _ _ (.rel _ _ hrequest) <|
    .trans _ _ _ (.rel _ _ (.reorder List.perm_append_comm)) (.rel _ _ harray)

theorem respelled_ample : Respelled State.fields terse.tree ample.tree := by
  let pods : Tree := .array [.array [.string (some "x"), .string (some "b"), .string (some "a"),
    .number (some (.natural 0)), .object [] .closed] .closed] .closed
  have hpods : Rewrites State.fields terse.tree (.object [(some "pods", pods)] .closed) :=
    .value (List.getElem_mem (show 1 < State.fields.length by decide))
      (.intro (.cons (respelled_pod _ _ _) .nil))
  have hnodes : Rewrites State.fields (.object [(some "pods", pods)] .closed)
      (.object [(some "nodes", .array [] .closed), (some "pods", pods)] .closed) :=
    .absent (List.getElem_mem (show 0 < State.fields.length by decide)) rfl
      (by simp [State.fields])
  have hnotes : Rewrites State.fields
      (.object [(some "nodes", .array [] .closed), (some "pods", pods)] .closed) ample.tree :=
    .unknown (by simp [State.fields]) rfl
  exact .trans _ _ _ (.rel _ _ hpods) <| .trans _ _ _ (.rel _ _ hnodes) (.rel _ _ hnotes)

theorem spelling_immaterial_ample :
    (∃ tree : Tree, tree.Spelled terse.compact.toList) ∧
    Respelled State.fields terse.tree ample.tree ∧
    State.parse ample.pretty = .ok
      { pods := [{ space := "x", name := "b", nodeId := some "a" }] } := by
  have hparse : State.parse terse.compact = .ok
      { pods := [{ space := "x", name := "b", nodeId := some "a" }] } := by cbv
  obtain ⟨hspelled, hrespelled⟩ := spelling_immaterial
  exact ⟨hspelled _ _ hparse, respelled_ample,
    hrespelled terse.tree ample.tree terse.compact ample.pretty (terse.spelled_render none)
      respelled_ample (ample.spelled_render (some 0)) _ hparse⟩

end Cluster

end Headroom
