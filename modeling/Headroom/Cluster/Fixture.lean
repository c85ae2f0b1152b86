import Headroom.Cluster.Record
import Headroom.Json.Decoder
import Headroom.Json.Value

/-!
The records of a cluster as JSON. A record is read from an object or from the array of its fields.
In an object, fields of other names are passed over, and a field that has a default may be left
out; a capacity and a node that are left out are absent. In an array only the last fields may be
left out, and only those with a default.
-/

namespace Headroom.Cluster

open Json (ItemsDecoder Items ReadError RecordForm Tree Value fill skip)

namespace NodeRecord

/-- The fields of a node that have been read. -/
structure Fields where
  id : Option String := none
  capacity : Option (Option UInt64) := none
  unschedulable : Option Bool := none
  annotations : Option Dictionary := none
  labels : Option Dictionary := none

def Fields.put (name : String) (value : Tree) (fields : Fields) : Except ReadError Fields :=
  match name with
  | "id" => return { fields with id := ← fill name Json.Decode.string value fields.id }
  | "capacity_millicpu" => return { fields with
      capacity := ← fill name (Json.Decode.optional Json.Decode.word) value fields.capacity }
  | "unschedulable" => return { fields with
      unschedulable := ← fill name Json.Decode.bool value fields.unschedulable }
  | "annotations" => return { fields with
      annotations := ← fill name Json.Decode.dictionary value fields.annotations }
  | "labels" => return { fields with
      labels := ← fill name Json.Decode.dictionary value fields.labels }
  | _ => do
    skip value
    return fields

def Fields.complete (fields : Fields) : Except ReadError NodeRecord :=
  match fields.id with
  | none => .error (.mismatch (.missingField "id"))
  | some id => .ok {
      id
      capacity := fields.capacity.getD none
      unschedulable := fields.unschedulable.getD false
      annotations := fields.annotations.getD ∅
      labels := fields.labels.getD ∅ }

def ofItems : ItemsDecoder NodeRecord := do
  let wanted := "struct NodeRecord with 5 elements"
  return {
    id := ← Items.require wanted 0 Json.Decode.string
    capacity := ← Items.require wanted 1 (Json.Decode.optional Json.Decode.word)
    unschedulable := (← Items.next? Json.Decode.bool).getD false
    annotations := (← Items.next? Json.Decode.dictionary).getD ∅
    labels := (← Items.next? Json.Decode.dictionary).getD ∅ }

def form : RecordForm Fields NodeRecord where
  wanted := "struct NodeRecord"
  start := {}
  put := Fields.put
  complete := Fields.complete
  ofItems := ofItems

end NodeRecord

namespace PodRecord

/-- The fields of a pod that have been read. -/
structure Fields where
  space : Option String := none
  name : Option String := none
  nodeId : Option (Option String) := none
  request : Option UInt64 := none
  labels : Option Dictionary := none

def Fields.put (name : String) (value : Tree) (fields : Fields) : Except ReadError Fields :=
  match name with
  | "namespace" => return { fields with
      space := ← fill name Json.Decode.string value fields.space }
  | "name" => return { fields with name := ← fill name Json.Decode.string value fields.name }
  | "node_id" => return { fields with
      nodeId := ← fill name (Json.Decode.optional Json.Decode.string) value fields.nodeId }
  | "cpu_request_millicpu" => return { fields with
      request := ← fill name Json.Decode.word value fields.request }
  | "labels" => return { fields with
      labels := ← fill name Json.Decode.dictionary value fields.labels }
  | _ => do
    skip value
    return fields

def Fields.complete (fields : Fields) : Except ReadError PodRecord :=
  match fields.space, fields.name with
  | none, _ => .error (.mismatch (.missingField "namespace"))
  | _, none => .error (.mismatch (.missingField "name"))
  | some space, some name => .ok {
      space
      name
      nodeId := fields.nodeId.getD none
      request := fields.request.getD 0
      labels := fields.labels.getD ∅ }

def ofItems : ItemsDecoder PodRecord := do
  let wanted := "struct PodRecord with 5 elements"
  return {
    space := ← Items.require wanted 0 Json.Decode.string
    name := ← Items.require wanted 1 Json.Decode.string
    nodeId := ← Items.require wanted 2 (Json.Decode.optional Json.Decode.string)
    request := (← Items.next? Json.Decode.word).getD 0
    labels := (← Items.next? Json.Decode.dictionary).getD ∅ }

def form : RecordForm Fields PodRecord where
  wanted := "struct PodRecord"
  start := {}
  put := Fields.put
  complete := Fields.complete
  ofItems := ofItems

end PodRecord

namespace State

/-- The fields of a state that have been read. -/
structure Fields where
  nodes : Option (List NodeRecord) := none
  pods : Option (List PodRecord) := none

def Fields.put (name : String) (value : Tree) (fields : Fields) : Except ReadError Fields :=
  match name with
  | "nodes" => return { fields with
      nodes := ← fill name (Json.Decode.list NodeRecord.form.decode) value fields.nodes }
  | "pods" => return { fields with
      pods := ← fill name (Json.Decode.list PodRecord.form.decode) value fields.pods }
  | _ => do
    skip value
    return fields

def ofItems : ItemsDecoder State := do
  return {
    nodes := (← Items.next? (Json.Decode.list NodeRecord.form.decode)).getD []
    pods := (← Items.next? (Json.Decode.list PodRecord.form.decode)).getD [] }

def form : RecordForm Fields State where
  wanted := "struct ClusterState"
  start := {}
  put := Fields.put
  complete fields := .ok ⟨fields.nodes.getD [], fields.pods.getD []⟩
  ofItems := ofItems

end State

def State.parse (text : String) : Except ReadError State := Json.decodeText State.form.decode text

def NodeRecord.parse (text : String) : Except ReadError NodeRecord :=
  Json.decodeText NodeRecord.form.decode text

def PodRecord.parse (text : String) : Except ReadError PodRecord :=
  Json.decodeText PodRecord.form.decode text

/-- A dictionary as an object, in the order of its keys. -/
def dictionaryValue (d : Dictionary) : Value := .object (d.rows.map fun (k, v) => (k, .string v))

def capacityValue : Option UInt64 → Value
  | some n => .number n.toNat
  | none => .null

def NodeRecord.toValue (node : NodeRecord) : Value := .object [
  ("id", .string node.id),
  ("capacity_millicpu", capacityValue node.capacity),
  ("unschedulable", .bool node.unschedulable),
  ("annotations", dictionaryValue node.annotations),
  ("labels", dictionaryValue node.labels)]

def PodRecord.toValue (pod : PodRecord) : Value := .object [
  ("namespace", .string pod.space),
  ("name", .string pod.name),
  ("node_id", (pod.nodeId.map Value.string).getD .null),
  ("cpu_request_millicpu", .number pod.request.toNat),
  ("labels", dictionaryValue pod.labels)]

def State.toValue (state : State) : Value := .object [
  ("nodes", .array (state.nodes.map NodeRecord.toValue)),
  ("pods", .array (state.pods.map PodRecord.toValue))]

end Headroom.Cluster
