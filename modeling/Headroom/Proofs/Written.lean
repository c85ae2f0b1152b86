import Headroom.Cluster.Fixture
import Headroom.Proofs.Document
import Headroom.Proofs.Table

/-! The records of a cluster as they are written: their fields in one order, the rows of their
dictionaries in any order. Whatever the order is, what is read back is the record. -/

namespace Headroom

open Json (Decodes Value)

/-- A value that a dictionary is written as. -/
def Dictionary.Written (d : Dictionary) (value : Value) : Prop :=
  ∃ rows : List (String × String), rows.Perm d.rows ∧
    value = .object (rows.map fun (k, v) => (k, .string v))

namespace Cluster

/-- A value that a node is written as. -/
inductive NodeRecord.Written (node : NodeRecord) : Value → Prop where
  | intro {annotations labels : Value} (hannotations : node.annotations.Written annotations)
    (hlabels : node.labels.Written labels) : node.Written (.object [
      ("id", .string node.id),
      ("capacity_millicpu", capacityValue node.capacity),
      ("unschedulable", .bool node.unschedulable),
      ("annotations", annotations),
      ("labels", labels)])

/-- A value that a pod is written as. -/
inductive PodRecord.Written (pod : PodRecord) : Value → Prop where
  | intro {labels : Value} (hlabels : pod.labels.Written labels) : pod.Written (.object [
      ("namespace", .string pod.space),
      ("name", .string pod.name),
      ("node_id", (pod.nodeId.map Value.string).getD .null),
      ("cpu_request_millicpu", .number pod.request.toNat),
      ("labels", labels)])

/-- A value that a state is written as. -/
inductive State.Written (state : State) : Value → Prop where
  | intro {nodes pods : List Value} (hnodes : List.Forall₂ NodeRecord.Written state.nodes nodes)
    (hpods : List.Forall₂ PodRecord.Written state.pods pods) : state.Written (.object [
      ("nodes", .array nodes),
      ("pods", .array pods)])

theorem dictionaryValue_written (d : Dictionary) : d.Written (dictionaryValue d) :=
  ⟨d.rows, .refl _, rfl⟩

theorem NodeRecord.toValue_written (node : NodeRecord) : node.Written node.toValue :=
  .intro (dictionaryValue_written _) (dictionaryValue_written _)

theorem PodRecord.toValue_written (pod : PodRecord) : pod.Written pod.toValue :=
  .intro (dictionaryValue_written _)

/-- What a state is saved as is one of the values that it may be written as. -/
theorem State.toValue_written (state : State) : state.Written state.toValue := by
  refine .intro ?_ ?_
  · exact List.forall₂_map_right_iff.mpr (List.forall₂_same.mpr fun node _ => node.toValue_written)
  · exact List.forall₂_map_right_iff.mpr (List.forall₂_same.mpr fun pod _ => pod.toValue_written)

/-! ### Reading back -/

theorem decodes_capacity (capacity : Option UInt64) :
    Decodes (Json.Decode.optional Json.Decode.word) (capacityValue capacity) capacity := by
  cases capacity with
  | none => rfl
  | some n => exact (Json.decodes_word n).optional nofun

theorem decodes_nodeId (nodeId : Option String) :
    Decodes (Json.Decode.optional Json.Decode.string) ((nodeId.map Value.string).getD .null)
      nodeId := by
  cases nodeId with
  | none => rfl
  | some id => exact (Json.decodes_string id).optional nofun

theorem decodes_dictionary {d : Dictionary} {value : Value} (h : d.Written value) :
    Decodes Json.Decode.dictionary value d := by
  obtain ⟨rows, hperm, rfl⟩ := h
  have hentries : (Json.memberTrees (rows.map fun (k, v) => (k, Value.string v))).mapM
      Json.Decode.entry = .ok rows := by
    refine mapM_eq_ok_iff_forall₂.mpr ?_
    rw [Json.memberTrees_eq_map, List.map_map, List.forall₂_map_left_iff, List.forall₂_same]
    exact fun row _ => rfl
  have htable : Table.ofList rows = d := by
    have hkeys : (rows.map Prod.fst).Nodup := (hperm.map Prod.fst).nodup_iff.mpr d.nodup_keys
    exact Table.ext_mem fun row => ((Table.ofList_perm hkeys).trans hperm).mem_iff
  rw [Decodes, Value.tree, Json.Decode.dictionary, hentries, ← htable]
  rfl

theorem NodeRecord.Written.decodes {node : NodeRecord} {value : Value} (h : node.Written value) :
    Decodes NodeRecord.form.decode value node := by
  obtain ⟨hannotations, hlabels⟩ := h
  have hid := (Json.decodes_string node.id).fill "id"
  have hcapacity := (decodes_capacity node.capacity).fill "capacity_millicpu"
  have hflag := (Json.decodes_bool node.unschedulable).fill "unschedulable"
  have hannotations := (decodes_dictionary hannotations).fill "annotations"
  have hlabels := (decodes_dictionary hlabels).fill "labels"
  simp only [Decodes, Value.tree, Json.memberTrees, Json.RecordForm.decode, Json.RecordForm.putAll,
    NodeRecord.form, NodeRecord.Fields.put] at hid hflag ⊢
  simp only [hid, hcapacity, hflag, hannotations, hlabels, bind, Except.bind, pure, Except.pure]
  rfl

theorem PodRecord.Written.decodes {pod : PodRecord} {value : Value} (h : pod.Written value) :
    Decodes PodRecord.form.decode value pod := by
  obtain ⟨hlabels⟩ := h
  have hspace := (Json.decodes_string pod.space).fill "namespace"
  have hname := (Json.decodes_string pod.name).fill "name"
  have hnode := (decodes_nodeId pod.nodeId).fill "node_id"
  have hrequest := (Json.decodes_word pod.request).fill "cpu_request_millicpu"
  have hlabels := (decodes_dictionary hlabels).fill "labels"
  simp only [Decodes, Value.tree, Json.memberTrees, Json.RecordForm.decode, Json.RecordForm.putAll,
    PodRecord.form, PodRecord.Fields.put] at hspace hname hrequest ⊢
  simp only [hspace, hname, hnode, hrequest, hlabels, bind, Except.bind, pure, Except.pure]
  rfl

theorem State.Written.decodes {state : State} {value : Value} (h : state.Written value) :
    Decodes State.form.decode value state := by
  obtain ⟨hnodes, hpods⟩ := h
  have hnodes := (Decodes.list (hnodes.imp fun _ _ hnode => hnode.decodes)).fill "nodes"
  have hpods := (Decodes.list (hpods.imp fun _ _ hpod => hpod.decodes)).fill "pods"
  simp only [Decodes, Value.tree, Json.memberTrees, Json.RecordForm.decode, Json.RecordForm.putAll,
    State.form, State.Fields.put] at hnodes hpods ⊢
  simp only [hnodes, hpods, bind, Except.bind, pure, Except.pure]
  rfl

end Cluster

end Headroom
