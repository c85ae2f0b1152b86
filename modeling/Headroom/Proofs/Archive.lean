import Headroom.Proofs.Editing
import Headroom.Proofs.Written

/-! A store as it is kept: the text of every record under the key of the record. Whatever order a
writer gives to the rows of a dictionary, each edit finds texts that it can read, and what is read
is what a store of records holds. -/

namespace Headroom

open Json (ReadError Value)

/-! ### Texts in place of rows -/

theorem forall₂_mapIdx {α β : Type} {R : β → α → Prop} {f : Nat → α → β} (h : ∀ i a, R (f i a) a)
    (l : List α) : List.Forall₂ R (l.mapIdx f) l := by
  induction l generalizing f with
  | nil => exact .nil
  | cons a rest ih =>
    rw [List.mapIdx_cons]
    exact .cons (h 0 a) (ih fun i => h (i + 1))

section Keeps

variable {α : Type} {key : α → String} {parse : String → Except ReadError α}

/-- The text is kept under the key of the row and is read as the row. -/
def Stands (key : α → String) (parse : String → Except ReadError α) (text : String × String)
    (a : α) : Prop :=
  text.1 = key a ∧ parse text.2 = .ok a

/-- One text for each row, in the same order. -/
def Keeps (parse : String → Except ReadError α) (texts : Dictionary) (t : Table key) : Prop :=
  List.Forall₂ (Stands key parse) texts.rows t.rows

namespace Keeps

variable {texts : Dictionary} {t : Table key}

theorem insert (h : Keeps parse texts t) {text : String × String} {a : α}
    (ha : Stands key parse text a) : Keeps parse (texts.insert text) (t.insert a) := by
  have hrows : ∀ {rows : List (String × String)} {as : List α},
      List.Forall₂ (Stands key parse) rows as →
      List.Forall₂ (Stands key parse) (Table.insertRow Prod.fst text rows)
        (Table.insertRow key a as) := by
    intro rows as h
    induction h with
    | nil => exact .cons ha .nil
    | @cons row b rows as hrow hrest ih =>
      rw [Table.insertRow, Table.insertRow, ha.1, hrow.1]
      split
      · exact .cons ha (.cons hrow hrest)
      · split
        · exact .cons ha hrest
        · exact .cons hrow ih
  exact hrows h

theorem ofList {rows : List (String × String)} {as : List α}
    (h : List.Forall₂ (Stands key parse) rows as) :
    Keeps parse (Table.ofList rows) (Table.ofList as : Table key) := by
  have hfold : ∀ {texts : Dictionary} {t : Table key}, Keeps parse texts t →
      Keeps parse (rows.foldl Table.insert texts) (as.foldl Table.insert t) := by
    induction h with
    | nil => exact fun h => h
    | cons hrow _ ih => exact fun h => ih (h.insert hrow)
  exact hfold .nil

theorem erase (h : Keeps parse texts t) (k : String) : Keeps parse (texts.erase k) (t.erase k) := by
  have hrows : ∀ {rows : List (String × String)} {as : List α},
      List.Forall₂ (Stands key parse) rows as →
      List.Forall₂ (Stands key parse) (rows.filter (Prod.fst · != k))
        (as.filter (key · != k)) := by
    intro rows as h
    induction h with
    | nil => exact .nil
    | @cons row b rows as hrow hrest ih =>
      rw [List.filter_cons, List.filter_cons, hrow.1]
      split
      · exact .cons hrow ih
      · exact ih
  exact hrows h

theorem eraseAll (h : Keeps parse texts t) (ks : List String) :
    Keeps parse (ks.foldl Table.erase texts) (ks.foldl Table.erase t) := by
  induction ks generalizing texts t with
  | nil => exact h
  | cons k rest ih => exact ih (h.erase k)

theorem get? (h : Keeps parse texts t) (k : String) :
    (texts.get? k).mapM parse = .ok (t.find? k) := by
  have hrows : ∀ {rows : List (String × String)} {as : List α},
      List.Forall₂ (Stands key parse) rows as →
      ((rows.find? (Prod.fst · == k)).map Prod.snd).mapM parse =
        .ok (as.find? (key · == k)) := by
    intro rows as h
    induction h with
    | nil => rfl
    | @cons row b rows as hrow hrest ih =>
      rw [List.find?_cons, List.find?_cons, hrow.1]
      split
      · rw [Option.map_some]
        show (some <$> parse row.2) = _
        rw [hrow.2]
        rfl
      · exact ih
  exact hrows h

end Keeps

/-- The rows that the texts are read as, each with its key. -/
def readAll (parse : String → Except ReadError α) (texts : Dictionary) :
    Except ReadError (List (String × α)) :=
  texts.rows.mapM fun text => return (text.1, ← parse text.2)

theorem Keeps.readAll {texts : Dictionary} {t : Table key} (h : Keeps parse texts t) :
    readAll parse texts = .ok (t.rows.map fun a => (key a, a)) := by
  refine mapM_eq_ok_iff_forall₂.mpr (List.forall₂_map_right_iff.mpr (h.imp ?_))
  rintro text a ⟨hkey, hparse⟩
  rw [hkey, hparse]
  rfl

end Keeps

namespace Cluster

/-- The texts of the nodes under their ids, and of the pods under their keys. -/
structure Archive where
  nodes : Dictionary := ∅
  pods : Dictionary := ∅

/-- A choice of the value that each record is written as, by its place among the records that are
written at once. -/
structure Scribe where
  node : Nat → NodeRecord → Value
  pod : Nat → PodRecord → Value
  node_written : ∀ i (record : NodeRecord), record.Written (node i record)
  pod_written : ∀ i (record : PodRecord), record.Written (pod i record)

namespace Scribe

variable (scribe : Scribe)

def nodeRow (i : Nat) (node : NodeRecord) : String × String :=
  (node.id, (scribe.node i node).compact)

def podRow (i : Nat) (pod : PodRecord) : String × String :=
  (pod.key, (scribe.pod i pod).compact)

theorem stands_nodeRow (i : Nat) (node : NodeRecord) :
    Stands NodeRecord.id NodeRecord.parse (scribe.nodeRow i node) node :=
  ⟨rfl, (scribe.node_written i node).decodes.text none⟩

theorem stands_podRow (i : Nat) (pod : PodRecord) :
    Stands PodRecord.key PodRecord.parse (scribe.podRow i pod) pod :=
  ⟨rfl, (scribe.pod_written i pod).decodes.text none⟩

end Scribe

namespace Archive

/-- Every node and every pod, read from its text. -/
def state (archive : Archive) : Except ReadError State := do
  let nodes ← readAll NodeRecord.parse archive.nodes
  let pods ← readAll PodRecord.parse archive.pods
  return ⟨nodes.map Prod.snd, pods.map Prod.snd⟩

/-- The node of an id, read from its text. -/
def node? (archive : Archive) (id : String) : Except ReadError (Option NodeRecord) :=
  (archive.nodes.get? id).mapM NodeRecord.parse

/-- Writes the image of a node under `f`. What is not there stays away. -/
def updateNode (scribe : Scribe) (id : String) (f : NodeRecord → NodeRecord) (archive : Archive) :
    Except ReadError Archive := do
  match ← archive.node? id with
  | none => return archive
  | some node =>
    return { archive with nodes := archive.nodes.put id (scribe.nodeRow 0 (f node)).2 }

/-- Drops a node, and the pods that are bound to its id by what their texts say. -/
def removeNode (id : String) (archive : Archive) : Except ReadError Archive := do
  let pods ← readAll PodRecord.parse archive.pods
  let bound := (pods.filter fun (_, pod) => pod.nodeId == some id).map Prod.fst
  return { nodes := archive.nodes.erase id, pods := bound.foldl Table.erase archive.pods }

/-- The archive that an edit leaves. One of a node that is not there leaves it as it is. -/
def apply (scribe : Scribe) : Edit → Archive → Except ReadError Archive
  | .loadState state, _ => return {
      nodes := .ofList (state.nodes.mapIdx scribe.nodeRow)
      pods := .ofList (state.pods.mapIdx scribe.podRow) }
  | .putNode node, archive => return {
      archive with nodes := archive.nodes.insert (scribe.nodeRow 0 node) }
  | .putPod pod, archive => return {
      archive with pods := archive.pods.insert (scribe.podRow 0 pod) }
  | .removeNode id, archive => archive.removeNode id
  | .removePod key, archive => return { archive with pods := archive.pods.erase key }
  | .cordon id t, archive => archive.updateNode scribe id (·.cordon t)
  | .uncordon id, archive => archive.updateNode scribe id NodeRecord.uncordon

/-- The archive that edits leave, one after the other, each written by its own scribe. -/
def applyAll (edits : List (Scribe × Edit)) (archive : Archive) : Except ReadError Archive :=
  edits.foldlM (fun archive (scribe, edit) => archive.apply scribe edit) archive

/-- The texts of the archive are those of the records in the store. -/
structure Holds (archive : Archive) (store : Store) : Prop where
  nodes : Keeps NodeRecord.parse archive.nodes store.nodes
  pods : Keeps PodRecord.parse archive.pods store.pods

namespace Holds

variable {archive : Archive} {store : Store}

theorem state (h : archive.Holds store) : archive.state = .ok store.state := by
  rw [Archive.state, h.nodes.readAll, h.pods.readAll]
  simp [Store.state, bind, Except.bind, pure, Except.pure, Function.comp_def]

theorem node? (h : archive.Holds store) (id : String) :
    archive.node? id = .ok (store.node? id) :=
  h.nodes.get? id

theorem updateNode (h : archive.Holds store) (scribe : Scribe) (id : String)
    {f : NodeRecord → NodeRecord} (hf : ∀ node, (f node).id = node.id) :
    ∃ after, archive.updateNode scribe id f = .ok after ∧
      after.Holds ((store.updateNode id f).toOption.getD store) := by
  unfold Archive.updateNode Store.updateNode
  rw [h.node? id]
  cases hnode : store.node? id with
  | none => exact ⟨archive, rfl, h⟩
  | some node =>
    have hid : (f node).id = id := (hf node).trans (Table.find?_eq_some_iff.mp hnode).2
    have hrow := scribe.stands_nodeRow 0 (f node)
    refine ⟨_, rfl, ⟨?_, h.pods⟩⟩
    rw [← hid]
    exact h.nodes.insert hrow

theorem removeNode (h : archive.Holds store) (id : String) :
    ∃ after, archive.removeNode id = .ok after ∧ after.Holds (store.removeNode id).2 := by
  unfold Archive.removeNode
  rw [h.pods.readAll]
  refine ⟨_, rfl, ⟨h.nodes.erase id, ?_⟩⟩
  dsimp only
  generalize hbound : List.map Prod.fst _ = bound
  have hmem : ∀ pod ∈ store.pods.rows, pod.key ∈ bound ↔ pod.nodeId = some id := by
    intro pod hpod
    simp only [← hbound, List.mem_map, List.mem_filter, beq_iff_eq, Prod.exists]
    constructor
    · rintro ⟨_, other, ⟨⟨_, hother, heq⟩, hnode⟩, hkey⟩
      cases heq
      rwa [store.pods.eq_of_key_eq hpod hother hkey.symm]
    · exact fun hnode => ⟨pod.key, pod, ⟨⟨pod, hpod, rfl⟩, hnode⟩, rfl⟩
  have hpods : bound.foldl Table.erase store.pods = (store.removeNode id).2.pods := by
    refine Table.ext_mem fun pod => ?_
    show _ ↔ pod ∈ (store.pods.filter (·.nodeId != some id)).rows
    rw [Table.mem_foldl_erase, Table.mem_filter, bne_iff_ne]
    exact and_congr_right fun hpod => not_congr (hmem pod hpod)
  rw [← hpods]
  exact h.pods.eraseAll bound

theorem apply (h : archive.Holds store) (scribe : Scribe) (edit : Edit) :
    ∃ after, archive.apply scribe edit = .ok after ∧ after.Holds (edit.apply store) := by
  cases edit with
  | loadState state =>
    exact ⟨_, rfl, .ofList (forall₂_mapIdx scribe.stands_nodeRow state.nodes),
      .ofList (forall₂_mapIdx scribe.stands_podRow state.pods)⟩
  | putNode node => exact ⟨_, rfl, ⟨h.nodes.insert (scribe.stands_nodeRow 0 node), h.pods⟩⟩
  | putPod pod => exact ⟨_, rfl, ⟨h.nodes, h.pods.insert (scribe.stands_podRow 0 pod)⟩⟩
  | removeNode id => exact h.removeNode id
  | removePod key => exact ⟨_, rfl, ⟨h.nodes, h.pods.erase key⟩⟩
  | cordon id t => exact h.updateNode scribe id (NodeRecord.id_cordon · t)
  | uncordon id => exact h.updateNode scribe id NodeRecord.id_uncordon

theorem applyAll (h : archive.Holds store) (edits : List (Scribe × Edit)) :
    ∃ after, archive.applyAll edits = .ok after ∧
      after.Holds (Edit.applyAll (edits.map Prod.snd) store) := by
  induction edits generalizing archive store with
  | nil => exact ⟨archive, rfl, h⟩
  | cons written rest ih =>
    obtain ⟨scribe, edit⟩ := written
    obtain ⟨next, hnext, hholds⟩ := h.apply scribe edit
    obtain ⟨after, hafter, hlast⟩ := ih hholds
    refine ⟨after, ?_, hlast⟩
    rw [Archive.applyAll, List.foldlM_cons]
    dsimp only
    rw [hnext]
    exact hafter

end Holds

end Archive

/-- A text escapes the quote, the backslash and the control characters and nothing else. Nodes, pods
and states are read back from every text that they may be written as. Whatever edits a store goes
through, and in whatever order the rows of each dictionary are written, no text in it is ever
unreadable: what is read is what a store of records holds, and a node that is put in is read as it
is. -/
theorem records_read_back :
    (∀ c, Json.escape c = [c] ↔ c ≠ '"' ∧ c ≠ '\\' ∧ 0x20 ≤ c.toNat) ∧
    (∀ (node : NodeRecord) value, node.Written value →
      ∀ level, NodeRecord.parse (.ofList (value.render level)) = .ok node) ∧
    (∀ (pod : PodRecord) value, pod.Written value →
      ∀ level, PodRecord.parse (.ofList (value.render level)) = .ok pod) ∧
    (∀ (state : State) value, state.Written value →
      ∀ level, State.parse (.ofList (value.render level)) = .ok state) ∧
    ∀ edits : List (Scribe × Edit), ∃ archive, Archive.applyAll edits {} = .ok archive ∧
      archive.state = .ok (Edit.applyAll (edits.map Prod.snd) {}).state ∧
      (∀ id, archive.node? id = .ok ((Edit.applyAll (edits.map Prod.snd) {}).node? id)) ∧
      ∀ scribe node, ∃ after, archive.apply scribe (.putNode node) = .ok after ∧
        after.node? node.id = .ok (some node) := by
  refine ⟨Json.escape_eq_self_iff, fun _ _ h => h.decodes.text, fun _ _ h => h.decodes.text,
    fun _ _ h => h.decodes.text, fun edits => ?_⟩
  have hempty : Archive.Holds {} {} := ⟨.nil, .nil⟩
  obtain ⟨archive, happly, hholds⟩ := hempty.applyAll edits
  refine ⟨archive, happly, hholds.state, hholds.node?, fun scribe node => ?_⟩
  obtain ⟨after, hafter, hlast⟩ := hholds.apply scribe (.putNode node)
  refine ⟨after, hafter, ?_⟩
  rw [hlast.node?]
  exact congrArg Except.ok (Table.find?_insert _ node)

/-- The scribe that writes every dictionary in the order of its keys. -/
def Scribe.sorted : Scribe where
  node _ := NodeRecord.toValue
  pod _ := PodRecord.toValue
  node_written _ := NodeRecord.toValue_written
  pod_written _ := PodRecord.toValue_written

/-- A node whose texts need every kind of escape, with the largest capacity. -/
def hardNode : NodeRecord where
  id := "a\"b\\c"
  capacity := some 18446744073709551615
  unschedulable := true
  annotations := .ofList [("\x00\x1f", "\x08\t\n\x0c\r"), ("", "\x7f/é𝄞")]

/-- A value of the node that does not have its annotations in order. -/
def hardValue : Value := .object [
  ("id", .string "a\"b\\c"),
  ("capacity_millicpu", .number 18446744073709551615),
  ("unschedulable", .bool true),
  ("annotations", .object [
    ("\x00\x1f", .string "\x08\t\n\x0c\r"),
    ("", .string "\x7f/é𝄞")]),
  ("labels", .object [])]

def hardPod : PodRecord where
  space := ""
  name := "𝄞"
  nodeId := none
  request := 18446744073709551615
  labels := .ofList [("é", "\\u00e9")]

theorem records_read_back_hard :
    (hardNode.Written hardValue ∧ NodeRecord.parse hardValue.compact = .ok hardNode) ∧
    PodRecord.parse hardPod.toValue.compact = .ok hardPod ∧
    State.parse (Value.object [("nodes", .array [hardValue, .object [
      ("id", .string ""), ("capacity_millicpu", .null), ("unschedulable", .bool false),
      ("annotations", .object []), ("labels", .object [])]]),
      ("pods", .array [hardPod.toValue])]).pretty =
      .ok ⟨[hardNode, { id := "", capacity := none }], [hardPod]⟩ ∧
    ∃ archive, Archive.applyAll
      [(.sorted, .putNode hardNode), (.sorted, .uncordon "a\"b\\c")] {} = .ok archive ∧
      archive.node? "a\"b\\c" = .ok (some hardNode.uncordon) := by
  obtain ⟨-, hnode, hpod, hstate, hstore⟩ := records_read_back
  have hvalue : hardNode.Written hardValue :=
    .intro ⟨[("\x00\x1f", "\x08\t\n\x0c\r"), ("", "\x7f/é𝄞")], by decide, rfl⟩
      ⟨[], .nil, rfl⟩
  refine ⟨⟨hvalue, hnode _ _ hvalue none⟩, hpod _ _ hardPod.toValue_written none,
    hstate _ _ ?_ (some 0), ?_⟩
  · exact .intro (.cons hvalue (.cons (.intro ⟨[], .nil, rfl⟩ ⟨[], .nil, rfl⟩) .nil))
      (.cons hardPod.toValue_written .nil)
  · obtain ⟨archive, happly, -, hread, -⟩ :=
      hstore [(.sorted, .putNode hardNode), (.sorted, .uncordon "a\"b\\c")]
    exact ⟨archive, happly, hread "a\"b\\c"⟩

end Cluster

end Headroom
