import Headroom.Proofs.History
import Headroom.Proofs.Planning

/-! Reading back the time that cordoning has written on a node. The calendar has one date for each
day. A time whose date has a year of four digits is read back to the second; any other year is
written with a sign and cannot be read. -/

namespace Headroom.Cluster

variable {rule : Protection} {store : Store} {node : NodeRecord} {now : Instant}

/-- The time of a barred node is what its stamp is read as; the error repeats the stamp. -/
theorem NodeRecord.cordonedAt_view {stamp : String} (hbarred : node.unschedulable = true)
    (hstamp : node.annotations.get? cordonKey = some stamp) :
    node.view.cordonedAt = (Rfc3339.parse stamp).mapError fun e =>
      .malformedNodeState node.id
        ("unparseable cordon timestamp " ++ Text.quoted stamp ++ ": " ++ e.message) := by
  unfold Node.cordonedAt NodeRecord.view
  rw [hbarred, if_pos rfl, hstamp]
  simp only [Bool.not_true, Bool.false_eq_true, if_false]
  cases Rfc3339.parse stamp with
  | error e => rfl
  | ok t => rfl

/-- After a node is cordoned a snapshot shows it so. -/
theorem Store.exists_cordon (rule : Protection)
    (hknown : ∀ node ∈ store.nodes.rows, node.capacity.isSome) (hnode : node ∈ store.nodes.rows)
    (now : Instant) :
    ∃ after s, store.cordon node.id now = .ok after ∧ Snapshot.ofState after.state rule = .ok s ∧
      s.node? node.id = some (node.cordon now).view := by
  have hid : ∀ node : NodeRecord, (node.cordon now).id = node.id := fun node => node.id_cordon now
  have hrows : (store.updateNodes [node.id] (·.cordon now) hid).nodes.rows = _ :=
    rows_updateNodes hid
  set after := store.updateNodes [node.id] (·.cordon now) hid
  have hcordoned : node.cordon now ∈ after.state.nodes := by
    rw [state, hrows]
    exact List.mem_map.mpr ⟨node, hnode, if_pos (List.mem_singleton_self node.id)⟩
  have hshown : (after.state.snapshot rule).node? (node.cordon now).id = _ :=
    Scaling.node?_snapshot (State.distinct_of_store after) hcordoned
  rw [hid] at hshown
  refine ⟨after, _, (updateNode_eq_ok_iff hid).mpr ⟨Table.contains_of_mem hnode, rfl⟩,
    State.ofState_eq_ok_iff.mpr ⟨fun other hother => ?_, rfl⟩, hshown⟩
  rw [state, hrows] at hother
  obtain ⟨old, hold, rfl⟩ := List.mem_map.mp hother
  split
  · rw [NodeRecord.capacity_cordon]
    exact hknown old hold
  · exact hknown old hold

/-- Let all nodes of a store state their capacity, and let one of them be open, whatever time it
carries. Cordoning it at any moment succeeds, and a snapshot then shows it. The day of the moment
has exactly one date in the calendar. If its year is one of 0 to 9999, the time of cordoning is the
moment without its fraction of a second, where a leap second stays one; otherwise the node's state
is malformed, and the error repeats what was written. -/
theorem cordon_reads_back (rule : Protection)
    (hknown : ∀ node ∈ store.nodes.rows, node.capacity.isSome) (hnode : node ∈ store.nodes.rows)
    (hopen : node.unschedulable = false) (now : Instant) :
    ∃ after s view, ∃ date : Date, store.cordon node.id now = .ok after ∧
      Snapshot.ofState after.state rule = .ok s ∧ s.node? node.id = some view ∧
      date.Exists ∧ date.number = now.day ∧
      (∀ other : Date, other.Exists → other.number = now.day → other = date) ∧
      (0 ≤ date.year ∧ date.year ≤ 9999 → ∃ t, view.cordonedAt = .ok t ∧
        t.day = now.day ∧ t.second = now.second ∧
        t.nano = if now.nano < 1000000000 then 0 else 1000000000) ∧
      (date.year < 0 ∨ 9999 < date.year → view.cordonedAt = .error (.malformedNodeState node.id
        ("unparseable cordon timestamp " ++ Text.quoted (Rfc3339.print .stamp now) ++ ": " ++
          Rfc3339.ParseError.message .invalid))) := by
  obtain ⟨after, s, hcordon, hs, hshown⟩ := Store.exists_cordon rule hknown hnode now
  obtain ⟨hexists, hnumber⟩ := Date.ofNumber_spec now.day
  have hat := NodeRecord.cordonedAt_view (node.unschedulable_cordon now)
    (NodeRecord.get?_cordon (t := now) (by rw [hopen, Bool.false_and]))
  refine ⟨after, s, _, Date.ofNumber now.day, hcordon, hs, hshown, hexists, hnumber,
    fun other hother hday => hother.ofNumber_number.symm.trans (congrArg _ hday),
    fun hyear => ⟨now.wholeSecond, ?_, rfl, rfl, ?_⟩, fun hyear => ?_⟩
  · rw [hat, Rfc3339.parse_print_stamp hyear]
    rfl
  · have hnano := now.nano_lt
    show now.nano / 1000000000 * 1000000000 = _
    split <;> omega
  · have hsigned : ¬now.FourDigitYear := by
      unfold Instant.FourDigitYear Instant.year
      omega
    rw [hat, Rfc3339.parse_print_stamp_of_signed hsigned, node.id_cordon]
    rfl

/-- An open node that carries a stale time. -/
def staleNode : NodeRecord where
  id := "a"
  capacity := some 1000
  annotations := Dictionary.put ∅ cordonKey "yesterday"

/-- A store with this node alone. -/
def staleStore : Store := { nodes := Table.insert ∅ staleNode }

/-- Half way through the leap second at the end of 2016. -/
def leapMoment : Instant :=
  { Instant.latest with
    day := 17166
    nano := 1500000000
    firstDay_le := by decide
    le_lastDay := by decide
    nano_lt := by decide
    leap := by decide }

/-- The leap second is read back, the last moment of the calendar is not. -/
theorem cordon_reads_back_leap :
    (∀ node ∈ staleStore.nodes.rows, node.capacity.isSome) ∧ staleNode ∈ staleStore.nodes.rows ∧
    staleNode.unschedulable = false ∧
    (∃ after s view, staleStore.cordon "a" leapMoment = .ok after ∧
      Snapshot.ofState after.state {} = .ok s ∧ s.node? "a" = some view ∧
      ∃ t, view.cordonedAt = .ok t ∧ t.day = 17166 ∧ t.second = 86399 ∧ t.nano = 1000000000) ∧
    ∃ after s view, staleStore.cordon "a" .latest = .ok after ∧
      Snapshot.ofState after.state {} = .ok s ∧ s.node? "a" = some view ∧
      ∃ reason, view.cordonedAt = .error (.malformedNodeState "a" reason) := by
  have hknown : ∀ node ∈ staleStore.nodes.rows, node.capacity.isSome := by decide
  have hnode : staleNode ∈ staleStore.nodes.rows := by decide
  refine ⟨hknown, hnode, rfl, ?_, ?_⟩
  · obtain ⟨after, s, view, date, hcordon, hs, hshown, -, -, honly, hread, -⟩ :=
      cordon_reads_back {} hknown hnode rfl leapMoment
    obtain rfl := honly ⟨2016, 12, 31⟩ (by decide) (by decide)
    exact ⟨after, s, view, hcordon, hs, hshown, hread (by decide)⟩
  · obtain ⟨after, s, view, date, hcordon, hs, hshown, -, -, honly, -, hlost⟩ :=
      cordon_reads_back {} hknown hnode rfl .latest
    obtain rfl := honly ⟨262142, 12, 31⟩ (by decide) (by decide)
    exact ⟨after, s, view, hcordon, hs, hshown, _, hlost (by decide)⟩

end Headroom.Cluster
