import Headroom.Proofs.Interruption
import Headroom.Proofs.Stamp

/-! Histories: reconciliations, each in an outage of its own, while pods come and go. Throughout a
history a node carries a readable time of cordoning exactly while it is barred, and keeps that time
as long as it stays barred. -/

namespace Headroom

namespace Cluster

/-- The node carries a time of cordoning exactly while it is barred, and the time can be read. -/
structure NodeRecord.Stamped (node : NodeRecord) : Prop where
  carried : node.annotations.contains cordonKey = node.unschedulable
  readable : ∀ stamp, node.annotations.get? cordonKey = some stamp →
    ∃ t, Rfc3339.parse stamp = .ok t

namespace NodeRecord

variable {node : NodeRecord} {t : Instant}

theorem stamped_iff : node.Stamped ↔ node.annotations.contains cordonKey = node.unschedulable ∧
    ((node.annotations.get? cordonKey).all fun stamp => (Rfc3339.parse stamp).toOption.isSome) =
      true := by
  have hreads : ∀ stamp, (Rfc3339.parse stamp).toOption.isSome = true ↔
      ∃ t, Rfc3339.parse stamp = .ok t := by
    intro stamp
    cases Rfc3339.parse stamp <;> simp [Except.toOption]
  constructor
  · rintro ⟨hcarried, hreadable⟩
    refine ⟨hcarried, ?_⟩
    cases hstamp : node.annotations.get? cordonKey with
    | none => rfl
    | some stamp => exact (hreads stamp).mpr (hreadable stamp hstamp)
  · rintro ⟨hcarried, hreadable⟩
    refine ⟨hcarried, fun stamp hstamp => ?_⟩
    rw [hstamp] at hreadable
    exact (hreads stamp).mp hreadable

instance (node : NodeRecord) : Decidable node.Stamped := decidable_of_iff' _ stamped_iff

theorem stamped_uncordon (node : NodeRecord) : node.uncordon.Stamped := by
  have hgone : node.uncordon.annotations.contains cordonKey = false :=
    Table.not_contains_iff.mpr fun row hrow => (Table.mem_erase.mp hrow).2
  refine ⟨hgone, fun stamp hstamp => ?_⟩
  have hthere := Table.contains_of_mem (Dictionary.get?_eq_some_iff.mp hstamp)
  rw [hgone] at hthere
  exact absurd hthere Bool.false_ne_true

/-- A node that is cordoned and was not barred with a stamp before takes the time of now. -/
theorem get?_cordon (h : (node.unschedulable && node.annotations.contains cordonKey) = false) :
    (node.cordon t).annotations.get? cordonKey = some (Rfc3339.print .stamp t) := by
  rw [cordon, h]
  exact Dictionary.get?_put _ _ _

theorem Stamped.cordon (h : node.Stamped) (ht : t.FourDigitYear) : (node.cordon t).Stamped := by
  cases hkeeps : node.unschedulable && node.annotations.contains cordonKey with
  | true => rwa [show node.cordon t = node by simp [NodeRecord.cordon, hkeeps]]
  | false =>
    have hput := get?_cordon (t := t) hkeeps
    constructor
    · rw [unschedulable_cordon]
      exact Table.contains_of_mem (Dictionary.get?_eq_some_iff.mp hput)
    · intro stamp hstamp
      obtain rfl := Option.some.inj (hput.symm.trans hstamp)
      exact ⟨_, Rfc3339.parse_print_stamp ht⟩

end NodeRecord

/-- Every node carries a readable time of cordoning exactly while it is barred. -/
def Store.Stamped (store : Store) : Prop := ∀ node ∈ store.nodes.rows, node.Stamped

end Cluster

namespace Scaling

open Cluster (Node NodeRecord PodRecord Snapshot State Store)
open Procedure

variable {config : Config} {shape : NodeShape} {now later : Instant} {store : Store}
  {outage : Outage}

theorem stamped_node (shape : NodeShape) (k : Nat) : (shape.node k).Stamped :=
  ⟨rfl, fun _ hstamp => absurd hstamp (by simp [Dictionary.get?, Table.find?, NodeShape.node,
    EmptyCollection.emptyCollection, Table.empty])⟩

theorem stamped_execute {command : Command} (h : store.Stamped)
    (hclock : ∀ id t, command = .cordon id t → t.FourDigitYear) :
    (shape.backend.execute command store).2.Stamped := by
  intro node hnode
  cases descends_of_mem hnode with
  | kept old => exact h node old
  | opened old => exact NodeRecord.stamped_uncordon _
  | barred old => exact (h _ old).cordon (hclock _ _ rfl)
  | added => exact stamped_node shape _

/-! ### Reading the stamps -/

theorem exists_doomed (h : store.Stamped) (config : Config) (now : Instant) :
    ∃ gone, doomed config.grace (store.state.snapshot config.protection) now = .ok gone := by
  apply doomed_go_ok
  intro view hview
  obtain ⟨node, hnode, rfl⟩ := State.exists_of_mem_cordoned_snapshot hview
  obtain ⟨hrow, hbarred⟩ := State.mem_cordoned.mp hnode
  have hstamped : node.Stamped := h node hrow
  have hcarried := hstamped.carried
  rw [hbarred, Table.contains_iff] at hcarried
  obtain ⟨⟨key, stamp⟩, hentry, rfl⟩ := hcarried
  have hstamp := Dictionary.get?_eq_some_iff.mpr hentry
  obtain ⟨t, ht⟩ := hstamped.readable stamp hstamp
  exact ⟨t, cordonedAt_view_eq_ok_iff.mpr ⟨hbarred, stamp, hstamp, ht⟩⟩

theorem reap_blameless (h : store.Stamped) {halt : Halt} {after : Hampered Store}
    (hrun : (reap config.grace config.protection later).run shape.backend.hampered
      ⟨store, outage⟩ = (.error halt, after)) : halt.Blameless := by
  obtain ⟨q, rest, hcontinues, hq⟩ :=
    @exists_continues_capture shape store outage _ config.protection (reapFrom config later)
  rw [reap_eq, hcontinues.run_eq] at hrun
  have hchecked : q.Checked config.protection Halt.Blameless := by
    rcases hq with rfl | ⟨error, rfl⟩
    · obtain ⟨gone, hgone⟩ := exists_doomed h config later
      simp only [reapFrom, hgone]
      split
      · trivial
      · exact (Checked.issueAll _).bind fun _ => trivial
    · trivial
  exact hchecked.expected_of_run (fun _ => trivial) (fun _ _ => trivial) hrun

/-- A reconciliation at a time of a year of four digits keeps stamped what is stamped, wherever it
is cut off, and does not blame a node. -/
theorem stamped_tick (config : Config) (shape : NodeShape) (later : Instant) (outage : Outage)
    (h : store.Stamped) (hclock : now.FourDigitYear) :
    (∀ call ∈ (tick config now later).issued shape.backend.hampered ⟨store, outage⟩,
      call.2.world.Stamped) ∧
    ((tick config now later).run shape.backend.hampered ⟨store, outage⟩).2.world.Stamped ∧
    ∀ halt, ((tick config now later).run shape.backend.hampered ⟨store, outage⟩).1 = .error halt →
      halt.Blameless := by
  obtain ⟨hmiddle, hcalls, hfinal⟩ := tick_keeps config shape now later outage h
    fun command world hpermitted hworld => stamped_execute hworld fun id t hcordon => by
      rw [hcordon] at hpermitted
      exact hpermitted.2 ▸ hclock
  refine ⟨hcalls, hfinal, fun halt hhalt => ?_⟩
  rcases htick : (tick config now later).run shape.backend.hampered ⟨store, outage⟩ with
    ⟨result, final⟩
  rw [htick] at hhalt
  cases ends_of_run htick with
  | scaling adjusts =>
    obtain rfl := Except.error.inj hhalt
    exact (adjust_checked config now).expected_of_run (fun _ => trivial) (fun _ _ => trivial)
      adjusts
  | reaping adjusts reaps =>
    rw [adjusts] at hmiddle
    obtain rfl := Except.error.inj hhalt
    exact reap_blameless hmiddle reaps
  | reported => exact nomatch hhalt

/-- A node barred under the id of `old` can only be `old` as it is. -/
def BarredAs (old : NodeRecord) (store : Store) : Prop :=
  ∀ node ∈ store.nodes.rows, node.unschedulable = true → node.id = old.id → node = old

theorem barredAs_execute {old : NodeRecord} {command : Command} {world : Store}
    (hold : old ∈ store.nodes.rows) (hbarred : old.unschedulable = true)
    (hpermitted : command.Permitted store now) (hworld : BarredAs old world) :
    BarredAs old (shape.backend.execute command world).2 := by
  intro node hnode hnodeBarred hid
  cases descends_of_mem hnode with
  | kept there => exact hworld node there hnodeBarred hid
  | opened => exact absurd hnodeBarred Bool.false_ne_true
  | added => exact absurd hnodeBarred Bool.false_ne_true
  | barred =>
    -- Only nodes that were open at the start are barred, and this one was not.
    have hopen := hpermitted.1
    rw [← NodeRecord.id_cordon, hid, Store.mem_openNodes_of_mem hold, hbarred] at hopen
    exact absurd hopen.symm Bool.false_ne_true

theorem barred_stays (config : Config) (shape : NodeShape) (now later : Instant) (outage : Outage)
    {old : NodeRecord} (hold : old ∈ store.nodes.rows) (hbarred : old.unschedulable = true) :
    BarredAs old
      ((tick config now later).run shape.backend.hampered ⟨store, outage⟩).2.world := by
  have hstart : BarredAs old store := fun node hnode _ hid =>
    store.nodes.eq_of_key_eq hnode hold hid
  exact (tick_keeps config shape now later outage hstart
    fun _ _ hpermitted hworld => barredAs_execute hold hbarred hpermitted hworld).2.2

/-! ### Histories -/

/-- What happens to a store: it is reconciled in an outage, or a pod comes or goes. -/
inductive Event where
  | tick (now later : Instant) (outage : Outage)
  | putPod (pod : PodRecord)
  | removePod (key : String)

/-- The store that an event leaves. -/
def Event.apply (config : Config) (shape : NodeShape) : Event → Store → Store
  | .tick now later outage, store =>
    ((Scaling.tick config now later).run shape.backend.hampered ⟨store, outage⟩).2.world
  | .putPod pod, store => store.putPod pod
  | .removePod key, store => (store.removePod key).2

/-- The store before the event of a number, counted from 0. -/
def history (config : Config) (shape : NodeShape) (start : Store) (events : Nat → Event) :
    Nat → Store
  | 0 => start
  | n + 1 => (events n).apply config shape (history config shape start events n)

variable {start : Store} {events : Nat → Event} {n : Nat}

/-- What every reconciliation keeps is kept by a history, if it does not depend on the pods. -/
theorem history_keeps (keeps : Store → Prop)
    (hpods : ∀ (world : Store) pods, keeps world → keeps { world with pods }) {i j : Nat}
    (hij : i ≤ j) (h : keeps (history config shape start events i))
    (htick : ∀ k, i ≤ k → k < j → ∀ now later outage, events k = .tick now later outage →
      keeps (history config shape start events k) →
      keeps ((tick config now later).run shape.backend.hampered
        ⟨history config shape start events k, outage⟩).2.world) :
    keeps (history config shape start events j) := by
  induction j, hij using Nat.le_induction with
  | base => exact h
  | succ j hij ih =>
    have hbefore := ih fun k hik hkj => htick k hik (by omega)
    rw [history]
    cases hevent : events j with
    | tick now later outage => exact htick j hij (by omega) now later outage hevent hbefore
    | putPod pod => exact hpods _ _ hbefore
    | removePod key => exact hpods _ _ hbefore

theorem stamped_history (hstart : start.Stamped)
    (hclock : ∀ i < n, ∀ now later outage, events i = .tick now later outage →
      now.FourDigitYear) :
    ∀ i ≤ n, (history config shape start events i).Stamped := by
  intro i hi
  refine history_keeps Store.Stamped (fun _ _ h => h) (Nat.zero_le i) hstart ?_
  intro k _ hk now later outage hevent hbefore
  have hyear := hclock k (by omega) now later outage hevent
  exact (stamped_tick config shape later outage hbefore hyear).2.1

/-- Let every node at the start carry a readable time of cordoning exactly while it is barred, and
let the clock stay in years of four digits. Then this holds of every store of the history, and of
every store that a command meets; a reconciliation leaves the time of cordoning of a node that is
barred before and after it, and blames no node. -/
theorem stamps_stay (config : Config) (shape : NodeShape) {start : Store} {events : Nat → Event}
    {n : Nat} (hstart : start.Stamped)
    (hclock : ∀ i < n, ∀ now later outage, events i = .tick now later outage →
      now.FourDigitYear) :
    (∀ i ≤ n, (history config shape start events i).Stamped) ∧
    ∀ i < n, ∀ now later outage, events i = .tick now later outage →
      (∀ call ∈ (tick config now later).issued shape.backend.hampered
        ⟨history config shape start events i, outage⟩, call.2.world.Stamped) ∧
      (∀ old ∈ (history config shape start events i).nodes.rows,
        ∀ new ∈ (history config shape start events (i + 1)).nodes.rows, new.id = old.id →
          old.unschedulable = true → new.unschedulable = true →
          new.annotations.get? Cluster.cordonKey = old.annotations.get? Cluster.cordonKey) ∧
      ∀ node reason, ((tick config now later).run shape.backend.hampered
        ⟨history config shape start events i, outage⟩).1 ≠
          .error (.failed (.malformedNodeState node reason)) := by
  have hstamped : ∀ i ≤ n, (history config shape start events i).Stamped :=
    stamped_history hstart hclock
  refine ⟨hstamped, fun i hi now later outage hevent => ?_⟩
  obtain ⟨hcalls, -, hhalts⟩ := stamped_tick config shape later outage (hstamped i hi.le)
    (hclock i hi now later outage hevent)
  refine ⟨hcalls, fun old hold new hnew hid holdBarred hnewBarred => ?_, fun node reason h => ?_⟩
  · rw [history, hevent] at hnew
    rw [barred_stays config shape now later outage hold holdBarred new hnew hnewBarred hid]
  · exact hhalts _ h

/-- The small pool cannot grow once a node is opened again; then a pod comes. -/
def smallEvents : Nat → Event
  | 0 => .tick smallNow smallNow { commands := smallOutage.commands }
  | _ => .putPod { space := "games", name := "next", nodeId := some "a", request := 100 }

set_option maxRecDepth 10000 in
theorem smallStore_stamped : smallStore.Stamped := by
  have hall : (smallStore.nodes.rows.all fun node => decide node.Stamped) = true := by cbv
  exact fun node hnode => of_decide_eq_true (List.all_eq_true.mp hall node hnode)

theorem stamps_stay_small :
    smallStore.Stamped ∧ smallNow.FourDigitYear ∧
    (history greedyConfig {} smallStore smallEvents 2).Stamped := by
  have hclock : smallNow.FourDigitYear := by decide
  refine ⟨smallStore_stamped, hclock, ?_⟩
  have hclocks : ∀ i < 2, ∀ now later outage, smallEvents i = .tick now later outage →
      now.FourDigitYear := by
    intro i _ now later outage hevent
    match i, hevent with
    | 0, rfl => exact hclock
  exact (stamps_stay greedyConfig {} smallStore_stamped hclocks).1 2 le_rfl

end Scaling

end Headroom
