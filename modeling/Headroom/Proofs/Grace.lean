import Headroom.Proofs.History
import Headroom.Proofs.Waiting

/-! The grace period is waited out. A stamp holds whole seconds only, so what is waited for is the
end of the grace period counted from the second in which a node was cordoned; counted from the
moment itself, it may not be over yet. -/

namespace Headroom

namespace Instant

theorem wholeSecond_mono {s t : Instant} (h : s ≤ t) : s.wholeSecond ≤ t.wholeSecond := by
  have hrank : s.rank ≤ t.rank := h
  have hs := s.nano_lt
  have ht := t.nano_lt
  show s.wholeSecond.rank ≤ t.wholeSecond.rank
  unfold rank wholeSecond at *
  dsimp only
  omega

end Instant

namespace Scaling

open Cluster (NodeRecord Store)
open Procedure

variable {config : Config} {shape : NodeShape} {now later : Instant} {store : Store}
  {outage : Outage}

/-! ### Stamps from some moment on -/

/-- While a node of an id is barred, it carries the stamp of a moment from `t` on. -/
def BarredSince (t : Instant) (id : String) (store : Store) : Prop :=
  ∀ node ∈ store.nodes.rows, node.id = id → node.unschedulable = true →
    ∃ u, t ≤ u ∧ u.FourDigitYear ∧
      node.annotations.get? Cluster.cordonKey = some (Rfc3339.print .stamp u)

variable {t : Instant} {id : String}

theorem barredSince_of_open (h : id ∈ store.openNodes) : BarredSince t id store := by
  intro node hnode hid hbarred
  rw [← hid, Store.mem_openNodes_of_mem hnode, hbarred] at h
  exact absurd h.symm Bool.false_ne_true

theorem barredSince_execute {command : Command} (h : BarredSince t id store)
    (hclock : ∀ other u, command = .cordon other u → t ≤ u ∧ u.FourDigitYear) :
    BarredSince t id (shape.backend.execute command store).2 := by
  intro node hnode hid hbarred
  cases descends_of_mem hnode with
  | kept old => exact h node old hid hbarred
  | opened => exact absurd hbarred Bool.false_ne_true
  | added => exact absurd hbarred Bool.false_ne_true
  | @barred old u hold =>
    cases hkeeps : old.unschedulable && old.annotations.contains Cluster.cordonKey with
    | true =>
      have hsame : old.cordon u = old := by simp [NodeRecord.cordon, hkeeps]
      rw [hsame] at hid hbarred ⊢
      exact h old hold hid hbarred
    | false =>
      obtain ⟨hle, hyear⟩ := hclock old.id u rfl
      exact ⟨u, hle, hyear, NodeRecord.get?_cordon hkeeps⟩

/-- A reconciliation from `t` on stamps no node earlier. -/
theorem barredSince_tick (config : Config) (shape : NodeShape) (later : Instant) (outage : Outage)
    (h : BarredSince t id store) (hle : t ≤ now) (hyear : now.FourDigitYear) :
    BarredSince t id ((adjust config now).run shape.backend.hampered ⟨store, outage⟩).2.world ∧
    BarredSince t id
      ((tick config now later).run shape.backend.hampered ⟨store, outage⟩).2.world := by
  obtain ⟨hmiddle, -, hfinal⟩ := tick_keeps config shape now later outage h
    fun command world hpermitted hworld => barredSince_execute hworld fun other u hcordon => by
      rw [hcordon] at hpermitted
      exact hpermitted.2 ▸ ⟨hle, hyear⟩
  exact ⟨hmiddle, hfinal⟩

/-! ### What a reconciliation asks for -/

/-- The command removes a node of the id. -/
def Command.Deletes (id : String) : Command → Prop
  | .deleteNodes ids => id ∈ ids
  | .deregister other => other = id
  | _ => False

/-- Only nodes that were open at the start are cordoned, at the time of the reconciliation. -/
theorem open_of_mem_issued {world : Hampered Store} (h : (.cordon id t, world) ∈
      (tick config now later).issued shape.backend.hampered ⟨store, outage⟩) :
    id ∈ store.openNodes ∧ t = now := by
  rcases mem_issued_bind.mp h with h | ⟨_, middle, -, h⟩
  · obtain ⟨q, rest, hcontinues, honly⟩ := exists_continues_adjust config shape now store outage
    rw [hcontinues.issued_eq] at h
    exact honly.mem_issued _ h
  · rcases mem_issued_bind.mp h with h | ⟨_, _, _, h⟩
    · exact ((reap_removes config later).mem_issued _ h).elim
    · exact absurd h List.not_mem_nil

theorem reapable_of_mem_issued {command : Command} {world : Hampered Store}
    (h : (command, world) ∈
      (tick config now later).issued shape.backend.hampered ⟨store, outage⟩)
    (hdeletes : command.Deletes id) :
    ∃ node ∈ ((adjust config now).run shape.backend.hampered ⟨store, outage⟩).2.world.nodes.rows,
      Reapable config
        ((adjust config now).run shape.backend.hampered ⟨store, outage⟩).2.world later node ∧
      node.id = id := by
  rcases mem_issued_bind.mp h with h | ⟨_, middle, hadjust, h⟩
  · have hscales := (adjust_only config now).mem_issued _ h
    cases command with
    | deleteNodes ids => exact hscales.elim
    | deregister other => exact hscales.elim
    | uncordon other => exact hdeletes.elim
    | cordon other u => exact hdeletes.elim
    | increaseToSize size => exact hdeletes.elim
  · rw [hadjust]
    rcases mem_issued_bind.mp h with h | ⟨_, _, _, h⟩
    · obtain ⟨q, rest, hcontinues, honly⟩ :=
        exists_continues_reap config shape later middle.world middle.outage
      rw [hcontinues.issued_eq] at h
      have hremoves := honly.mem_issued _ h
      cases command with
      | deleteNodes ids => exact hremoves id hdeletes
      | deregister other => exact hdeletes ▸ hremoves
      | uncordon other => exact hdeletes.elim
      | cordon other u => exact hdeletes.elim
      | increaseToSize size => exact hdeletes.elim
    · exact absurd h List.not_mem_nil

/-! ### Histories -/

variable {start : Store} {events : Nat → Event} {n : Nat}

/-- The clock stays in years of four digits and never goes back from one of the first `n` events to
another. -/
structure Advancing (events : Nat → Event) (n : Nat) : Prop where
  year : ∀ i < n, ∀ now later outage, events i = .tick now later outage → now.FourDigitYear
  order : ∀ i j, i ≤ j → j < n → ∀ now later outage now' later' outage',
    events i = .tick now later outage → events j = .tick now' later' outage' → now ≤ now'

theorem barredSince_history {i j : Nat} (hij : i ≤ j)
    (h : BarredSince t id (history config shape start events i))
    (hclock : ∀ k, i ≤ k → k < j → ∀ now later outage, events k = .tick now later outage →
      t ≤ now ∧ now.FourDigitYear) : BarredSince t id (history config shape start events j) := by
  refine history_keeps (BarredSince t id) (fun _ _ h => h) hij h ?_
  intro k hik hkj now later outage hevent hbefore
  obtain ⟨hle, hyear⟩ := hclock k hik hkj now later outage hevent
  exact (barredSince_tick config shape later outage hbefore hle hyear).2

/-- Let a reconciliation of a history cordon a node at `t`, and let it or a later one delete the
node. Then the deleting one reads a time at which the grace period is over that began with the
second of `t`; which is the grace period from `t` on, if `t` has no fraction of a second. -/
theorem grace_waited (config : Config) (shape : NodeShape) (start : Store) {events : Nat → Event}
    {n i j : Nat} (hclock : Advancing events n) (hij : i ≤ j) (hj : j < n)
    {now later now' later' : Instant} {outage outage' : Outage}
    (hcordons : events i = .tick now later outage) (hdeletes : events j = .tick now' later' outage')
    {id : String} {t : Instant} {world : Hampered Store}
    (hcordon : (.cordon id t, world) ∈ (tick config now later).issued shape.backend.hampered
      ⟨history config shape start events i, outage⟩)
    {command : Command} {world' : Hampered Store} (hdelete : command.Deletes id)
    (hissued : (command, world') ∈ (tick config now' later').issued shape.backend.hampered
      ⟨history config shape start events j, outage'⟩) :
    endOfWait config.grace t.wholeSecond ≤ later' ∧
      (t.nano % 1000000000 = 0 → endOfWait config.grace t ≤ later') := by
  obtain ⟨hopen, rfl⟩ := open_of_mem_issued hcordon
  have hbarred : BarredSince t id (history config shape start events j) :=
    barredSince_history hij (barredSince_of_open hopen) fun k hik hkj now later outage hevent =>
      ⟨hclock.order i k hik (by omega) _ _ _ _ _ _ hcordons hevent,
        hclock.year k (by omega) _ _ _ hevent⟩
  have hmiddle := (barredSince_tick config shape later' outage' hbarred
    (hclock.order i j hij hj _ _ _ _ _ _ hcordons hdeletes)
    (hclock.year j hj _ _ _ hdeletes)).1
  obtain ⟨node, hnode, hreap, hid⟩ := reapable_of_mem_issued hissued hdelete
  obtain ⟨u, hle, hyear, hstamp⟩ := hmiddle node hnode hid hreap.cordoned
  obtain ⟨stamp, v, hstamp', hparse, hover⟩ := hreap.overdue
  obtain rfl := Option.some.inj (hstamp.symm.trans hstamp')
  obtain rfl := Except.ok.inj ((Rfc3339.parse_print_stamp hyear).symm.trans hparse)
  have hwait : endOfWait config.grace t.wholeSecond ≤ later' := by
    have hmono := endOfWait_mono config.grace (by simp [Instant.wholeSecond])
      (by simp [Instant.wholeSecond]) (Instant.wholeSecond_mono hle)
    exact Instant.le_trans hmono hover
  exact ⟨hwait, fun hfraction => by rwa [Instant.wholeSecond_of_no_fraction hfraction] at hwait⟩

/-! ### A fraction of a second -/

/-- Two open nodes that run nothing. -/
def pairStore : Store := .ofState {
  nodes := [{ id := "a", capacity := some 1000 }, { id := "b", capacity := some 1000 }] }

/-- A target that one of the two nodes can hold. -/
def pairConfig : Config := { smallConfig with target := 10, target_le := by decide }

/-- Half a second past midnight. -/
def pairNow : Instant :=
  { smallNow with
    second := 0
    nano := 500000000
    second_lt := by decide
    nano_lt := by decide
    leap := by decide }

/-- Ten minutes past midnight. -/
def pairDue : Instant :=
  { smallNow with second := 600, second_lt := by decide, leap := by decide }

def pairEvents : Nat → Event
  | 0 => .tick pairNow pairNow {}
  | _ => .tick pairDue pairDue {}

theorem pairEvents_time {i : Nat} (h : pairEvents i = .tick now later outage) :
    now = if i = 0 then pairNow else pairDue := by
  cases i with
  | zero => exact (Event.tick.inj h).1.symm
  | succ i => exact (Event.tick.inj h).1.symm

theorem pairEvents_advancing : Advancing pairEvents 2 := by
  constructor
  · intro i _ now later outage h
    rw [pairEvents_time h]
    split <;> decide
  · intro i j hij _ now later outage now' later' outage' h h'
    rw [pairEvents_time h, pairEvents_time h']
    by_cases hi : i = 0
    · rw [if_pos hi]
      split <;> decide
    · rw [if_neg hi, if_neg (by omega)]
      decide

set_option maxRecDepth 10000 in
theorem pair_cordons : ((tick pairConfig pairNow pairNow).issued (NodeShape.backend {}).hampered
    ⟨history pairConfig {} pairStore pairEvents 0, {}⟩).map Prod.fst = [.cordon "a" pairNow] := by
  cbv

set_option maxRecDepth 10000 in
theorem pair_deletes : ((tick pairConfig pairDue pairDue).issued (NodeShape.backend {}).hampered
    ⟨history pairConfig {} pairStore pairEvents 1, {}⟩).map Prod.fst =
      [.deleteNodes ["a"], .deregister "a"] := by
  cbv

theorem grace_waited_pair : Advancing pairEvents 2 ∧
    endOfWait pairConfig.grace pairNow.wholeSecond ≤ pairDue := by
  refine ⟨pairEvents_advancing, ?_⟩
  obtain ⟨⟨_, _⟩, hcordon, rfl⟩ := List.mem_map.mp
    (pair_cordons ▸ List.mem_cons_self : Command.cordon "a" pairNow ∈ _)
  obtain ⟨⟨_, _⟩, hdelete, rfl⟩ := List.mem_map.mp
    (pair_deletes ▸ List.mem_cons_self : Command.deleteNodes ["a"] ∈ _)
  exact (grace_waited pairConfig {} pairStore pairEvents_advancing (Nat.zero_le 1) (by decide)
    rfl rfl hcordon List.mem_cons_self hdelete).1

set_option maxRecDepth 10000 in
/-- Cordoned half a second past midnight, a node is deleted ten minutes past midnight, where a grace
period of ten minutes is not over. -/
theorem grace_cut_short :
    ((tick pairConfig pairNow).run (NodeShape.backend {}) pairStore).1 =
      .ok ⟨20, 10, .shrunk ["a"], []⟩ ∧
    ((tick pairConfig pairDue).run (NodeShape.backend {})
      ((tick pairConfig pairNow).run (NodeShape.backend {}) pairStore).2).1 =
        .ok ⟨10, 10, .unchanged, ["a"]⟩ ∧
    pairNow ≤ pairDue ∧ pairDue < endOfWait pairConfig.grace pairNow := by
  refine ⟨by cbv, by cbv, by decide, by decide⟩

end Scaling

end Headroom
