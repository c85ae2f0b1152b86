import Headroom.Proofs.Difference
import Headroom.Rehearsal

/-! Requests that fail. An outage says which fetches and which commands fail, and what fails has no
effect. The first failure ends a reconciliation with an error that names it: what was commanded
before stays carried out, and nothing is asked for after it. -/

namespace Headroom

namespace Rehearsal

/-- The command that a call issues. -/
def Call.command? : Call → Option Scaling.Command
  | .fetch => none
  | .command issued => some issued

/-- The commands among some calls, in their order. -/
def commandsOf (calls : List Call) : List Scaling.Command := calls.filterMap Call.command?

/-- How many of some calls are fetches. -/
def fetchCount : List Call → Nat
  | [] => 0
  | .fetch :: rest => fetchCount rest + 1
  | .command _ :: rest => fetchCount rest

@[simp] theorem commandsOf_nil : commandsOf [] = [] := rfl

@[simp] theorem commandsOf_fetch (calls : List Call) :
    commandsOf (.fetch :: calls) = commandsOf calls := rfl

@[simp] theorem commandsOf_command (command : Scaling.Command) (calls : List Call) :
    commandsOf (.command command :: calls) = command :: commandsOf calls := rfl

theorem commandsOf_append (earlier later : List Call) :
    commandsOf (earlier ++ later) = commandsOf earlier ++ commandsOf later :=
  List.filterMap_append

theorem exists_split_of_commandsOf {calls : List Call} {done others : List Scaling.Command}
    {command : Scaling.Command} (h : commandsOf calls = done ++ command :: others) :
    ∃ earlier later, calls = earlier ++ .command command :: later ∧ commandsOf earlier = done := by
  obtain ⟨earlier, rest, rfl, hdone, hrest⟩ := List.filterMap_eq_append_iff.mp h
  obtain ⟨fetches, call, later, rfl, hfetches, hcall, -⟩ := List.filterMap_eq_cons_iff.mp hrest
  refine ⟨earlier ++ fetches, later, ?_, ?_⟩
  · cases call with
    | fetch => exact absurd hcall (by simp [Call.command?])
    | command issued =>
      obtain rfl := Option.some.inj hcall
      rw [List.append_assoc]
  · rw [commandsOf_append, show commandsOf earlier = done from hdone,
      show commandsOf fetches = [] from List.filterMap_eq_nil_iff.mpr hfetches, List.append_nil]

end Rehearsal

namespace Scaling

open Cluster (NodeRecord Protection Snapshot State Store)
open Rehearsal (Call commandsOf fetchCount)
open Procedure

/-- The fetches and the commands to come that fail, by their numbers from 0, and how they do. -/
structure Outage where
  fetches : Nat → Option Cluster.Error := fun _ => none
  commands : Nat → Option Refusal := fun _ => none

namespace Outage

variable {outage : Outage} {calls : List Call} {command : Command}

/-- What is left of an outage after a fetch. -/
def afterFetch (outage : Outage) : Outage :=
  { outage with fetches := fun n => outage.fetches (n + 1) }

/-- What is left of an outage after a command. -/
def afterCommand (outage : Outage) : Outage :=
  { outage with commands := fun n => outage.commands (n + 1) }

/-- None of some calls, made first, is to fail. -/
structure Passes (outage : Outage) (calls : List Call) : Prop where
  fetches : ∀ n < fetchCount calls, outage.fetches n = none
  commands : ∀ n < (commandsOf calls).length, outage.commands n = none

theorem Passes.afterFetch (h : outage.Passes (.fetch :: calls)) : outage.afterFetch.Passes calls :=
  ⟨fun n hn => h.fetches (n + 1) (Nat.succ_lt_succ hn), h.commands⟩

theorem Passes.afterCommand (h : outage.Passes (.command command :: calls)) :
    outage.afterCommand.Passes calls :=
  ⟨h.fetches, fun n hn => h.commands (n + 1) (Nat.succ_lt_succ hn)⟩

/-- What a fetch that follows some calls fails with, if it does: with what the outage says, or with
a node of unknown capacity that it shows. -/
def fetchError? (outage : Outage) (earlier : List Call) (store : Store) : Option Cluster.Error :=
  (outage.fetches (fetchCount earlier)).or store.state.unreadable?

end Outage

/-- A world and the outage that is ahead of it. -/
structure Hampered (σ : Type) where
  world : σ
  outage : Outage := {}

namespace Backend

variable {σ : Type}

/-- The backend in an outage. A call that is to fail fails without effect; any other is answered as
it would be. -/
def hampered (backend : Backend σ) : Backend (Hampered σ) where
  fetch h :=
    match h.outage.fetches 0 with
    | some error => (.error error, ⟨h.world, h.outage.afterFetch⟩)
    | none => ((backend.fetch h.world).1, ⟨(backend.fetch h.world).2, h.outage.afterFetch⟩)
  execute command h :=
    match h.outage.commands 0 with
    | some cause => (.error cause, ⟨h.world, h.outage.afterCommand⟩)
    | none => ((backend.execute command h.world).1,
        ⟨(backend.execute command h.world).2, h.outage.afterCommand⟩)

variable {backend : Backend σ} {world : σ} {outage : Outage}

theorem fetch_hampered_of_some {error : Cluster.Error} (h : outage.fetches 0 = some error) :
    backend.hampered.fetch ⟨world, outage⟩ = (.error error, ⟨world, outage.afterFetch⟩) := by
  simp [hampered, h]

theorem fetch_hampered_of_none (h : outage.fetches 0 = none) :
    backend.hampered.fetch ⟨world, outage⟩ =
      ((backend.fetch world).1, ⟨(backend.fetch world).2, outage.afterFetch⟩) := by
  simp [hampered, h]

theorem execute_hampered_of_some {command : Command} {cause : Refusal}
    (h : outage.commands 0 = some cause) :
    backend.hampered.execute command ⟨world, outage⟩ =
      (.error cause, ⟨world, outage.afterCommand⟩) := by
  simp [hampered, h]

theorem execute_hampered_of_none {command : Command} (h : outage.commands 0 = none) :
    backend.hampered.execute command ⟨world, outage⟩ =
      ((backend.execute command world).1,
        ⟨(backend.execute command world).2, outage.afterCommand⟩) := by
  simp [hampered, h]

/-- What commands leave of a world when they are carried out one after the other. -/
def replay (backend : Backend σ) (commands : List Command) (world : σ) : σ :=
  commands.foldl (fun world command => (backend.execute command world).2) world

/-- Fetching leaves the world as it is. -/
def FetchesOnly (backend : Backend σ) : Prop := ∀ world, (backend.fetch world).2 = world

end Backend

namespace Procedure

variable {α β σ : Type} {backend : Backend σ} {p : Procedure α} {world : σ} {outage : Outage}

/-- The calls made while a procedure is followed. One that fails is the last. -/
def calls (backend : Backend σ) : Procedure α → σ → List Call
  | .finish _, _ => []
  | .fetch next, world =>
    .fetch :: match backend.fetch world with
      | (.ok state, world) => (next state).calls backend world
      | (.error _, _) => []
  | .issue command next, world =>
    .command command :: match backend.execute command world with
      | (.ok (), world) => next.calls backend world
      | (.error _, _) => []

/-- Whatever the procedure is answered, a fetch that shows a listing without a snapshot ends it, and
what it ends with by itself is expected. -/
def Checked (rule : Protection) (expected : Halt → Prop) : Procedure α → Prop
  | .finish (.ok _) => True
  | .finish (.error halt) => expected halt
  | .fetch next => ∀ state,
    (∀ error, Snapshot.ofState state rule = .error error →
      next state = fail (.sourceUnavailable error)) ∧ (next state).Checked rule expected
  | .issue _ next => next.Checked rule expected

variable {rule : Protection} {expected : Halt → Prop}

theorem Checked.mono (hp : p.Checked rule expected) {more : Halt → Prop}
    (h : ∀ halt, expected halt → more halt) : p.Checked rule more := by
  induction p with
  | finish result =>
    cases result with
    | ok a => trivial
    | error halt => exact h halt hp
  | fetch next ih => exact fun state => ⟨(hp state).1, ih state (hp state).2⟩
  | issue command next ih => exact ih hp

theorem Checked.issueAll (commands : List Command) : (issueAll commands).Checked rule expected := by
  induction commands with
  | nil => trivial
  | cons command rest ih => exact ih

theorem Checked.capture (h : ∀ error, expected (.failed (.sourceUnavailable error))) :
    (capture rule).Checked rule expected := by
  intro state
  dsimp only
  split
  · rename_i s hs
    exact ⟨fun error herror => by simp [hs] at herror, trivial⟩
  · rename_i e he
    refine ⟨fun error herror => ?_, h e⟩
    rw [Except.error.inj (he.symm.trans herror)]

theorem Checked.bind {f : α → Procedure β} (hp : p.Checked rule expected)
    (hf : ∀ a, (f a).Checked rule expected) : (p >>= f).Checked rule expected := by
  rw [bind_eq]
  induction p with
  | finish result =>
    cases result with
    | ok a => exact hf a
    | error halt => exact hp
  | fetch next ih =>
    intro state
    obtain ⟨hfails, hnext⟩ := hp state
    refine ⟨fun error herror => ?_, ih state hnext⟩
    show (next state).bind f = _
    rw [hfails error herror]
    rfl
  | issue command next ih => exact ih hp

theorem Checked.compute_bind {value : Except Fault α} {f : α → Procedure β}
    (h : ∀ fault, expected (.fault fault)) (hf : ∀ a, (f a).Checked rule expected) :
    (compute value >>= f).Checked rule expected := by
  cases value with
  | ok a => exact hf a
  | error fault => exact h fault

/-- A run ends early as expected if a failed request does. -/
theorem Checked.expected_of_run (hp : p.Checked rule expected)
    (hsource : ∀ error, expected (.failed (.sourceUnavailable error)))
    (hbackend : ∀ command cause, expected (.failed (Command.refused command cause)))
    {halt : Halt} {after : σ} (hrun : p.run backend world = (.error halt, after)) :
    expected halt := by
  induction p generalizing world with
  | finish result =>
    obtain ⟨rfl, -⟩ := Prod.mk.inj hrun
    exact hp
  | fetch next ih =>
    simp only [run] at hrun
    split at hrun
    · exact ih _ (hp _).2 hrun
    · obtain ⟨hhalt, -⟩ := Prod.mk.inj hrun
      exact Except.error.inj hhalt ▸ hsource _
  | issue command next ih =>
    simp only [run] at hrun
    split at hrun
    · exact ih hp hrun
    · obtain ⟨hhalt, -⟩ := Prod.mk.inj hrun
      exact Except.error.inj hhalt ▸ hbackend command _

theorem commandsOf_calls (p : Procedure α) (world : σ) :
    commandsOf (p.calls backend world) = (p.issued backend world).map Prod.fst := by
  induction p generalizing world with
  | finish result => rfl
  | fetch next ih =>
    simp only [calls, issued, Rehearsal.commandsOf_fetch]
    rcases backend.fetch world with ⟨error | state, after⟩
    · rfl
    · exact ih state after
  | issue command next ih =>
    simp only [calls, issued, Rehearsal.commandsOf_command, List.map_cons]
    rcases backend.execute command world with ⟨cause | _, after⟩
    · rfl
    · exact congrArg _ (ih after)

/-- A run that is complete in an outage is the run that it would be without. -/
theorem run_of_hampered_ok {a : α} {after : Hampered σ}
    (h : p.run backend.hampered ⟨world, outage⟩ = (.ok a, after)) :
    p.run backend world = (.ok a, after.world) := by
  induction p generalizing world outage with
  | finish result =>
    obtain ⟨rfl, rfl⟩ := Prod.mk.inj h
    rfl
  | fetch next ih =>
    cases hnow : outage.fetches 0 with
    | some error => simp [run, Backend.fetch_hampered_of_some hnow] at h
    | none =>
      simp only [run, Backend.fetch_hampered_of_none hnow] at h ⊢
      rcases hresult : backend.fetch world with ⟨error | state, middle⟩
      · simp [hresult] at h
      · rw [hresult] at h
        exact ih state h
  | issue command next ih =>
    cases hnow : outage.commands 0 with
    | some cause => simp [run, Backend.execute_hampered_of_some hnow] at h
    | none =>
      simp only [run, Backend.execute_hampered_of_none hnow] at h ⊢
      rcases hresult : backend.execute command world with ⟨cause | _, middle⟩
      · simp [hresult] at h
      · rw [hresult] at h
        exact ih h

/-- What is issued in an outage is issued without one, in the same world. -/
theorem mem_issued_of_hampered {call : Command × Hampered σ}
    (h : call ∈ p.issued backend.hampered ⟨world, outage⟩) :
    (call.1, call.2.world) ∈ p.issued backend world := by
  induction p generalizing world outage with
  | finish result => exact absurd h List.not_mem_nil
  | fetch next ih =>
    cases hnow : outage.fetches 0 with
    | some error => simp [issued, Backend.fetch_hampered_of_some hnow] at h
    | none =>
      simp only [issued, Backend.fetch_hampered_of_none hnow] at h ⊢
      rcases hresult : backend.fetch world with ⟨error | state, middle⟩
      · simp [hresult] at h
      · rw [hresult] at h
        exact ih state h
  | issue command next ih =>
    simp only [issued] at h ⊢
    rcases List.mem_cons.mp h with rfl | h
    · exact List.mem_cons_self
    · refine List.mem_cons_of_mem _ ?_
      cases hnow : outage.commands 0 with
      | some cause => simp [Backend.execute_hampered_of_some hnow] at h
      | none =>
        simp only [Backend.execute_hampered_of_none hnow] at h
        rcases hresult : backend.execute command world with ⟨cause | _, middle⟩
        · simp [hresult] at h
        · rw [hresult] at h
          exact ih h

/-- Once the calls `earlier` are answered as they would be without an outage, `q` is what is left to
follow of `p`, and `rest` what is left of the outage; without one, `ahead` would be made. -/
structure Remains (backend : Backend σ) (p : Procedure α) (world : σ) (outage : Outage)
    (earlier ahead : List Call) (q : Procedure α) (rest : Outage) : Prop where
  checked : ∀ rule expected, p.Checked rule expected → q.Checked rule expected
  fetches : rest.fetches 0 = outage.fetches (fetchCount earlier)
  commands : rest.commands 0 = outage.commands (commandsOf earlier).length
  ahead_eq : q.calls backend (backend.replay (commandsOf earlier) world) = ahead
  calls_eq : p.calls backend.hampered ⟨world, outage⟩ = earlier ++
    q.calls backend.hampered ⟨backend.replay (commandsOf earlier) world, rest⟩
  run_eq : p.run backend.hampered ⟨world, outage⟩ =
    q.run backend.hampered ⟨backend.replay (commandsOf earlier) world, rest⟩

theorem exists_remains (hfetch : backend.FetchesOnly) {earlier others : List Call} {call : Call}
    (hcalls : p.calls backend world = earlier ++ call :: others) (hpasses : outage.Passes earlier) :
    ∃ q rest, Remains backend p world outage earlier (call :: others) q rest := by
  -- Each call takes one step of the tree and leaves the outage that is ahead of the rest.
  induction earlier generalizing p world outage with
  | nil => exact ⟨p, outage, fun _ _ h => h, rfl, rfl, hcalls, rfl, rfl⟩
  | cons first earlier ih =>
    cases p with
    | finish result => exact absurd hcalls (List.cons_ne_nil _ _).symm
    | fetch next =>
      simp only [calls, List.cons_append, List.cons.injEq] at hcalls
      obtain ⟨rfl, hrest⟩ := hcalls
      have hstill := hfetch world
      have hnow := hpasses.fetches 0 (Nat.succ_pos _)
      rcases hresult : backend.fetch world with ⟨error | state, after⟩
      · simp [hresult] at hrest
      · rw [hresult] at hrest hstill
        obtain rfl : after = world := hstill
        obtain ⟨q, rest, h⟩ := ih (p := next state) hrest hpasses.afterFetch
        refine ⟨q, rest, fun _ _ hp => h.checked _ _ (hp state).2, h.fetches, h.commands,
          h.ahead_eq, ?_, ?_⟩
        · simp only [calls, Backend.fetch_hampered_of_none hnow, hresult]
          exact congrArg _ h.calls_eq
        · simp only [run, Backend.fetch_hampered_of_none hnow, hresult]
          exact h.run_eq
    | issue command next =>
      simp only [calls, List.cons_append, List.cons.injEq] at hcalls
      obtain ⟨rfl, hrest⟩ := hcalls
      have hnow := hpasses.commands 0 (Nat.succ_pos _)
      rcases hresult : backend.execute command world with ⟨cause | _, after⟩
      · simp [hresult] at hrest
      · rw [hresult] at hrest
        obtain ⟨q, rest, h⟩ := ih (p := next) hrest hpasses.afterCommand
        have hreplay : backend.replay (commandsOf (.command command :: earlier)) world =
            backend.replay (commandsOf earlier) after := by
          simp [Backend.replay, hresult]
        refine ⟨q, rest, fun _ _ hp => h.checked _ _ hp, h.fetches, h.commands, ?_, ?_, ?_⟩
        · rw [hreplay]
          exact h.ahead_eq
        · rw [hreplay]
          simp only [calls, Backend.execute_hampered_of_none hnow, hresult]
          exact congrArg _ h.calls_eq
        · rw [hreplay]
          simp only [run, Backend.execute_hampered_of_none hnow, hresult]
          exact h.run_eq

/-- A command that fails is the last call, and what the calls before it have left stays. -/
theorem run_hampered_command (hfetch : backend.FetchesOnly) {earlier others : List Call}
    {command : Command} {cause : Refusal}
    (hcalls : p.calls backend world = earlier ++ .command command :: others)
    (hpasses : outage.Passes earlier)
    (hfails : outage.commands (commandsOf earlier).length = some cause) :
    p.calls backend.hampered ⟨world, outage⟩ = earlier ++ [.command command] ∧
      ∃ rest, p.run backend.hampered ⟨world, outage⟩ = (.error (.failed (command.refused cause)),
        ⟨backend.replay (commandsOf earlier) world, rest⟩) := by
  obtain ⟨q, rest, h⟩ := exists_remains hfetch hcalls hpasses
  have hnow := h.commands.trans hfails
  have hahead := h.ahead_eq
  rw [h.calls_eq, h.run_eq]
  cases q with
  | finish result => exact absurd hahead (List.cons_ne_nil _ _).symm
  | fetch next => simp [calls] at hahead
  | issue issued next =>
    simp only [calls, List.cons.injEq, Call.command.injEq] at hahead
    obtain ⟨rfl, -⟩ := hahead
    simp only [calls, run, Backend.execute_hampered_of_some hnow]
    exact ⟨trivial, _, rfl⟩

/-- A fetch that fails is the last call too, and so is one that shows a listing without a
snapshot. -/
theorem run_hampered_fetch {pool : Command → Store → Store} {store : Store}
    (hp : p.Checked rule expected) {earlier others : List Call} {error : Cluster.Error}
    (hcalls : p.calls (clusterBackend pool) store = earlier ++ .fetch :: others)
    (hpasses : outage.Passes earlier)
    (hfails : outage.fetchError? earlier ((clusterBackend pool).replay (commandsOf earlier) store) =
      some error) :
    p.calls (clusterBackend pool).hampered ⟨store, outage⟩ = earlier ++ [.fetch] ∧
      ∃ rest, p.run (clusterBackend pool).hampered ⟨store, outage⟩ =
        (.error (.failed (.sourceUnavailable error)),
          ⟨(clusterBackend pool).replay (commandsOf earlier) store, rest⟩) := by
  obtain ⟨q, rest, h⟩ := exists_remains (fun _ => rfl) hcalls hpasses
  have hahead := h.ahead_eq
  rw [h.calls_eq, h.run_eq]
  rw [Outage.fetchError?, ← h.fetches] at hfails
  generalize (clusterBackend pool).replay (commandsOf earlier) store = left at hahead hfails
  cases q with
  | finish result => exact absurd hahead (List.cons_ne_nil _ _).symm
  | issue issued next => simp [calls] at hahead
  | fetch next =>
    cases hnow : rest.fetches 0 with
    | some cause =>
      rw [hnow, Option.some_or] at hfails
      obtain rfl := Option.some.inj hfails
      simp only [calls, run, Backend.fetch_hampered_of_some hnow]
      exact ⟨trivial, _, rfl⟩
    | none =>
      rw [hnow, Option.none_or] at hfails
      have hends := (h.checked rule expected hp left.state).1 error
        (State.ofState_eq_error_iff.mpr hfails)
      simp only [calls, run, Backend.fetch_hampered_of_none hnow, clusterBackend, hends]
      exact ⟨rfl, _, rfl⟩

end Procedure

/-- The end does not blame the state of a node. -/
def Halt.Blameless : Halt → Prop
  | .failed (.malformedNodeState _ _) => False
  | _ => True

variable {config : Config}

theorem enlarge_checked (config : Config) :
    (enlarge config).Checked config.protection Halt.Blameless := by
  refine (Checked.capture fun _ => trivial).bind fun s => Checked.compute_bind (fun _ => trivial)
    fun available => Checked.compute_bind (fun _ => trivial) fun plan => ?_
  cases plan with
  | none => trivial
  | some plan =>
    dsimp only
    split
    · trivial
    · exact (Checked.issueAll _).bind fun _ => trivial

theorem scale_checked (config : Config) (now : Instant) (s : Snapshot) (available : Int) :
    (scale config now s available).Checked config.protection Halt.Blameless := by
  unfold scale
  split
  · refine Checked.compute_bind (fun _ => trivial) fun plan => (Checked.issueAll _).bind fun _ => ?_
    split
    · trivial
    · exact (enlarge_checked config).bind fun _ => trivial
  · split
    · refine Checked.compute_bind (fun _ => trivial) fun surplus =>
        Checked.compute_bind (fun _ => trivial) fun picked => ?_
      exact (Checked.issueAll _).bind fun _ => trivial
    · trivial

theorem adjust_checked (config : Config) (now : Instant) :
    (adjust config now).Checked config.protection Halt.Blameless := by
  refine (Checked.capture fun _ => trivial).bind fun s => Checked.compute_bind (fun _ => trivial)
    fun available => ?_
  exact (scale_checked config now s available).bind fun _ => trivial

theorem reap_checked (config : Config) (now : Instant) :
    (reap config.grace config.protection now).Checked config.protection fun _ => True := by
  refine (Checked.capture fun _ => trivial).bind fun s => ?_
  dsimp only
  split
  · trivial
  · split
    · trivial
    · exact (Checked.issueAll _).bind fun _ => trivial

theorem tick_checked (config : Config) (now later : Instant) :
    (tick config now later).Checked config.protection fun _ => True :=
  ((adjust_checked config now).mono fun _ _ => trivial).bind fun _ =>
    (reap_checked config later).bind fun _ => trivial

/-- A reconciliation in an outage, over a store with any pool. If the first failure is that of a
command, this command is the last of the commands that were to be issued, and the store is as the
commands before it have left it. The error names the command: it says what kind of change it is,
and gives the node that is opened, barred or struck off, the size of the pool, or the nodes that are
deleted, with commas between them. If the first failure is that of a fetch, or a fetch shows a node
of unknown capacity, no command is issued after it, and the store is as the commands before it have
left it. -/
theorem tick_fails_fast (config : Config) (pool : Command → Store → Store) (now later : Instant)
    (store : Store) (outage : Outage) :
    let base := clusterBackend pool
    let course := tick config now later
    let world : Hampered Store := ⟨store, outage⟩
    (∀ done command others cause,
      (course.issued base store).map Prod.fst = done ++ command :: others →
      (∀ n, outage.fetches n = none) → (∀ n < done.length, outage.commands n = none) →
      outage.commands done.length = some cause →
      (course.issued base.hampered world).map Prod.fst = done ++ [command] ∧
      (course.run base.hampered world).2.world = base.replay done store ∧
      ∃ operation target,
        (course.run base.hampered world).1 =
          .error (.failed (.backendRequestFailed operation target cause)) ∧
        (∀ id, command = .uncordon id → operation = .uncordon ∧ target = id) ∧
        (∀ id instant, command = .cordon id instant → operation = .cordon ∧ target = id) ∧
        (∀ size, command = .increaseToSize size →
          operation = .increasePool ∧ target = toString size) ∧
        (∀ ids, command = .deleteNodes ids →
          operation = .deleteNodes ∧ target = ",".intercalate ids) ∧
        ∀ id, command = .deregister id → operation = .deregister ∧ target = id) ∧
    (∀ earlier others error, course.calls base store = earlier ++ .fetch :: others →
      outage.Passes earlier →
      outage.fetchError? earlier (base.replay (commandsOf earlier) store) = some error →
      (course.issued base.hampered world).map Prod.fst = commandsOf earlier ∧
      (course.run base.hampered world).1 = .error (.failed (.sourceUnavailable error)) ∧
      (course.run base.hampered world).2.world = base.replay (commandsOf earlier) store ∧
      (fetchCount earlier = 0 → (course.run base.hampered world).2.world = store)) := by
  intro base course world
  constructor
  · intro done command others cause hissued hfetches hcommands hfails
    rw [← commandsOf_calls] at hissued
    obtain ⟨earlier, later, hcalls, rfl⟩ := Rehearsal.exists_split_of_commandsOf hissued
    obtain ⟨hmade, rest, hrun⟩ := run_hampered_command (fun _ => rfl) hcalls
      ⟨fun n _ => hfetches n, hcommands⟩ hfails
    rw [← commandsOf_calls, hmade, hrun, Rehearsal.commandsOf_append]
    refine ⟨rfl, rfl, command.operation, command.target, rfl, ?_, ?_, ?_, ?_, ?_⟩
    · rintro id rfl
      exact ⟨rfl, rfl⟩
    · rintro id instant rfl
      exact ⟨rfl, rfl⟩
    · rintro size rfl
      exact ⟨rfl, rfl⟩
    · rintro ids rfl
      exact ⟨rfl, rfl⟩
    · rintro id rfl
      exact ⟨rfl, rfl⟩
  · intro earlier others error hcalls hpasses hfails
    obtain ⟨hmade, rest, hrun⟩ :=
      run_hampered_fetch (tick_checked config now later) hcalls hpasses hfails
    rw [← commandsOf_calls, hmade, hrun, Rehearsal.commandsOf_append]
    refine ⟨List.append_nil _, rfl, rfl, fun hfirst => ?_⟩
    -- A reconciliation begins with a fetch, so nothing comes before the first one.
    cases earlier with
    | nil => rfl
    | cons first earlier =>
      obtain ⟨rfl, -⟩ := List.cons.inj hcalls
      exact absurd hfirst (Nat.succ_ne_zero _)

set_option maxRecDepth 10000 in
theorem greedy_calls : (tick greedyConfig smallNow).calls (NodeShape.backend {}) smallStore =
    [.fetch, .command (.uncordon "b"), .fetch, .command (.increaseToSize 4), .fetch] := by cbv

set_option maxRecDepth 10000 in
theorem small_calls : (tick smallConfig smallNow).calls (NodeShape.backend {}) smallStore =
    [.fetch, .fetch, .command (.deleteNodes ["b"]), .command (.deregister "b")] := by cbv

/-- The pool cannot grow, and by the third fetch the cluster is out of reach. -/
def smallOutage : Outage where
  fetches n := if n = 2 then some (.reading "out of reach") else none
  commands n := if n = 1 then some (.pool "no more nodes" []) else none

/-- The outage in which one command fails. -/
def Outage.refusing (n : Nat) (cause : Refusal) : Outage where
  commands m := if m = n then some cause else none

theorem Outage.refusing_self (n : Nat) (cause : Refusal) :
    (refusing n cause).commands n = some cause := if_pos rfl

theorem Outage.refusing_of_lt {m n : Nat} (h : m < n) (cause : Refusal) :
    (refusing n cause).commands m = none := if_neg h.ne

/-- The last fetch of a growth fails, then either of its commands, then either command of a reaping.
The node that the pool has deleted is not brought back when it cannot be struck off. -/
theorem tick_fails_fast_small :
    let base := NodeShape.backend {}
    let growth := tick greedyConfig smallNow
    let reaping := tick smallConfig smallNow
    let cause : Refusal := .pool "no answer" []
    (growth.run base.hampered ⟨smallStore, { fetches := smallOutage.fetches }⟩).1 =
      .error (.failed (.sourceUnavailable (.reading "out of reach"))) ∧
    (growth.run base.hampered ⟨smallStore, .refusing 0 cause⟩).1 =
      .error (.failed (.backendRequestFailed .uncordon "b" cause)) ∧
    (growth.run base.hampered ⟨smallStore, .refusing 1 cause⟩).1 =
      .error (.failed (.backendRequestFailed .increasePool "4" cause)) ∧
    (reaping.run base.hampered ⟨smallStore, .refusing 0 cause⟩).1 =
      .error (.failed (.backendRequestFailed .deleteNodes "b" cause)) ∧
    (reaping.run base.hampered ⟨smallStore, .refusing 1 cause⟩).1 =
      .error (.failed (.backendRequestFailed .deregister "b" cause)) ∧
    (reaping.run base.hampered ⟨smallStore, .refusing 1 cause⟩).2.world =
      smallStore.dropNode "b" := by
  intro base growth reaping cause
  have hfetch := (tick_fails_fast greedyConfig (NodeShape.pool {}) smallNow smallNow smallStore
    { fetches := smallOutage.fetches }).2
    [.fetch, .command (.uncordon "b"), .fetch, .command (.increaseToSize 4)] [] _ greedy_calls
    ⟨by decide, by decide⟩ rfl
  have hgrowth : (growth.issued base smallStore).map Prod.fst =
      [.uncordon "b", .increaseToSize 4] := by
    rw [← commandsOf_calls]
    exact congrArg commandsOf greedy_calls
  have hreaping : (reaping.issued base smallStore).map Prod.fst =
      [.deleteNodes ["b"], .deregister "b"] := by
    rw [← commandsOf_calls]
    exact congrArg commandsOf small_calls
  -- The command after `done` is the one that fails, whichever it is.
  have hfails := fun config done command others hissued =>
    (tick_fails_fast config (NodeShape.pool {}) smallNow smallNow smallStore
      (.refusing done.length cause)).1 done command others cause hissued (fun _ => rfl)
      (fun _ hn => Outage.refusing_of_lt hn cause) (Outage.refusing_self _ cause)
  obtain ⟨-, -, _, _, huncordon, hopened, -⟩ := hfails greedyConfig [] _ _ hgrowth
  obtain ⟨-, -, _, _, hincrease, -, -, hgrown, -⟩ :=
    hfails greedyConfig [.uncordon "b"] _ _ hgrowth
  obtain ⟨-, -, _, _, hdelete, -, -, -, hdeleted, -⟩ := hfails smallConfig [] _ _ hreaping
  obtain ⟨-, hleft, _, _, hderegister, -, -, -, -, hstruck⟩ :=
    hfails smallConfig [.deleteNodes ["b"]] _ _ hreaping
  obtain ⟨rfl, rfl⟩ := hopened "b" rfl
  obtain ⟨rfl, rfl⟩ := hgrown 4 rfl
  obtain ⟨rfl, rfl⟩ := hdeleted ["b"] rfl
  obtain ⟨rfl, rfl⟩ := hstruck "b" rfl
  exact ⟨hfetch.2.1, huncordon, hincrease, hdelete, hderegister, hleft⟩

end Scaling

end Headroom
