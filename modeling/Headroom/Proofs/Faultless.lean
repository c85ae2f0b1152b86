import Headroom.Proofs.Convergence
import Headroom.Proofs.Covering
import Headroom.Proofs.Interruption

/-! Reconciliations without faults. While the nodes, the capacity and the requests of a store are
each counted below 2^63, everything computed from its snapshot stays in the word. Only the pool could
change that, and nothing is computed in words after the pool was asked for nodes. -/

namespace Headroom

namespace Scaling

open Cluster (Node NodeRecord Protection Snapshot State Store)

namespace Procedure

variable {α β σ : Type} {backend : Backend σ} {fit : State → Prop} {tame : Command → Prop}

/-- The listings that a procedure is shown while it is followed. -/
def listings (backend : Backend σ) : Procedure α → σ → List State
  | .finish _, _ => []
  | .fetch next, world =>
    match backend.fetch world with
    | (.ok state, world) => state :: (next state).listings backend world
    | (.error _, _) => []
  | .issue command next, world =>
    match backend.execute command world with
    | (.ok (), world) => next.listings backend world
    | (.error _, _) => []

/-- The procedure asks for no listing, and does not end in a fault. -/
def Blind : Procedure α → Prop
  | .finish result => ∀ fault, result ≠ .error (.fault fault)
  | .fetch _ => False
  | .issue _ next => next.Blind

/-- Shown fit listings only, the procedure does not end in a fault, and it asks for none after a
command that is not tame. -/
def Sound (fit : State → Prop) (tame : Command → Prop) : Procedure α → Prop
  | .finish result => ∀ fault, result ≠ .error (.fault fault)
  | .fetch next => ∀ state, fit state → (next state).Sound fit tame
  | .issue command next => (tame command ∧ next.Sound fit tame) ∨ next.Blind

theorem Blind.pure (a : α) : (Pure.pure a : Procedure α).Blind :=
  fun _ h => nomatch h

theorem Blind.sound {p : Procedure α} (hp : p.Blind) : p.Sound fit tame := by
  cases p with
  | finish result => exact hp
  | fetch next => exact hp.elim
  | issue command next => exact .inr hp

theorem Blind.bind {p : Procedure α} {f : α → Procedure β} (hp : p.Blind)
    (hf : ∀ a, (f a).Blind) : (p >>= f).Blind := by
  rw [bind_eq]
  induction p with
  | finish result =>
    cases result with
    | ok a => exact hf a
    | error halt =>
      intro fault h
      exact hp fault (congrArg Except.error (Except.error.inj h))
  | fetch next => exact hp
  | issue command next ih => exact ih hp

theorem Sound.bind_blind {p : Procedure α} {f : α → Procedure β} (hp : p.Sound fit tame)
    (hf : ∀ a, (f a).Blind) : (p >>= f).Sound fit tame := by
  rw [bind_eq]
  induction p with
  | finish result =>
    cases result with
    | ok a => exact (hf a).sound
    | error halt =>
      intro fault h
      exact hp fault (congrArg Except.error (Except.error.inj h))
  | fetch next ih => exact fun state hstate => ih state (hp state hstate)
  | issue command next ih =>
    rcases hp with ⟨htame, hnext⟩ | hblind
    · exact .inl ⟨htame, ih hnext⟩
    · exact .inr (hblind.bind hf)

theorem Sound.issueAll_bind {commands : List Command} {f : Unit → Procedure β}
    (h : ∀ command ∈ commands, tame command) (hf : (f ()).Sound fit tame) :
    (issueAll commands >>= f).Sound fit tame := by
  induction commands with
  | nil => exact hf
  | cons command rest ih =>
    have hrest := ih fun c hc => h c (List.mem_cons_of_mem _ hc)
    exact .inl ⟨h command List.mem_cons_self, hrest⟩

theorem Sound.compute_bind {value : Except Fault α} {f : α → Procedure β}
    (hvalue : ∃ a, value = .ok a) (hf : ∀ a, value = .ok a → (f a).Sound fit tame) :
    (compute value >>= f).Sound fit tame := by
  obtain ⟨a, rfl⟩ := hvalue
  exact hf a rfl

theorem Sound.capture_bind {rule : Protection} {f : Snapshot → Procedure β}
    (hf : ∀ state, fit state → (f (state.snapshot rule)).Sound fit tame) :
    (capture rule >>= f).Sound fit tame := by
  intro state hstate
  dsimp only
  rcases h : Snapshot.ofState state rule with error | s
  · intro fault hfault
    cases hfault
  · obtain ⟨-, rfl⟩ := State.ofState_eq_ok_iff.mp h
    exact hf state hstate

theorem Blind.run {p : Procedure α} (hp : p.Blind) (world : σ) :
    (∀ fault, (p.run backend world).1 ≠ .error (.fault fault)) ∧ p.listings backend world = [] := by
  induction p generalizing world with
  | finish result => exact ⟨hp, rfl⟩
  | fetch next => exact hp.elim
  | issue command next ih =>
    simp only [Procedure.run, listings]
    rcases backend.execute command world with ⟨cause | _, after⟩
    · exact ⟨by simp, rfl⟩
    · exact ih hp after

/-- If fetching shows fit listings where `keeps` holds, and tame commands keep it, then a run that
starts there ends in no fault and is shown nothing else. -/
theorem Sound.run {p : Procedure α} (hp : p.Sound fit tame) {keeps : σ → Prop}
    (hfit : ∀ world state, keeps world → (backend.fetch world).1 = .ok state → fit state)
    (hfetch : ∀ world, keeps world → keeps (backend.fetch world).2)
    (hexecute : ∀ command world, tame command → keeps world →
      keeps (backend.execute command world).2)
    (world : σ) (h : keeps world) :
    (∀ fault, (p.run backend world).1 ≠ .error (.fault fault)) ∧
      ∀ state ∈ p.listings backend world, fit state := by
  induction p generalizing world with
  | finish result => exact ⟨hp, fun state hstate => absurd hstate List.not_mem_nil⟩
  | fetch next ih =>
    have hshown := hfit world
    have hafter := hfetch world h
    simp only [Procedure.run, listings]
    rcases hresult : backend.fetch world with ⟨error | state, after⟩
    · exact ⟨by simp, by simp⟩
    · rw [hresult] at hshown hafter
      have hstate := hshown state h rfl
      obtain ⟨hrun, hlistings⟩ := ih state (hp state hstate) after hafter
      exact ⟨hrun, List.forall_mem_cons.mpr ⟨hstate, hlistings⟩⟩
  | issue command next ih =>
    simp only [Procedure.run, listings]
    rcases hresult : backend.execute command world with ⟨cause | _, after⟩
    · exact ⟨by simp, by simp⟩
    · rcases hp with ⟨htame, hnext⟩ | hblind
      · have hafter := hexecute command world htame h
        rw [hresult] at hafter
        exact ih hnext after hafter
      · obtain ⟨hrun, hlistings⟩ := @Blind.run α σ backend next hblind after
        dsimp only
        rw [hlistings]
        exact ⟨hrun, fun state hstate => absurd hstate List.not_mem_nil⟩

end Procedure

end Scaling

namespace Cluster

/-- A listing of nodes with distinct ids that can be counted in signed words. -/
structure State.Countable (state : State) : Prop where
  distinct : state.Distinct
  moderate : state.Moderate
  count : state.nodes.length < 2 ^ 63

/-- The words that are read as signed ones, and the number that is read as a word, keep their
values. -/
structure Snapshot.Exact (s : Snapshot) (block : BlockSize) : Prop where
  block : block.signed = block.raw.toNat
  capacity : ∀ node ∈ s.nodes, Word.signed node.capacity = node.capacity.toNat
  used : ∀ node ∈ s.nodes, ∃ used, s.inUse node.id = .ok used ∧ Word.signed used = used.toNat
  count : s.schedulable.length < UInt64.size

theorem State.Countable.exact {state : State} (h : state.Countable) {block : BlockSize}
    (hblock : block.raw.toNat < 2 ^ 63) (rule : Protection) : (state.snapshot rule).Exact block := by
  have hrecord : ∀ node ∈ (state.snapshot rule).nodes, ∃ record ∈ state.nodes,
      record.view = node := fun node hnode =>
    List.mem_map.mp ((state.nodes_snapshot_perm rule).mem_iff.mp hnode)
  constructor
  · exact Word.signed_of_lt hblock
  · intro node hnode
    obtain ⟨record, hrow, rfl⟩ := hrecord node hnode
    exact Word.signed_of_lt ((State.offer_le_totalCapacity hrow).trans_lt h.moderate.capacity)
  · intro node hnode
    obtain ⟨record, hrow, rfl⟩ := hrecord node hnode
    have hload := (state.load_le_totalRequests record.id).trans_lt h.moderate.requests
    refine ⟨_, State.inUse_snapshot h.moderate ⟨record, hrow, rfl⟩, Word.signed_of_lt ?_⟩
    rwa [NodeRecord.id_view, UInt64.toNat_ofNat_of_lt' (hload.trans (by decide))]
  · have hcount := h.count
    rw [(state.schedulable_snapshot_perm rule).length_eq, List.length_map]
    exact (List.length_filter_le _ _).trans_lt (hcount.trans (by decide))

end Cluster

namespace Scaling

open Cluster (Node NodeRecord Protection Snapshot State Store)

variable {block : BlockSize} {s : Snapshot} {state : State} {rule : Protection}

/-! ### The parts of a plan -/

theorem exists_pickToUncordon (hm : state.Moderate) (deficit : Int) :
    ∃ plan, pickToUncordon block (state.snapshot rule) deficit = .ok plan :=
  exists_pickToUncordon_of_free (fun _ hnode => ⟨_, State.free_of_cordoned hm hnode⟩) deficit

theorem exists_growthPlan (block : BlockSize) (s : Snapshot) (deficit : Int) :
    ∃ plan, growthPlan block s deficit = .ok plan := by
  unfold growthPlan
  cases s.capacityProxy? with
  | none => exact ⟨_, rfl⟩
  | some capacity =>
    obtain ⟨add, hadd⟩ := exists_nodesToAdd block deficit capacity
    exact ⟨_, bind_eq_ok_iff.mpr ⟨add, hadd, rfl⟩⟩

/-! ### The parts of a reconciliation -/

open Procedure

def Command.Marks : Command → Prop
  | .uncordon _ | .cordon _ _ => True
  | _ => False

variable {config : Config} {now later : Instant}

theorem exists_availableBlocks (h : state.Countable) (hblock : config.block.raw.toNat < 2 ^ 63)
    (rule : Protection) :
    ∃ available, (state.snapshot rule).availableBlocks config.block = .ok available :=
  ⟨_, State.availableBlocks_snapshot h.distinct h.moderate hblock⟩

theorem enlarge_sound (hblock : config.block.raw.toNat < 2 ^ 63) :
    (enlarge config).Sound State.Countable Command.Marks := by
  apply Sound.capture_bind
  intro state hstate
  refine Sound.compute_bind (exists_availableBlocks hstate hblock _) fun available _ => ?_
  refine Sound.compute_bind (exists_growthPlan _ _ _) fun plan _ => ?_
  cases plan with
  | none => exact (Blind.pure _).sound
  | some plan =>
    dsimp only
    split
    · exact (Blind.pure _).sound
    · exact .inr (Blind.pure _)

theorem grow_sound (hblock : config.block.raw.toNat < 2 ^ 63) (hstate : state.Countable)
    (deficit : Int) :
    (grow config (state.snapshot rule) deficit).Sound State.Countable Command.Marks := by
  refine Sound.compute_bind (exists_pickToUncordon hstate.moderate _) fun plan _ => ?_
  apply Sound.issueAll_bind
  · simp [Command.Marks]
  · split
    · exact (Blind.pure _).sound
    · exact (enlarge_sound hblock).bind_blind fun _ => Blind.pure _

theorem shrink_sound (config : Config) (now : Instant) (s : Snapshot) (surplus : Int) :
    (shrink config now s surplus).Sound State.Countable Command.Marks := by
  refine Sound.compute_bind ⟨_, pickToCordon_eq _ _ _⟩ fun picked _ => ?_
  apply Sound.issueAll_bind
  · intro command hcommand
    obtain ⟨id, -, rfl⟩ := List.mem_map.mp hcommand
    trivial
  · exact (Blind.pure _).sound

theorem adjust_sound (hblock : config.block.raw.toNat < 2 ^ 63) (now : Instant) :
    (adjust config now).Sound State.Countable Command.Marks := by
  apply Sound.capture_bind
  intro state hstate
  refine Sound.compute_bind (exists_availableBlocks hstate hblock _) fun available havailable => ?_
  refine Sound.bind_blind ?_ fun _ => Blind.pure _
  unfold scale
  split
  · exact grow_sound hblock hstate _
  · split
    · -- A surplus is what is left of a word when something is taken away that is not negative.
      refine Sound.compute_bind ⟨_, Word.sub_eq_ok_iff.mpr ⟨?_, rfl⟩⟩ fun surplus _ =>
        shrink_sound config now _ surplus
      have hfits : Word.Fits available := by
        unfold Snapshot.availableBlocks at havailable
        obtain ⟨capacity, -, hdiv⟩ := bind_eq_ok_iff.mp havailable
        obtain ⟨hfits, rfl⟩ := Word.div_eq_ok_iff.mp hdiv
        exact hfits
      unfold Word.Fits Word.least at *
      omega
    · exact (Blind.pure _).sound

def Halt.Failure : Halt → Prop
  | .failed _ => True
  | .fault _ => False

theorem reap_faultless {σ : Type} {backend : Backend σ} (config : Config) (now : Instant)
    (world : σ) (fault : Fault) :
    ((reap config.grace config.protection now).run backend world).1 ≠ .error (.fault fault) := by
  have hchecked : (reap config.grace config.protection now).Checked config.protection
      Halt.Failure := by
    refine (Checked.capture fun _ => trivial).bind fun s => ?_
    dsimp only
    split
    · trivial
    · split
      · trivial
      · exact (Checked.issueAll _).bind fun _ => trivial
  intro h
  exact hchecked.expected_of_run (fun _ => trivial) (fun _ _ => trivial) (Prod.ext h rfl)

/-! ### The whole reconciliation -/

theorem countable_of_store {store : Store} (hsize : store.nodes.size < 2 ^ 63)
    (hm : store.state.Moderate) : store.state.Countable :=
  ⟨State.distinct_of_store store, hm, hsize⟩

theorem countable_updateNode {store : Store} (h : store.state.Countable) {id : String}
    {f : NodeRecord → NodeRecord} (hf : ∀ node, (f node).id = node.id)
    (hcapacity : ∀ node, (f node).capacity = node.capacity) :
    (changed store (store.updateNode id f)).2.state.Countable := by
  rcases hupdate : store.updateNode id f with error | after
  · exact h
  · obtain ⟨-, rfl⟩ := (Store.updateNode_eq_ok_iff hf).mp hupdate
    refine countable_of_store ?_ ⟨?_, h.moderate.requests⟩
    · exact (Store.size_updateNodes hf).trans_lt h.count
    · exact (totalCapacity_updateNodes hf hcapacity).trans_lt h.moderate.capacity

theorem countable_execute {pool : Command → Store → Store} {command : Command} {store : Store}
    (hmarks : command.Marks) (h : store.state.Countable) :
    ((clusterBackend pool).execute command store).2.state.Countable := by
  cases command with
  | uncordon id =>
    exact countable_updateNode h NodeRecord.id_uncordon NodeRecord.capacity_uncordon
  | cordon id t =>
    exact countable_updateNode h (NodeRecord.id_cordon · t) (NodeRecord.capacity_cordon · t)
  | increaseToSize size => exact hmarks.elim
  | deleteNodes ids => exact hmarks.elim
  | deregister id => exact hmarks.elim

/-- The size asked for is the number of schedulable nodes and what is to be added to them. -/
theorem size_of_mem_issued {pool : Command → Store → Store} {store world : Store} {size : Nat}
    (hsize : store.nodes.size < 2 ^ 63)
    (h : (.increaseToSize size, world) ∈
      (tick config now later).issued (clusterBackend pool) store) :
    ∃ add : Nat, 0 < add ∧ add < 2 ^ 63 ∧ size = world.state.schedulable.length + add := by
  rcases mem_issued_bind.mp h with h | ⟨_, _, _, h⟩
  · obtain ⟨_, plan, lacking, growth, -, -, -, rfl, hgrowth, hadds, rfl⟩ := asked_of_mem_issued h
    obtain ⟨hcurrent, capacity, -, hadd⟩ := growthPlan_eq_some hgrowth
    have hbound := (nodesToAdd_least hadd).1.2
    rw [(State.schedulable_snapshot_perm _ _).length_eq, List.length_map] at hcurrent
    have hcount : growth.current < 2 ^ 63 := by
      rw [hcurrent]
      refine (List.length_filter_le _ _).trans_lt ?_
      exact (Store.size_updateNodes NodeRecord.id_uncordon).trans_lt hsize
    unfold Word.greatest at hbound
    refine ⟨growth.add.toNat, by omega, by omega, ?_⟩
    rw [← hcurrent, GrowthPlan.targetSize, show UInt64.size = 18446744073709551616 from rfl]
    omega
  · rcases mem_issued_bind.mp h with h | ⟨_, _, _, h⟩
    · exact ((reap_removes config later).mem_issued _ h).elim
    · exact absurd h List.not_mem_nil

/-- Let the nodes, the total capacity and the total requests of a store and the block each be counted
below 2^63. Whatever the pool does and whatever requests fail, a reconciliation does not end in a
fault; every snapshot that it computes with reads its words as the numbers they are; and a size that
it asks the pool for is that of the schedulable nodes and a positive number more. -/
theorem tick_stays_in_words (config : Config) (pool : Command → Store → Store)
    (now later : Instant) (outage : Outage) {store : Store}
    (hblock : config.block.raw.toNat < 2 ^ 63) (hsize : store.nodes.size < 2 ^ 63)
    (hm : store.state.Moderate) :
    let backend := (clusterBackend pool).hampered
    let world : Hampered Store := ⟨store, outage⟩
    (∀ fault, ((tick config now later).run backend world).1 ≠ .error (.fault fault)) ∧
    (∀ state ∈ (adjust config now).listings backend world, ∀ s,
      Snapshot.ofState state config.protection = .ok s → s.Exact config.block) ∧
    ∀ size asked, (.increaseToSize size, asked) ∈ (tick config now later).issued backend world →
      ∃ add : Nat, 0 < add ∧ add < 2 ^ 63 ∧
        size = asked.world.state.schedulable.length + add := by
  intro backend world
  let keeps : Hampered Store → Prop := fun h => h.world.state.Countable
  have hfit : ∀ h state, keeps h → (backend.fetch h).1 = .ok state → state.Countable := by
    intro h state hkeeps hstate
    cases hnow : h.outage.fetches 0 with
    | some error => simp [backend, Backend.fetch_hampered_of_some hnow] at hstate
    | none =>
      rw [Backend.fetch_hampered_of_none hnow] at hstate
      obtain rfl := Except.ok.inj hstate
      exact hkeeps
  have hfetch : ∀ h, keeps h → keeps (backend.fetch h).2 := by
    intro h hkeeps
    cases hnow : h.outage.fetches 0 with
    | some error => rwa [Backend.fetch_hampered_of_some hnow]
    | none => rwa [Backend.fetch_hampered_of_none hnow]
  have hexecute : ∀ command h, command.Marks → keeps h → keeps (backend.execute command h).2 := by
    intro command h hmarks hkeeps
    cases hnow : h.outage.commands 0 with
    | some cause => rwa [Backend.execute_hampered_of_some hnow]
    | none =>
      rw [Backend.execute_hampered_of_none hnow]
      exact countable_execute hmarks hkeeps
  have hadjust :=
    (adjust_sound hblock now).run hfit hfetch hexecute world (countable_of_store hsize hm)
  refine ⟨fun fault h => ?_, fun state hstate s hs => ?_, fun size asked h => ?_⟩
  · rcases hrun : (tick config now later).run backend world with ⟨result, final⟩
    rw [hrun] at h
    obtain rfl : result = .error (.fault fault) := h
    rcases ends_of_run hrun with adjusts | ⟨adjusts, reaps⟩
    · exact hadjust.1 fault (congrArg Prod.fst adjusts)
    · exact reap_faultless config later _ fault (congrArg Prod.fst reaps)
  · obtain ⟨-, rfl⟩ := State.ofState_eq_ok_iff.mp hs
    exact (hadjust.2 state hstate).exact hblock config.protection
  · exact size_of_mem_issued hsize (mem_issued_of_hampered h)

/-- A pool that answers a request for nodes with one of the greatest capacity. -/
def lavishPool : Command → Store → Store
  | .increaseToSize _, store => store.putNode { id := "z", capacity := some (0 - 1) }
  | _, store => store

set_option maxRecDepth 10000 in
theorem tick_stays_in_words_lavish :
    greedyConfig.block.raw.toNat < 2 ^ 63 ∧ smallStore.nodes.size < 2 ^ 63 ∧
    smallStore.state.Moderate ∧
    (∀ fault, ((tick greedyConfig smallNow).run (clusterBackend lavishPool).hampered
      ⟨smallStore, {}⟩).1 ≠ .error (.fault fault)) ∧
    ∃ asked, (.increaseToSize 4, asked) ∈ (tick greedyConfig smallNow).issued
        (clusterBackend lavishPool).hampered ⟨smallStore, {}⟩ ∧
      ∃ add : Nat, 0 < add ∧ add < 2 ^ 63 ∧ 4 = asked.world.state.schedulable.length + add := by
  have hblock : greedyConfig.block.raw.toNat < 2 ^ 63 := by decide
  have hsize : smallStore.nodes.size < 2 ^ 63 := by decide
  have hm : smallStore.state.Moderate := ⟨by decide, by decide⟩
  obtain ⟨hfault, -, hasked⟩ := tick_stays_in_words greedyConfig lavishPool smallNow smallNow {}
    hblock hsize hm
  have hissued : Command.increaseToSize 4 ∈ ((tick greedyConfig smallNow).issued
      (clusterBackend lavishPool).hampered ⟨smallStore, {}⟩).map Prod.fst := by
    rw [show ((tick greedyConfig smallNow).issued (clusterBackend lavishPool).hampered
      ⟨smallStore, {}⟩).map Prod.fst = [.uncordon "b", .increaseToSize 4] by cbv]
    decide
  obtain ⟨⟨_, asked⟩, hmem, rfl⟩ := List.mem_map.mp hissued
  exact ⟨hblock, hsize, hm, hfault, asked, hmem, hasked 4 asked hmem⟩

end Scaling

end Headroom
