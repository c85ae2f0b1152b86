import Mathlib
import Headroom.Scaling.Procedure

/-! Laws of procedures: what a composed procedure issues and leaves is put together from its parts,
and what every allowed command keeps is kept by every run, complete or not. -/

namespace Headroom.Scaling.Procedure

open Cluster (Protection Snapshot State)

variable {α β σ : Type} {backend : Backend σ}

theorem pure_eq (a : α) : (pure a : Procedure α) = .finish (.ok a) := rfl

theorem bind_eq (p : Procedure α) (f : α → Procedure β) : p >>= f = p.bind f := rfl

/-- The commands issued while a procedure is followed, each with the world it meets. A command
that is refused is the last. -/
def issued (backend : Backend σ) : Procedure α → σ → List (Command × σ)
  | .finish _, _ => []
  | .fetch next, world =>
    match backend.fetch world with
    | (.ok state, world) => (next state).issued backend world
    | (.error _, _) => []
  | .issue command next, world =>
    (command, world) :: match backend.execute command world with
      | (.ok (), world) => next.issued backend world
      | (.error _, _) => []

/-! ### Composition -/

theorem run_bind (p : Procedure α) (f : α → Procedure β) (world : σ) :
    (p >>= f).run backend world =
      match p.run backend world with
      | (.ok a, world) => (f a).run backend world
      | (.error halt, world) => (.error halt, world) := by
  rw [bind_eq]
  induction p generalizing world with
  | finish result => cases result <;> rfl
  | fetch next ih =>
    simp only [bind, run]
    rcases backend.fetch world with ⟨error | state, after⟩
    · rfl
    · exact ih state after
  | issue command next ih =>
    simp only [bind, run]
    rcases backend.execute command world with ⟨cause | _, after⟩
    · rfl
    · exact ih after

theorem issued_bind (p : Procedure α) (f : α → Procedure β) (world : σ) :
    (p >>= f).issued backend world = p.issued backend world ++
      match p.run backend world with
      | (.ok a, world) => (f a).issued backend world
      | (.error _, _) => [] := by
  rw [bind_eq]
  induction p generalizing world with
  | finish result => cases result <;> rfl
  | fetch next ih =>
    simp only [bind, run, issued]
    rcases backend.fetch world with ⟨error | state, after⟩
    · rfl
    · exact ih state after
  | issue command next ih =>
    simp only [bind, run, issued]
    rcases backend.execute command world with ⟨cause | _, after⟩
    · rfl
    · exact congrArg _ (ih after)

/-- Followed from `world`, the procedure comes to its end: it issues `calls`, yields `a` and leaves
`world'`. -/
structure Completes (backend : Backend σ) (p : Procedure α) (world : σ)
    (calls : List (Command × σ)) (a : α) (world' : σ) : Prop where
  run_eq : p.run backend world = (.ok a, world')
  issued_eq : p.issued backend world = calls

variable {world world' : σ} {calls : List (Command × σ)}

theorem completes_of_run {p : Procedure α} {a : α} (h : p.run backend world = (.ok a, world')) :
    p.Completes backend world (p.issued backend world) a world' := ⟨h, rfl⟩

@[simp] theorem completes_pure {a b : α} :
    (pure a : Procedure α).Completes backend world calls b world' ↔
      calls = [] ∧ b = a ∧ world' = world := by
  constructor
  · rintro ⟨hrun, hissued⟩
    simp only [pure_eq, run, Prod.mk.injEq, Except.ok.injEq] at hrun
    exact ⟨hissued.symm, hrun.1.symm, hrun.2.symm⟩
  · rintro ⟨rfl, rfl, rfl⟩
    exact ⟨rfl, rfl⟩

@[simp] theorem completes_fail {error : Error} {a : α} :
    ¬ (fail error : Procedure α).Completes backend world calls a world' := by
  rintro ⟨hrun, -⟩
  simp [fail, run] at hrun

@[simp] theorem completes_compute {value : Except Fault α} {a : α} :
    (compute value).Completes backend world calls a world' ↔
      value = .ok a ∧ calls = [] ∧ world' = world := by
  cases value with
  | ok b =>
    rw [show compute (.ok b) = (pure b : Procedure α) from rfl, completes_pure, Except.ok.injEq]
    tauto
  | error fault =>
    simp only [reduceCtorEq, false_and, iff_false]
    rintro ⟨hrun, -⟩
    simp [compute, run, Except.mapError] at hrun

/-- A composed procedure comes to its end when its parts do, one after the other. -/
theorem completes_bind {p : Procedure α} {f : α → Procedure β} {b : β} :
    (p >>= f).Completes backend world calls b world' ↔
      ∃ first a middle rest, p.Completes backend world first a middle ∧
        (f a).Completes backend middle rest b world' ∧ calls = first ++ rest := by
  constructor
  · rintro ⟨hrun, hissued⟩
    rw [run_bind] at hrun
    rw [issued_bind] at hissued
    split at hrun
    · rename_i a middle hp
      simp only [hp] at hissued
      exact ⟨_, a, middle, _, completes_of_run hp, completes_of_run hrun, hissued.symm⟩
    · simp at hrun
  · rintro ⟨first, a, middle, rest, hp, hf, rfl⟩
    constructor
    · rw [run_bind, hp.run_eq]
      exact hf.run_eq
    · rw [issued_bind, hp.run_eq, hp.issued_eq]
      exact congrArg _ hf.issued_eq

theorem completes_compute_bind {value : Except Fault α} {f : α → Procedure β} {b : β} :
    (compute value >>= f).Completes backend world calls b world' ↔
      ∃ a, value = .ok a ∧ (f a).Completes backend world calls b world' := by
  rw [completes_bind]
  constructor
  · rintro ⟨first, a, middle, rest, hvalue, hf, rfl⟩
    obtain ⟨hok, rfl, rfl⟩ := completes_compute.mp hvalue
    exact ⟨a, hok, hf⟩
  · rintro ⟨a, hvalue, hf⟩
    exact ⟨[], a, world, calls, completes_compute.mpr ⟨hvalue, rfl, rfl⟩, hf, rfl⟩

/-- What a composed procedure issues is issued by its first part, or by the second from where the
first came to its end. -/
theorem mem_issued_bind {p : Procedure α} {f : α → Procedure β} {call : Command × σ} :
    call ∈ (p >>= f).issued backend world ↔ call ∈ p.issued backend world ∨
      ∃ a middle, p.run backend world = (.ok a, middle) ∧ call ∈ (f a).issued backend middle := by
  rw [issued_bind, List.mem_append]
  rcases p.run backend world with ⟨halt | a, middle⟩
  · simp
  · refine or_congr_right ⟨fun h => ⟨a, middle, rfl, h⟩, ?_⟩
    rintro ⟨_, _, heq, h⟩
    obtain ⟨ha, rfl⟩ := Prod.mk.inj heq
    obtain rfl := Except.ok.inj ha
    exact h

theorem issued_compute_bind (value : Except Fault α) (f : α → Procedure β) (world : σ) :
    (compute value >>= f).issued backend world =
      match value with
      | .ok a => (f a).issued backend world
      | .error _ => [] := by
  cases value <;> rfl

theorem mem_issued_compute_bind {value : Except Fault α} {f : α → Procedure β}
    {call : Command × σ} :
    call ∈ (compute value >>= f).issued backend world ↔
      ∃ a, value = .ok a ∧ call ∈ (f a).issued backend world := by
  cases value with
  | ok a => exact ⟨fun h => ⟨a, rfl, h⟩, fun ⟨_, ha, h⟩ => Except.ok.inj ha ▸ h⟩
  | error fault => exact ⟨fun h => absurd h List.not_mem_nil, fun ⟨_, ha, _⟩ => nomatch ha⟩

/-! ### Allowed commands -/

/-- Whatever the procedure is answered, each command it issues is allowed. -/
def Only (allowed : Command → Prop) : Procedure α → Prop
  | .finish _ => True
  | .fetch next => ∀ state, (next state).Only allowed
  | .issue command next => allowed command ∧ next.Only allowed

variable {allowed : Command → Prop}

theorem Only.pure (a : α) : (Pure.pure a : Procedure α).Only allowed := trivial

theorem Only.compute (value : Except Fault α) : (compute value).Only allowed := trivial

theorem Only.capture (rule : Protection) : (capture rule).Only allowed := by
  intro state
  dsimp only
  split <;> trivial

theorem Only.bind {p : Procedure α} {f : α → Procedure β} (hp : p.Only allowed)
    (hf : ∀ a, (f a).Only allowed) : (p >>= f).Only allowed := by
  rw [bind_eq]
  induction p with
  | finish result =>
    cases result with
    | ok a => exact hf a
    | error halt => trivial
  | fetch next ih => exact fun state => ih state (hp state)
  | issue command next ih => exact ⟨hp.1, ih hp.2⟩

theorem Only.mono {p : Procedure α} (hp : p.Only allowed) {more : Command → Prop}
    (h : ∀ command, allowed command → more command) : p.Only more := by
  induction p with
  | finish result => trivial
  | fetch next ih => exact fun state => ih state (hp state)
  | issue command next ih => exact ⟨h command hp.1, ih hp.2⟩

theorem Only.compute_bind {value : Except Fault α} {f : α → Procedure β}
    (h : ∀ a, value = .ok a → (f a).Only allowed) :
    (Procedure.compute value >>= f).Only allowed := by
  cases value with
  | ok a => exact h a rfl
  | error fault => trivial

theorem Only.issueAll {commands : List Command} (h : ∀ command ∈ commands, allowed command) :
    (issueAll commands).Only allowed := by
  induction commands with
  | nil => trivial
  | cons command rest ih =>
    exact ⟨h command List.mem_cons_self, ih fun c hc => h c (List.mem_cons_of_mem _ hc)⟩

theorem Only.mem_issued {p : Procedure α} (hp : p.Only allowed) :
    ∀ call ∈ p.issued backend world, allowed call.1 := by
  induction p generalizing world with
  | finish result => exact fun call h => absurd h List.not_mem_nil
  | fetch next ih =>
    intro call h
    simp only [issued] at h
    split at h
    · exact ih _ (hp _) call h
    · exact absurd h List.not_mem_nil
  | issue command next ih =>
    intro call h
    rcases List.mem_cons.mp h with rfl | h
    · exact hp.1
    · split at h
      · exact ih hp.2 call h
      · exact absurd h List.not_mem_nil

/-- What fetching and every allowed command keep holds where a run ends, however it ends. -/
theorem Only.run_keeps {p : Procedure α} (hp : p.Only allowed) {keeps : σ → Prop}
    (hfetch : ∀ world, keeps world → keeps (backend.fetch world).2)
    (hexecute : ∀ command world, allowed command → keeps world →
      keeps (backend.execute command world).2)
    (world : σ) (h : keeps world) : keeps (p.run backend world).2 := by
  induction p generalizing world with
  | finish result => exact h
  | fetch next ih =>
    have hnext := hfetch world h
    simp only [run]
    rcases heq : backend.fetch world with ⟨error | state, after⟩
    · simpa [heq] using hnext
    · exact ih state (hp state) after (by simpa [heq] using hnext)
  | issue command next ih =>
    have hnext := hexecute command world hp.1 h
    simp only [run]
    rcases heq : backend.execute command world with ⟨cause | _, after⟩
    · simpa [heq] using hnext
    · exact ih hp.2 after (by simpa [heq] using hnext)

/-- What fetching and every allowed command keep holds wherever a command is issued. -/
theorem Only.issued_keeps {p : Procedure α} (hp : p.Only allowed) {keeps : σ → Prop}
    (hfetch : ∀ world, keeps world → keeps (backend.fetch world).2)
    (hexecute : ∀ command world, allowed command → keeps world →
      keeps (backend.execute command world).2)
    (world : σ) (h : keeps world) : ∀ call ∈ p.issued backend world, keeps call.2 := by
  induction p generalizing world with
  | finish result => exact fun call hcall => absurd hcall List.not_mem_nil
  | fetch next ih =>
    have hnext := hfetch world h
    simp only [issued]
    rcases heq : backend.fetch world with ⟨error | state, after⟩
    · exact fun call hcall => absurd hcall List.not_mem_nil
    · exact ih state (hp state) after (by simpa [heq] using hnext)
  | issue command next ih =>
    have hnext := hexecute command world hp.1 h
    simp only [issued, List.forall_mem_cons]
    refine ⟨h, ?_⟩
    rcases heq : backend.execute command world with ⟨cause | _, after⟩
    · exact fun call hcall => absurd hcall List.not_mem_nil
    · exact ih hp.2 after (by simpa [heq] using hnext)

end Headroom.Scaling.Procedure
