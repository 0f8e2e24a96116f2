import Subscript.Logging

/-!
# The first set-up decides

Two facts about a process decide what a set-up of logging does: the guard of the initialization
and the installed logger. The first call installs a logger, and no later one replaces it. What
later calls answer depends on whether the first one passed the guard. If it did, all of them do
nothing; if it went around it, every guarded one fails, and nobody ever passes the guard.

## Architecture

- §1 the first call, and one call while a logger is installed, for each state of the guard
- §2 runs of calls
- §3 the main result
-/

namespace Subscript.Logging

namespace State

variable {logger : Logger} {setup : Setup}

/-! ## §1 One call -/

/-- Every set-up but the one for tests goes through the guard. -/
private theorem run_eq_guarded (state : State) (hguarded : setup ≠ .forTests) :
    state.run setup = state.guarded setup.logger := by
  cases setup with
  | forTests => exact absurd rfl hguarded
  | standard | withFilter _ | fromEnvironment => rfl

/-- A guarded set-up that comes first passes the guard. -/
theorem run_first (hguarded : setup ≠ .forTests) :
    ({} : State).run setup = (.ok (), ⟨.done, some setup.logger⟩) :=
  run_eq_guarded _ hguarded

/-- The set-up for tests leaves a process with a logger as it is. -/
theorem run_forTests (guard : Guard) (logger : Logger) :
    State.run ⟨guard, some logger⟩ .forTests = (.ok (), ⟨guard, some logger⟩) := rfl

/-- Behind a guard that was passed, every call succeeds and changes nothing. -/
theorem run_of_done (logger : Logger) (setup : Setup) :
    State.run ⟨.done, some logger⟩ setup = (.ok (), ⟨.done, some logger⟩) := by
  by_cases htests : setup = .forTests
  · rw [htests, run_forTests]
  · exact run_eq_guarded _ htests

/-- A guarded set-up finds the logger taken, and its failure poisons the guard. -/
theorem run_of_pending (logger : Logger) (hguarded : setup ≠ .forTests) :
    State.run ⟨.pending, some logger⟩ setup =
      (.error .loggerTaken, ⟨.poisoned, some logger⟩) :=
  run_eq_guarded _ hguarded

/-- A poisoned guard refuses every guarded call, whatever it wants to install. -/
theorem run_of_poisoned (logger : Logger) (hguarded : setup ≠ .forTests) :
    State.run ⟨.poisoned, some logger⟩ setup =
      (.error .guardPoisoned, ⟨.poisoned, some logger⟩) :=
  run_eq_guarded _ hguarded

/-! ## §2 Runs of calls -/

theorem after_of_done (logger : Logger) (setups : List Setup) :
    State.after ⟨.done, some logger⟩ setups = ⟨.done, some logger⟩ := by
  induction setups with
  | nil => rfl
  | cons setup setups ih => rw [after_cons, run_of_done, ih]

theorem after_of_poisoned (logger : Logger) (setups : List Setup) :
    State.after ⟨.poisoned, some logger⟩ setups = ⟨.poisoned, some logger⟩ := by
  induction setups with
  | nil => rfl
  | cons setup setups ih =>
    rw [after_cons]
    by_cases htests : setup = .forTests
    · rw [htests, run_forTests, ih]
    · rw [run_of_poisoned logger htests, ih]

/-- While the guard is pending, the first guarded call poisons it. -/
theorem after_of_pending (logger : Logger) (setups : List Setup) :
    State.after ⟨.pending, some logger⟩ setups =
      ⟨if ∀ setup ∈ setups, setup = .forTests then .pending else .poisoned, some logger⟩ := by
  induction setups with
  | nil => simp
  | cons setup setups ih =>
    rw [after_cons]
    by_cases htests : setup = .forTests
    · rw [htests, run_forTests, ih]
      simp
    · rw [run_of_pending logger htests, after_of_poisoned]
      simp [htests]

/-- With a logger installed around the guard, guarded calls fail, and only the first of them finds
the guard pending. -/
private theorem answer_of_pending (logger : Logger) (setups : List Setup) (next : Setup) :
    (State.run (State.after ⟨.pending, some logger⟩ setups) next).1 =
      if next = .forTests then .ok ()
      else if ∀ setup ∈ setups, setup = .forTests then .error .loggerTaken
      else .error .guardPoisoned := by
  rw [after_of_pending]
  by_cases hnext : next = .forTests
  · rw [if_pos hnext, hnext, run_forTests]
  · rw [if_neg hnext]
    by_cases hsetups : ∀ setup ∈ setups, setup = .forTests
    · rw [if_pos hsetups, if_pos hsetups, run_of_pending logger hnext]
    · rw [if_neg hsetups, if_neg hsetups, run_of_poisoned logger hnext]

private theorem isInitialized_of_pending (logger : Logger) (setups : List Setup) :
    (State.after ⟨.pending, some logger⟩ setups).isInitialized = false := by
  rw [after_of_pending]
  split <;> rfl

/-! ## §3 The main result -/

/-- The logger of the first call stays. If that call was guarded, the process is initialized from
then on and no call fails; if it was the one for tests, the process never is, and exactly the
guarded calls fail, the first of them because the logger is taken and the others at the guard. -/
theorem first_setup_wins (first : Setup) (later : List Setup) (next : Setup) :
    let process := ({} : State).after (first :: later)
    ({} : State).isInitialized = false ∧ (({} : State).run first).1 = .ok () ∧
      process.logger? = some first.logger ∧ process.filter = first.logger.filter ∧
      (first ≠ .forTests → process.isInitialized = true ∧ (process.run next).1 = .ok ()) ∧
      (first = .forTests → process.isInitialized = false ∧
        (process.run next).1 =
          if next = .forTests then .ok ()
          else if ∀ setup ∈ later, setup = .forTests then .error .loggerTaken
          else .error .guardPoisoned) := by
  intro process
  by_cases htests : first = .forTests
  · subst htests
    have hprocess : process = State.after ⟨.pending, some Setup.forTests.logger⟩ later := rfl
    have hlogger : process.logger? = some Setup.forTests.logger := by
      rw [hprocess, after_of_pending]
    refine ⟨rfl, rfl, hlogger, by rw [State.filter, hlogger], fun h => absurd rfl h, fun _ => ?_⟩
    exact ⟨isInitialized_of_pending _ later, answer_of_pending _ later next⟩
  · have hprocess : process = ⟨.done, some first.logger⟩ := by
      show State.after _ _ = _
      rw [after_cons, run_first htests, after_of_done]
    rw [hprocess, run_first htests, run_of_done]
    exact ⟨rfl, rfl, rfl, rfl, fun _ => ⟨rfl, rfl⟩, fun h => absurd h htests⟩

/-- One run that starts with a chosen level and one that starts with the set-up for tests. The
first one stays as it is; in the second one the guard is poisoned by the call that follows. -/
theorem first_setup_wins_of_level_and_tests :
    let guarded := ({} : State).after [.withFilter (.upTo .debug), .forTests, .fromEnvironment]
    let tested := ({} : State).after [.forTests, .standard, .forTests]
    Setup.withFilter (.upTo .debug) ≠ .forTests ∧ guarded.isInitialized = true ∧
      guarded.logger? = some ⟨.upTo .debug, .plain, .errors⟩ ∧
      (guarded.run .standard).1 = .ok () ∧
      tested.isInitialized = false ∧ tested.logger? = some ⟨.upTo .warn, .timed, .captured⟩ ∧
      (tested.run .fromEnvironment).1 = .error .guardPoisoned := by
  intro guarded tested
  have hfirst : Setup.withFilter (.upTo .debug) ≠ .forTests := by decide
  obtain ⟨-, -, hguarded, -, hpassed, -⟩ :=
    first_setup_wins (.withFilter (.upTo .debug)) [.forTests, .fromEnvironment] .standard
  obtain ⟨-, -, htested, -, -, hbypassed⟩ :=
    first_setup_wins .forTests [.standard, .forTests] .fromEnvironment
  exact ⟨hfirst, (hpassed hfirst).1, hguarded, (hpassed hfirst).2, (hbypassed rfl).1, htested,
    (hbypassed rfl).2⟩

end State

end Subscript.Logging
