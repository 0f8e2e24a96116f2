import Subscript.Arguments.Placement
import Subscript.Code
import Subscript.Lowering.Event
import Subscript.Temporaries
import Subscript.Violation

/-!
# The lowering monad

A lowering reads the tables of the program, takes temporaries from an allocator and may end with a
violation. Running it leaves an outcome, the allocator and the events, also when it ends early:
temporaries handed out before a violation stay handed out.

## Architecture

- §1 `ArgumentBuilder`, the spelling of arguments that no one wrote
- §2 `Env`, what a lowering reads
- §3 `Run` and `Lowering`, with the monad laws
- §4 the primitive steps
-/

namespace Subscript

open Code (Allocator Binding Expr Holding)

/-! ## §1 Arguments that no one wrote

A parameter without an argument of its own is filled in: with its default, or with an array of the
arguments it collects. How such code looks depends on the platform, so it comes from a builder. -/

/-- An argument list that does not fit ends the lowering. -/
def ArgumentFault.violation (fault : ArgumentFault) : Violation := .malformedArguments fault.reason

/-- How a platform spells the arguments that a call leaves out. -/
structure ArgumentBuilder where
  /-- the code of the default of a parameter that has no argument, at a call site -/
  defaultValue : Param → TypeTable → Location → Except Violation Code.Expr
  /-- the code of the array that a parameter collects, at a call site -/
  paramsArray : Param → List Code.Expr → Location → Code.Expr

namespace ArgumentBuilder

/-- Defaults are literals of the parameter's type, or of the common reference type if the
parameter has no valid one; arrays are built in place. -/
def literals : ArgumentBuilder where
  defaultValue param types site :=
    match param.default? with
    | some value =>
      .ok (.literal ⟨if param.type.isValid then param.type else types.objectType, site⟩ value)
    | none => .error (ArgumentFault.missing param.name).violation
  paramsArray param elements site := .array ⟨param.type, site⟩ elements

instance : Inhabited ArgumentBuilder := ⟨literals⟩

end ArgumentBuilder

/-! ## §2 The environment -/

/-- Choices left to whoever lowers a method body. -/
structure Options where
  /-- whether every lowered access is checked for well-scoped temporaries -/
  validates : Bool := true
  /-- whether the code of every lowered access is reported -/
  prints : Bool := false
  /-- what the names of temporaries start with -/
  stem : String := "_tmp"
  deriving DecidableEq, Repr

/-- Check everything and report everything. -/
def Options.strict : Options := { validates := true, prints := true }

/-- What a lowering reads. -/
structure Env where
  /-- the symbols of the program -/
  symbols : SymbolTable
  /-- the types of the program -/
  types : TypeTable
  /-- the library members -/
  members : WellKnown.Registry
  /-- the spelling of arguments that no one wrote -/
  builder : ArgumentBuilder := .literals
  /-- the choices in force -/
  options : Options := {}

/-! ## §3 Runs -/

/-- What running a lowering leaves behind. -/
structure Run (α : Type) where
  /-- the result, or the violation that ended the run -/
  outcome : Except Violation α
  /-- the source of further temporaries -/
  allocator : Allocator
  /-- what happened, in order -/
  events : List Event

/-- A computation that lowers something. -/
def Lowering (α : Type) : Type := Env → Allocator → Run α

namespace Lowering

variable {α β : Type}

/-- Run a lowering. -/
def run (lowering : Lowering α) (env : Env) (allocator : Allocator) : Run α :=
  lowering env allocator

/-- Do nothing and give a value. -/
protected def pure (value : α) : Lowering α := fun _ allocator => ⟨.ok value, allocator, []⟩

/-- Go on with the result of a first lowering, unless it ended with a violation. -/
protected def bind (first : Lowering α) (next : α → Lowering β) : Lowering β :=
  fun env allocator =>
    match first env allocator with
    -- what was handed out and reported before the violation stays
    | ⟨.error violation, rest, events⟩ => ⟨.error violation, rest, events⟩
    | ⟨.ok value, rest, events⟩ =>
      let after := next value env rest
      ⟨after.outcome, after.allocator, events ++ after.events⟩

instance : Monad Lowering where
  pure := Lowering.pure
  bind := Lowering.bind

theorem run_bind_ok {first : Lowering α} {next : α → Lowering β} {env : Env}
    {allocator rest : Allocator} {value : α} {events : List Event}
    (done : first.run env allocator = ⟨.ok value, rest, events⟩) :
    (first >>= next).run env allocator =
      ⟨((next value).run env rest).outcome, ((next value).run env rest).allocator,
        events ++ ((next value).run env rest).events⟩ := by
  show Lowering.bind first next env allocator = _
  unfold Lowering.bind
  rw [show first env allocator = _ from done]
  rfl

theorem run_bind_error {first : Lowering α} {next : α → Lowering β} {env : Env}
    {allocator rest : Allocator} {violation : Violation} {events : List Event}
    (ended : first.run env allocator = ⟨.error violation, rest, events⟩) :
    (first >>= next).run env allocator = ⟨.error violation, rest, events⟩ := by
  show Lowering.bind first next env allocator = _
  unfold Lowering.bind
  rw [show first env allocator = _ from ended]

/-- A run of two lowerings succeeds exactly if both do, the second from the allocator that the first
leaves; the events of the first come first. -/
theorem run_bind_eq_ok_iff {first : Lowering α} {next : α → Lowering β} {env : Env}
    {allocator rest : Allocator} {result : β} {events : List Event} :
    (first >>= next).run env allocator = ⟨.ok result, rest, events⟩ ↔
      ∃ value middle earlier later,
        first.run env allocator = ⟨.ok value, middle, earlier⟩ ∧
        (next value).run env middle = ⟨.ok result, rest, later⟩ ∧
        events = earlier ++ later := by
  constructor
  · intro done
    -- a first step that ended early would have ended the whole run
    rcases ran : first.run env allocator with ⟨_ | value, middle, earlier⟩
    · rw [run_bind_error ran] at done
      cases done
    · rw [run_bind_ok ran] at done
      obtain ⟨outcome, allocators, traces⟩ := Run.mk.inj done
      refine ⟨value, middle, earlier, ((next value).run env middle).events, rfl, ?_, traces.symm⟩
      rw [← outcome, ← allocators]
  · rintro ⟨value, middle, earlier, later, ran, continued, rfl⟩
    rw [run_bind_ok ran, continued]

private theorem bind_pure_self (first : Lowering α) : id <$> first = first := by
  funext env allocator
  show Lowering.bind first Lowering.pure env allocator = first env allocator
  unfold Lowering.bind Lowering.pure
  rcases first env allocator with ⟨_ | _, _, _⟩ <;> simp

private theorem pure_bind_apply (value : α) (next : α → Lowering β) :
    pure value >>= next = next value := by
  funext env allocator
  show Lowering.bind (Lowering.pure value) next env allocator = next value env allocator
  simp [Lowering.bind, Lowering.pure]

private theorem bind_bind {γ : Type} (first : Lowering α) (second : α → Lowering β)
    (third : β → Lowering γ) :
    first >>= second >>= third = first >>= fun value => second value >>= third := by
  funext env allocator
  show Lowering.bind (Lowering.bind first second) third env allocator =
    Lowering.bind first (fun value => Lowering.bind (second value) third) env allocator
  unfold Lowering.bind
  rcases first env allocator with ⟨_ | value, rest, _⟩
  · rfl
  · dsimp only
    rcases second value env rest with ⟨_ | _, _, _⟩ <;> simp

instance : LawfulMonad Lowering :=
  LawfulMonad.mk' Lowering bind_pure_self pure_bind_apply bind_bind

/-! ## §4 Primitive steps -/

/-- The environment of the run. -/
def environment : Lowering Env := fun env allocator => ⟨.ok env, allocator, []⟩

/-- End with a violation. -/
def fail (violation : Violation) : Lowering α :=
  fun _ allocator => ⟨.error violation, allocator, []⟩

/-- Report an event. -/
def report (event : Event) : Lowering Unit := fun _ allocator => ⟨.ok (), allocator, [event]⟩

/-- Take over a result that may be a violation. -/
def ofExcept : Except Violation α → Lowering α
  | .ok value => pure value
  | .error violation => fail violation

/-- Take over a result about arguments that may not fit. -/
def ofPlacement : Except ArgumentFault α → Lowering α
  | .ok value => pure value
  | .error fault => fail fault.violation

/-- Use the allocator. -/
def withAllocator (use : StateM Allocator α) : Lowering α := fun _ allocator =>
  ⟨.ok (use.run allocator).1, (use.run allocator).2, []⟩

/-- Number of temporaries handed out so far. -/
def allocated : Lowering UInt32 := fun _ allocator => ⟨.ok allocator.allocated, allocator, []⟩

/-- Bind a value to a fresh temporary. -/
def bindTemp (value : Expr) (holding : Holding) : Lowering Binding := fun _ allocator =>
  ⟨.ok (allocator.bind value holding).1, (allocator.bind value holding).2, []⟩

end Lowering

end Subscript
