import Subscript.Lowering.Expression

/-!
# Lowering a method body

All accesses of one method body are lowered in one session: they share the tables and the count of
temporaries, so no two of them ever get the same temporary. The options may change in between.

An operand lowering of its own kind serves whoever watches a session: it reports each operand that
an access asks for, and may answer a variable with code that is lowered already.
-/

namespace Subscript

open Code (Allocator)

/-! ## §1 Sessions -/

/-- The state of lowering one method body. -/
structure Session where
  /-- what every step reads -/
  env : Env
  /-- the source of temporaries -/
  allocator : Allocator

namespace Session

/-- A session over the tables of a program, before anything is lowered. -/
def start (symbols : SymbolTable) (types : TypeTable) (members : WellKnown.Registry) : Session :=
  ⟨{ symbols := symbols, types := types, members := members }, {}⟩

/-- Change the options; temporaries keep counting and take the new stem. -/
def withOptions (session : Session) (options : Options) : Session :=
  ⟨{ session.env with options := options }, session.allocator.withStem options.stem⟩

/-- Fill in arguments another way. -/
def withBuilder (session : Session) (builder : ArgumentBuilder) : Session :=
  { session with env := { session.env with builder := builder } }

/-- Run one step: its outcome, its events and the session after it. -/
def run {α : Type} (session : Session) (step : Lowering α) :
    Except Violation α × List Event × Session :=
  let run := step.run session.env session.allocator
  (run.outcome, run.events, { session with allocator := run.allocator })

end Session

/-! ## §2 Log lines of a step -/

/-- The log record of a violation. -/
def Violation.record (violation : Violation) : Logging.Level × String :=
  (.error, violation.announcement)

/-- The log records of a step: those of its events, and at the end that of its violation. -/
def logOf {α : Type} (outcome : Except Violation α) (events : List Event) :
    List (Logging.Level × String) :=
  events.filterMap Event.record? ++
    match outcome with
    | .ok _ => []
    | .error violation => [violation.record]

/-! ## §3 Watched operands -/

/-- Lower an operand and report it. A variable that `known?` knows is answered with its code. -/
def watchedOperand (known? : SymbolId → Option Code.Expr) : OperandLowering := fun operand => do
  Lowering.report (.operand operand.location)
  match operand with
  -- only a variable that stands by itself is answered, not one inside another operand
  | .var _ symbol =>
    match known? symbol with
    | some code => pure code
    | none => operand.lower
  | _ => operand.lower

end Subscript
