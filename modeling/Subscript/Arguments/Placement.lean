import Subscript.Source

/-!
# Placement of arguments

An argument list is matched with a parameter list before anything is lowered: every argument gets
the position of its parameter. A named argument goes to the first parameter of that name, any other
one to the parameter at its own position, and in expanded form everything from the last parameter
on is collected there. A placement that is already known is only checked.

## Architecture

- §1 `ArgumentFault`, why an argument list does not fit
- §2 `CallShape.placement`
- §3 arguments that share a parameter
- §4 placements that change the order of the arguments
-/

namespace Subscript

/-! ## §1 Faults -/

/-- Why an argument list does not fit a parameter list. -/
inductive ArgumentFault where
  /-- the number of names is not the number of arguments -/
  | nameCount (names arguments : Nat)
  /-- the number of ref kinds is not the number of arguments -/
  | refKindCount (refKinds arguments : Nat)
  /-- the known placement does not cover the arguments -/
  | placementSize (entries arguments : Nat)
  /-- the known placement leaves the parameter list -/
  | placementRange (parameter parameters : Nat)
  /-- expanded form, but the last parameter does not collect arguments -/
  | notCollecting
  /-- no parameter has the name of a named argument -/
  | unknownName (name : String)
  /-- there are more arguments than parameters -/
  | tooMany (arguments parameters : Nat)
  /-- a parameter gets several arguments -/
  | boundAgain (parameter : String) (times : Nat)
  /-- an argument is taken for a parameter, but it was taken before -/
  | takenAgain (argument : Nat)
  /-- a parameter without a default gets no argument -/
  | missing (parameter : String)
  deriving DecidableEq, Repr

/-- The reason given for a fault. -/
def ArgumentFault.reason : ArgumentFault → String
  | .nameCount names arguments =>
    toString names ++ " names for " ++ toString arguments ++ " arguments"
  | .refKindCount refKinds arguments =>
    toString refKinds ++ " ref kinds for " ++ toString arguments ++ " arguments"
  | .placementSize entries arguments =>
    "argument map has " ++ toString entries ++ " entries for " ++ toString arguments ++
      " arguments"
  | .placementRange parameter parameters =>
    "argument mapped to parameter " ++ toString parameter ++ " of " ++ toString parameters
  | .notCollecting => "expanded form without a params parameter"
  | .unknownName name => "no parameter named `" ++ name ++ "`"
  | .tooMany arguments parameters =>
    toString arguments ++ " arguments for " ++ toString parameters ++ " parameters"
  | .boundAgain parameter times =>
    "parameter `" ++ parameter ++ "` bound " ++ toString times ++ " times"
  | .takenAgain argument => "argument " ++ toString argument ++ " consumed twice"
  | .missing parameter => "no argument for required parameter `" ++ parameter ++ "`"

namespace CallShape

/-! ## §2 Placement -/

/-- The parameter that collects trailing arguments in expanded form. -/
def collector? (shape : CallShape) (params : List Param) : Except ArgumentFault (Option Nat) :=
  if shape.isExpanded then
    match params.getLast? with
    | some last => if last.isParams then .ok (some (params.length - 1)) else .error .notCollecting
    | none => .error .notCollecting
  else
    .ok none

/-- The parameter of the argument at a position, where no placement is known. -/
def parameterOf (shape : CallShape) (params : List Param) (collector? : Option Nat)
    (count position : Nat) : Except ArgumentFault Nat :=
  match shape.name? position with
  | some name =>
    match params.findIdx? (·.name = name) with
    | some parameter => .ok parameter
    | none => .error (.unknownName name)
  | none =>
    -- the collecting parameter takes the argument at its own position as well
    match collector?.filter (· ≤ position) with
    | some collector => .ok collector
    | none =>
      if position < params.length then .ok position
      else .error (.tooMany count params.length)

/-- Check a known placement of so many arguments. -/
def checkPlacement (params : List Param) (count : Nat) (placement : List Nat) :
    Except ArgumentFault (List Nat) :=
  if placement.length ≠ count then
    .error (.placementSize placement.length count)
  else
    match placement.find? (params.length ≤ ·) with
    | some parameter => .error (.placementRange parameter params.length)
    | none => .ok placement

/-- The parameter of every argument, in the order of the arguments. -/
def placement (shape : CallShape) (params : List Param) (count : Nat) :
    Except ArgumentFault (List Nat) := do
  if shape.names ≠ [] ∧ shape.names.length ≠ count then
    .error (.nameCount shape.names.length count)
  if shape.refKinds ≠ [] ∧ shape.refKinds.length ≠ count then
    .error (.refKindCount shape.refKinds.length count)
  -- a known placement is final: names and expanded form no longer matter
  match shape.placement? with
  | some known => checkPlacement params count known
  | none => do
    let collector? ← shape.collector? params
    (List.range count).mapM (shape.parameterOf params collector? count)

/-! ## §3 Parameters with several arguments -/

/-- The parameter whose arguments are collected: the last one, in expanded form. -/
def collecting? (shape : CallShape) (params : List Param) : Option Nat :=
  if shape.isExpanded then
    match params.length with
    | 0 => none
    | last + 1 => some last
  else
    none

/-- The first parameter that gets several arguments without collecting them. -/
def overbound? (shape : CallShape) (params : List Param) (placement : List Nat) :
    Option ArgumentFault :=
  params.zipIdx.findSome? fun (param, position) =>
    if 1 < placement.count position ∧ shape.collecting? params ≠ some position then
      some (.boundAgain param.name (placement.count position))
    else
      none

end CallShape

/-! ## §4 Changes of order -/

/-- Some argument goes to an earlier parameter than the argument written just before it. -/
def descends : List Nat → Bool
  | first :: second :: rest => second < first || descends (second :: rest)
  | _ => false

/-- A list descends nowhere exactly if each entry is at most every later one. The code compares
neighbours only, which is enough as the order is transitive. -/
theorem descends_eq_false_iff (positions : List Nat) :
    descends positions = false ↔ positions.Pairwise (· ≤ ·) := by
  induction positions with
  | nil => simp [descends]
  | cons first rest ih =>
    cases rest with
    | nil => simp [descends]
    | cons second rest =>
      rw [descends, Bool.or_eq_false_iff, ih]
      constructor
      · rintro ⟨step, sorted⟩
        have le : first ≤ second := by simpa using step
        refine List.pairwise_cons.2 ⟨?_, sorted⟩
        -- what is behind the second entry is reached through it
        intro other member
        rcases List.mem_cons.1 member with rfl | member
        · exact le
        · exact Nat.le_trans le ((List.pairwise_cons.1 sorted).1 other member)
      · intro sorted
        have parts := List.pairwise_cons.1 sorted
        exact ⟨by simpa using parts.1 second (by simp), parts.2⟩

end Subscript
