import Subscript.Lowering.Basic

/-!
# Arguments in the order of the parameters

A call takes its arguments in the order of the parameters, but they are evaluated in the order in
which they were written. Where the two orders differ and an effect could be seen, every argument
that is not stable is bound to a temporary first, in the written order, and the call reads the
temporaries.

## Architecture

- §1 `spillsRequired`, whether arguments are going to be bound
- §2 `spill`, binding them in the written order
- §3 `take`, by which every argument is used once
- §4 `takeArguments`, the arguments of the parameters
- §5 `normalize`
-/

namespace Subscript.Lowering

open Code (Allocator Binding Expr Holding)

/-! ## §1 When arguments are bound -/

/-- Whether evaluating arguments in the order of their parameters could be noticed. -/
def spillsFor (placement : List Nat) (arguments : List Expr) : Bool :=
  descends placement && arguments.any (!·.isSideEffectFree)

/-- Whether the arguments of a call are going to be bound to temporaries. Whoever has to evaluate
something ahead of the arguments binds it first. -/
def spillsRequired (arguments : List Expr) (shape : CallShape) (params : List Param) :
    Except ArgumentFault Bool := do
  let placement ← shape.placement params arguments.length
  return spillsFor placement arguments

/-! ## §2 Binding arguments -/

/-- How a temporary holds an argument: by storage if the parameter shares it. -/
def argumentHolding (refKind : RefKind) : Holding := if refKind.isByRef then .storage else .copy

/-- Bind the arguments that are not stable, from left to right; the first one stands at
`position`. The answer is what the call reads in place of each argument, and the bindings. -/
def spill (shape : CallShape) (position : Nat) :
    List Expr → StateM Allocator (List Expr × List Binding)
  | [] => pure ([], [])
  | argument :: arguments =>
    -- a stable argument has the same value wherever the call evaluates it
    if argument.isStable then do
      let (reads, bindings) ← spill shape (position + 1) arguments
      return (argument :: reads, bindings)
    else do
      let binding ← modifyGet fun allocator : Allocator =>
        allocator.bind argument (argumentHolding (shape.refKind position))
      let (reads, bindings) ← spill shape (position + 1) arguments
      return (binding.reference :: reads, binding :: bindings)

/-! ## §3 Taking what is read -/

/-- What is placed at a parameter, in the written order. -/
def placedAt {α : Type _} (parameter : Nat) (placement : List Nat) (written : List α) : List α :=
  (placement.zip written).filterMap fun (target, item) =>
    if target = parameter then some item else none

/-- The arguments placed at a parameter, by their positions. -/
def slot (parameter : Nat) (placement : List Nat) : List Nat :=
  placedAt parameter placement (List.range placement.length)

/-- What is read in place of each argument, until it is taken. -/
abbrev Supply := List (Option Expr)

/-- Take what is read in place of an argument. It can be taken once: evaluating an argument a second
time would repeat its effects. -/
def take (argument : Nat) (supply : Supply) : Except ArgumentFault (Expr × Supply) :=
  match supply[argument]?.join with
  | some read => .ok (read, supply.set argument none)
  | none => .error (.takenAgain argument)

/-- Take what is read in place of several arguments, one after the other. -/
def takeAll : List Nat → Supply → Except ArgumentFault (List Expr × Supply)
  | [], supply => .ok ([], supply)
  | argument :: arguments, supply => do
    let (read, supply) ← take argument supply
    let (reads, supply) ← takeAll arguments supply
    return (read :: reads, supply)

/-! ## §4 The argument of a parameter -/

/-- The array that a parameter collects. -/
def collect (param : Param) (elements : List Expr) (site : Location) : Lowering Expr := do
  report (.packed param.name elements.length site)
  return (← environment).builder.paramsArray param elements site

/-- The default of a parameter. -/
def takeDefault (param : Param) (site : Location) : Lowering Expr := do
  report (.defaulted param.name site)
  let env ← environment
  ofExcept (env.builder.defaultValue param env.types site)

/-- The argument of a parameter, made of what was placed there. -/
def argumentFor (param : Param) (collects : Bool) (placed : List Expr) (site : Location) :
    Lowering Expr :=
  if collects then
    collect param placed site
  else
    -- at most one argument is placed here, which is checked ahead
    match placed with
    | argument :: _ => pure argument
    | [] => if param.isParams then collect param [] site else takeDefault param site

/-- The arguments of the parameters from `position` on, made of what they take. -/
def takeArguments (collecting? : Option Nat) (placement : List Nat) (site : Location)
    (position : Nat) : List Param → Supply → Lowering (List Expr)
  | [], _ => pure []
  | param :: params, supply => do
    let collects : Bool := collecting? = some position
    let placed := slot position placement
    -- whoever does not collect takes the first argument that is placed there
    let (reads, supply) ← ofPlacement (takeAll (if collects then placed else placed.take 1) supply)
    let argument ← argumentFor param collects reads site
    let arguments ← takeArguments collecting? placement site (position + 1) params supply
    return argument :: arguments

/-! ## §5 Normal form -/

/-- Arguments in the order of the parameters, and what has to run ahead of them. -/
structure Normalized where
  /-- one argument for each parameter -/
  arguments : List Expr
  /-- the bindings that the arguments read -/
  bindings : List Binding

/-- Whether something has to run ahead of the arguments. -/
def Normalized.needsSequence (normalized : Normalized) : Bool := !normalized.bindings.isEmpty

/-- Bind arguments if their order changes noticeably. -/
def spillIf (needed : Bool) (shape : CallShape) (arguments : List Expr) :
    Lowering (List Expr × List Binding) :=
  if needed then do
    report (.spilling arguments.length)
    withAllocator (spill shape 0 arguments)
  else
    pure (arguments, [])

/-- Put lowered arguments in the order of the parameters of a call at `site`. -/
def normalize (arguments : List Expr) (shape : CallShape) (params : List Param)
    (site : Location) : Lowering Normalized := do
  let placement ← ofPlacement (shape.placement params arguments.length)
  match shape.overbound? params placement with
  | some fault => fail fault.violation
  | none => do
    -- bindings come first, in the written order; only then are the arguments put in place
    let (reads, bindings) ← spillIf (spillsFor placement arguments) shape arguments
    let supply := reads.map some
    let arguments ← takeArguments (shape.collecting? params) placement site 0 params supply
    return ⟨arguments, bindings⟩

end Subscript.Lowering
