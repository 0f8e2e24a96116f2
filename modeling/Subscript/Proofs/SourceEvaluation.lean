import Subscript.Proofs.Arguments.Order

/-!
# What source expressions mean

A source expression is evaluated directly, by a machine that runs code: operands from left to right,
arguments as they are written, and every access as the action it stands for. An indexer calls its
getter, with the values of the arguments handed to the parameters; a position is turned into an
offset by the length of the receiver, a range into two of them. Nothing here knows of temporaries.

Where the tables of the program do not have what an expression promises, it has no meaning.

## Architecture

- §1 `Evaluation`, computations on a world
- §2 members, offsets and elements
- §3 `Expr.eval` and `Access.eval`
- §4 receivers of accesses
-/

namespace Subscript

open Code (Action Machine World)

/-! ## §1 Evaluations -/

/-- A computation on a world, which may have no result. -/
abbrev Evaluation (σ ν α : Type) : Type := StateT (World σ ν) Option α

namespace Evaluation

variable {σ ν α β : Type}

/-- A result that was looked up. -/
def found : Option α → Evaluation σ ν α
  | some value => pure value
  | none => failure

/-- The symbol of a library member. -/
def library (env : Env) (member : WellKnown.Member) : Evaluation σ ν SymbolId :=
  found (env.members.symbol? member)

/-- Do something to the world. -/
def act (machine : Machine σ ν) (action : Action ν) : Evaluation σ ν ν :=
  fun world => some (machine.perform action world)

/-- Look at the state of the world. -/
def inspect (look : σ → ν) : Evaluation σ ν ν := fun world => some (look world.state, world)

/-- The evaluation gives a value and leaves a world. -/
def Gives (evaluation : Evaluation σ ν α) (world : World σ ν) (value : α)
    (left : World σ ν) : Prop :=
  evaluation.run world = some (value, left)

variable {world middle left : World σ ν}

/-- A value that is there already costs nothing: the world stays as it is. -/
theorem gives_pure (value : α) : (pure value : Evaluation σ ν α).Gives world value world := rfl

/-- An action has the value the machine gives it, and leaves the world in which the machine
performed it. -/
theorem gives_act (machine : Machine σ ν) (action : Action ν) :
    (act machine action).Gives world (machine.perform action world).1
      (machine.perform action world).2 := rfl

/-- A look at the state has the value that is seen and changes nothing. Reads of variables and
fields are looks, so they may be repeated where the world has not moved. -/
theorem gives_inspect (look : σ → ν) :
    (inspect look).Gives world (look world.state) world := rfl

/-- A look-up that finds something has that as its value. Only this half is needed: a failed
look-up has no value, so nothing is said of it. -/
theorem gives_found {option : Option α} {value : α} (h : option = some value) :
    (found option : Evaluation σ ν α).Gives world value world := by
  subst h
  rfl

/-- A member of the library that resolves for the lowering is found by the evaluation as well:
both read the same table, and only what they do about a missing member differs. -/
theorem gives_library {env : Env} {member : WellKnown.Member} {symbol : SymbolId}
    (h : env.members.resolve member = .ok symbol) :
    (library env member : Evaluation σ ν SymbolId).Gives world symbol world := by
  apply gives_found
  unfold WellKnown.Registry.resolve at h
  split at h
  · rename_i found hfound
    rw [hfound, Except.ok.inj h]
  · cases h

/-- Two evaluations in a row: the second starts in the world in which the first left off. -/
theorem Gives.bind {first : Evaluation σ ν α} {next : α → Evaluation σ ν β} {value : α}
    {result : β} (h : first.Gives world value middle) (h' : (next value).Gives middle result left) :
    (first >>= next).Gives world result left := by
  unfold Gives at h h' ⊢
  rw [StateT.run_bind, h]
  exact h'

/-! ## §2 Members and elements -/

section Members

variable (env : Env) (machine : Machine σ ν)

/-- A member of an object: the getter of a property is called, a field is read. -/
def member (object : ν) (symbol : SymbolId) : Evaluation σ ν ν :=
  match env.symbols.get? symbol with
  | some (.property property) => do
    let getter ← found property.getter?
    act machine (.call (some object) getter [])
  | some (.field _) => inspect (machine.field object symbol)
  | _ => failure

/-- The element of an object behind an indexer: the getter is called, and each of its parameters
receives what the values of the arguments, in the written order, give it. -/
def element (object : ν) (indexer : SymbolId) (shape : CallShape) (arguments : List ν) :
    Evaluation σ ν ν := do
  let property ← found (env.symbols.property? indexer)
  let getter ← found property.getter?
  let method ← found (env.symbols.method? getter)
  let placement ← found (shape.placement method.params arguments.length).toOption
  act machine (.call (some object) getter
    (shape.received machine method.params placement arguments))

/-- The element at an offset, through an indexer or of an array. -/
def elementAt (intIndexer? : Option SymbolId) (object offset : ν) : Evaluation σ ν ν :=
  match intIndexer? with
  | some indexer => element env machine object indexer .positional [offset]
  | none => act machine (.element object offset)

/-- The offset of a position in something of the given length. -/
def offset (position length : ν) : Evaluation σ ν ν := do
  let method ← library env .indexGetOffset
  act machine (.call (some position) method [length])

/-- An end of a range, as an offset in something of the given length. -/
def rangeEnd (range : ν) (getter : WellKnown.Member) (length : ν) : Evaluation σ ν ν := do
  let method ← library env getter
  let position ← act machine (.call (some range) method [])
  offset env machine position length

/-- A bound of a range as a position: an integer counts from the start. -/
def position (bound : Info) (value : ν) : Evaluation σ ν ν :=
  if env.types.isInt bound.type then do
    let method ← library env .indexFromInt
    act machine (.call none method [value])
  else
    pure value

end Members

end Evaluation

open Evaluation

/-! ## §3 Expressions and accesses -/

section Eval

variable {σ ν : Type} (env : Env) (machine : Machine σ ν)

mutual

/-- The value of an expression. -/
def Source.Expr.eval : Source.Expr → Evaluation σ ν ν
  | .literal _ value => pure (machine.literal value)
  | .var _ symbol => inspect (machine.var symbol)
  | .self _ => pure machine.self
  | .field _ object field => do
    let object ← object.eval
    inspect (machine.field object field)
  | .property _ object property => do
    let object ← object.eval
    member env machine object property
  -- only an access knows what the name of an indexed property stands for
  | .indexedProperty _ _ _ => failure
  | .call _ receiver method arguments => do
    let receiver ← receiver.eval
    let arguments ← Source.evalAll arguments
    act machine (.call (some receiver) method arguments)
  | .staticCall _ method arguments => do
    let arguments ← Source.evalAll arguments
    act machine (.call none method arguments)
  | .fromEnd _ operand => do
    let operand ← operand.eval
    let constructor ← library env .indexConstructor
    act machine (.construct constructor [operand, machine.literal (.bool true)])
  | .rangeAll _ => do
    let method ← library env .rangeAll
    act machine (.call none method [])
  | .rangeFrom _ start => do
    let start ← position env machine start.info (← start.eval)
    let method ← library env .rangeStartAt
    act machine (.call none method [start])
  | .rangeUpTo _ stop => do
    let stop ← position env machine stop.info (← stop.eval)
    let method ← library env .rangeEndAt
    act machine (.call none method [stop])
  | .rangeBetween _ start stop => do
    let start ← position env machine start.info (← start.eval)
    let stop ← position env machine stop.info (← stop.eval)
    let constructor ← library env .rangeConstructor
    act machine (.construct constructor [start, stop])
  | .access _ node => node.eval
termination_by structural expr => expr

/-- The values of expressions that are evaluated from left to right. -/
def Source.evalAll : List Source.Expr → Evaluation σ ν (List ν)
  | [] => pure []
  | expr :: exprs => do
    let value ← expr.eval
    let values ← Source.evalAll exprs
    return value :: values
termination_by structural exprs => exprs

/-- The value of the element that is accessed. -/
def Source.Access.eval : Source.Access → Evaluation σ ν ν
  | .indexer receiver arguments indexer shape _ => do
    let object ← match receiver with
      | .indexedProperty _ object property => do
        let object ← object.eval
        member env machine object property
      | other => other.eval
    let arguments ← Source.evalAll arguments
    element env machine object indexer shape arguments
  | .dynamic receiver arguments _ names refKinds _ => do
    let object ← match receiver with
      | .indexedProperty _ object property => do
        let object ← object.eval
        act machine (.dynamicMember object (env.symbols.name property) true)
      | other => other.eval
    let arguments ← Source.evalAll arguments
    act machine (.dynamicElement object arguments names refKinds)
  | .indexPattern receiver length intIndexer? argument _ => do
    let object ← receiver.eval
    let size ← member env machine object length
    let offset ← offset env machine (← argument.eval) size
    elementAt env machine intIndexer? object offset
  | .rangePattern receiver length slice argument _ => do
    let object ← receiver.eval
    let size ← member env machine object length
    let range ← argument.eval
    let start ← rangeEnd env machine range .rangeGetStart size
    let stop ← rangeEnd env machine range .rangeGetEnd size
    act machine (.call (some object) slice [start, machine.binary .sub stop start])
termination_by structural node => node

end

/-! ## §4 Receivers -/

/-- The receiver of an access through an indexer: the getter of an indexed property comes first. -/
def Source.Expr.evalIndexed : Source.Expr → Evaluation σ ν ν
  | .indexedProperty _ object symbol => do
    let object ← object.eval env machine
    member env machine object symbol
  | other => other.eval env machine

/-- The receiver of a dynamic access: an indexed property is looked up by its name. -/
def Source.Expr.evalDynamic : Source.Expr → Evaluation σ ν ν
  | .indexedProperty _ object symbol => do
    let object ← object.eval env machine
    act machine (.dynamicMember object (env.symbols.name symbol) true)
  | other => other.eval env machine

variable (receiver : Source.Expr) (arguments : List Source.Expr)

/-- An access through an indexer evaluates its receiver, then its arguments as they are written,
and calls the getter last. An indexed property as the receiver is not set apart here:
`evalIndexed` does that. -/
theorem Source.Access.eval_indexer (indexer : SymbolId) (shape : CallShape) (type : TypeId) :
    (Source.Access.indexer receiver arguments indexer shape type).eval env machine = (do
      let object ← receiver.evalIndexed env machine
      let values ← Source.evalAll env machine arguments
      element env machine object indexer shape values) := by
  cases receiver <;> simp [Source.Access.eval, Source.Expr.evalIndexed]

/-- A dynamic access evaluates its receiver, then its arguments as they are written, and leaves
the choice of an indexer to the world. -/
theorem Source.Access.eval_dynamic (candidates : List SymbolId) (names : List (Option String))
    (refKinds : List RefKind) (type : TypeId) :
    (Source.Access.dynamic receiver arguments candidates names refKinds type).eval env machine = (do
      let object ← receiver.evalDynamic env machine
      let values ← Source.evalAll env machine arguments
      act machine (.dynamicElement object values names refKinds)) := by
  cases receiver <;> simp [Source.Access.eval, Source.Expr.evalDynamic]

end Eval

end Subscript
