import Subscript.Location
import Subscript.Symbols

/-!
# Typed source expressions

The expressions that lowering consumes are resolved and type-checked: every member reference is a
symbol identifier and every expression carries its type and its place. An access `receiver[…]`
comes in one of four forms; everything else is what may stand as a receiver or as an argument.

## Architecture

- §1 `CallShape`, how the arguments of an access are spelled
- §2 `Source.Expr` and `Source.Access`, the typed tree
- §3 the parts of an access
-/

namespace Subscript

/-! ## §1 Spelling of an argument list -/

/-- What an argument list says beyond the arguments themselves. -/
structure CallShape where
  /-- the name of each named argument; empty if none is named -/
  names : List (Option String) := []
  /-- how each argument is passed; empty if all are copied -/
  refKinds : List RefKind := []
  /-- whether trailing arguments are collected into the last parameter -/
  isExpanded : Bool := false
  /-- the parameter of each argument, where it is already known -/
  placement? : Option (List Nat) := none
  deriving DecidableEq, Repr

namespace CallShape

/-- Arguments in the order of the parameters, all copied. -/
def positional : CallShape := {}

/-- The name given to the argument at a position. -/
def name? (shape : CallShape) (position : Nat) : Option String :=
  (shape.names[position]?).join

/-- An argument is named exactly if the list of names has a name at its position. -/
theorem name?_eq_some_iff {shape : CallShape} {position : Nat} {name : String} :
    shape.name? position = some name ↔ shape.names[position]? = some (some name) := by
  unfold name?
  rw [Option.join_eq_some_iff]

/-- An argument beyond the list of names is unnamed, just as one whose entry there is empty. -/
theorem name?_eq_none_iff {shape : CallShape} {position : Nat} :
    shape.name? position = none ↔ ∀ name, shape.names[position]? ≠ some (some name) := by
  rw [Option.eq_none_iff_forall_ne_some]
  simp only [ne_eq, name?_eq_some_iff]

/-- How the argument at a position is passed. -/
def refKind (shape : CallShape) (position : Nat) : RefKind :=
  (shape.refKinds[position]?).getD .byValue

end CallShape

/-- The type of an expression and its place in the program. -/
structure Info where
  /-- the type of the expression's value -/
  type : TypeId
  /-- the place it comes from -/
  location : Location
  deriving DecidableEq, Repr

namespace Source

/-! ## §2 The typed tree -/

mutual

/-- A typed expression. -/
inductive Expr where
  /-- a constant -/
  | literal (info : Info) (value : Literal)
  /-- a local variable or parameter -/
  | var (info : Info) (symbol : SymbolId)
  /-- the object whose method is being compiled -/
  | self (info : Info)
  /-- `object.field` -/
  | field (info : Info) (object : Expr) (field : SymbolId)
  /-- the read `object.property` of a property without arguments -/
  | property (info : Info) (object : Expr) (property : SymbolId)
  /-- the name `object.property` of an indexed property, whose arguments are still to follow -/
  | indexedProperty (info : Info) (object : Expr) (property : SymbolId)
  /-- `receiver.method(arguments)`, with the arguments in the order of the parameters -/
  | call (info : Info) (receiver : Expr) (method : SymbolId) (arguments : List Expr)
  /-- `method(arguments)` without a receiver -/
  | staticCall (info : Info) (method : SymbolId) (arguments : List Expr)
  /-- `^operand`, a position counted from the end -/
  | fromEnd (info : Info) (operand : Expr)
  /-- `..`, the range of everything -/
  | rangeAll (info : Info)
  /-- `start..`, the range from a position on -/
  | rangeFrom (info : Info) (start : Expr)
  /-- `..stop`, the range up to a position -/
  | rangeUpTo (info : Info) (stop : Expr)
  /-- `start..stop`, the range between two positions -/
  | rangeBetween (info : Info) (start stop : Expr)
  /-- an element access -/
  | access (info : Info) (node : Access)

/-- An element access `receiver[…]`. -/
inductive Access where
  /-- an access through a resolved indexer -/
  | indexer (receiver : Expr) (arguments : List Expr) (indexer : SymbolId) (shape : CallShape)
      (resultType : TypeId)
  /-- an access that is resolved at run time; `candidates` are the indexers known to apply -/
  | dynamic (receiver : Expr) (arguments : List Expr) (candidates : List SymbolId)
      (names : List (Option String)) (refKinds : List RefKind) (resultType : TypeId)
  /-- `receiver[position]` on a type with a length and, unless it is an array, an indexer that
  takes an integer -/
  | indexPattern (receiver : Expr) (length : SymbolId) (intIndexer? : Option SymbolId)
      (argument : Expr) (resultType : TypeId)
  /-- `receiver[range]` on a type with a length and a method that cuts out a slice -/
  | rangePattern (receiver : Expr) (length slice : SymbolId) (argument : Expr)
      (resultType : TypeId)

end

/-- The type and the place of an expression. -/
def Expr.info : Expr → Info
  | .literal info _ => info
  | .var info _ => info
  | .self info => info
  | .field info _ _ => info
  | .property info _ _ => info
  | .indexedProperty info _ _ => info
  | .call info _ _ _ => info
  | .staticCall info _ _ => info
  | .fromEnd info _ => info
  | .rangeAll info => info
  | .rangeFrom info _ => info
  | .rangeUpTo info _ => info
  | .rangeBetween info _ _ => info
  | .access info _ => info

/-- The type of an expression's value. -/
def Expr.type (expr : Expr) : TypeId := expr.info.type

/-- The place of an expression. -/
def Expr.location (expr : Expr) : Location := expr.info.location

/-- The object and the property, if the expression names an indexed property. -/
def Expr.indexedProperty? : Expr → Option (Expr × SymbolId)
  | .indexedProperty _ object symbol => some (object, symbol)
  | _ => none

/-! ## §3 Parts of an access -/

/-- The type of the accessed element. -/
def Access.resultType : Access → TypeId
  | .indexer _ _ _ _ type => type
  | .dynamic _ _ _ _ _ type => type
  | .indexPattern _ _ _ _ type => type
  | .rangePattern _ _ _ _ type => type

/-- The expression in front of the brackets. -/
def Access.receiver : Access → Expr
  | .indexer receiver _ _ _ _ => receiver
  | .dynamic receiver _ _ _ _ _ => receiver
  | .indexPattern receiver _ _ _ _ => receiver
  | .rangePattern receiver _ _ _ _ => receiver

/-- What the accessed element is wanted for. -/
inductive Mode where
  /-- its value -/
  | read
  /-- a place to assign to, possibly after reading it -/
  | write
  deriving DecidableEq, Repr

/-- An element is read unless it is said to be written. -/
instance : Inhabited Mode := ⟨.read⟩

/-- Whether the element is wanted as a place to assign to. -/
def Mode.isWrite : Mode → Bool
  | .read => false
  | .write => true

end Source

end Subscript
