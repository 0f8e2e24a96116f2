import Subscript.Source

/-!
# Lowered code

Code has no element accesses left: an indexer is a call of its getter, a dynamic access is an
explicit run-time operation, and a position or a range is arithmetic over temporaries. A temporary
lives in the sequence that declares it.

## Architecture

- §1 `Temp` and `Expr`, the code of an expression
- §2 classes of expressions: stable, free of side effects, addressable
- §3 `Target` and `Lowered`, what an access is lowered to
-/

namespace Subscript.Code

/-! ## §1 Expressions -/

/-- An arithmetic operator. -/
inductive BinaryOp where
  /-- addition -/
  | add
  /-- subtraction -/
  | sub
  deriving DecidableEq, Repr

/-- The sign of an operator. -/
def BinaryOp.sign : BinaryOp → String
  | .add => "+"
  | .sub => "-"

/-- What a temporary holds. -/
inductive Holding where
  /-- a copy of its initializer's value -/
  | copy
  /-- the storage that its initializer denotes -/
  | storage
  deriving DecidableEq, Repr

/-- A temporary made while lowering. -/
structure Temp where
  /-- its identifier, unique in one method body -/
  id : TempId
  /-- its name in printed code -/
  name : String
  /-- the type of what it holds -/
  type : TypeId
  /-- whether it holds a copy or storage -/
  holding : Holding
  deriving DecidableEq, Repr

/-- The code of an expression. -/
inductive Expr where
  /-- a constant -/
  | literal (info : Info) (value : Literal)
  /-- the value of a local variable or parameter -/
  | var (info : Info) (symbol : SymbolId)
  /-- the value of a temporary -/
  | temp (info : Info) (temp : TempId)
  /-- the object whose method runs -/
  | self (info : Info)
  /-- a field of an object -/
  | field (info : Info) (object : Expr) (field : SymbolId)
  /-- an element of a built-in array -/
  | element (info : Info) (object index : Expr)
  /-- a method call; `byRef` says that its result is a storage location -/
  | call (info : Info) (receiver : Expr) (method : SymbolId) (arguments : List Expr) (byRef : Bool)
  /-- a method call without a receiver -/
  | staticCall (info : Info) (method : SymbolId) (arguments : List Expr) (byRef : Bool)
  /-- a constructor call -/
  | construct (info : Info) (constructor : SymbolId) (arguments : List Expr)
  /-- an arithmetic operation -/
  | binary (info : Info) (op : BinaryOp) (left right : Expr)
  /-- an array of the collected trailing arguments -/
  | array (info : Info) (elements : List Expr)
  /-- initialization of a temporary, without a value of its own -/
  | store (info : Info) (temp : TempId) (value : Expr)
  /-- evaluation of the stores in order, then of the result; the store at each position belongs to
  the temporary at the same position -/
  | sequence (info : Info) (temps : List Temp) (stores : List Expr) (result : Expr)
  /-- a member looked up by name at run time; `indexable` asks for a value to be indexed further -/
  | dynamicMember (info : Info) (receiver : Expr) (name : String) (indexable : Bool)
  /-- an element looked up at run time -/
  | dynamicElement (info : Info) (receiver : Expr) (arguments : List Expr)
      (names : List (Option String)) (refKinds : List RefKind)

namespace Expr

/-- The type and the place of an expression. -/
def info : Expr → Info
  | .literal info _ => info
  | .var info _ => info
  | .temp info _ => info
  | .self info => info
  | .field info _ _ => info
  | .element info _ _ => info
  | .call info _ _ _ _ => info
  | .staticCall info _ _ _ => info
  | .construct info _ _ => info
  | .binary info _ _ _ => info
  | .array info _ => info
  | .store info _ _ => info
  | .sequence info _ _ _ => info
  | .dynamicMember info _ _ _ => info
  | .dynamicElement info _ _ _ _ => info

/-- The type of an expression's value. -/
def type (expr : Expr) : TypeId := expr.info.type

/-- The place of an expression. -/
def location (expr : Expr) : Location := expr.info.location

/-! ## §2 Classes of expressions -/

/-- A stable expression has no effect and the same value whenever it is evaluated. -/
def isStable : Expr → Bool
  -- a temporary is stored once, a variable may be written by any call
  | .literal _ _ | .temp _ _ | .self _ => true
  | _ => false

/-- An expression free of side effects may still change its value when storage is written. -/
def isSideEffectFree : Expr → Bool
  | .literal _ _ | .var _ _ | .temp _ _ | .self _ => true
  | .field _ object _ => object.isSideEffectFree
  | _ => false

/-- An addressable expression denotes storage that a temporary can alias. -/
def isAddressable : Expr → Bool
  | .var _ _ | .temp _ _ | .self _ | .element _ _ _ => true
  | .field _ object _ => object.isAddressable
  | .call _ _ _ _ byRef => byRef
  | .staticCall _ _ _ byRef => byRef
  -- the stores of a sequence only prepare its result
  | .sequence _ _ _ result => result.isAddressable
  | _ => false

/-- Whether the expression is a sequence. -/
def isSequence : Expr → Bool
  | .sequence _ _ _ _ => true
  | _ => false

/-- Say whether the result of a call is a storage location; other expressions stay as they are. -/
def withByRef (expr : Expr) (byRef : Bool) : Expr :=
  match expr with
  | .call info receiver method arguments _ => .call info receiver method arguments byRef
  | .staticCall info method arguments _ => .staticCall info method arguments byRef
  | other => other

theorem isSideEffectFree_of_isStable {expr : Expr} (stable : expr.isStable = true) :
    expr.isSideEffectFree = true := by
  cases expr <;> simp_all [isStable, isSideEffectFree]

end Expr

/-- The expression that reads a temporary at a place. -/
def Temp.reference (temp : Temp) (location : Location) : Expr :=
  .temp ⟨temp.type, location⟩ temp.id

/-! ## §3 Lowered accesses -/

/-- The element that an assignment is going to write. -/
inductive Place where
  /-- an element behind the accessors of an indexer; its arguments are lowered but not yet put in
  the order of the parameters, so that one ordering serves both accessors -/
  | indexer (receiver : Expr) (indexer : SymbolId) (getter? setter? : Option SymbolId)
      (arguments : List Expr) (shape : CallShape)
  /-- an element that is looked up at run time -/
  | dynamic (receiver : Expr) (arguments : List Expr) (names : List (Option String))
      (refKinds : List RefKind)
  /-- an element of a built-in array -/
  | element (object index : Expr)

/-- The expression whose element a place is. -/
def Place.receiver : Place → Expr
  | .indexer receiver _ _ _ _ _ => receiver
  | .dynamic receiver _ _ _ => receiver
  | .element object _ => object

/-- An assignable element: the stores run first, in order, and the place may read their
temporaries. -/
structure Target where
  /-- the temporaries declared for the place -/
  temps : List Temp := []
  /-- their stores, position by position -/
  stores : List Expr := []
  /-- the element itself -/
  place : Place
  /-- its type and its place in the program -/
  info : Info

/-- The expression whose element the target is. -/
def Target.receiver (target : Target) : Expr := target.place.receiver

/-- What one access is lowered to. -/
inductive Lowered where
  /-- a value; of a by-reference accessor it serves for writing as well -/
  | value (expr : Expr)
  /-- an element for an assignment to complete -/
  | target (target : Target)

/-- The expression, if the access was lowered to a value. -/
def Lowered.value? : Lowered → Option Expr
  | .value result => some result
  | .target _ => none

/-- The target, if the access was lowered to one. -/
def Lowered.target? : Lowered → Option Target
  | .value _ => none
  | .target location => some location

end Subscript.Code
