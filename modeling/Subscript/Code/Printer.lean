import Subscript.Code
import Subscript.Text.Quoted

/-!
# Code in one line

Code is printed in one line for people to read. Temporaries appear under the names they were
declared with, so the printer carries the declarations it has met; a temporary without one appears
under its identifier.

## Architecture

- §1 `Declared`, the declarations met so far
- §2 `Expr.print` and its companions for lists
- §3 targets and lowered accesses
-/

namespace Subscript.Code

/-! ## §1 Declared temporaries -/

/-- The temporaries declared so far, the latest first. -/
abbrev Declared := List Temp

namespace Declared

/-- The latest declaration of a temporary. -/
def find? (declared : Declared) (id : TempId) : Option Temp :=
  List.find? (fun temp => temp.id == id) declared

/-- Add declarations, the last of them being the latest. -/
def declare (declared : Declared) (temps : List Temp) : Declared := temps.reverse ++ declared

/-- The name a temporary was declared with, or else its identifier. -/
def nameOf (declared : Declared) (id : TempId) : String :=
  match declared.find? id with
  | some temp => temp.name
  | none => id.text

/-- The keyword in front of a store: `ref` if the temporary holds storage. -/
def storeKeyword (declared : Declared) (id : TempId) : String :=
  match declared.find? id with
  | some temp => if temp.holding = .storage then "ref " else ""
  | none => ""

end Declared

/-! ## §2 Expressions -/

/-- The text of a constant. -/
def literalText : Literal → String
  | .int value => toString value
  | .bool true => "true"
  | .bool false => "false"
  | .string value => Text.quoted value
  | .null => "null"

/-- What stands in front of an argument: its name and how it is passed. -/
def argumentLabel (name? : Option String) (refKind? : Option RefKind) : String :=
  (match name? with
    | some name => name ++ ": "
    | none => "") ++
  (match refKind? with
    | some kind => kind.modifier
    | none => "")

/-- Pieces between commas. -/
def commaSeparated (pieces : List String) : String := ", ".intercalate pieces

mutual

/-- Print an expression. The arguments of a call are printed ahead of its receiver, and the stores
of a sequence after all its temporaries are declared. -/
def Expr.print (symbols : SymbolTable) : Expr → StateM Declared String
  | .literal _ value => pure (literalText value)
  | .var _ symbol => pure (symbols.name symbol)
  | .temp _ temp => do return (← get).nameOf temp
  | .self _ => pure "this"
  | .field _ object field => do
    let object ← object.print symbols
    return object ++ "." ++ symbols.name field
  | .element _ object index => do
    let object ← object.print symbols
    let index ← index.print symbols
    return object ++ "[" ++ index ++ "]"
  | .call _ receiver method arguments _ => do
    let arguments ← printAll symbols arguments
    let receiver ← receiver.print symbols
    return receiver ++ "." ++ symbols.name method ++ "(" ++ commaSeparated arguments ++ ")"
  | .staticCall _ method arguments _ => do
    let arguments ← printAll symbols arguments
    return symbols.name method ++ "(" ++ commaSeparated arguments ++ ")"
  | .construct _ constructor arguments => do
    let arguments ← printAll symbols arguments
    return "new " ++ symbols.name constructor ++ "(" ++ commaSeparated arguments ++ ")"
  | .binary _ op left right => do
    let left ← left.print symbols
    let right ← right.print symbols
    return "(" ++ left ++ " " ++ op.sign ++ " " ++ right ++ ")"
  | .array _ elements => do
    let elements ← printAll symbols elements
    return "[" ++ commaSeparated elements ++ "]"
  | .store _ temp value => do
    let value ← value.print symbols
    let declared ← get
    return declared.storeKeyword temp ++ declared.nameOf temp ++ " = " ++ value
  | .sequence _ temps stores result => do
    -- all names are known ahead of the first store
    modify (Declared.declare · temps)
    let stores ← printStores symbols stores
    let result ← result.print symbols
    return "\x7b " ++ stores ++ result ++ " \x7d"
  | .dynamicMember _ receiver name indexable => do
    let receiver ← receiver.print symbols
    -- an element that is indexed further is asked for as such
    return "dyn_get_member(" ++ receiver ++ ", " ++ Text.quoted name ++
      (if indexable then ", indexed)" else ")")
  | .dynamicElement _ receiver arguments names refKinds => do
    let receiver ← receiver.print symbols
    let arguments ← printLabelled symbols arguments names refKinds
    let list := commaSeparated arguments
    return "dyn_get_index(" ++ receiver ++ (if list.isEmpty then "" else ", " ++ list) ++ ")"
termination_by structural expr => expr

/-- Print a list of expressions from left to right. -/
def printAll (symbols : SymbolTable) : List Expr → StateM Declared (List String)
  | [] => pure []
  | expr :: exprs => do
    let text ← expr.print symbols
    let texts ← printAll symbols exprs
    return text :: texts
termination_by structural exprs => exprs

/-- Print stores in the order in which they run, each closed by a semicolon. -/
def printStores (symbols : SymbolTable) : List Expr → StateM Declared String
  | [] => pure ""
  | store :: stores => do
    let text ← store.print symbols
    let texts ← printStores symbols stores
    return text ++ "; " ++ texts
termination_by structural stores => stores

/-- Print arguments, each behind its name and the way it is passed. -/
def printLabelled (symbols : SymbolTable) :
    List Expr → List (Option String) → List RefKind → StateM Declared (List String)
  | [], _, _ => pure []
  -- names and ref kinds may be fewer than the arguments, or none at all
  | expr :: exprs, names, refKinds => do
    let text ← expr.print symbols
    let texts ← printLabelled symbols exprs names.tail refKinds.tail
    return (argumentLabel names.head?.join refKinds.head? ++ text) :: texts
termination_by structural exprs => exprs

end

/-! ## §3 Lowered accesses -/

/-- Print an assignable element. -/
def Place.print (symbols : SymbolTable) : Place → StateM Declared String
  | .indexer receiver symbol _ _ arguments shape => do
    let receiver ← receiver.print symbols
    let arguments ← printLabelled symbols arguments shape.names shape.refKinds
    return "indexer " ++ receiver ++ "." ++ symbols.name symbol ++
      "[" ++ commaSeparated arguments ++ "]"
  | .dynamic receiver arguments names refKinds => do
    let receiver ← receiver.print symbols
    let arguments ← printLabelled symbols arguments names refKinds
    return "dyn_index " ++ receiver ++ "[" ++ commaSeparated arguments ++ "]"
  | .element object index => do
    let object ← object.print symbols
    let index ← index.print symbols
    return "element " ++ object ++ "[" ++ index ++ "]"

/-- Print a target: its stores between braces, if there are any, then the element. -/
def Target.print (symbols : SymbolTable) (target : Target) : StateM Declared String := do
  modify (Declared.declare · target.temps)
  let stores ← printStores symbols target.stores
  let place ← target.place.print symbols
  return (if target.stores.isEmpty then "" else "\x7b " ++ stores ++ "\x7d ") ++ place

/-- The line that shows an expression by itself. -/
def Expr.text (symbols : SymbolTable) (expr : Expr) : String := (expr.print symbols |>.run []).1

/-- The line that shows a lowered access. -/
def Lowered.text (symbols : SymbolTable) : Lowered → String
  | .value expr => expr.text symbols
  | .target assignable => (assignable.print symbols |>.run []).1

end Subscript.Code
