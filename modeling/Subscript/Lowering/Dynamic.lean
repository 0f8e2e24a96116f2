import Subscript.Lowering.Members

/-!
# Accesses resolved at run time

Nothing about a dynamic access is resolved while compiling, so its arguments keep their written
order. Indexers that are known to apply are announced first, each with the type that declares it.
-/

namespace Subscript.Lowering

open Code (Expr Lowered Target)
open Source (Mode)

/-- Announce the candidates of a dynamic access in order. -/
def announce (site : Location) : List SymbolId → Lowering Unit
  | [] => pure ()
  | candidate :: candidates => do
    let property ← indexerOf candidate
    report (.embed property.declaringType candidate site)
    announce site candidates

/-- Fetch an indexed property of an object at run time, asking for a value to be indexed. -/
def fetchIndexedProperty (object : Lowering Expr) (property : SymbolId) (site : Location) :
    Lowering Expr := do
  let object ← object
  let env ← environment
  let name := env.symbols.name property
  report (.dynamicProperty name)
  return .dynamicMember ⟨env.types.dynamicType, site⟩ object name true

/-- The element looked up at run time; receiver and arguments are lowered already. -/
def dynamicElement (receiver : Expr) (arguments : List Expr) (names : List (Option String))
    (refKinds : List RefKind) (info : Info) : Expr :=
  .dynamicElement info receiver arguments names refKinds

/-- Lower a dynamic access: candidates, receiver, arguments, then the access itself. -/
def dynamicAccess (receiver : Lowering Expr) (arguments : Lowering (List Expr))
    (candidates : List SymbolId) (names : List (Option String)) (refKinds : List RefKind)
    (info : Info) (mode : Mode) : Lowering Lowered := do
  -- metadata is asked for before any code of the access is made
  announce info.location candidates
  let receiver ← receiver
  let arguments ← arguments
  match mode with
  | .write => return .target { place := .dynamic receiver arguments names refKinds, info := info }
  | .read => return .value (dynamicElement receiver arguments names refKinds info)

end Subscript.Lowering
