import Subscript.Lowering.Arguments
import Subscript.Lowering.Members

/-!
# Accesses through an indexer

A read `receiver[arguments]` calls the getter of the indexer. A write hands receiver, arguments and
both accessors to the assignment, which must not evaluate anything twice. An indexer that returns
by reference is its own storage, so a write through it is lowered like a read.
-/

namespace Subscript.Lowering

open Code (Expr Lowered Target)
open Source (Mode)

/-- The value of an indexed property of an object, to which the arguments then apply. -/
def readIndexedProperty (object : Lowering Expr) (property : SymbolId) (site : Location) :
    Lowering Expr := do
  -- reported before the object is lowered
  report (.indexedProperty ((← environment).symbols.name property))
  let object ← object
  readMember object property site

/-- Bind the receiver of a call whose arguments run ahead of it; a stable one stays. -/
def bindReceiver (receiver : Expr) (arguments : List Expr) (shape : CallShape)
    (params : List Param) : Lowering (Expr × List Code.Binding) := do
  -- a stable receiver may be evaluated late: no argument can change it
  if receiver.isStable then
    return (receiver, [])
  if ← ofPlacement (spillsRequired arguments shape params) then
    let holding := receiverHolding (← environment).types receiver
    let binding ← bindTemp receiver holding
    return (binding.reference, [binding])
  return (receiver, [])

/-- The call of the getter, behind whatever has to run ahead of it. -/
def callGetter (receiver : Expr) (indexer : SymbolId) (property : Property)
    (arguments : List Expr) (shape : CallShape) (info : Info) : Lowering Expr := do
  let getter ← getterOf indexer property
  let method ← methodOf getter
  let (receiver, ahead) ← bindReceiver receiver arguments shape method.params
  let normalized ← normalize arguments shape method.params info.location
  return Code.sequence (ahead ++ normalized.bindings)
    (.call info receiver getter normalized.arguments (property.returnsByRef || method.returnsByRef))

/-- Access an element through an indexer; receiver and arguments are lowered already. -/
def indexerElement (receiver : Expr) (indexer : SymbolId) (arguments : List Expr)
    (shape : CallShape) (info : Info) (mode : Mode) : Lowering Lowered := do
  let property ← indexerOf indexer
  -- nothing is bound here: the assignment decides what it has to evaluate only once
  if mode.isWrite && !property.returnsByRef then
    return .target {
      place := .indexer receiver indexer property.getter? property.setter? arguments shape
      info := info }
  return .value (← callGetter receiver indexer property arguments shape info)

/-- Lower an access through an indexer: receiver, arguments, then the access itself. -/
def indexerAccess (receiver : Lowering Expr) (arguments : Lowering (List Expr))
    (indexer : SymbolId) (shape : CallShape) (info : Info) (mode : Mode) : Lowering Lowered := do
  let receiver ← receiver
  let arguments ← arguments
  indexerElement receiver indexer arguments shape info mode

end Subscript.Lowering
