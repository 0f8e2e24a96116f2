import Subscript.Lowering.Basic

/-!
# Members used by lowered code

Lowered code calls getters, reads fields and uses library members. Each look-up ends the lowering
with a violation when the symbol is not what the access promises.
-/

namespace Subscript.Lowering

open Code (Expr Holding)

/-! ## §1 Looking members up -/

/-- The symbol of a library member. -/
def libraryMember (member : WellKnown.Member) : Lowering SymbolId := do
  match (← environment).members.resolve member with
  | .ok symbol => pure symbol
  | .error missing => fail (.unresolvedMember missing)

/-- The method a symbol stands for. -/
def methodOf (symbol : SymbolId) : Lowering Method := do
  match (← environment).symbols.method? symbol with
  | some method => pure method
  | none => fail (.notAMethod symbol)

/-- The property a symbol used as an indexer stands for. -/
def indexerOf (symbol : SymbolId) : Lowering Property := do
  match (← environment).symbols.property? symbol with
  | some property => pure property
  | none => fail (.notAnIndexer symbol)

/-- The getter of an indexer that has to be read. -/
def getterOf (indexer : SymbolId) (property : Property) : Lowering SymbolId :=
  match property.getter? with
  | some getter => pure getter
  | none => fail (.missingGetter indexer)

/-! ## §2 Reading a member -/

/-- Whether reading through a property and its getter gives a storage location. The getter is
looked up only if the property itself does not say so. -/
def readsByRef (property : Property) (getter : SymbolId) : Lowering Bool :=
  if property.returnsByRef then pure true else return (← methodOf getter).returnsByRef

/-- Read a property without arguments, or a field, of an object. -/
def readMember (object : Expr) (member : SymbolId) (site : Location) : Lowering Expr := do
  match (← environment).symbols.get? member with
  | some (.property property) =>
    match property.getter? with
    -- the call is typed by the property, whatever its getter returns
    | some getter => do
      let byRef ← readsByRef property getter
      return .call ⟨property.type, site⟩ object getter [] byRef
    | none => fail (.notReadable member)
  | some (.field field) => return .field ⟨field.type, site⟩ object member
  | _ => fail (.notReadable member)

/-! ## §3 Binding receivers -/

/-- How a temporary holds a receiver: it aliases the storage of a value that would otherwise be
copied, so that a write through the accessor lands in that storage. -/
def receiverHolding (types : TypeTable) (receiver : Expr) : Holding :=
  if types.isValueType receiver.type && receiver.isAddressable then .storage else .copy

end Subscript.Lowering
