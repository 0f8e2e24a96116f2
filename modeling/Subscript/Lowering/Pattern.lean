import Subscript.Lowering.Indexer

/-!
# Accesses by position and by range

A type with a length takes positions and ranges as indices, even if it only has an indexer for
integers or a method that cuts out a slice:

- `object[position]` binds object, length and offset, then accesses the element at the offset;
- `object[range]` binds object, length, range, start and end, then cuts out end − start elements
  from the start on.

Whether the end comes before the start shows only when the slice is cut.
-/

namespace Subscript.Lowering

open Code (Binding Expr Lowered Target)
open Source (Mode)

/-! ## §1 Offsets -/

/-- The offset of a position in a sequence of the given length. -/
def offsetOf (position length : Expr) (site : Location) : Lowering Expr := do
  let method ← libraryMember .indexGetOffset
  return .call ⟨(← environment).types.intType, site⟩ position method [length] false

/-- An end of a range, as a position. -/
def rangeEnd (range : Expr) (getter : WellKnown.Member) (site : Location) : Lowering Expr := do
  let method ← libraryMember getter
  return .call ⟨(← environment).types.indexType, site⟩ range method [] false

/-! ## §2 Positions -/

/-- An element of a built-in array. -/
def arrayElement (array offset : Expr) (info : Info) (mode : Mode) : Lowering Lowered := do
  if !(← environment).types.isArray array.type then
    fail (.notAnArray array.type)
  else
    match mode with
    | .write => return .target { place := .element array offset, info := info }
    | .read => return .value (.element info array offset)

/-- Run bindings ahead of a lowered access. -/
def runAhead (bindings : List Binding) : Lowered → Lowered
  | .value expr => .value (Code.sequence bindings expr)
  | .target element =>
    .target { element with
      temps := bindings.map (·.temp) ++ element.temps
      stores := bindings.map (·.store) ++ element.stores }

/-- Lower an access by position. -/
def indexPattern (receiver argument : Lowering Expr) (length : SymbolId)
    (intIndexer? : Option SymbolId) (info : Info) (mode : Mode) : Lowering Lowered := do
  let site := info.location
  let receiver ← receiver
  -- a value receiver in storage is aliased, so that a write through the indexer lands there
  let object ← bindTemp receiver (receiverHolding (← environment).types receiver)
  let size ← bindTemp (← readMember object.reference length site) .copy
  -- the length is read before the position is evaluated
  let position ← argument
  let offset ← bindTemp (← offsetOf position size.reference site) .copy
  let bindings := [object, size, offset]
  report (.indexPattern bindings.length)
  let element ← match intIndexer? with
    | some indexer =>
      indexerElement object.reference indexer [offset.reference] .positional info mode
    | none => arrayElement object.reference offset.reference info mode
  return runAhead bindings element

/-! ## §3 Ranges -/

/-- Lower an access by range. -/
def rangePattern (receiver argument : Lowering Expr) (length slice : SymbolId) (info : Info) :
    Lowering Expr := do
  let site := info.location
  let method ← methodOf slice
  if method.params.length ≠ 2 then
    fail (.badSliceSignature slice)
  else
    -- a slice is never assigned to, so a copy of the receiver will do
    let object ← bindTemp (← receiver) .copy
    let size ← bindTemp (← readMember object.reference length site) .copy
    let range ← bindTemp (← argument) .copy
    let first ← rangeEnd range.reference .rangeGetStart site
    let start ← bindTemp (← offsetOf first size.reference site) .copy
    let last ← rangeEnd range.reference .rangeGetEnd site
    let stop ← bindTemp (← offsetOf last size.reference site) .copy
    let bindings := [object, size, range, start, stop]
    -- nothing checks that the range is not inverted: cutting out the slice would show it
    let count : Expr :=
      .binary ⟨(← environment).types.intType, site⟩ .sub stop.reference start.reference
    report (.rangePattern bindings.length)
    return Code.sequence bindings
      (.call info object.reference slice [start.reference, count] false)

/-- Lower an access by range in a mode: a slice is a value and nothing to assign to. -/
def rangeAccess (receiver argument : Lowering Expr) (length slice : SymbolId) (info : Info) :
    Mode → Lowering Lowered
  | .write => fail .rangeAsAssignmentTarget
  | .read => return .value (← rangePattern receiver argument length slice info)

/-- Go on with a pattern only if its argument has the type that the pattern is about. -/
def expectArgument (expected : TypeKind) (found : TypeId) (pattern : Lowering Lowered) :
    Lowering Lowered := do
  if (← environment).types.kind? found = some expected then pattern
  else fail (.patternArgumentType expected found)

end Subscript.Lowering
