import Subscript.Code.Printer
import Subscript.Code.Scoping
import Subscript.Lowering.Dynamic
import Subscript.Lowering.Pattern

/-!
# Lowering of typed expressions

An expression is lowered from its parts: operands first, in the order in which they were written,
then the node itself. A nested access is lowered like an access of its own that is read.

## Architecture

- §1 `conclude`, the check and the report at the end of every access
- §2 pieces of positions and ranges
- §3 `Expr.lower` and `Access.lower`
- §4 accesses whose operands are lowered in a way of the caller's choice
-/

namespace Subscript

open Code (Lowered)
open Source (Mode)

namespace Lowering

/-! ## §1 Concluding an access -/

/-- Refuse code that is not well-scoped, where the options ask for the check. -/
def validate (lowered : Lowered) : Lowering Unit := do
  if (← environment).options.validates && !lowered.faults.isEmpty then
    fail (.malformedSequence (Code.Fault.report lowered.faults))

/-- Check a lowered access and report it. -/
def conclude (site : Location) (lowered : Lowered) : Lowering Lowered := do
  validate lowered
  let env ← environment
  if env.options.prints then
    report (.printed site (lowered.text env.symbols))
  report (.finished site (← allocated))
  return lowered

/-- The value of an access that is read. -/
def valueOf : Lowered → Lowering Code.Expr
  | .value expr => pure expr
  | .target _ => fail .targetInReadMode

/-! ## §2 Positions and ranges -/

/-- The constructor call for a position counted from the end; the library member is needed before
the operand is lowered. -/
def positionFromEnd (info : Info) (operand : Lowering Code.Expr) : Lowering Code.Expr := do
  let constructor ← libraryMember .indexConstructor
  let operand ← operand
  let fromEnd := .literal ⟨(← environment).types.boolType, info.location⟩ (.bool true)
  return .construct info constructor [operand, fromEnd]

/-- A bound of a range as a position: an integer counts from the start. -/
def positionOf (bound : Info) (lowered : Lowering Code.Expr) : Lowering Code.Expr := do
  let lowered ← lowered
  let types := (← environment).types
  if types.isInt bound.type then do
    let method ← libraryMember .indexFromInt
    return .staticCall ⟨types.indexType, bound.location⟩ method [lowered] false
  else
    return lowered

/-- A range with at most one bound: the library member is needed before the bound is lowered. -/
def openRange (info : Info) (member : WellKnown.Member) (bounds : Lowering (List Code.Expr)) :
    Lowering Code.Expr := do
  let method ← libraryMember member
  return .staticCall info method (← bounds) false

/-- The constructor call for a range with two bounds. -/
def closedRange (info : Info) (start stop : Lowering Code.Expr) : Lowering Code.Expr := do
  let constructor ← libraryMember .rangeConstructor
  let start ← start
  let stop ← stop
  return .construct info constructor [start, stop]

end Lowering

open Lowering

/-! ## §3 Expressions and accesses -/

mutual

/-- Lower an expression. -/
def Source.Expr.lower : Source.Expr → Lowering Code.Expr
  | .literal info value => pure (.literal info value)
  | .var info symbol => pure (.var info symbol)
  | .self info => pure (.self info)
  | .field info object field => do
    let object ← object.lower
    return .field info object field
  | .property info object property => do
    let object ← object.lower
    readMember object property info.location
  | .indexedProperty _ _ property => fail (.strayIndexedProperty property)
  | .call info receiver method arguments => do
    let receiver ← receiver.lower
    let arguments ← lowerAll arguments
    -- the method is looked up last, so a violation inside an operand comes first
    return .call info receiver method arguments (← methodOf method).returnsByRef
  | .staticCall info method arguments => do
    let arguments ← lowerAll arguments
    return .staticCall info method arguments (← methodOf method).returnsByRef
  | .fromEnd info operand => positionFromEnd info operand.lower
  | .rangeAll info => openRange info .rangeAll (pure [])
  | .rangeFrom info start =>
    openRange info .rangeStartAt (return [← positionOf start.info start.lower])
  | .rangeUpTo info stop =>
    openRange info .rangeEndAt (return [← positionOf stop.info stop.lower])
  | .rangeBetween info start stop =>
    closedRange info (positionOf start.info start.lower) (positionOf stop.info stop.lower)
  -- a nested access is read, whatever the access around it is wanted for
  | .access info node => do
    let lowered ← node.lower .read info.location
    valueOf lowered
termination_by structural expr => expr

/-- Lower expressions from left to right. -/
def lowerAll : List Source.Expr → Lowering (List Code.Expr)
  | [] => pure []
  | expr :: exprs => do
    let lowered ← expr.lower
    let rest ← lowerAll exprs
    return lowered :: rest
termination_by structural exprs => exprs

/-- Lower an access at a place of the program. An indexed property in front of the brackets is
read first, unless the access is a pattern. -/
def Source.Access.lower : Source.Access → Mode → Location → Lowering Lowered
  | .indexer receiver arguments indexer shape type, mode, site => do
    let receiver := match receiver with
      | .indexedProperty info object property =>
        readIndexedProperty object.lower property info.location
      | other => other.lower
    let lowered ← indexerAccess receiver (lowerAll arguments) indexer shape ⟨type, site⟩ mode
    conclude site lowered
  | .dynamic receiver arguments candidates names refKinds type, mode, site => do
    let receiver := match receiver with
      | .indexedProperty info object property =>
        fetchIndexedProperty object.lower property info.location
      | other => other.lower
    let lowered ←
      dynamicAccess receiver (lowerAll arguments) candidates names refKinds ⟨type, site⟩ mode
    conclude site lowered
  | .indexPattern receiver length intIndexer? argument type, mode, site => do
    -- the type of the argument is looked at before anything is lowered
    let lowered ← expectArgument .index argument.type
      (indexPattern receiver.lower argument.lower length intIndexer? ⟨type, site⟩ mode)
    conclude site lowered
  | .rangePattern receiver length slice argument type, mode, site => do
    let lowered ← expectArgument .range argument.type
      (rangeAccess receiver.lower argument.lower length slice ⟨type, site⟩ mode)
    conclude site lowered
termination_by structural node => node

end

/-- Expressions are lowered one by one. -/
theorem lowerAll_eq_mapM (exprs : List Source.Expr) :
    lowerAll exprs = exprs.mapM Source.Expr.lower := by
  induction exprs with
  | nil => rfl
  | cons expr exprs ih => simp [lowerAll, ih]

/-! ## §4 Operands of the caller's choice -/

/-- A way to lower the operands of an access. -/
abbrev OperandLowering := Source.Expr → Lowering Code.Expr

namespace Source.Expr

/-- The receiver of an access through an indexer. -/
def indexerReceiver (operand : OperandLowering) : Source.Expr → Lowering Code.Expr
  | .indexedProperty info object member =>
    readIndexedProperty (operand object) member info.location
  | other => operand other

/-- The receiver of a dynamic access. -/
def dynamicReceiver (operand : OperandLowering) : Source.Expr → Lowering Code.Expr
  | .indexedProperty info object member =>
    fetchIndexedProperty (operand object) member info.location
  | other => operand other

end Source.Expr

namespace Source.Access

/-- The access by itself, without the check and the report at its end. -/
def lowerCore (operand : OperandLowering) (mode : Mode) (site : Location) :
    Source.Access → Lowering Lowered
  | .indexer receiver arguments symbol shape type =>
    indexerAccess (receiver.indexerReceiver operand) (arguments.mapM operand) symbol shape
      ⟨type, site⟩ mode
  | .dynamic receiver arguments candidates names refKinds type =>
    dynamicAccess (receiver.dynamicReceiver operand) (arguments.mapM operand) candidates names
      refKinds ⟨type, site⟩ mode
  | .indexPattern receiver length intIndexer? argument type =>
    expectArgument .index argument.type
      (Lowering.indexPattern (operand receiver) (operand argument) length intIndexer?
        ⟨type, site⟩ mode)
  | .rangePattern receiver length slice argument type =>
    expectArgument .range argument.type
      (rangeAccess (operand receiver) (operand argument) length slice ⟨type, site⟩ mode)

/-- Lower an access whose operands are lowered by `operand`. -/
def lowerWith (operand : OperandLowering) (mode : Mode) (site : Location) (node : Source.Access) :
    Lowering Lowered := do
  let lowered ← node.lowerCore operand mode site
  conclude site lowered

/-- Lower an access that is read, to its value. -/
def valueWith (operand : OperandLowering) (site : Location) (node : Source.Access) :
    Lowering Code.Expr := do
  let lowered ← node.lowerWith operand .read site
  valueOf lowered

/-- Lower an access that must be a pattern, without the check and the report at its end. -/
def patternWith (operand : OperandLowering) (mode : Mode) (site : Location) :
    Source.Access → Lowering Lowered
  | .indexer _ _ _ _ _ | .dynamic _ _ _ _ _ _ => fail .notAPattern
  | node => node.lowerCore operand mode site

/-- Lowering an access lowers its operands as expressions of their own: `lowerWith`, which takes
any function for the operands, is the form in which the lowering of accesses is proved about. -/
theorem lower_eq_lowerWith (node : Source.Access) (mode : Mode) (site : Location) :
    node.lower mode site = node.lowerWith Source.Expr.lower mode site := by
  cases node with
  -- the two ways to treat a receiver are one function here
  | indexer receiver arguments indexer shape type =>
    cases receiver <;>
      simp [Source.Access.lower, lowerWith, lowerCore, Source.Expr.indexerReceiver,
        lowerAll_eq_mapM]
  | dynamic receiver arguments candidates names refKinds type =>
    cases receiver <;>
      simp [Source.Access.lower, lowerWith, lowerCore, Source.Expr.dynamicReceiver,
        lowerAll_eq_mapM]
  | indexPattern receiver length intIndexer? argument type =>
    simp [Source.Access.lower, lowerWith, lowerCore]
  | rangePattern receiver length slice argument type =>
    simp [Source.Access.lower, lowerWith, lowerCore]

end Source.Access

end Subscript
