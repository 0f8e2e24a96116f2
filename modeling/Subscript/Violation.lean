import Subscript.Types
import Subscript.WellKnown

/-!
# Contract violations

Lowering relies on what resolution and type checking promise about the tree. A broken promise ends
the lowering with a violation, which names its cause.
-/

namespace Subscript

/-- A promise about the typed tree or about lowered code that does not hold. -/
inductive Violation where
  /-- a symbol used as an indexer is no property -/
  | notAnIndexer (symbol : SymbolId)
  /-- an indexer that is read has no getter -/
  | missingGetter (indexer : SymbolId)
  /-- a symbol used as a method is none -/
  | notAMethod (symbol : SymbolId)
  /-- a member that is read is neither a field nor a property with a getter -/
  | notReadable (symbol : SymbolId)
  /-- the access is neither an index pattern nor a range pattern -/
  | notAPattern
  /-- the argument of a pattern has the wrong type -/
  | patternArgumentType (expected : TypeKind) (found : TypeId)
  /-- an element is accessed without an indexer, and not in an array -/
  | notAnArray (found : TypeId)
  /-- a slice is assigned to -/
  | rangeAsAssignmentTarget
  /-- a slice method does not take two parameters -/
  | badSliceSignature (method : SymbolId)
  /-- an indexed property is named without an argument list -/
  | strayIndexedProperty (property : SymbolId)
  /-- the library lacks a member -/
  | unresolvedMember (missing : WellKnown.Unavailable)
  /-- an argument list does not fit its parameters -/
  | malformedArguments (reason : String)
  /-- an access that is read was lowered to a target -/
  | targetInReadMode
  /-- lowered code is not well-scoped -/
  | malformedSequence (report : String)
  deriving DecidableEq, Repr

namespace Violation

/-- What a violation says about its cause. -/
def message : Violation → String
  | .notAnIndexer symbol => symbol.text ++ " is not an indexer"
  | .missingGetter indexer => "indexer " ++ indexer.text ++ " has no getter but is read"
  | .notAMethod symbol => symbol.text ++ " is not a method"
  | .notReadable symbol => symbol.text ++ " cannot be read"
  | .notAPattern => "pattern lowering reached a non-pattern access"
  | .patternArgumentType expected found =>
    "pattern argument must have type " ++ expected.text ++ ", found " ++ found.text
  | .notAnArray found => "element access without an indexer on non-array type " ++ found.text
  | .rangeAsAssignmentTarget => "range slice used as an assignment target"
  | .badSliceSignature method => "slice method " ++ method.text ++ " must take (start, length)"
  | .strayIndexedProperty property =>
    "indexed property " ++ property.text ++ " used without an argument list"
  | .unresolvedMember missing => missing.message
  | .malformedArguments reason => "malformed arguments: " ++ reason
  | .targetInReadMode => "read-mode lowering produced an assignment target"
  | .malformedSequence report => "malformed lowered sequence: " ++ report

/-- The sentence that ends a lowering. -/
def announcement (violation : Violation) : String :=
  "access lowering contract violation: " ++ violation.message

end Violation

end Subscript
