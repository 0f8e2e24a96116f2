import Subscript.Code
import Subscript.Symbols.Document

/-!
# Code as a document

Every piece of code has a JSON form: an expression is an object with its kind, its type and its
place, and its kind is an object named for the form of the expression. Nothing is left out, and
members keep the order in which they are listed here.

## Architecture

- §1 leaves: operators, temporaries, argument names
- §2 `Expr.toJson`
- §3 targets and lowered accesses
-/

namespace Subscript.Code

open Json (Value Member)

/-! ## §1 Leaves -/

/-- The name of an operator. -/
def BinaryOp.toJson : BinaryOp → Value
  | .add => .string "Add"
  | .sub => .string "Sub"

/-- The name of what a temporary holds. -/
def Holding.toJson : Holding → Value
  | .copy => .string "Value"
  | .storage => .string "Ref"

/-- The declaration of a temporary. -/
def Temp.toJson (temp : Temp) : Value :=
  .object [.mk "id" temp.id.toJson, .mk "name" (.string temp.name), .mk "ty" temp.type.toJson,
    .mk "capability" temp.holding.toJson]

/-- Argument names; an argument without a name has `null`. -/
def namesToJson (names : List (Option String)) : Value :=
  .array (names.map (.ofOption .string))

/-! ## §2 Expressions -/

/-- An expression of the given kind: the kind, the type and the place. -/
def withInfo (kind : Value) (info : Info) : Value :=
  .object [.mk "kind" kind, .mk "ty" info.type.toJson,
    .mk "source_location" info.location.toJson]

mutual

/-- The document of an expression. -/
def Expr.toJson : Expr → Value
  | .literal info value => withInfo (.single "Literal" value.toJson) info
  | .var info symbol => withInfo (.single "Variable" (.single "symbol" symbol.toJson)) info
  | .temp info temp => withInfo (.single "Temp" (.single "temp" temp.toJson)) info
  | .self info => withInfo (.string "This") info
  | .field info object field =>
    withInfo (.single "Field" (.object [.mk "object" object.toJson, .mk "field" field.toJson])) info
  | .element info object index =>
    withInfo (.single "Index" (.object [.mk "object" object.toJson, .mk "index" index.toJson])) info
  | .call info receiver method arguments byRef =>
    withInfo (.single "Call" (.object [.mk "receiver" receiver.toJson, .mk "method" method.toJson,
      .mk "args" (.array (toJsonAll arguments)), .mk "returns_by_ref" (.bool byRef)])) info
  | .staticCall info method arguments byRef =>
    withInfo (.single "Call" (.object [.mk "receiver" .null, .mk "method" method.toJson,
      .mk "args" (.array (toJsonAll arguments)), .mk "returns_by_ref" (.bool byRef)])) info
  | .construct info constructor arguments =>
    withInfo (.single "New" (.object [.mk "constructor" constructor.toJson,
      .mk "args" (.array (toJsonAll arguments))])) info
  | .binary info op left right =>
    withInfo (.single "Binary" (.object [.mk "op" op.toJson, .mk "lhs" left.toJson,
      .mk "rhs" right.toJson])) info
  | .array info elements =>
    withInfo (.single "Array" (.single "elements" (.array (toJsonAll elements)))) info
  | .store info temp value =>
    withInfo (.single "Store" (.object [.mk "temp" temp.toJson, .mk "value" value.toJson])) info
  | .sequence info temps stores result =>
    withInfo (.single "Sequence" (.object [.mk "temps" (.array (temps.map Temp.toJson)),
      .mk "side_effects" (.array (toJsonAll stores)), .mk "result" result.toJson])) info
  | .dynamicMember info receiver name indexable =>
    withInfo (.single "DynamicGetMember" (.object [.mk "receiver" receiver.toJson,
      .mk "name" (.string name), .mk "result_indexed" (.bool indexable)])) info
  | .dynamicElement info receiver arguments names refKinds =>
    withInfo (.single "DynamicGetIndex" (.object [.mk "receiver" receiver.toJson,
      .mk "args" (.array (toJsonAll arguments)), .mk "arg_names" (namesToJson names),
      .mk "ref_kinds" (.array (refKinds.map RefKind.toJson))])) info
termination_by structural expr => expr

/-- The documents of a list of expressions. -/
def toJsonAll : List Expr → List Value
  | [] => []
  | expr :: exprs => expr.toJson :: toJsonAll exprs
termination_by structural exprs => exprs

end

/-- The written form of an expression's document. -/
def Expr.jsonText (expr : Expr) : String := expr.toJson.text

/-! ## §3 Lowered accesses -/

/-- The document of an assignable element. -/
def Place.toJson : Place → Value
  | .indexer receiver symbol getter? setter? arguments shape =>
    .single "Indexer" (.object [.mk "receiver" receiver.toJson, .mk "indexer" symbol.toJson,
      .mk "getter" (.ofOption Id.toJson getter?), .mk "setter" (.ofOption Id.toJson setter?),
      .mk "args" (.array (arguments.map Expr.toJson)), .mk "arg_names" (namesToJson shape.names),
      .mk "ref_kinds" (.array (shape.refKinds.map RefKind.toJson)),
      .mk "expanded_params" (.bool shape.isExpanded),
      .mk "arg_to_param_map"
        (.ofOption (fun placement => .array (placement.map fun (p : Nat) => .int p))
          shape.placement?)])
  | .dynamic receiver arguments names refKinds =>
    .single "DynamicIndex" (.object [.mk "receiver" receiver.toJson,
      .mk "args" (.array (arguments.map Expr.toJson)), .mk "arg_names" (namesToJson names),
      .mk "ref_kinds" (.array (refKinds.map RefKind.toJson))])
  | .element object index =>
    .single "Element" (.object [.mk "object" object.toJson, .mk "index" index.toJson])

/-- The document of a target. -/
def Target.toJson (target : Target) : Value :=
  .object [.mk "prefix_temps" (.array (target.temps.map Temp.toJson)),
    .mk "prefix_stores" (.array (target.stores.map Expr.toJson)),
    .mk "kind" target.place.toJson, .mk "ty" target.info.type.toJson,
    .mk "source_location" target.info.location.toJson]

/-- The document of a lowered access. -/
def Lowered.toJson : Lowered → Value
  | .value expr => .single "Value" expr.toJson
  | .target assignable => .single "Target" assignable.toJson

end Subscript.Code
