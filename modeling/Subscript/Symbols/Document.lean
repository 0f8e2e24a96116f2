import Subscript.Json.Reading
import Subscript.Location
import Subscript.Symbols

/-!
# Tables as documents

The JSON forms of identifiers, places, constants, kinds of types and symbols, and the readers of
these forms. A member that a document leaves out has its usual value: flags are off, lists are
empty, places are unknown and arguments are copied.

## Architecture

- §1 identifiers and places
- §2 ways of passing and constants
- §3 kinds of types
- §4 parameters and symbols
-/

namespace Subscript

open Json (Value Member)

/-- A value that may be missing; a missing one is `null`. -/
def Json.Value.ofOption {α : Type} (form : α → Value) : Option α → Value
  | some value => form value
  | none => .null

/-- A list of values in one form. -/
def Json.Value.ofList {α : Type} (form : α → Value) (values : List α) : Value :=
  .array (values.map form)

/-! ## §1 Identifiers and places -/

/-- A 32-bit word as a number. -/
def Json.Value.ofWord (word : UInt32) : Value := .int word.toNat

/-- The number of an identifier. -/
def Id.toJson {space : Id.Space} (id : Id space) : Value := .ofWord id.raw

/-- Read an identifier from its number. -/
def Id.ofJson? {space : Id.Space} (document : Value) : Option (Id space) :=
  document.word?.map Id.mk

/-- A place as the four numbers it consists of. -/
def Location.toJson (loc : Location) : Value :=
  .object [.mk "file_id" (.ofWord loc.file), .mk "line" (.ofWord loc.line),
    .mk "column" (.ofWord loc.column), .mk "byte_offset" (.ofWord loc.byteOffset)]

/-- Read a place; it may also be given as a list of its numbers, or not at all. -/
def Location.ofJson? (document : Value) : Option Location :=
  match document with
  | .null => some .unknown
  | .array [file, line, column, byteOffset] => do
    return ⟨← file.word?, ← line.word?, ← column.word?, ← byteOffset.word?⟩
  | _ => do
    return ⟨← (document.member "file_id").word?, ← (document.member "line").word?,
      ← (document.member "column").word?, ← (document.member "byte_offset").word?⟩

/-! ## §2 Ways of passing and constants -/

/-- The name of a way to pass an argument. -/
def RefKind.toJson : RefKind → Value
  | .byValue => .string "None"
  | .byRef => .string "Ref"
  | .byOut => .string "Out"
  | .byIn => .string "In"

/-- Read a way to pass an argument. -/
def RefKind.ofJson? : Value → Option RefKind
  | .null => some .byValue
  | document =>
    document.oneOf? [("None", .byValue), ("Ref", .byRef), ("Out", .byOut), ("In", .byIn)]

/-- A constant under the name of its kind. -/
def Literal.toJson : Literal → Value
  | .int value => .single "Int" (.int value)
  | .bool value => .single "Bool" (.bool value)
  | .string value => .single "String" (.string value)
  | .null => .string "Null"

/-- Read a constant. -/
def Literal.ofJson? (document : Value) : Option Literal := do
  match ← document.tagged? with
  | ("Int", body) => body.int?.map .int
  | ("Bool", body) => body.bool?.map .bool
  | ("String", body) => body.text?.map .string
  | ("Null", _) => some .null
  | _ => none

@[simp] theorem RefKind.ofJson?_toJson (kind : RefKind) :
    RefKind.ofJson? kind.toJson = some kind := by
  cases kind <;> rfl

@[simp] theorem Literal.ofJson?_toJson (literal : Literal) :
    Literal.ofJson? literal.toJson = some literal := by
  cases literal <;> rfl

/-! ## §3 Kinds of types -/

/-- Read a kind of type. -/
def TypeKind.ofJson? (document : Value) : Option TypeKind := do
  match ← document.tagged? with
  | ("Void", _) => some .void
  | ("Bool", _) => some .bool
  | ("Int", _) => some .int
  | ("String", _) => some .string
  | ("Object", _) => some .object
  | ("Dynamic", _) => some .dynamic
  | ("Index", _) => some .index
  | ("Range", _) => some .range
  | ("Class", body) =>
    return .classType (← Id.ofJson? (body.member "symbol_id")) (← (body.member "name").text?)
  | ("Struct", body) =>
    return .structType (← Id.ofJson? (body.member "symbol_id")) (← (body.member "name").text?)
  | ("Array", body) => return .array (← Id.ofJson? (body.member "element_type"))
  | _ => none

/-! ## §4 Parameters and symbols -/

/-- The document of a parameter. -/
def Param.toJson (param : Param) : Value :=
  .object [.mk "name" (.string param.name), .mk "ty" param.type.toJson,
    .mk "ref_kind" param.refKind.toJson, .mk "optional" (.bool param.isOptional),
    .mk "default" (.ofOption Literal.toJson param.default?), .mk "is_params" (.bool param.isParams)]

/-- Read a parameter. -/
def Param.ofJson? (document : Value) : Option Param := do
  return ⟨← (document.member "name").text?, ← Id.ofJson? (document.member "ty"),
    ← RefKind.ofJson? (document.member "ref_kind"),
    ← (document.member "default").optional? Literal.ofJson?,
    ← (document.member "is_params").flag?⟩

/-- The document of a method. -/
def Method.toJson (method : Method) : Value :=
  .object [.mk "name" (.string method.name), .mk "declaring_type" method.declaringType.toJson,
    .mk "params" (.ofList Param.toJson method.params),
    .mk "return_type" method.returnType.toJson,
    .mk "returns_by_ref" (.bool method.returnsByRef), .mk "is_static" (.bool method.isStatic)]

/-- Read a method. -/
def Method.ofJson? (document : Value) : Option Method := do
  return ⟨← (document.member "name").text?, ← Id.ofJson? (document.member "declaring_type"),
    ← (document.member "params").list? Param.ofJson?,
    ← Id.ofJson? (document.member "return_type"), ← (document.member "returns_by_ref").flag?,
    ← (document.member "is_static").flag?⟩

/-- The document of a property. -/
def Property.toJson (property : Property) : Value :=
  .object [.mk "name" (.string property.name), .mk "declaring_type" property.declaringType.toJson,
    .mk "ty" property.type.toJson, .mk "params" (.ofList Param.toJson property.params),
    .mk "getter" (.ofOption Id.toJson property.getter?),
    .mk "setter" (.ofOption Id.toJson property.setter?),
    .mk "returns_by_ref" (.bool property.returnsByRef),
    .mk "is_indexed_property" (.bool property.isIndexedProperty)]

/-- Read a property. -/
def Property.ofJson? (document : Value) : Option Property := do
  return ⟨← (document.member "name").text?, ← Id.ofJson? (document.member "declaring_type"),
    ← Id.ofJson? (document.member "ty"), ← (document.member "params").list? Param.ofJson?,
    ← (document.member "getter").optional? Id.ofJson?,
    ← (document.member "setter").optional? Id.ofJson?,
    ← (document.member "returns_by_ref").flag?, ← (document.member "is_indexed_property").flag?⟩

/-- The document of a field. -/
def Field.toJson (field : Field) : Value :=
  .object [.mk "name" (.string field.name), .mk "declaring_type" field.declaringType.toJson,
    .mk "ty" field.type.toJson]

/-- Read a field. -/
def Field.ofJson? (document : Value) : Option Field := do
  return ⟨← (document.member "name").text?, ← Id.ofJson? (document.member "declaring_type"),
    ← Id.ofJson? (document.member "ty")⟩

/-- The document of a local variable. -/
def Local.toJson (symbol : Local) : Value :=
  .object [.mk "name" (.string symbol.name), .mk "ty" symbol.type.toJson,
    .mk "is_parameter" (.bool symbol.isParameter)]

/-- Read a local variable. -/
def Local.ofJson? (document : Value) : Option Local := do
  return ⟨← (document.member "name").text?, ← Id.ofJson? (document.member "ty"),
    ← (document.member "is_parameter").flag?⟩

/-- The name of a symbol's kind. -/
def Symbol.kindName : Symbol → String
  | .method _ => "Method"
  | .property _ => "Property"
  | .field _ => "Field"
  | .localVar _ => "Local"

/-- Read a symbol from its document under the name of its kind. -/
def Symbol.ofJson? (document : Value) : Option Symbol := do
  match ← document.tagged? with
  | ("Method", body) => (Method.ofJson? body).map .method
  | ("Property", body) => (Property.ofJson? body).map .property
  | ("Field", body) => (Field.ofJson? body).map .field
  | ("Local", body) => (Local.ofJson? body).map .localVar
  | _ => none

end Subscript
