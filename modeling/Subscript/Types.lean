import Std.Data.HashMap
import Subscript.Id

/-!
# Types

A type is named by an identifier of the type table. The table interns: a kind of type that was
seen before gets the identifier it already has, so two identifiers differ exactly when their kinds
do. Lowering only asks a table which kind an identifier stands for.

## Architecture

- §1 `TypeKind`, the kinds of types that lowering tells apart
- §2 `TypeTable`, the entries in the order of their identifiers beside an index from kinds back to
  identifiers
- §3 questions about one identifier
-/

namespace Subscript

/-! ## §1 Kinds of types -/

/-- What a type is, as far as lowering cares. -/
inductive TypeKind where
  /-- the type of no value -/
  | void
  /-- true and false -/
  | bool
  /-- integers -/
  | int
  /-- text -/
  | string
  /-- the type that every reference type extends -/
  | object
  /-- values whose members are looked up at run time -/
  | dynamic
  /-- a position counted from the start or from the end -/
  | index
  /-- a pair of positions -/
  | range
  /-- a declared reference type -/
  | classType (declaration : SymbolId) (name : String)
  /-- a declared value type -/
  | structType (declaration : SymbolId) (name : String)
  /-- arrays of one element type -/
  | array (element : TypeId)
  deriving DecidableEq, Hashable, Repr

namespace TypeKind

/-- The name of a type as messages show it; an array names its element by identifier. -/
def text : TypeKind → String
  | .void => "Void"
  | .bool => "Bool"
  | .int => "Int"
  | .string => "String"
  | .object => "Object"
  | .dynamic => "Dynamic"
  | .index => "Index"
  | .range => "Range"
  | .classType _ name => name
  | .structType _ name => name
  | .array element => "Array<" ++ element.text ++ ">"

/-- Values of these kinds are copied on assignment, so a write through a copy would be lost. -/
def isValueKind : TypeKind → Bool
  | .bool | .int | .index | .range | .structType _ _ => true
  | _ => false

/-- The kinds that every table holds from the start, in the order of their identifiers. -/
def predefined : List TypeKind :=
  [.void, .bool, .int, .string, .object, .dynamic, .index, .range]

end TypeKind

/-! ## §2 The table -/

/-- An entry of the table: a kind together with the identifier it was given. -/
structure TypeEntry where
  /-- the identifier handed out for the kind -/
  id : TypeId
  /-- the kind itself -/
  kind : TypeKind
  deriving DecidableEq, Repr

/-- Interned types. -/
structure TypeTable where
  /-- every entry, in the order in which the kinds were first seen -/
  entries : Array TypeEntry
  /-- the identifier of every kind seen so far -/
  index : Std.HashMap TypeKind TypeId

namespace TypeTable

/-- The table that holds nothing. -/
def empty : TypeTable := ⟨#[], ∅⟩

/-- The identifier of a kind; a kind not seen before is entered under the next free one. -/
def intern (table : TypeTable) (kind : TypeKind) : TypeId × TypeTable :=
  match table.index[kind]? with
  | some id => (id, table)
  -- identifiers are positions, so the next free one is the number of entries
  | none =>
    let id : TypeId := ⟨UInt32.ofNat table.entries.size⟩
    (id, ⟨table.entries.push ⟨id, kind⟩, table.index.insert kind id⟩)

/-- Intern a list of kinds one after the other. -/
def internAll (table : TypeTable) (kinds : List TypeKind) : TypeTable :=
  kinds.foldl (fun table kind => (table.intern kind).2) table

/-- The table every program starts from: it holds the predefined kinds. -/
def initial : TypeTable := empty.internAll TypeKind.predefined

instance : Inhabited TypeTable := ⟨initial⟩

/-- Number of types entered. -/
def size (table : TypeTable) : Nat := table.entries.size

/-- Whether nothing was entered. -/
def isEmpty (table : TypeTable) : Bool := table.entries.isEmpty

/-! ## §3 Questions about an identifier -/

/-- The entry an identifier stands for. -/
def entry? (table : TypeTable) (id : TypeId) : Option TypeEntry := table.entries[id.raw.toNat]?

/-- The kind an identifier stands for. -/
def kind? (table : TypeTable) (id : TypeId) : Option TypeKind := (table.entry? id).map (·.kind)

/-- The identifier of a predefined kind. -/
def predefined (table : TypeTable) (kind : TypeKind) : TypeId :=
  (table.index[kind]?).getD .invalid

/-- The identifier of the type of no value. -/
def voidType (table : TypeTable) : TypeId := table.predefined .void

/-- The identifier of the truth values. -/
def boolType (table : TypeTable) : TypeId := table.predefined .bool

/-- The identifier of the integers. -/
def intType (table : TypeTable) : TypeId := table.predefined .int

/-- The identifier of the texts. -/
def stringType (table : TypeTable) : TypeId := table.predefined .string

/-- The identifier of the common reference type. -/
def objectType (table : TypeTable) : TypeId := table.predefined .object

/-- The identifier of the dynamically typed values. -/
def dynamicType (table : TypeTable) : TypeId := table.predefined .dynamic

/-- The identifier of the positions. -/
def indexType (table : TypeTable) : TypeId := table.predefined .index

/-- The identifier of the pairs of positions. -/
def rangeType (table : TypeTable) : TypeId := table.predefined .range

/-- Whether values of the type are copied on assignment. -/
def isValueType (table : TypeTable) (id : TypeId) : Bool :=
  (table.kind? id).any TypeKind.isValueKind

/-- Whether the identifier stands for the integers. -/
def isInt (table : TypeTable) (id : TypeId) : Bool := table.kind? id == some .int

/-- Whether the identifier stands for the positions. -/
def isIndex (table : TypeTable) (id : TypeId) : Bool := table.kind? id == some .index

/-- Whether the identifier stands for the pairs of positions. -/
def isRange (table : TypeTable) (id : TypeId) : Bool := table.kind? id == some .range

/-- Whether the identifier stands for the dynamically typed values. -/
def isDynamic (table : TypeTable) (id : TypeId) : Bool := table.kind? id == some .dynamic

/-- The element type, if the identifier stands for arrays. -/
def elementType? (table : TypeTable) (id : TypeId) : Option TypeId :=
  match table.kind? id with
  | some (.array element) => some element
  | _ => none

/-- Whether the identifier stands for arrays. -/
def isArray (table : TypeTable) (id : TypeId) : Bool := (table.elementType? id).isSome

@[simp] theorem internAll_nil (table : TypeTable) : table.internAll [] = table := rfl

@[simp] theorem internAll_cons (table : TypeTable) (kind : TypeKind) (kinds : List TypeKind) :
    table.internAll (kind :: kinds) = (table.intern kind).2.internAll kinds := rfl

end TypeTable

end Subscript
