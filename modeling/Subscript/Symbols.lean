import Subscript.Types

/-!
# Symbols

The members and locals that a program refers to: methods, properties, fields and local variables.
A symbol table numbers them in the order in which they were declared and forgets none.

## Architecture

- §1 `RefKind`, how an argument reaches its parameter
- §2 `Literal`, constants, which are also the defaults of optional parameters
- §3 `Param`, `Method`, `Property`, `Field`, `Local` and their sum `Symbol`
- §4 `SymbolTable`
-/

namespace Subscript

/-! ## §1 Passing arguments -/

/-- How an argument is passed to its parameter. -/
inductive RefKind where
  /-- a copy of the value -/
  | byValue
  /-- the storage itself, to read and to write -/
  | byRef
  /-- the storage itself, to be written -/
  | byOut
  /-- the storage itself, only to be read -/
  | byIn
  deriving DecidableEq, Repr

namespace RefKind

/-- An argument is a copy unless said otherwise. -/
instance : Inhabited RefKind := ⟨.byValue⟩

/-- Whether the parameter shares the storage of the argument. -/
def isByRef : RefKind → Bool
  | .byValue => false
  | .byRef | .byOut | .byIn => true

/-- The keyword in front of the argument, with the blank after it. -/
def modifier : RefKind → String
  | .byValue => ""
  | .byRef => "ref "
  | .byOut => "out "
  | .byIn => "in "

end RefKind

/-! ## §2 Constants -/

/-- A constant of the language. -/
inductive Literal where
  /-- an integer -/
  | int (value : Int)
  /-- a truth value -/
  | bool (value : Bool)
  /-- a text -/
  | string (value : String)
  /-- the reference to nothing -/
  | null
  deriving DecidableEq, Repr

/-! ## §3 Kinds of symbols -/

/-- A formal parameter of a method or an indexer. -/
structure Param where
  /-- the name that a named argument uses -/
  name : String
  /-- the declared type; an array type if the parameter collects trailing arguments -/
  type : TypeId
  /-- how its argument is passed -/
  refKind : RefKind := .byValue
  /-- the value taken when no argument is given -/
  default? : Option Literal := none
  /-- whether the parameter collects trailing arguments into an array -/
  isParams : Bool := false
  deriving DecidableEq, Repr

/-- A parameter may be left out as soon as it has a default. -/
def Param.isOptional (param : Param) : Bool := param.default?.isSome

/-- A method, an accessor or a constructor. -/
structure Method where
  /-- the declared name -/
  name : String
  /-- the type that declares it -/
  declaringType : TypeId
  /-- the formal parameters in order -/
  params : List Param
  /-- the type of its result -/
  returnType : TypeId
  /-- whether the result is a storage location and not a copy -/
  returnsByRef : Bool := false
  /-- whether it is called without a receiver -/
  isStatic : Bool := false
  deriving DecidableEq, Repr

/-- The same method, called without a receiver. -/
def Method.asStatic (method : Method) : Method := { method with isStatic := true }

/-- A property, an indexer or an indexed property. -/
structure Property where
  /-- the declared name -/
  name : String
  /-- the type that declares it -/
  declaringType : TypeId
  /-- the type of its value -/
  type : TypeId
  /-- the parameters of an indexer; none for an ordinary property -/
  params : List Param
  /-- the method that reads it -/
  getter? : Option SymbolId
  /-- the method that writes it -/
  setter? : Option SymbolId
  /-- whether reading it gives a storage location, which then serves for writing as well -/
  returnsByRef : Bool := false
  /-- whether an argument list may follow the property's name -/
  isIndexedProperty : Bool := false
  deriving DecidableEq, Repr

/-- A field of a declared type. -/
structure Field where
  /-- the declared name -/
  name : String
  /-- the type that declares it -/
  declaringType : TypeId
  /-- the type of its value -/
  type : TypeId
  deriving DecidableEq, Repr

/-- A local variable or a parameter of the method being compiled. -/
structure Local where
  /-- the declared name -/
  name : String
  /-- the type of its value -/
  type : TypeId
  /-- whether it is a parameter -/
  isParameter : Bool := false
  deriving DecidableEq, Repr

/-- Anything a program refers to by a symbol identifier. -/
inductive Symbol where
  /-- a method, an accessor or a constructor -/
  | method (symbol : Method)
  /-- a property or an indexer -/
  | property (symbol : Property)
  /-- a field -/
  | field (symbol : Field)
  /-- a local variable or parameter -/
  | localVar (symbol : Local)
  deriving DecidableEq, Repr

/-- The declared name of a symbol. -/
def Symbol.name : Symbol → String
  | .method symbol => symbol.name
  | .property symbol => symbol.name
  | .field symbol => symbol.name
  | .localVar symbol => symbol.name

/-! ## §4 The table -/

/-- The symbols of a program; a symbol's identifier is its position. -/
structure SymbolTable where
  /-- the symbols in the order of their declaration -/
  symbols : Array Symbol := #[]

namespace SymbolTable

instance : Inhabited SymbolTable := ⟨⟨#[]⟩⟩

/-- Number of declared symbols. -/
def size (table : SymbolTable) : Nat := table.symbols.size

/-- Whether nothing was declared. -/
def isEmpty (table : SymbolTable) : Bool := table.symbols.isEmpty

/-- Declare a symbol, under the next free identifier. -/
def add (table : SymbolTable) (symbol : Symbol) : SymbolId × SymbolTable :=
  (⟨UInt32.ofNat table.size⟩, ⟨table.symbols.push symbol⟩)

/-- Declare a local variable. -/
def addLocal (table : SymbolTable) (name : String) (type : TypeId) : SymbolId × SymbolTable :=
  table.add (.localVar ⟨name, type, false⟩)

/-- The symbol an identifier stands for. -/
def get? (table : SymbolTable) (id : SymbolId) : Option Symbol := table.symbols[id.raw.toNat]?

/-- The method an identifier stands for, if it is one. -/
def method? (table : SymbolTable) (id : SymbolId) : Option Method :=
  match table.get? id with
  | some (.method symbol) => some symbol
  | _ => none

/-- The property an identifier stands for, if it is one. -/
def property? (table : SymbolTable) (id : SymbolId) : Option Property :=
  match table.get? id with
  | some (.property symbol) => some symbol
  | _ => none

/-- The field an identifier stands for, if it is one. -/
def field? (table : SymbolTable) (id : SymbolId) : Option Field :=
  match table.get? id with
  | some (.field symbol) => some symbol
  | _ => none

/-- The local variable an identifier stands for, if it is one. -/
def local? (table : SymbolTable) (id : SymbolId) : Option Local :=
  match table.get? id with
  | some (.localVar symbol) => some symbol
  | _ => none

/-- The declared name, or `<unknown>` for an identifier that stands for nothing. -/
def name (table : SymbolTable) (id : SymbolId) : String :=
  ((table.get? id).map Symbol.name).getD "<unknown>"

/-- Every symbol with its identifier, in the order of declaration. -/
def toList (table : SymbolTable) : List (SymbolId × Symbol) :=
  table.symbols.toList.zipIdx.map fun (symbol, position) => (⟨UInt32.ofNat position⟩, symbol)

end SymbolTable

end Subscript
