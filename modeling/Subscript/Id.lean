/-!
# Identifiers

Symbols, types and synthesized temporaries are each named by a 32-bit number. The three number
spaces are kept apart by a parameter of `Id`, so a temporary can never be looked up as a symbol.
The largest number of each space is reserved and names nothing.
-/

namespace Subscript

/-! ## §1 The three number spaces -/

/-- What an identifier names. -/
inductive Id.Space where
  /-- methods, properties, fields and locals -/
  | symbol
  /-- interned types -/
  | type
  /-- temporaries made while lowering -/
  | temp
  deriving DecidableEq, Repr

/-- The tag that opens the text of an identifier of this space. -/
def Id.Space.tag : Id.Space → String
  | .symbol => "sym#"
  | .type => "ty#"
  | .temp => "tmp#"

/-- An identifier of one number space. -/
structure Id (space : Id.Space) where
  /-- the number itself -/
  raw : UInt32
  deriving DecidableEq, Hashable, Repr

/-- Names a method, property, field or local. -/
abbrev SymbolId := Id .symbol

/-- Names an interned type. -/
abbrev TypeId := Id .type

/-- Names a temporary of one method body. -/
abbrev TempId := Id .temp

namespace Id

variable {space : Id.Space}

/-! ## §2 Reserved and consecutive identifiers -/

/-- The reserved identifier, which names nothing. -/
def invalid : Id space := ⟨4294967295⟩

/-- Every identifier but the reserved one is valid. -/
def isValid (id : Id space) : Bool := id.raw != 4294967295

/-- The identifier that is handed out first. -/
def first : Id space := ⟨0⟩

/-- The identifier after this one; the reserved one is followed by the first. -/
def next (id : Id space) : Id space := ⟨id.raw + 1⟩

/-- An identifier that was never set names nothing. -/
instance : Inhabited (Id space) := ⟨invalid⟩

/-- Identifiers are ordered by their numbers. -/
instance : LT (Id space) := ⟨fun a b => a.raw < b.raw⟩

instance (a b : Id space) : Decidable (a < b) := inferInstanceAs (Decidable (a.raw < b.raw))

/-- The tag of the space and the decimal number, or `<invalid>` for the reserved identifier. -/
def text (id : Id space) : String :=
  space.tag ++ if id.isValid then toString id.raw.toNat else "<invalid>"

theorem isValid_iff_ne_invalid (id : Id space) : id.isValid = true ↔ id ≠ invalid := by
  cases id with
  | mk raw => simp [isValid, invalid]

end Id

end Subscript
