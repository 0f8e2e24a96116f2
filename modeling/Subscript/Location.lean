/-!
# Source locations

A location points into one file of the compiled program. The largest file number is reserved for
places that belong to no file.
-/

namespace Subscript

/-- A place in the text of a program. -/
structure Location where
  /-- number of the file -/
  file : UInt32
  /-- line, counted from one -/
  line : UInt32
  /-- column, counted from one -/
  column : UInt32
  /-- bytes of the file before this place -/
  byteOffset : UInt32
  deriving DecidableEq, Repr

namespace Location

/-- The place of code that no file accounts for. -/
def unknown : Location := ⟨4294967295, 0, 0, 0⟩

/-- A location is known as soon as its file is; line and column do not matter. -/
def isKnown (loc : Location) : Bool := loc.file != 4294967295

/-- Code that was given no place has an unknown one. -/
instance : Inhabited Location := ⟨unknown⟩

/-- `file:line:column` in decimal, or `<unknown>`. -/
def text (loc : Location) : String :=
  if loc.isKnown then
    toString loc.file.toNat ++ ":" ++ toString loc.line.toNat ++ ":" ++ toString loc.column.toNat
  else
    "<unknown>"

end Location

end Subscript
