import Subscript.Id

/-!
# Well-known library members

Positions from the end and ranges are written with members of the standard library. Lowering asks
a registry for the few members it needs; a library that lacks one is reported by the member's
qualified name.
-/

namespace Subscript.WellKnown

/-! ## §1 The members -/

/-- A library member that lowered code may call. -/
inductive Member where
  /-- makes a position from a number and a direction -/
  | indexConstructor
  /-- the offset of a position in a sequence of given length -/
  | indexGetOffset
  /-- turns an integer into a position counted from the start -/
  | indexFromInt
  /-- makes a range from two positions -/
  | rangeConstructor
  /-- the first position of a range -/
  | rangeGetStart
  /-- the position after a range -/
  | rangeGetEnd
  /-- the range from a position to the end -/
  | rangeStartAt
  /-- the range from the start to a position -/
  | rangeEndAt
  /-- the range of everything -/
  | rangeAll
  deriving DecidableEq, Repr

/-- Every member, in the order in which missing ones are reported. -/
def Member.all : List Member :=
  [.indexConstructor, .indexGetOffset, .indexFromInt, .rangeConstructor, .rangeGetStart,
    .rangeGetEnd, .rangeStartAt, .rangeEndAt, .rangeAll]

/-- The name of the member inside its library, as messages show it. -/
def Member.qualifiedName : Member → String
  | .indexConstructor => "Index..ctor"
  | .indexGetOffset => "Index.GetOffset"
  | .indexFromInt => "Index.op_Implicit"
  | .rangeConstructor => "Range..ctor"
  | .rangeGetStart => "Range.get_Start"
  | .rangeGetEnd => "Range.get_End"
  | .rangeStartAt => "Range.StartAt"
  | .rangeEndAt => "Range.EndAt"
  | .rangeAll => "Range.get_All"

/-! ## §2 Members a library lacks -/

/-- A library member that could not be resolved, with the reason. -/
structure Unavailable where
  /-- the member that was asked for -/
  member : Member
  /-- why it is not there -/
  reason : String
  deriving DecidableEq, Repr

/-- The sentence that reports an unavailable member. -/
def Unavailable.message (missing : Unavailable) : String :=
  "well-known member " ++ missing.member.qualifiedName ++ " unavailable: " ++ missing.reason

/-! ## §3 The registry -/

/-- Which symbol stands for which member. -/
structure Registry where
  /-- the registered symbol of a member -/
  symbol? : Member → Option SymbolId

namespace Registry

/-- The registry in which nothing is registered. -/
def empty : Registry := ⟨fun _ => none⟩

instance : Inhabited Registry := ⟨empty⟩

/-- Let a symbol stand for a member from now on. -/
def register (registry : Registry) (member : Member) (symbol : SymbolId) : Registry :=
  ⟨fun other => if other = member then some symbol else registry.symbol? other⟩

/-- The members that no symbol stands for. -/
def missing (registry : Registry) : List Member :=
  Member.all.filter fun member => (registry.symbol? member).isNone

/-- The symbol of a member, or the report that the library never registered it. -/
def resolve (registry : Registry) (member : Member) : Except Unavailable SymbolId :=
  match registry.symbol? member with
  | some symbol => .ok symbol
  | none => .error ⟨member, "not registered by the standard library loader"⟩

end Registry

end Subscript.WellKnown
