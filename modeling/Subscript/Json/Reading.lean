import Subscript.Json

/-!
# Reading JSON values

A document is read by looking members up by name. A member that is missing counts as `null`, and
what `null` stands for is up to the reader: a flag that is off, an empty list, no value. Whatever
does not fit is read as `none`.

## Architecture

- §1 parts of a value
- §2 flags, lists and values that may be missing
- §3 parts are no larger than the whole, which bounds the readers of nested documents
-/

namespace Subscript.Json.Value

/-! ## §1 Parts -/

/-- The value of a name in a list of members, or `null`. -/
def lookup (key : String) : List Member → Value
  | [] => .null
  | .mk name value :: members => if name = key then value else lookup key members

/-- The member of an object; what is missing is `null`. -/
def member (value : Value) (key : String) : Value :=
  match value with
  | .object members => lookup key members
  | _ => .null

/-- The items of an array; anything else has none. -/
def items : Value → List Value
  | .array items => items
  | _ => []

/-- A string. -/
def text? : Value → Option String
  | .string text => some text
  | _ => none

/-- An integer. -/
def int? : Value → Option Int
  | .int value => some value
  | _ => none

/-- An integer that is not negative. -/
def nat? : Value → Option Nat
  | .int (.ofNat value) => some value
  | _ => none

/-- An integer that is a 32-bit word. -/
def word? (value : Value) : Option UInt32 :=
  value.nat?.bind fun n => if n < 4294967296 then some (UInt32.ofNat n) else none

/-- A truth value. -/
def bool? : Value → Option Bool
  | .bool value => some value
  | _ => none

/-- A tagged value: a bare name, whose body is `null`, or the only member of an object. -/
def tagged? : Value → Option (String × Value)
  | .string name => some (name, .null)
  | .object [.mk name body] => some (name, body)
  | _ => none

/-! ## §2 Readers -/

/-- A truth value; `null` is false. -/
def flag? : Value → Option Bool
  | .null => some false
  | .bool value => some value
  | _ => none

/-- A value that may be `null`. -/
def optional? {α : Type} (read? : Value → Option α) : Value → Option (Option α)
  | .null => some none
  | value => (read? value).map some

/-- A list; `null` is the empty one. -/
def list? {α : Type} (read? : Value → Option α) : Value → Option (List α)
  | .null => some []
  | .array items => items.mapM read?
  | _ => none

/-- One of several names. -/
def oneOf? {α : Type} (choices : List (String × α)) (value : Value) : Option α :=
  value.text?.bind fun name => choices.lookup name

/-! ## §3 Sizes -/

theorem sizeOf_lookup_le (key : String) (members : List Member) :
    sizeOf (lookup key members) ≤ sizeOf members := by
  induction members with
  | nil => simp [lookup]
  | cons first members ih =>
    cases first with
    | mk name value =>
      unfold lookup
      split
      · simp
        omega
      · simp
        omega

theorem sizeOf_member_le (value : Value) (key : String) :
    sizeOf (value.member key) ≤ sizeOf value := by
  cases value with
  | object members =>
    have bound := sizeOf_lookup_le key members
    simp only [member, object.sizeOf_spec]
    omega
  | _ => simp [member]

theorem sizeOf_items_le (value : Value) : sizeOf value.items ≤ sizeOf value := by
  cases value <;> simp [items]

theorem sizeOf_body_lt {value body : Value} {name : String}
    (tagged : value = .object [.mk name body]) : sizeOf body < sizeOf value := by
  subst tagged
  simp
  omega

end Subscript.Json.Value
