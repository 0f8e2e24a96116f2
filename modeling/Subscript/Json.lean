/-!
# JSON values and their layout

A JSON value whose objects keep the order of their members, and its written form over several
lines. An array or an object that is not empty puts each part on a line of its own, two blanks
further in than its brackets.

## Architecture

- §1 `Value` and `Member`
- §2 `escape`, characters inside a quoted string
- §3 `Value.layout`, the written form
-/

namespace Subscript.Json

/-! ## §1 Values -/

mutual

/-- A JSON value. -/
inductive Value where
  /-- the value `null` -/
  | null
  /-- `true` or `false` -/
  | bool (value : Bool)
  /-- an integer -/
  | int (value : Int)
  /-- a string -/
  | string (value : String)
  /-- a list of values -/
  | array (items : List Value)
  /-- a list of named values -/
  | object (members : List Member)

/-- A named value of an object. -/
inductive Member where
  /-- the value `value` under the name `key` -/
  | mk (key : String) (value : Value)

end

instance : Inhabited Value := ⟨.null⟩

/-- The object with a single member. -/
def Value.single (key : String) (value : Value) : Value := .object [.mk key value]

/-! ## §2 Strings -/

/-- How one character is written inside a string: quotation mark and backslash follow a backslash,
control characters below the blank have a short or a four-digit form, all else stands as it is. -/
def escape (c : Char) : List Char :=
  match c with
  | '"' => ['\\', '"']
  | '\\' => ['\\', '\\']
  | '\x08' => ['\\', 'b']
  | '\x0c' => ['\\', 'f']
  | '\n' => ['\\', 'n']
  | '\r' => ['\\', 'r']
  | '\t' => ['\\', 't']
  | c =>
    if c.toNat < 0x20 then
      ['\\', 'u', '0', '0', Nat.digitChar (c.toNat / 16), Nat.digitChar (c.toNat % 16)]
    else
      [c]

/-- A string between its quotation marks. -/
def quoted (text : String) : List Char := '"' :: text.toList.flatMap escape ++ ['"']

/-! ## §3 Layout -/

/-- A line break and the blanks that start a line at some depth. -/
def newline (depth : Nat) : List Char := '\n' :: List.replicate (2 * depth) ' '

mutual

/-- The written form of a value that stands at some depth. -/
def Value.layout (depth : Nat) : Value → List Char
  | .null => "null".toList
  | .bool true => "true".toList
  | .bool false => "false".toList
  | .int value => (toString value).toList
  | .string value => quoted value
  | .array [] => "[]".toList
  | .array (item :: items) =>
    '[' :: newline (depth + 1) ++ item.layout (depth + 1) ++ layoutItems (depth + 1) items ++
      newline depth ++ [']']
  | .object [] => ['\x7b', '\x7d']
  | .object (member :: members) =>
    '\x7b' :: newline (depth + 1) ++ member.layout (depth + 1) ++
      layoutMembers (depth + 1) members ++ newline depth ++ ['\x7d']
termination_by structural value => value

/-- The written form of a member: name, colon, blank, value. -/
def Member.layout (depth : Nat) : Member → List Char
  | .mk key value => quoted key ++ [':', ' '] ++ value.layout depth
termination_by structural member => member

/-- The items after the first one, each behind a comma and on a line of its own. -/
def layoutItems (depth : Nat) : List Value → List Char
  | [] => []
  | item :: items => ',' :: newline depth ++ item.layout depth ++ layoutItems depth items
termination_by structural items => items

/-- The members after the first one, each behind a comma and on a line of its own. -/
def layoutMembers (depth : Nat) : List Member → List Char
  | [] => []
  | member :: members => ',' :: newline depth ++ member.layout depth ++ layoutMembers depth members
termination_by structural members => members

end

/-- The written form of a whole document. -/
def Value.text (value : Value) : String := String.ofList (value.layout 0)

end Subscript.Json
