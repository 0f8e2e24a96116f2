import Subscript.Json

/-!
# Written values are told apart

The written form of a JSON value belongs to no other value, and where it ends can be seen from the
text alone. Nothing else is asked of what follows than that it does not go on with a digit, which
would be taken for a part of a number. So a document can be read back from its text, however deep
it is nested and whatever its strings contain.

## Architecture

- §1 `Unmistakable`, and the texts that may follow a form
- §2 characters and strings: `unescape` reads one character back
- §3 integers
- §4 lists of parts on lines of their own
- §5 values and members, by one induction over both
-/

namespace Subscript.Json

/-! ## §1 Telling forms apart -/

/-- Ahead of a text that may follow, the form of `part` is that of nothing else, and its end is
known. -/
def Unmistakable {α : Type} (form : α → List Char) (follows : List Char → Prop) (part : α) :
    Prop :=
  ∀ ⦃other : α⦄ ⦃rest rest' : List Char⦄, follows rest → follows rest' →
    form part ++ rest = form other ++ rest' → part = other ∧ rest = rest'

/-- The text does not go on with a digit. -/
def EndsNumber (text : List Char) : Prop := ∀ c ∈ text.head?, c.isDigit = false

/-- The text starts a new line. -/
def BreaksLine (text : List Char) : Prop := ∃ rest, text = '\n' :: rest

private theorem EndsNumber.nil : EndsNumber [] := by simp [EndsNumber]

private theorem EndsNumber.cons {c : Char} (h : c.isDigit = false) (rest : List Char) :
    EndsNumber (c :: rest) := by
  simpa [EndsNumber] using h

private theorem BreaksLine.newline (depth : Nat) (rest : List Char) :
    BreaksLine (Json.newline depth ++ rest) := ⟨_, rfl⟩

private theorem BreaksLine.endsNumber {text : List Char} (h : BreaksLine text) :
    EndsNumber text := by
  obtain ⟨rest, rfl⟩ := h
  exact .cons rfl rest

/-! ## §2 Strings -/

/-- The value of a hexadecimal digit in lower case. -/
def hexValue (c : Char) : Nat := if c.isDigit then c.toNat - 48 else c.toNat - 87

/-- Read the first character of a text inside a quoted string, and what comes after it. -/
def unescape : List Char → Option (Char × List Char)
  | '\\' :: 'u' :: '0' :: '0' :: high :: low :: rest =>
    some (Char.ofNat (16 * hexValue high + hexValue low), rest)
  | '\\' :: 'b' :: rest => some ('\x08', rest)
  | '\\' :: 'f' :: rest => some ('\x0c', rest)
  | '\\' :: 'n' :: rest => some ('\n', rest)
  | '\\' :: 'r' :: rest => some ('\r', rest)
  | '\\' :: 't' :: rest => some ('\t', rest)
  | '\\' :: c :: rest => some (c, rest)
  | c :: rest => some (c, rest)
  | [] => none

private theorem hexValue_digitChar {digit : Nat} (h : digit < 16) :
    hexValue (Nat.digitChar digit) = digit := by
  have hall : ∀ digit < 16, hexValue (Nat.digitChar digit) = digit := by decide
  exact hall digit h

/-- A character is read back from its form inside a string. -/
theorem unescape_escape (c : Char) (rest : List Char) :
    unescape (escape c ++ rest) = some (c, rest) := by
  unfold escape
  split
  case h_8 =>
    split
    -- a control character without a short form has two hexadecimal digits
    · rename_i hcontrol
      have hhigh : hexValue (Nat.digitChar (c.toNat / 16)) = c.toNat / 16 :=
        hexValue_digitChar (by omega)
      have hlow : hexValue (Nat.digitChar (c.toNat % 16)) = c.toNat % 16 :=
        hexValue_digitChar (by omega)
      have hchar : Char.ofNat (16 * (c.toNat / 16) + c.toNat % 16) = c := by
        rw [Nat.div_add_mod, Char.ofNat_toNat]
      simp [unescape, hhigh, hlow, hchar]
    -- any other character stands for itself, as it is no backslash
    · rw [List.singleton_append, unescape.eq_def]
      split <;> simp_all
  all_goals rfl

/-- No form of a character starts with the mark that ends a string. -/
private theorem escape_append_ne (c : Char) (rest rest' : List Char) :
    escape c ++ rest ≠ '"' :: rest' := by
  intro h
  have hread := unescape_escape c rest
  rw [h] at hread
  have hc : '"' = c := congrArg Prod.fst (Option.some.inj hread)
  subst hc
  cases h

/-- The characters of a string are told apart up to the mark at its end. No escape begins with
this mark, so the shorter of the two strings cannot end inside the other one. -/
theorem escaped_inj {chars chars' rest rest' : List Char}
    (h : chars.flatMap escape ++ '"' :: rest = chars'.flatMap escape ++ '"' :: rest') :
    chars = chars' ∧ rest = rest' := by
  induction chars generalizing chars' with
  | nil =>
    cases chars' with
    | nil => exact ⟨rfl, List.tail_eq_of_cons_eq h⟩
    | cons c' chars' =>
      rw [List.flatMap_cons, List.append_assoc] at h
      exact absurd h.symm (escape_append_ne c' _ _)
  | cons c chars ih =>
    rw [List.flatMap_cons, List.append_assoc] at h
    cases chars' with
    | nil => exact absurd h (escape_append_ne c _ _)
    | cons c' chars' =>
      rw [List.flatMap_cons, List.append_assoc] at h
      -- both texts give back their first character
      have hread := congrArg unescape h
      simp only [unescape_escape, Option.some.injEq, Prod.mk.injEq] at hread
      obtain ⟨rfl, hrest⟩ := hread
      obtain ⟨rfl, rfl⟩ := ih hrest
      exact ⟨rfl, rfl⟩

/-- A string ends at its mark, whatever follows it. -/
theorem quoted_unmistakable (follows : List Char → Prop) (text : String) :
    Unmistakable quoted follows text := by
  intro other rest rest' _ _ h
  simp only [quoted, List.cons_append, List.append_assoc, List.nil_append, List.cons.injEq,
    true_and] at h
  obtain ⟨hchars, hrest⟩ := escaped_inj h
  exact ⟨String.toList_inj.mp hchars, hrest⟩

/-! ## §3 Integers -/

/-- A number is told from others if no digit follows it. Its digits are all that stand in front of
the first character which is none, and they give the number back. -/
theorem digits_unmistakable (number : Nat) :
    Unmistakable (Nat.toDigits 10) EndsNumber number := by
  intro other rest rest' hrest hrest' h
  have hdigits : ∀ number : Nat, ∀ c ∈ Nat.toDigits 10 number, c.isDigit = true :=
    fun _ _ => Nat.isDigit_of_mem_toDigits (by decide) (Nat.le_refl 10)
  have hread : ∀ number : Nat, Nat.ofDigitChars 10 (Nat.toDigits 10 number) 0 = number :=
    fun _ => Nat.ofDigitChars_toDigits (by decide) (Nat.le_refl 10)
  -- the digits of a number are all the digits up to what follows it
  have htake : ∀ {number : Nat} {rest : List Char}, EndsNumber rest →
      (Nat.toDigits 10 number ++ rest).takeWhile Char.isDigit = Nat.toDigits 10 number := by
    intro number rest hrest
    rw [List.takeWhile_append_of_pos (hdigits number)]
    cases rest with
    | nil => simp
    | cons c rest =>
      rw [List.takeWhile_cons_of_neg (by simp [hrest c rfl]), List.append_nil]
  have hsame : Nat.toDigits 10 number = Nat.toDigits 10 other := by
    rw [← htake hrest, h, htake hrest']
  refine ⟨?_, ?_⟩
  · rw [← hread number, hsame, hread]
  · rw [hsame] at h
    exact List.append_cancel_left h

/-- The form of an integer. -/
def integer (value : Int) : List Char := (toString value).toList

private theorem integer_ofNat (number : Nat) : integer (.ofNat number) = Nat.toDigits 10 number :=
  String.toList_ofList

private theorem integer_negSucc (number : Nat) :
    integer (.negSucc number) = '-' :: Nat.toDigits 10 (number + 1) := by
  have hsign : integer (.negSucc number) = ("-" ++ Nat.repr (number + 1)).toList := rfl
  simp [hsign, Nat.repr]

/-- A number has a first digit. -/
private theorem exists_digit (number : Nat) :
    ∃ c digits, Nat.toDigits 10 number = c :: digits ∧ c.isDigit = true := by
  cases hdigits : Nat.toDigits 10 number with
  | nil => exact absurd hdigits Nat.toDigits_ne_nil
  | cons c digits =>
    refine ⟨c, digits, rfl, ?_⟩
    have hmem : c ∈ Nat.toDigits 10 number := by simp [hdigits]
    exact Nat.isDigit_of_mem_toDigits (by decide) (Nat.le_refl 10) hmem

/-- A number written with digits alone has no sign in front. -/
private theorem digits_append_ne (number : Nat) (rest rest' : List Char) :
    Nat.toDigits 10 number ++ rest ≠ '-' :: rest' := by
  obtain ⟨c, digits, hdigits, hdigit⟩ := exists_digit number
  intro h
  rw [hdigits, List.cons_append, List.cons.injEq] at h
  rw [h.1] at hdigit
  cases hdigit

/-- An integer is told from others if no digit follows it. Two integers of one sign are told apart
by their digits. -/
theorem integer_unmistakable (value : Int) : Unmistakable integer EndsNumber value := by
  intro other rest rest' hrest hrest' h
  -- the sign is told from every digit
  cases value with
  | ofNat number =>
    cases other with
    | ofNat number' =>
      rw [integer_ofNat, integer_ofNat] at h
      obtain ⟨rfl, hsame⟩ := digits_unmistakable number hrest hrest' h
      exact ⟨rfl, hsame⟩
    | negSucc number' =>
      rw [integer_ofNat, integer_negSucc] at h
      exact absurd h (digits_append_ne number _ _)
  | negSucc number =>
    cases other with
    | ofNat number' =>
      rw [integer_ofNat, integer_negSucc] at h
      exact absurd h.symm (digits_append_ne number' _ _)
    | negSucc number' =>
      rw [integer_negSucc, integer_negSucc, List.cons_append, List.cons_append,
        List.cons.injEq] at h
      obtain ⟨hnumber, hsame⟩ := digits_unmistakable (number + 1) hrest hrest' h.2
      obtain rfl := Nat.succ.inj hnumber
      exact ⟨rfl, hsame⟩

/-! ## §4 Lists of parts -/

/-- A part and those behind it are told apart, if what stands behind a part cannot be taken for
digits of it. -/
theorem Unmistakable.followed {α : Type} {form : α → List Char} {more : List α → List Char}
    {part other : α} {parts others : List α} {rest rest' : List Char}
    (hends : ∀ parts rest, BreaksLine rest → EndsNumber (more parts ++ rest))
    (hpart : Unmistakable form EndsNumber part) (hparts : Unmistakable more BreaksLine parts)
    (hrest : BreaksLine rest) (hrest' : BreaksLine rest')
    (h : form part ++ (more parts ++ rest) = form other ++ (more others ++ rest')) :
    (part = other ∧ parts = others) ∧ rest = rest' := by
  obtain ⟨rfl, hmore⟩ := hpart (hends parts rest hrest) (hends others rest' hrest') h
  obtain ⟨rfl, hsame⟩ := hparts hrest hrest' hmore
  exact ⟨⟨rfl, rfl⟩, hsame⟩

private theorem endsNumber_layoutItems (depth : Nat) (items : List Value) (rest : List Char)
    (h : BreaksLine rest) : EndsNumber (layoutItems depth items ++ rest) := by
  cases items with
  | nil => exact h.endsNumber
  | cons item items => exact .cons rfl _

private theorem endsNumber_layoutMembers (depth : Nat) (members : List Member) (rest : List Char)
    (h : BreaksLine rest) : EndsNumber (layoutMembers depth members ++ rest) := by
  cases members with
  | nil => exact h.endsNumber
  | cons member members => exact .cons rfl _

/-! ## §5 Values -/

/-- The character that the form of a value starts with; sign and digits count as one character, and
so do the first letters of the truth values. -/
def Value.lead : Value → Char
  | .null => 'n'
  | .bool _ => 't'
  | .int _ => '0'
  | .string _ => '"'
  | .array _ => '['
  | .object _ => '\x7b'

/-- The first character of a text, with the same ones taken together. -/
def leadOf (text : List Char) : Option Char :=
  text.head?.map fun c => if c.isDigit || c = '-' then '0' else if c = 'f' then 't' else c

/-- The first character of an integer says that it is one. -/
private theorem leadOf_integer (value : Int) (rest : List Char) :
    leadOf (integer value ++ rest) = some '0' := by
  cases value with
  | ofNat number =>
    obtain ⟨c, digits, hdigits, hdigit⟩ := exists_digit number
    rw [integer_ofNat, hdigits, leadOf, List.cons_append, List.head?_cons, Option.map_some, hdigit]
    rfl
  | negSucc number =>
    rw [integer_negSucc]
    rfl

/-- The first character of a form says of what shape its value is. -/
private theorem Value.leadOf_layout (depth : Nat) (value : Value) (rest : List Char) :
    leadOf (value.layout depth ++ rest) = some value.lead := by
  cases value with
  | bool value => cases value <;> rfl
  | int value => exact leadOf_integer value rest
  | array items => cases items <;> rfl
  | object members => cases members <;> rfl
  | _ => rfl

/-- Forms that are followed up to the same text are those of values of one shape. -/
private theorem Value.lead_eq {depth : Nat} {value other : Value} {rest rest' : List Char}
    (h : value.layout depth ++ rest = other.layout depth ++ rest') : value.lead = other.lead := by
  have hlead := congrArg leadOf h
  rw [leadOf_layout, leadOf_layout] at hlead
  exact Option.some.inj hlead

mutual

/-- The form of a value is told from the form of any other value, as long as no digit follows: its
first character tells the shape, and the parts are told apart one after the other. -/
theorem Value.layout_unmistakable (depth : Nat) (value : Value) :
    Unmistakable (Value.layout depth) EndsNumber value := by
  intro other rest rest' hrest hrest' h
  -- values of two shapes are told apart here, so the cases below are those of one shape
  have hlead := Value.lead_eq h
  cases value with
  | null =>
    cases other with
    | null => exact ⟨rfl, List.append_cancel_left h⟩
    | _ => cases hlead
  | bool value =>
    cases other with
    | bool value' =>
      -- the two words differ in their first letter
      cases value <;> cases value'
      case true.true | false.false => exact ⟨rfl, List.append_cancel_left h⟩
      all_goals cases h
    | _ => cases hlead
  | int value =>
    cases other with
    | int value' =>
      obtain ⟨rfl, hsame⟩ := integer_unmistakable value hrest hrest' h
      exact ⟨rfl, hsame⟩
    | _ => cases hlead
  | string value =>
    cases other with
    | string value' =>
      obtain ⟨rfl, hsame⟩ := quoted_unmistakable _ value hrest hrest' h
      exact ⟨rfl, hsame⟩
    | _ => cases hlead
  | array items =>
    cases other with
    | array items' =>
      cases items with
      | nil =>
        cases items' with
        | nil => exact ⟨rfl, List.append_cancel_left h⟩
        | cons item' items' => simp [Value.layout, newline] at h
      | cons item items =>
        cases items' with
        -- only an array with items breaks the line behind its bracket
        | nil => simp [Value.layout, newline] at h
        | cons item' items' =>
          simp only [Value.layout, List.cons_append, List.append_assoc, List.cons.injEq, true_and,
            List.append_cancel_left_eq] at h
          obtain ⟨⟨rfl, rfl⟩, hsame⟩ := Unmistakable.followed (endsNumber_layoutItems (depth + 1))
            (Value.layout_unmistakable (depth + 1) item)
            (layoutItems_unmistakable (depth + 1) items)
            (.newline depth _) (.newline depth _) h
          exact ⟨rfl, by simpa using hsame⟩
    | _ => cases hlead
  | object members =>
    cases other with
    | object members' =>
      cases members with
      | nil =>
        cases members' with
        | nil => exact ⟨rfl, List.append_cancel_left h⟩
        | cons member' members' => simp [Value.layout, newline] at h
      | cons member members =>
        cases members' with
        | nil => simp [Value.layout, newline] at h
        | cons member' members' =>
          simp only [Value.layout, List.cons_append, List.append_assoc, List.cons.injEq, true_and,
            List.append_cancel_left_eq] at h
          obtain ⟨⟨rfl, rfl⟩, hsame⟩ := Unmistakable.followed
            (endsNumber_layoutMembers (depth + 1))
            (Member.layout_unmistakable (depth + 1) member)
            (layoutMembers_unmistakable (depth + 1) members)
            (.newline depth _) (.newline depth _) h
          exact ⟨rfl, by simpa using hsame⟩
    | _ => cases hlead
termination_by structural value

/-- A member is told from others by its name and then by its value. -/
theorem Member.layout_unmistakable (depth : Nat) (member : Member) :
    Unmistakable (Member.layout depth) EndsNumber member := by
  intro other rest rest' hrest hrest' h
  cases member with
  | mk key value =>
    cases other with
    | mk key' value' =>
      simp only [Member.layout, List.append_assoc] at h
      obtain ⟨rfl, hvalue⟩ := quoted_unmistakable (fun _ => True) key trivial trivial h
      obtain ⟨rfl, hsame⟩ :=
        Value.layout_unmistakable depth value hrest hrest' (List.append_cancel_left hvalue)
      exact ⟨rfl, hsame⟩
termination_by structural member

/-- The items behind the first one are told from others, as the array is closed on a new line. A
comma goes ahead of each, so no item is mistaken for the end of the array. -/
theorem layoutItems_unmistakable (depth : Nat) (items : List Value) :
    Unmistakable (layoutItems depth) BreaksLine items := by
  intro others rest rest' hrest hrest' h
  cases items with
  | nil =>
    cases others with
    | nil => exact ⟨rfl, h⟩
    | cons other others =>
      obtain ⟨text, rfl⟩ := hrest
      -- here a comma would have to be a line feed
      cases h
  | cons item items =>
    cases others with
    | nil =>
      obtain ⟨text, rfl⟩ := hrest'
      cases h
    | cons other others =>
      -- behind the comma stand an item and the items after it
      simp only [layoutItems, List.cons_append, List.append_assoc, List.cons.injEq, true_and,
        List.append_cancel_left_eq] at h
      obtain ⟨⟨rfl, rfl⟩, hsame⟩ := Unmistakable.followed (endsNumber_layoutItems depth)
        (Value.layout_unmistakable depth item) (layoutItems_unmistakable depth items) hrest hrest' h
      exact ⟨rfl, hsame⟩
termination_by structural items

/-- The same for the members of an object, of which each is a key and a value. -/
theorem layoutMembers_unmistakable (depth : Nat) (members : List Member) :
    Unmistakable (layoutMembers depth) BreaksLine members := by
  intro others rest rest' hrest hrest' h
  cases members with
  | nil =>
    cases others with
    | nil => exact ⟨rfl, h⟩
    | cons other others =>
      obtain ⟨text, rfl⟩ := hrest
      -- here, too, a comma would have to be a line feed
      cases h
  | cons member members =>
    cases others with
    | nil =>
      obtain ⟨text, rfl⟩ := hrest'
      cases h
    | cons other others =>
      simp only [layoutMembers, List.cons_append, List.append_assoc, List.cons.injEq, true_and,
        List.append_cancel_left_eq] at h
      obtain ⟨⟨rfl, rfl⟩, hsame⟩ := Unmistakable.followed (endsNumber_layoutMembers depth)
        (Member.layout_unmistakable depth member) (layoutMembers_unmistakable depth members)
        hrest hrest' h
      exact ⟨rfl, hsame⟩
termination_by structural members

end

/-- The text of a document belongs to no other document. -/
theorem Value.text_inj {value other : Value} (h : value.text = other.text) : value = other := by
  have hlayout : value.layout 0 ++ [] = other.layout 0 ++ [] :=
    congrArg (· ++ []) (String.ofList_injective h)
  exact (Value.layout_unmistakable 0 value .nil .nil hlayout).1

end Subscript.Json
