import Subscript.Code.Reader
import Subscript.Proofs.Documents.Layout

/-!
# Code is recovered from its document

Reading the document of a piece of code gives the code back, with every type, place, name and
number in it. Documents are told apart by their written forms, so nothing about an expression is
lost in its JSON text either.

## Architecture

- §1 leaves: numbers, places, names, temporaries
- §2 expressions
- §3 texts
-/

namespace Subscript

open Json (Value Member)

/-! ## §1 Leaves -/

@[simp] private theorem Json.Value.word?_ofWord (word : UInt32) :
    (Value.ofWord word).word? = some word := by
  have hword : (Value.ofWord word).nat? = some word.toNat := rfl
  have hbound : word.toNat < 4294967296 := word.toNat_lt
  rw [Value.word?, hword, Option.bind_some, if_pos hbound, UInt32.ofNat_toNat]

@[simp] private theorem Id.ofJson?_toJson {space : Id.Space} (id : Id space) :
    Id.ofJson? id.toJson = some id := by
  rw [Id.ofJson?, Id.toJson, Json.Value.word?_ofWord]
  rfl

@[simp] private theorem Location.ofJson?_toJson (loc : Location) :
    Location.ofJson? loc.toJson = some loc := by
  simp [Location.ofJson?, Location.toJson, Value.member, Value.lookup]

/-- A list is read back if each of its parts is. -/
theorem Json.Value.list?_map {α : Type} {read? : Value → Option α} {form : α → Value}
    (h : ∀ part, read? (form part) = some part) (parts : List α) :
    (Value.array (parts.map form)).list? read? = some parts := by
  rw [Value.list?]
  induction parts with
  | nil => rfl
  | cons part parts ih => simp [h, ih]

namespace Code

@[simp] private theorem names_ofJson?_toJson (names : List (Option String)) :
    (namesToJson names).list? (·.optional? Value.text?) = some names := by
  apply Value.list?_map
  intro name
  cases name <;> rfl

@[simp] private theorem refKinds_ofJson?_toJson (refKinds : List RefKind) :
    (Value.array (refKinds.map RefKind.toJson)).list? RefKind.ofJson? = some refKinds :=
  Value.list?_map RefKind.ofJson?_toJson refKinds

@[simp] private theorem Temp.ofJson?_toJson (temp : Temp) :
    Temp.ofJson? temp.toJson = some temp := by
  simp [Temp.ofJson?, Temp.toJson, Value.member, Value.lookup, Value.text?]

@[simp] private theorem temps_ofJson?_toJson (temps : List Temp) :
    (Value.array (temps.map Temp.toJson)).list? Temp.ofJson? = some temps :=
  Value.list?_map Temp.ofJson?_toJson temps

/-! ## §2 Expressions -/

/-- Type and place are read back from the document of any expression. -/
private theorem Info.ofJson?_toJson (expr : Expr) : Info.ofJson? expr.toJson = some expr.info := by
  have hread : ∀ kind info, Info.ofJson? (withInfo kind info) = some info := by
    intro kind info
    simp [Info.ofJson?, withInfo, Value.member, Value.lookup]
  cases expr <;> exact hread _ _

/-- No expression has the document `null`, which stands for a receiver that is missing. -/
private theorem Expr.exists_toJson_eq_object (expr : Expr) :
    ∃ members, expr.toJson = .object members := by
  cases expr <;> exact ⟨_, rfl⟩

mutual

/-- An expression is read back from its document. The reader picks its way by the kind, so each
case comes down to reading the parts back. -/
theorem Expr.ofJson?_toJson (expr : Expr) : Expr.ofJson? expr.toJson = some expr := by
  rw [Expr.ofJson?, Info.ofJson?_toJson]
  -- the kind of the document says which parts are read, and by which readers
  cases expr with
  | literal info value =>
    change (do return Expr.literal info (← Literal.ofJson? value.toJson)) = _
    simp
  | var info symbol =>
    change (do return Expr.var info (← Id.ofJson? symbol.toJson)) = _
    simp
  | temp info temp =>
    change (do return Expr.temp info (← Id.ofJson? temp.toJson)) = _
    simp
  | self info => rfl
  | field info object field =>
    change (do
      return Expr.field info (← Expr.ofJson? object.toJson) (← Id.ofJson? field.toJson)) = _
    simp [object.ofJson?_toJson]
  | element info object index =>
    change (do
      return Expr.element info (← Expr.ofJson? object.toJson) (← Expr.ofJson? index.toJson)) = _
    simp [object.ofJson?_toJson, index.ofJson?_toJson]
  | call info receiver method arguments byRef =>
    have hreceiver := receiver.ofJson?_toJson
    -- a receiver has a document of its own, so the call is not taken for a static one
    obtain ⟨members, hmembers⟩ := receiver.exists_toJson_eq_object
    rw [hmembers] at hreceiver
    change (do
      let method ← Id.ofJson? method.toJson
      let arguments ← ofJsonAll? (toJsonAll arguments)
      match receiver.toJson with
      | .null => return Expr.staticCall info method arguments byRef
      | _ => return Expr.call info (← Expr.ofJson? receiver.toJson) method arguments byRef) = _
    simp [hreceiver, ofJsonAll?_toJsonAll arguments, hmembers]
  | staticCall info method arguments byRef =>
    change (do
      return Expr.staticCall info (← Id.ofJson? method.toJson)
        (← ofJsonAll? (toJsonAll arguments)) byRef) = _
    simp [ofJsonAll?_toJsonAll arguments]
  | construct info constructor arguments =>
    change (do
      return Expr.construct info (← Id.ofJson? constructor.toJson)
        (← ofJsonAll? (toJsonAll arguments))) = _
    simp [ofJsonAll?_toJsonAll arguments]
  | binary info op left right =>
    change (do
      return Expr.binary info (← BinaryOp.ofJson? op.toJson)
        (← Expr.ofJson? left.toJson) (← Expr.ofJson? right.toJson)) = _
    simp [left.ofJson?_toJson, right.ofJson?_toJson]
  | array info elements =>
    change (do return Expr.array info (← ofJsonAll? (toJsonAll elements))) = _
    simp [ofJsonAll?_toJsonAll elements]
  | store info temp value =>
    change (do
      return Expr.store info (← Id.ofJson? temp.toJson) (← Expr.ofJson? value.toJson)) = _
    simp [value.ofJson?_toJson]
  | sequence info temps stores result =>
    change (do
      return Expr.sequence info
        (← (Value.array (temps.map Temp.toJson)).list? Temp.ofJson?)
        (← ofJsonAll? (toJsonAll stores)) (← Expr.ofJson? result.toJson)) = _
    simp [ofJsonAll?_toJsonAll stores, result.ofJson?_toJson]
  | dynamicMember info receiver name indexable =>
    change (do
      return Expr.dynamicMember info (← Expr.ofJson? receiver.toJson) name indexable) = _
    simp [receiver.ofJson?_toJson]
  | dynamicElement info receiver arguments names refKinds =>
    change (do
      return Expr.dynamicElement info (← Expr.ofJson? receiver.toJson)
        (← ofJsonAll? (toJsonAll arguments))
        (← (namesToJson names).list? (·.optional? Value.text?))
        (← (Value.array (refKinds.map RefKind.toJson)).list? RefKind.ofJson?)) = _
    simp [receiver.ofJson?_toJson, ofJsonAll?_toJsonAll arguments]
termination_by structural expr

/-- Expressions are read back one by one. -/
theorem ofJsonAll?_toJsonAll (exprs : List Expr) : ofJsonAll? (toJsonAll exprs) = some exprs := by
  cases exprs with
  | nil => rw [toJsonAll, ofJsonAll?]
  | cons expr exprs =>
    rw [toJsonAll, ofJsonAll?, Expr.ofJson?_toJson expr, ofJsonAll?_toJsonAll exprs]
    rfl
termination_by structural exprs

end

/-! ## §3 Texts -/

/-- The JSON text of an expression belongs to no other expression: whatever is nested in it, every
type, place, name, number and string can be recovered from the text. A text gives back its
document (`Value.text_inj`), and a document the expression (`Expr.ofJson?_toJson`). -/
theorem Expr.jsonText_eq_iff (expr other : Expr) :
    expr.jsonText = other.jsonText ↔ expr = other := by
  constructor
  · intro h
    have hdocument : expr.toJson = other.toJson := Value.text_inj h
    have hread := congrArg Expr.ofJson? hdocument
    rw [expr.ofJson?_toJson, other.ofJson?_toJson] at hread
    exact Option.some.inj hread
  · rintro rfl
    rfl

end Code

end Subscript
