import Subscript.Code.Document

/-!
# Reading code from documents

The readers of the documents of `Subscript.Code.Document`. An expression may come without a place
and then has an unknown one.

## Architecture

- §1 leaves: operators, temporaries, argument names
- §2 `Expr.ofJson?`, by recursion on the size of the document
- §3 targets and lowered accesses
-/

namespace Subscript

open Json (Value Member)

/-! ## §1 Leaves -/

/-- Read the type and the place of an expression from its document. -/
def Info.ofJson? (document : Value) : Option Info := do
  return ⟨← Id.ofJson? (document.member "ty"),
    ← Location.ofJson? (document.member "source_location")⟩

/-- Read how the arguments of an access are spelled, from the members of its document. -/
def CallShape.ofJson? (document : Value) (namesKey : String) : Option CallShape := do
  return ⟨← (document.member namesKey).list? (·.optional? Value.text?),
    ← (document.member "ref_kinds").list? RefKind.ofJson?,
    ← (document.member "expanded_params").flag?,
    ← (document.member "arg_to_param_map").optional? (·.list? Value.nat?)⟩

namespace Code

/-- Read an operator. -/
def BinaryOp.ofJson? : Value → Option BinaryOp := Value.oneOf? [("Add", .add), ("Sub", .sub)]

/-- Read what a temporary holds. -/
def Holding.ofJson? : Value → Option Holding :=
  Value.oneOf? [("Value", .copy), ("Ref", .storage)]

/-- Read the declaration of a temporary. -/
def Temp.ofJson? (document : Value) : Option Temp := do
  return ⟨← Id.ofJson? (document.member "id"), ← (document.member "name").text?,
    ← Id.ofJson? (document.member "ty"), ← Holding.ofJson? (document.member "capability")⟩

/-! ## §2 Expressions -/

/-- The kind of an expression as a name and a body, with the body no larger than the document. -/
def kindOf? (document : Value) :
    Option (String × { body : Value // sizeOf body < sizeOf document }) :=
  match tagged : document.member "kind" with
  | .object [.mk name body] =>
    some (name, ⟨body, Nat.lt_of_lt_of_le (Value.sizeOf_body_lt tagged)
      (Value.sizeOf_member_le document "kind")⟩)
  | _ => none

theorem sizeOf_part_lt {document body : Value} (smaller : sizeOf body < sizeOf document)
    (key : String) : sizeOf (body.member key) < sizeOf document :=
  Nat.lt_of_le_of_lt (Value.sizeOf_member_le body key) smaller

theorem sizeOf_parts_lt {document body : Value} (smaller : sizeOf body < sizeOf document)
    (key : String) : sizeOf (body.member key).items < sizeOf document :=
  Nat.lt_of_le_of_lt (Value.sizeOf_items_le _) (sizeOf_part_lt smaller key)

mutual

/-- Read an expression. -/
def Expr.ofJson? (document : Value) : Option Expr := do
  let info ← Info.ofJson? document
  if (document.member "kind").text? = some "This" then
    return .self info
  match kindOf? document with
  | none => none
  | some ("Literal", ⟨body, _⟩) => return .literal info (← Literal.ofJson? body)
  | some ("Variable", ⟨body, _⟩) => return .var info (← Id.ofJson? (body.member "symbol"))
  | some ("Temp", ⟨body, _⟩) => return .temp info (← Id.ofJson? (body.member "temp"))
  | some ("Field", ⟨body, _⟩) =>
    return .field info (← Expr.ofJson? (body.member "object")) (← Id.ofJson? (body.member "field"))
  | some ("Index", ⟨body, _⟩) =>
    return .element info (← Expr.ofJson? (body.member "object"))
      (← Expr.ofJson? (body.member "index"))
  | some ("Call", ⟨body, _⟩) =>
    let method ← Id.ofJson? (body.member "method")
    let arguments ← ofJsonAll? (body.member "args").items
    let byRef ← (body.member "returns_by_ref").flag?
    match body.member "receiver" with
    | .null => return .staticCall info method arguments byRef
    | _ => return .call info (← Expr.ofJson? (body.member "receiver")) method arguments byRef
  | some ("New", ⟨body, _⟩) =>
    return .construct info (← Id.ofJson? (body.member "constructor"))
      (← ofJsonAll? (body.member "args").items)
  | some ("Binary", ⟨body, _⟩) =>
    return .binary info (← BinaryOp.ofJson? (body.member "op"))
      (← Expr.ofJson? (body.member "lhs")) (← Expr.ofJson? (body.member "rhs"))
  | some ("Array", ⟨body, _⟩) => return .array info (← ofJsonAll? (body.member "elements").items)
  | some ("Store", ⟨body, _⟩) =>
    return .store info (← Id.ofJson? (body.member "temp")) (← Expr.ofJson? (body.member "value"))
  | some ("Sequence", ⟨body, _⟩) =>
    return .sequence info (← (body.member "temps").list? Temp.ofJson?)
      (← ofJsonAll? (body.member "side_effects").items) (← Expr.ofJson? (body.member "result"))
  | some ("DynamicGetMember", ⟨body, _⟩) =>
    return .dynamicMember info (← Expr.ofJson? (body.member "receiver"))
      (← (body.member "name").text?) (← (body.member "result_indexed").flag?)
  | some ("DynamicGetIndex", ⟨body, _⟩) =>
    return .dynamicElement info (← Expr.ofJson? (body.member "receiver"))
      (← ofJsonAll? (body.member "args").items)
      (← (body.member "arg_names").list? (·.optional? Value.text?))
      (← (body.member "ref_kinds").list? RefKind.ofJson?)
  | some _ => none
termination_by sizeOf document
decreasing_by
  all_goals
    first
    | exact sizeOf_part_lt (by assumption) _
    | exact sizeOf_parts_lt (by assumption) _

/-- Read expressions one by one. -/
def ofJsonAll? : List Value → Option (List Expr)
  | [] => some []
  | document :: documents => do
    return (← Expr.ofJson? document) :: (← ofJsonAll? documents)
termination_by documents => sizeOf documents

end

/-! ## §3 Lowered accesses -/

/-- Read an assignable element. -/
def Place.ofJson? (document : Value) : Option Place := do
  match ← document.tagged? with
  | ("Indexer", body) =>
    return .indexer (← Expr.ofJson? (body.member "receiver"))
      (← Id.ofJson? (body.member "indexer")) (← (body.member "getter").optional? Id.ofJson?)
      (← (body.member "setter").optional? Id.ofJson?)
      (← (body.member "args").list? Expr.ofJson?) (← CallShape.ofJson? body "arg_names")
  | ("DynamicIndex", body) =>
    return .dynamic (← Expr.ofJson? (body.member "receiver"))
      (← (body.member "args").list? Expr.ofJson?)
      (← (body.member "arg_names").list? (·.optional? Value.text?))
      (← (body.member "ref_kinds").list? RefKind.ofJson?)
  | ("Element", body) =>
    return .element (← Expr.ofJson? (body.member "object"))
      (← Expr.ofJson? (body.member "index"))
  | _ => none

/-- Read a target. -/
def Target.ofJson? (document : Value) : Option Target := do
  return ⟨← (document.member "prefix_temps").list? Temp.ofJson?,
    ← (document.member "prefix_stores").list? Expr.ofJson?,
    ← Place.ofJson? (document.member "kind"), ← Info.ofJson? document⟩

/-- Read a lowered access. -/
def Lowered.ofJson? (document : Value) : Option Lowered := do
  match ← document.tagged? with
  | ("Value", body) => (Expr.ofJson? body).map .value
  | ("Target", body) => (Target.ofJson? body).map .target
  | _ => none

@[simp] theorem BinaryOp.ofJson?_toJson (op : BinaryOp) :
    BinaryOp.ofJson? op.toJson = some op := by
  cases op <;> rfl

@[simp] theorem Holding.ofJson?_toJson (holding : Holding) :
    Holding.ofJson? holding.toJson = some holding := by
  cases holding <;> rfl

end Code

end Subscript
