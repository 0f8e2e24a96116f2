import Subscript.Temporaries

/-!
# Parts of code

`Expr.parts` lists an expression together with every expression inside it. What code has to do
with temporaries is read off its parts: which it reads, stores or declares, which it stores, and
which it declares.

## Architecture

- §1 `Expr.parts`
- §2 `Expr.gather`, which collects what every part contributes
- §3 temporaries that an expression declares, stores, reads and mentions
- §4 `Expr.operands`, and induction over expressions in four cases
-/

namespace Subscript.Code

/-! ## §1 Parts -/

mutual

/-- An expression and every expression inside it, the outermost first. -/
def Expr.parts : Expr → List Expr
  | .literal info value => [.literal info value]
  | .var info symbol => [.var info symbol]
  | .temp info temp => [.temp info temp]
  | .self info => [.self info]
  | .field info object field => .field info object field :: object.parts
  | .element info object index => .element info object index :: (object.parts ++ index.parts)
  | .call info receiver method arguments byRef =>
    .call info receiver method arguments byRef :: (receiver.parts ++ partsAll arguments)
  | .staticCall info method arguments byRef =>
    .staticCall info method arguments byRef :: partsAll arguments
  | .construct info constructor arguments =>
    .construct info constructor arguments :: partsAll arguments
  | .binary info op left right => .binary info op left right :: (left.parts ++ right.parts)
  | .array info elements => .array info elements :: partsAll elements
  | .store info temp value => .store info temp value :: value.parts
  | .sequence info temps stores result =>
    .sequence info temps stores result :: (partsAll stores ++ result.parts)
  | .dynamicMember info receiver name indexable =>
    .dynamicMember info receiver name indexable :: receiver.parts
  | .dynamicElement info receiver arguments names refKinds =>
    .dynamicElement info receiver arguments names refKinds ::
      (receiver.parts ++ partsAll arguments)
termination_by structural expr => expr

/-- The parts of expressions, from left to right. -/
def partsAll : List Expr → List Expr
  | [] => []
  | expr :: exprs => expr.parts ++ partsAll exprs
termination_by structural exprs => exprs

end

/-- The twin of `Expr.parts` on lists, which the structural recursion asks for, does nothing but
go through the list. -/
theorem partsAll_eq_flatMap (exprs : List Expr) : partsAll exprs = exprs.flatMap Expr.parts := by
  induction exprs with
  | nil => rfl
  | cons expr exprs ih => rw [partsAll, ih, List.flatMap_cons]

/-! ## §2 Gathering from the parts -/

namespace Expr

/-- What each part of an expression contributes, the outermost first. -/
def gather {α : Type} (own : Expr → List α) (expr : Expr) : List α := expr.parts.flatMap own

section Gather

attribute [local simp] parts partsAll

variable {α : Type} (own : Expr → List α) (info : Info)

/-- What is gathered from the parts of expressions is gathered from each of them. -/
theorem flatMap_partsAll (exprs : List Expr) :
    (partsAll exprs).flatMap own = exprs.flatMap (gather own) := by
  rw [partsAll_eq_flatMap, List.flatMap_assoc]
  rfl

@[simp] theorem gather_literal (value : Literal) :
    gather own (.literal info value) = own (.literal info value) := by
  simp [gather]

@[simp] theorem gather_var (symbol : SymbolId) :
    gather own (.var info symbol) = own (.var info symbol) := by
  simp [gather]

@[simp] theorem gather_temp (id : TempId) :
    gather own (.temp info id) = own (.temp info id) := by
  simp [gather]

@[simp] theorem gather_self : gather own (.self info) = own (.self info) := by
  simp [gather]

@[simp] theorem gather_field (object : Expr) (member : SymbolId) :
    gather own (.field info object member) =
      own (.field info object member) ++ object.gather own := by
  simp [gather]

/-- An element gathers from the object before the index, the order in which both are evaluated. -/
@[simp] theorem gather_element (object index : Expr) :
    gather own (.element info object index) =
      own (.element info object index) ++ (object.gather own ++ index.gather own) := by
  simp [gather]

/-- A call gathers from its receiver before its arguments. -/
@[simp] theorem gather_call (receiver : Expr) (method : SymbolId) (arguments : List Expr)
    (byRef : Bool) :
    gather own (.call info receiver method arguments byRef) =
      own (.call info receiver method arguments byRef) ++
        (receiver.gather own ++ arguments.flatMap (gather own)) := by
  simp [gather, ← flatMap_partsAll]

@[simp] theorem gather_staticCall (method : SymbolId) (arguments : List Expr) (byRef : Bool) :
    gather own (.staticCall info method arguments byRef) =
      own (.staticCall info method arguments byRef) ++ arguments.flatMap (gather own) := by
  simp [gather, ← flatMap_partsAll]

@[simp] theorem gather_construct (constructor : SymbolId) (arguments : List Expr) :
    gather own (.construct info constructor arguments) =
      own (.construct info constructor arguments) ++ arguments.flatMap (gather own) := by
  simp [gather, ← flatMap_partsAll]

/-- A binary operation gathers from its left operand before its right one. -/
@[simp] theorem gather_binary (op : BinaryOp) (left right : Expr) :
    gather own (.binary info op left right) =
      own (.binary info op left right) ++ (left.gather own ++ right.gather own) := by
  simp [gather]

@[simp] theorem gather_array (elements : List Expr) :
    gather own (.array info elements) =
      own (.array info elements) ++ elements.flatMap (gather own) := by
  simp [gather, ← flatMap_partsAll]

/-- A store contributes itself before the value that it waits for. -/
@[simp] theorem gather_store (id : TempId) (value : Expr) :
    gather own (.store info id value) = own (.store info id value) ++ value.gather own := by
  simp [gather]

/-- A sequence gathers from its stores in their order, and from its result at the end. -/
@[simp] theorem gather_sequence (temps : List Temp) (stores : List Expr) (result : Expr) :
    gather own (.sequence info temps stores result) =
      own (.sequence info temps stores result) ++
        (stores.flatMap (gather own) ++ result.gather own) := by
  simp [gather, ← flatMap_partsAll]

@[simp] theorem gather_dynamicMember (receiver : Expr) (name : String) (indexable : Bool) :
    gather own (.dynamicMember info receiver name indexable) =
      own (.dynamicMember info receiver name indexable) ++ receiver.gather own := by
  simp [gather]

/-- A dynamic access gathers from its receiver before its arguments. -/
@[simp] theorem gather_dynamicElement (receiver : Expr) (arguments : List Expr)
    (names : List (Option String)) (refKinds : List RefKind) :
    gather own (.dynamicElement info receiver arguments names refKinds) =
      own (.dynamicElement info receiver arguments names refKinds) ++
        (receiver.gather own ++ arguments.flatMap (gather own)) := by
  simp [gather, ← flatMap_partsAll]

end Gather

/-! ## §3 Temporaries of an expression -/

/-- The temporaries that an expression itself declares. -/
@[simp] def ownDeclared : Expr → List TempId
  | .sequence _ temps _ _ => temps.map (·.id)
  | _ => []

/-- The temporaries that an expression itself stores. -/
@[simp] def ownStored : Expr → List TempId
  | .store _ id _ => [id]
  | _ => []

/-- The temporaries that an expression itself reads. -/
@[simp] def ownReads : Expr → List TempId
  | .temp _ id => [id]
  | _ => []

/-- The temporaries that an expression itself declares, with all there is to say about them. -/
@[simp] def ownTemps : Expr → List Temp
  | .sequence _ temps _ _ => temps
  | _ => []

/-- The temporaries that an expression itself reads, stores or declares. -/
@[simp] def ownMentioned : Expr → List TempId
  | .temp _ id => [id]
  | .store _ id _ => [id]
  | .sequence _ temps _ _ => temps.map (·.id)
  | _ => []

/-- The temporaries declared anywhere in an expression, each as often as it is. -/
abbrev declared (expr : Expr) : List TempId := expr.gather ownDeclared

/-- The temporaries stored anywhere in an expression. -/
abbrev stored (expr : Expr) : List TempId := expr.gather ownStored

/-- The temporaries read anywhere in an expression, each as often as it is. -/
abbrev reads (expr : Expr) : List TempId := expr.gather ownReads

/-- The temporaries declared anywhere in an expression, with all there is to say about them. -/
abbrev temps (expr : Expr) : List Temp := expr.gather ownTemps

/-- The temporaries read, stored or declared anywhere in an expression. -/
abbrev mentioned (expr : Expr) : List TempId := expr.gather ownMentioned

/-- The identities of the declared temporaries are those of `temps`, one by one and as often. -/
theorem declared_eq_map_temps (expr : Expr) : expr.declared = expr.temps.map (·.id) := by
  have hown : ownDeclared = fun part => (ownTemps part).map (·.id) := by
    funext part
    cases part <;> rfl
  rw [declared, temps, gather, gather, List.map_flatMap, hown]

/-- Whatever is stored anywhere in an expression is mentioned in it. -/
theorem mem_mentioned_of_mem_stored {expr : Expr} {id : TempId} (h : id ∈ expr.stored) :
    id ∈ expr.mentioned := by
  obtain ⟨part, hpart, hid⟩ := List.mem_flatMap.mp h
  refine List.mem_flatMap.mpr ⟨part, hpart, ?_⟩
  cases part <;> simp_all

/-! ## §4 Plain expressions -/

/-- An expression that has nothing to do with temporaries itself: it computes something from the
values of its operands. -/
def isPlain : Expr → Bool
  | .temp _ _ | .store _ _ _ | .sequence _ _ _ _ => false
  | _ => true

/-- The operands of a plain expression, in the order in which they are evaluated. -/
def operands : Expr → List Expr
  | .field _ object _ => [object]
  | .element _ object index => [object, index]
  | .call _ receiver _ arguments _ => receiver :: arguments
  | .staticCall _ _ arguments _ => arguments
  | .construct _ _ arguments => arguments
  | .binary _ _ left right => [left, right]
  | .array _ elements => elements
  | .dynamicMember _ receiver _ _ => [receiver]
  | .dynamicElement _ receiver arguments _ _ => receiver :: arguments
  | _ => []

/-- The parts of a plain expression: itself, and the parts of its operands. The facts below follow
from this one, so the many shapes of a plain expression are gone through only here. -/
theorem parts_of_isPlain {expr : Expr} (h : expr.isPlain = true) :
    expr.parts = expr :: partsAll expr.operands := by
  cases expr with
  | temp | store | sequence => cases h
  | _ => simp [parts, partsAll, operands]

/-- A plain expression gathers what it contributes itself and what its operands do. -/
theorem gather_of_isPlain {α : Type} (own : Expr → List α) {expr : Expr}
    (h : expr.isPlain = true) :
    expr.gather own = own expr ++ expr.operands.flatMap (gather own) := by
  rw [gather, parts_of_isPlain h, List.flatMap_cons, flatMap_partsAll]

/-- A plain expression reads only what its operands read. -/
theorem reads_of_isPlain {expr : Expr} (h : expr.isPlain = true) :
    expr.reads = expr.operands.flatMap reads := by
  rw [reads, gather_of_isPlain _ h]
  cases expr with
  | temp => cases h
  | _ => rfl

/-- A plain expression that computes something: it neither reads a variable nor is the object whose
method runs. -/
def isComputed : Expr → Bool
  | .var _ _ | .self _ => false
  | expr => expr.isPlain

/-- What is computed is plain: of the plain expressions, only variables and the object itself are
set apart. -/
theorem isPlain_of_isComputed {expr : Expr} (h : expr.isComputed = true) :
    expr.isPlain = true := by
  cases expr with
  | var | self => cases h
  | _ => exact h

/-- Operands are smaller than the expression, so an induction by size may take them. -/
private theorem sizeOf_operand_lt {expr operand : Expr} (h : operand ∈ expr.operands) :
    sizeOf operand < sizeOf expr := by
  cases expr with
  | call info receiver method arguments byRef | dynamicElement info receiver arguments =>
    simp only [call.sizeOf_spec, dynamicElement.sizeOf_spec]
    rcases List.mem_cons.mp h with rfl | h
    · omega
    · have hlt := List.sizeOf_lt_of_mem h
      omega
  | staticCall info method arguments | construct info method arguments | array info arguments =>
    have hlt : sizeOf operand < sizeOf arguments := List.sizeOf_lt_of_mem h
    simp only [staticCall.sizeOf_spec, construct.sizeOf_spec, array.sizeOf_spec]
    omega
  | element | binary | field | dynamicMember =>
    simp only [operands, List.mem_cons, List.not_mem_nil, or_false] at h
    simp only [element.sizeOf_spec, binary.sizeOf_spec, field.sizeOf_spec,
      dynamicMember.sizeOf_spec]
    rcases h with rfl | rfl
    all_goals omega
  | _ => cases h

/-- Induction over expressions, with one case for all plain ones. An induction over the
constructors would repeat one argument for each shape of a plain expression; a property that
treats them alike needs only the four cases of this principle. -/
@[elab_as_elim]
theorem inductionOnOperands {motive : Expr → Prop}
    (plain : ∀ expr : Expr, expr.isPlain = true → (∀ operand ∈ expr.operands, motive operand) →
      motive expr)
    (temp : ∀ info id, motive (.temp info id))
    (store : ∀ info id value, motive value → motive (.store info id value))
    (sequence : ∀ info temps stores result, (∀ store ∈ stores, motive store) → motive result →
      motive (.sequence info temps stores result)) (expr : Expr) : motive expr := by
  induction hsize : sizeOf expr using Nat.strongRecOn generalizing expr with
  -- by size: the operands of a plain expression are not the arguments of one constructor
  | ind size ih =>
    subst hsize
    have smaller : ∀ other : Expr, sizeOf other < sizeOf expr → motive other :=
      fun other hlt => ih (sizeOf other) hlt other rfl
    cases expr with
    | temp info id => exact temp info id
    | store info id value =>
      apply store info id value
      apply smaller value
      simp only [Expr.store.sizeOf_spec]
      omega
    | sequence info temps stores result =>
      have hsize : 1 + sizeOf info + sizeOf temps + sizeOf stores + sizeOf result =
          sizeOf (Expr.sequence info temps stores result) :=
        (Expr.sequence.sizeOf_spec info temps stores result).symm
      apply sequence info temps stores result
      · intro other hother
        have hlt := List.sizeOf_lt_of_mem hother
        apply smaller other
        omega
      · apply smaller result
        omega
    | _ => exact plain _ rfl fun operand hoperand => smaller operand (sizeOf_operand_lt hoperand)

end Expr

end Subscript.Code
