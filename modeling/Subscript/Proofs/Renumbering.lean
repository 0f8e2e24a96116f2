import Subscript.Proofs.Validation
import Subscript.Temporaries

/-!
# Renumbering temporaries

Code that was lowered later in a method body has later temporaries, and after a change of the stem
their names look different. A `Renumbering` moves all temporaries by the same number and names them
anew; everything else about the code stays. Numbers wrap around, so a renumbering takes different
temporaries to different ones whatever the numbers are. That is all the scope check can see: it
finds the same faults, about the renumbered temporaries.

## Architecture

- §1 `Renumbering`, and what it makes of code
- §2 classes of expressions
- §3 faults and audits
- §4 the scope check
-/

namespace Subscript.Code

/-! ## §1 Renumbered code -/

/-- Another count of temporaries, and another stem of their names. -/
structure Renumbering where
  /-- by how much the numbers grow; they wrap around -/
  shift : UInt32
  /-- what the new names start with -/
  stem : String

/-- The identifier under the new count. -/
def Renumbering.id (again : Renumbering) (id : TempId) : TempId := ⟨id.raw + again.shift⟩

/-- A temporary has its new number and is named by it. -/
def Temp.renumber (again : Renumbering) (temp : Temp) : Temp :=
  { temp with
    id := again.id temp.id
    name := again.stem ++ toString (again.id temp.id).raw.toNat }

mutual

/-- An expression with every temporary in it renumbered, where it is declared, stored or read. -/
def Expr.renumber (again : Renumbering) : Expr → Expr
  | .literal info value => .literal info value
  | .var info symbol => .var info symbol
  | .temp info temp => .temp info (again.id temp)
  | .self info => .self info
  | .field info object field => .field info (object.renumber again) field
  | .element info object index => .element info (object.renumber again) (index.renumber again)
  | .call info receiver method arguments byRef =>
    .call info (receiver.renumber again) method (renumberAll again arguments) byRef
  | .staticCall info method arguments byRef =>
    .staticCall info method (renumberAll again arguments) byRef
  | .construct info constructor arguments =>
    .construct info constructor (renumberAll again arguments)
  | .binary info op left right =>
    .binary info op (left.renumber again) (right.renumber again)
  | .array info elements => .array info (renumberAll again elements)
  | .store info temp value => .store info (again.id temp) (value.renumber again)
  | .sequence info temps stores result =>
    .sequence info (temps.map (Temp.renumber again)) (renumberAll again stores)
      (result.renumber again)
  | .dynamicMember info receiver name indexable =>
    .dynamicMember info (receiver.renumber again) name indexable
  | .dynamicElement info receiver arguments names refKinds =>
    .dynamicElement info (receiver.renumber again) (renumberAll again arguments) names refKinds
termination_by structural expr => expr

/-- Expressions with every temporary in them renumbered. -/
def renumberAll (again : Renumbering) : List Expr → List Expr
  | [] => []
  | expr :: exprs => expr.renumber again :: renumberAll again exprs
termination_by structural exprs => exprs

end

/-- A binding with its temporaries renumbered. -/
def Binding.renumber (again : Renumbering) (binding : Binding) : Binding :=
  ⟨binding.temp.renumber again, binding.store.renumber again⟩

/-- A place with the temporaries that it reads renumbered. -/
def Place.renumber (again : Renumbering) : Place → Place
  | .indexer receiver symbol getter? setter? arguments shape =>
    .indexer (receiver.renumber again) symbol getter? setter?
      (arguments.map (Expr.renumber again)) shape
  | .dynamic receiver arguments names refKinds =>
    .dynamic (receiver.renumber again) (arguments.map (Expr.renumber again)) names refKinds
  | .element object index => .element (object.renumber again) (index.renumber again)

/-- A target with its temporaries renumbered. -/
def Target.renumber (again : Renumbering) (target : Target) : Target where
  temps := target.temps.map (Temp.renumber again)
  stores := target.stores.map (Expr.renumber again)
  place := target.place.renumber again
  info := target.info

/-- A lowered access with its temporaries renumbered. -/
def Lowered.renumber (again : Renumbering) : Lowered → Lowered
  | .value expr => .value (expr.renumber again)
  | .target assignable => .target (assignable.renumber again)

/-- The allocator that goes on with the new count and the new stem. -/
def Allocator.renumber (again : Renumbering) (allocator : Allocator) : Allocator :=
  ⟨again.id allocator.next, again.stem⟩

section Code

variable (again : Renumbering)

/-- A renumbering never takes two temporaries to one: adding a number to words is invertible, even
where the sum wraps around. -/
theorem Renumbering.id_inj {id id' : TempId} : again.id id = again.id id' ↔ id = id' := by
  constructor
  · intro h
    have hraw : id.raw + again.shift = id'.raw + again.shift := congrArg Id.raw h
    have hsame : id.raw = id'.raw := by
      rw [← UInt32.add_sub_cancel id.raw again.shift, hraw, UInt32.add_sub_cancel]
    cases id
    cases id'
    exact congrArg Id.mk hsame
  · exact congrArg again.id

/-- Whether a temporary is among some others does not depend on the numbering. -/
private theorem Renumbering.mem_map_id {id : TempId} {ids : List TempId} :
    again.id id ∈ ids.map again.id ↔ id ∈ ids :=
  List.mem_map_of_injective fun _ _ => again.id_inj.mp

/-- The twin on lists goes through the list. -/
theorem renumberAll_eq_map (exprs : List Expr) :
    renumberAll again exprs = exprs.map (Expr.renumber again) := by
  induction exprs with
  | nil => rfl
  | cons expr exprs ih => rw [renumberAll, ih, List.map_cons]

/-- Renumbering touches neither the type nor the place of an expression. -/
@[simp] theorem Expr.info_renumber (expr : Expr) : (expr.renumber again).info = expr.info := by
  cases expr <;> rfl

@[simp] private theorem Expr.type_renumber (expr : Expr) : (expr.renumber again).type = expr.type :=
  congrArg Info.type (expr.info_renumber again)

/-- Binding the renumbered value from the renumbered allocator makes the renumbered binding, and
leaves the renumbered allocator. This is the one step that hands out a temporary. -/
theorem Allocator.bind_renumber (allocator : Allocator) (value : Expr) (holding : Holding) :
    (allocator.renumber again).bind (value.renumber again) holding =
      ((allocator.bind value holding).1.renumber again,
        (allocator.bind value holding).2.renumber again) := by
  have hnext : (again.id allocator.next).next = again.id allocator.next.next := by
    simp [Renumbering.id, Id.next, UInt32.add_assoc, UInt32.add_comm]
  simp [Allocator.bind, Allocator.fresh, Allocator.renumber, Binding.renumber, Temp.renumber,
    Expr.renumber, Expr.location, hnext]

/-- A read of the renumbered temporary is the renumbered read. -/
@[simp] theorem Binding.reference_renumber (binding : Binding) :
    (binding.renumber again).reference = binding.reference.renumber again := by
  simp [Binding.reference, Binding.renumber, Temp.reference, Temp.renumber, Expr.renumber,
    Expr.location]

/-! ## §2 Classes of expressions -/

/-- Whether an expression may be evaluated again does not depend on the numbers in it. -/
@[simp] theorem Expr.isStable_renumber (expr : Expr) :
    (expr.renumber again).isStable = expr.isStable := by
  cases expr <;> rfl

/-- Whether an expression has no effect does not depend on the numbers in it. -/
@[simp] theorem Expr.isSideEffectFree_renumber (expr : Expr) :
    (expr.renumber again).isSideEffectFree = expr.isSideEffectFree := by
  induction expr using Expr.inductionOnOperands with
  | plain expr hplain ih =>
    cases expr with
    | field info object field => exact ih object (List.mem_singleton_self object)
    | _ => rfl
  | _ => rfl

/-- Whether an expression denotes storage does not depend on the numbers in it. -/
@[simp] theorem Expr.isAddressable_renumber (expr : Expr) :
    (expr.renumber again).isAddressable = expr.isAddressable := by
  induction expr using Expr.inductionOnOperands with
  | plain expr hplain ih =>
    cases expr with
    | field info object field => exact ih object (List.mem_singleton_self object)
    | sequence => cases hplain
    | _ => rfl
  | sequence info temps stores result _ ih => exact ih
  | _ => rfl

/-! ## §3 Faults -/

/-- The same fault of a renumbered temporary. -/
def Fault.renumber (fault : Fault) : Fault := { fault with temp? := fault.temp?.map again.id }

/-- What a check has met, in renumbered code. -/
def Audit.renumber (audit : Audit) : Audit where
  declared := audit.declared.map again.id
  faults := audit.faults.map (Fault.renumber again)

/-- From a renumbered audit, the second step gives what the first one gives, renumbered. -/
def Matches {α β : Type} (renumbered : α → β) (step : StateM Audit α) (step' : StateM Audit β) :
    Prop :=
  ∀ audit, step'.run (audit.renumber again) =
    (renumbered (step.run audit).1, (step.run audit).2.renumber again)

section Matches

variable {again} {α β γ δ : Type}

/-- A step that only gives a value matches the step that gives the renumbered one. -/
theorem Matches.pure {renumbered : α → β} (value : α) :
    Matches again renumbered (pure value) (pure (renumbered value)) := fun _ => rfl

/-- Steps in a row match if they do one by one. -/
theorem Matches.bind {renumbered : α → β} {renumbered' : γ → δ} {first : StateM Audit α}
    {first' : StateM Audit β} {next : α → StateM Audit γ} {next' : β → StateM Audit δ}
    (h : Matches again renumbered first first')
    (h' : ∀ value, Matches again renumbered' (next value) (next' (renumbered value))) :
    Matches again renumbered' (first >>= next) (first' >>= next') := by
  intro audit
  have hrun : (first' >>= next').run (audit.renumber again) =
      (next' (first'.run (audit.renumber again)).1).run
        (first'.run (audit.renumber again)).2 := rfl
  rw [hrun, h audit]
  exact h' _ _

/-- A fault is noted about the renumbered temporary. -/
theorem Matches.note (kind : FaultKind) (temp? : Option TempId) :
    Matches again id (Audit.note kind temp?) (Audit.note kind (temp?.map again.id)) := by
  intro audit
  have hfaults : (audit.faults ++ [Fault.mk kind temp?]).map (Fault.renumber again) =
      audit.faults.map (Fault.renumber again) ++ [⟨kind, temp?.map again.id⟩] := by
    simp [Fault.renumber]
  exact congrArg (fun faults => ((), { audit.renumber again with faults := faults }))
    hfaults.symm

/-- A choice matches if it falls the same way in renumbered code, and if both branches do. -/
theorem Matches.ite {condition condition' : Prop} [Decidable condition]
    [Decidable condition'] (hsame : condition' ↔ condition) {renumbered : α → β}
    {yes no : StateM Audit α} {yes' no' : StateM Audit β} (hyes : Matches again renumbered yes yes')
    (hno : Matches again renumbered no no') :
    Matches again renumbered (if condition then yes else no)
      (if condition' then yes' else no') := by
  by_cases h : condition
  · rwa [if_pos h, if_pos (hsame.mpr h)]
  · rwa [if_neg h, if_neg (mt hsame.mp h)]

/-- A declaration is noted, and found to be a second one, in renumbered code as before. This is
where the identities have to stay distinct. -/
private theorem Matches.declare (temp : TempId) :
    Matches again id (Audit.declare temp) (Audit.declare (again.id temp)) := by
  intro audit
  have hrun : ∀ (temp : TempId) (audit : Audit), (Audit.declare temp).run audit =
      if temp ∈ audit.declared then (Audit.note .multipleDefinitions (some temp)).run audit
      else ((), { audit with declared := temp :: audit.declared }) := by
    intro temp audit
    show (if temp ∈ audit.declared then _ else _ : StateM Audit Unit).run audit = _
    split <;> rfl
  -- a renumbering is injective, so nothing is declared again that was not
  have hsame : again.id temp ∈ (audit.renumber again).declared ↔ temp ∈ audit.declared :=
    again.mem_map_id
  rw [hrun, hrun]
  by_cases hdeclared : temp ∈ audit.declared
  · rw [if_pos hdeclared, if_pos (hsame.mpr hdeclared)]
    exact Matches.note .multipleDefinitions (some temp) audit
  · rw [if_neg hdeclared, if_neg (mt hsame.mp hdeclared)]
    rfl

/-- Temporaries without stores are noted one by one. -/
private theorem Matches.noteUnstored (temps : List Temp) :
    Matches again id (Audit.noteUnstored temps)
      (Audit.noteUnstored (temps.map (Temp.renumber again))) := by
  induction temps with
  | nil => exact .pure ()
  | cons temp temps ih => exact (Matches.note _ _).bind fun _ => ih

/-- The comparison of a store with the temporary at its position. -/
private theorem Matches.ownStore (temp : Temp) (stored : TempId) (value : Expr) :
    Matches again id
      (if stored = temp.id then
        if temp.holding = .storage && !value.isAddressable then
          Audit.note .invalidRefBinding (some temp.id)
        else Pure.pure ()
      else
        Audit.note .storeToUndeclared (some stored) >>= fun _ =>
        Audit.note .unstoredTemp (some temp.id))
      (if again.id stored = (temp.renumber again).id then
        if (temp.renumber again).holding = .storage && !(value.renumber again).isAddressable then
          Audit.note .invalidRefBinding (some (temp.renumber again).id)
        else Pure.pure ()
      else
        Audit.note .storeToUndeclared (some (again.id stored)) >>= fun _ =>
        Audit.note .unstoredTemp (some (temp.renumber again).id)) := by
  apply Matches.ite again.id_inj
  -- what the temporary holds and whether its initializer has storage is not renumbered
  · exact .ite (by simp [Temp.renumber]) (.note .invalidRefBinding (some temp.id)) (.pure ())
  · exact (Matches.note .storeToUndeclared (some stored)).bind fun _ =>
      .note .unstoredTemp (some temp.id)

end Matches

/-! ## §4 The scope check -/

mutual

/-- Renumbered code is checked in step with the code itself. Every comparison that the check makes
is one of identifiers, which the renumbering keeps apart. -/
theorem Expr.check_renumber (scope : List TempId) (expr : Expr) :
    Matches again id (expr.check scope) ((expr.renumber again).check (scope.map again.id)) := by
  cases expr with
  | literal | var | self => exact .pure ()
  | temp info temp =>
    exact .ite again.mem_map_id (.pure ()) (.note .useBeforeDefine (some temp))
  | field info object field => exact object.check_renumber scope
  | element info object index =>
    exact (object.check_renumber scope).bind fun _ => index.check_renumber scope
  | call info receiver method arguments byRef =>
    exact (receiver.check_renumber scope).bind fun _ => checkAll_renumber scope arguments
  | staticCall info method arguments byRef => exact checkAll_renumber scope arguments
  | construct info constructor arguments => exact checkAll_renumber scope arguments
  | binary info op left right =>
    exact (left.check_renumber scope).bind fun _ => right.check_renumber scope
  | array info elements => exact checkAll_renumber scope elements
  | store info temp value =>
    exact (value.check_renumber scope).bind fun _ => .note .storeToUndeclared (some temp)
  | sequence info temps stores result =>
    rw [Expr.renumber, check_sequence, check_sequence, renumberAll_eq_map, List.length_map,
      ← List.map_drop]
    -- whether a sequence is empty has nothing to do with numbers
    have hempty : Matches again id
        (if temps.isEmpty && stores.isEmpty then Audit.note .emptySequence none else pure ())
        (if (temps.map (Temp.renumber again)).isEmpty &&
            (stores.map (Expr.renumber again)).isEmpty then Audit.note .emptySequence none
          else pure ()) :=
      .ite (by simp) (.note .emptySequence none) (.pure ())
    apply hempty.bind
    intro _
    apply (Matches.noteUnstored _).bind
    intro _
    -- the scope behind the stores is the renumbered one
    have hbindings := checkBindings_renumber scope temps stores
    rw [renumberAll_eq_map] at hbindings
    apply hbindings.bind
    intro inner
    exact result.check_renumber inner
  | dynamicMember info receiver name indexable => exact receiver.check_renumber scope
  | dynamicElement info receiver arguments names refKinds =>
    exact (receiver.check_renumber scope).bind fun _ => checkAll_renumber scope arguments
termination_by structural expr

/-- Renumbered expressions are checked in step, from left to right. -/
theorem checkAll_renumber (scope : List TempId) (exprs : List Expr) :
    Matches again id (checkAll scope exprs)
      (checkAll (scope.map again.id) (renumberAll again exprs)) := by
  cases exprs with
  | nil => exact .pure ()
  | cons expr exprs =>
    exact (expr.check_renumber scope).bind fun _ => checkAll_renumber scope exprs
termination_by structural exprs

/-- Renumbered bindings are checked in step, and leave the renumbered scope behind them. The
induction is on the stores, with the cases of the check: declarations may run out, and stores may
be no stores. -/
theorem checkBindings_renumber (scope : List TempId) (temps : List Temp) (stores : List Expr) :
    Matches again (List.map again.id) (checkBindings scope temps stores)
      (checkBindings (scope.map again.id) (temps.map (Temp.renumber again))
        (renumberAll again stores)) := by
  cases stores with
  | nil => cases temps <;> exact .pure scope
  | cons store stores =>
    have hrest := fun scope temps => checkBindings_renumber scope temps stores
    cases temps with
    | nil =>
      -- a store without a temporary is one of two faults
      cases store with
      | store info stored value =>
        exact (value.check_renumber scope).bind fun _ =>
          (Matches.note .storeToUndeclared (some stored)).bind fun _ => hrest scope []
      | _ =>
        exact (Expr.check_renumber scope _).bind fun _ =>
          (Matches.note .unstoredTemp none).bind fun _ => hrest scope []
    | cons temp temps =>
      cases store with
      | store info stored value =>
        rw [List.map_cons, renumberAll, Expr.renumber, checkBindings_store, checkBindings_store]
        apply (value.check_renumber scope).bind
        intro _
        exact (Matches.ownStore temp stored value).bind fun _ =>
          (Matches.declare temp.id).bind fun _ => hrest (temp.id :: scope) temps
      | _ =>
        exact (Expr.check_renumber scope _).bind fun _ =>
          (Matches.note .unstoredTemp (some temp.id)).bind fun _ =>
            (Matches.declare temp.id).bind fun _ => hrest (temp.id :: scope) temps
termination_by structural stores

end

/-- A renumbered place is checked in step, in the renumbered scope. -/
theorem Place.check_renumber (scope : List TempId) (place : Place) :
    Matches again id (place.check scope) ((place.renumber again).check (scope.map again.id)) := by
  cases place with
  | indexer receiver symbol getter? setter? arguments shape =>
    have harguments := checkAll_renumber again scope arguments
    rw [renumberAll_eq_map] at harguments
    exact (receiver.check_renumber again scope).bind fun _ => harguments
  | dynamic receiver arguments names refKinds =>
    have harguments := checkAll_renumber again scope arguments
    rw [renumberAll_eq_map] at harguments
    exact (receiver.check_renumber again scope).bind fun _ => harguments
  | element object index =>
    exact (object.check_renumber again scope).bind fun _ => index.check_renumber again scope

/-- The check finds the same faults in a renumbered access, about the renumbered temporaries. The
two checks run in step from empty scopes, and their reports are compared at the end. -/
theorem Lowered.faults_renumber (lowered : Lowered) :
    (lowered.renumber again).faults = lowered.faults.map (Fault.renumber again) := by
  have hcheck : Matches again id lowered.check (lowered.renumber again).check := by
    cases lowered with
    | value expr => exact expr.check_renumber again []
    | target assignable =>
      have hbindings := checkBindings_renumber again [] assignable.temps assignable.stores
      rw [renumberAll_eq_map] at hbindings
      -- declarations without a store are reported ahead of all else
      have hunstored : Matches again id
          (Audit.noteUnstored (assignable.temps.drop assignable.stores.length))
          (Audit.noteUnstored ((assignable.temps.map (Temp.renumber again)).drop
            assignable.stores.length)) := by
        rw [← List.map_drop]
        exact Matches.noteUnstored _
      simp only [Lowered.renumber, Lowered.check, Target.check, Target.renumber, List.length_map]
      exact hunstored.bind fun _ => hbindings.bind fun scope =>
        assignable.place.check_renumber again scope
  exact congrArg (fun done => done.2.faults) (hcheck {})

end Code

end Subscript.Code
