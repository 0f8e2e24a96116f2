import Mathlib.Data.List.Basic
import Subscript.Proofs.Parts

/-!
# Well-scoped code

In well-scoped code every temporary is read inside the sequence that declares it and after its own
store, and every store stands at the position of the temporary that it initializes. The judgment
says nothing about temporaries that are declared twice, or about what a temporary that holds
storage is bound to: `declared` and `misbound` list these.

## Architecture

- §1 `Expr.Scoped`
- §2 more temporaries in scope do no harm
- §3 well-scoped code mentions what it declares, and what is in scope
- §4 `misbound`, temporaries that should hold storage but cannot
- §5 code made of bindings
- §6 lowered accesses
-/

namespace Subscript.Code

/-! ## §1 The judgment -/

/-- The scope behind the stores of some temporaries. -/
def scopeBehind (scope : List TempId) (temps : List Temp) : List TempId :=
  (temps.map (·.id)).reverse ++ scope

mutual

/-- Code that reads temporaries of a scope and those it declares itself, each after its store. -/
def Expr.Scoped (scope : List TempId) : Expr → Prop
  | .literal _ _ | .var _ _ | .self _ => True
  | .temp _ id => id ∈ scope
  | .field _ object _ => object.Scoped scope
  | .element _ object index => object.Scoped scope ∧ index.Scoped scope
  | .call _ receiver _ arguments _ => receiver.Scoped scope ∧ ScopedAll scope arguments
  | .staticCall _ _ arguments _ => ScopedAll scope arguments
  | .construct _ _ arguments => ScopedAll scope arguments
  | .binary _ _ left right => left.Scoped scope ∧ right.Scoped scope
  | .array _ elements => ScopedAll scope elements
  -- a store belongs to a sequence, which takes care of it
  | .store _ _ _ => False
  | .sequence _ temps stores result =>
    (temps ≠ [] ∧ temps.length = stores.length) ∧ ScopedBindings scope temps stores ∧
      result.Scoped (scopeBehind scope temps)
  | .dynamicMember _ receiver _ _ => receiver.Scoped scope
  | .dynamicElement _ receiver arguments _ _ => receiver.Scoped scope ∧ ScopedAll scope arguments
termination_by structural expr => expr

/-- Several expressions in one scope. -/
def ScopedAll (scope : List TempId) : List Expr → Prop
  | [] => True
  | expr :: exprs => expr.Scoped scope ∧ ScopedAll scope exprs
termination_by structural exprs => exprs

/-- Stores that initialize the temporaries at their positions; an initializer reads the temporaries
in front of its own. -/
def ScopedBindings (scope : List TempId) : List Temp → List Expr → Prop
  | _, [] => True
  | temp :: temps, .store _ id value :: stores =>
    (value.Scoped scope ∧ id = temp.id) ∧ ScopedBindings (temp.id :: scope) temps stores
  | _, _ :: _ => False
termination_by structural _ stores => stores

end

@[simp] theorem scopeBehind_nil (scope : List TempId) : scopeBehind scope [] = scope := rfl

@[simp] theorem scopeBehind_cons (scope : List TempId) (temp : Temp) (temps : List Temp) :
    scopeBehind scope (temp :: temps) = scopeBehind (temp.id :: scope) temps := by
  simp [scopeBehind]

/-- The scope behind some declarations has their temporaries and those from before. -/
theorem mem_scopeBehind {scope : List TempId} {temps : List Temp} {id : TempId} :
    id ∈ scopeBehind scope temps ↔ id ∈ temps.map (·.id) ∨ id ∈ scope := by
  simp [scopeBehind]

/-- A larger scope stays larger behind the same declarations. -/
private theorem scopeBehind_subset {scope scope' : List TempId} (hsub : scope ⊆ scope')
    (temps : List Temp) : scopeBehind scope temps ⊆ scopeBehind scope' temps :=
  fun _ hid => mem_scopeBehind.mpr ((mem_scopeBehind.mp hid).imp_right (hsub ·))

/-- Expressions in a row share one scope: none sees what another declares. -/
theorem scopedAll_iff {scope : List TempId} {exprs : List Expr} :
    ScopedAll scope exprs ↔ ∀ expr ∈ exprs, expr.Scoped scope := by
  induction exprs with
  | nil => simp [ScopedAll]
  | cons expr exprs ih => simp [ScopedAll, ih]

/-- A plain expression is well-scoped if its operands are. -/
theorem Expr.scoped_iff_of_isPlain {scope : List TempId} {expr : Expr}
    (h : expr.isPlain = true) : expr.Scoped scope ↔ ScopedAll scope expr.operands := by
  cases expr with
  | temp | store | sequence => cases h
  | _ => simp [Expr.Scoped, Expr.operands, ScopedAll]

/-- In well-scoped bindings there is a temporary for each store. -/
theorem ScopedBindings.length_le {scope : List TempId} {temps : List Temp} {stores : List Expr}
    (h : ScopedBindings scope temps stores) : stores.length ≤ temps.length := by
  -- the judgment walks down both lists, and holds of no store without a temporary
  induction stores generalizing scope temps with
  | nil => exact Nat.zero_le _
  | cons store stores ih =>
    cases temps with
    | nil => cases store <;> exact h.elim
    | cons temp temps =>
      cases store with
      | store info id value => exact Nat.succ_le_succ (ih h.2)
      | _ => exact h.elim

/-! ## §2 Larger scopes -/

mutual

/-- Well-scoped code stays so in a larger scope. Code that was lowered for one place may thus
stand behind the bindings of others. -/
theorem Expr.Scoped.mono {scope scope' : List TempId} (hsub : scope ⊆ scope') (expr : Expr)
    (h : expr.Scoped scope) : expr.Scoped scope' := by
  cases expr with
  | literal info value => trivial
  | var info symbol => trivial
  | temp info id => exact hsub h
  | self info => trivial
  | field info object field => exact Expr.Scoped.mono hsub object h
  | element info object index =>
    exact ⟨Expr.Scoped.mono hsub object h.1, Expr.Scoped.mono hsub index h.2⟩
  | call info receiver method arguments byRef =>
    exact ⟨Expr.Scoped.mono hsub receiver h.1, ScopedAll.mono hsub arguments h.2⟩
  | staticCall info method arguments byRef => exact ScopedAll.mono hsub arguments h
  | construct info constructor arguments => exact ScopedAll.mono hsub arguments h
  | binary info op left right =>
    exact ⟨Expr.Scoped.mono hsub left h.1, Expr.Scoped.mono hsub right h.2⟩
  | array info elements => exact ScopedAll.mono hsub elements h
  | store info temp value => exact h.elim
  | sequence info temps stores result =>
    obtain ⟨haligned, hstores, hresult⟩ := h
    refine ⟨haligned, ScopedBindings.mono hsub temps stores hstores, ?_⟩
    -- the result sees the temporaries of the sequence in front of either scope
    exact Expr.Scoped.mono (scopeBehind_subset hsub temps) result hresult
  | dynamicMember info receiver name indexable => exact Expr.Scoped.mono hsub receiver h
  | dynamicElement info receiver arguments names refKinds =>
    exact ⟨Expr.Scoped.mono hsub receiver h.1, ScopedAll.mono hsub arguments h.2⟩
termination_by structural expr

/-- The same for expressions in a row. -/
theorem ScopedAll.mono {scope scope' : List TempId} (hsub : scope ⊆ scope') (exprs : List Expr)
    (h : ScopedAll scope exprs) : ScopedAll scope' exprs := by
  cases exprs with
  | nil => trivial
  | cons expr exprs =>
    exact ⟨Expr.Scoped.mono hsub expr h.1, ScopedAll.mono hsub exprs h.2⟩
termination_by structural exprs

/-- The same for stores, each of which sees the temporaries before its own as well. -/
private theorem ScopedBindings.mono {scope scope' : List TempId} (hsub : scope ⊆ scope')
    (temps : List Temp) (stores : List Expr) (h : ScopedBindings scope temps stores) :
    ScopedBindings scope' temps stores := by
  cases stores with
  | nil => cases temps <;> trivial
  | cons store stores =>
    cases temps with
    | nil => cases store <;> exact h.elim
    | cons temp temps =>
      cases store with
      | store info id value =>
        obtain ⟨⟨hvalue, hid⟩, hstores⟩ := h
        -- both scopes grow by the same temporary
        refine ⟨⟨Expr.Scoped.mono hsub value hvalue, hid⟩, ?_⟩
        exact ScopedBindings.mono (List.cons_subset_cons _ hsub) temps stores hstores
      | _ => exact h.elim
termination_by structural stores

end

/-! ## §3 Temporaries that are mentioned -/

section Mentioned

open Code.Expr

mutual

/-- Well-scoped code reads and stores temporaries of its scope and those it declares. By induction
on the expression; only a sequence enlarges the scope, by what it declares itself. -/
theorem Expr.Scoped.mentioned {scope : List TempId} (expr : Expr) (h : expr.Scoped scope)
    {id : TempId} (hid : id ∈ expr.mentioned) : id ∈ scope ∨ id ∈ expr.declared := by
  cases expr with
  | literal info value => simp at hid
  | var info symbol => simp at hid
  | temp info other =>
    obtain rfl : id = other := by simpa using hid
    exact .inl h
  | self info => simp at hid
  | field info object field =>
    simpa using Expr.Scoped.mentioned object h (by simpa using hid)
  | element info object index =>
    simp only [gather_element, ownMentioned, ownDeclared, List.nil_append, List.mem_append]
      at hid ⊢
    rcases hid with hid | hid
    · exact (Expr.Scoped.mentioned object h.1 hid).imp_right .inl
    · exact (Expr.Scoped.mentioned index h.2 hid).imp_right .inr
  | call info receiver method arguments byRef =>
    simp only [gather_call, ownMentioned, ownDeclared, List.nil_append, List.mem_append] at hid ⊢
    rcases hid with hid | hid
    · exact (Expr.Scoped.mentioned receiver h.1 hid).imp_right .inl
    · exact (ScopedAll.mentioned arguments h.2 hid).imp_right .inr
  | staticCall info method arguments byRef =>
    simpa using ScopedAll.mentioned arguments h (by simpa using hid)
  | construct info constructor arguments =>
    simpa using ScopedAll.mentioned arguments h (by simpa using hid)
  | binary info op left right =>
    simp only [gather_binary, ownMentioned, ownDeclared, List.nil_append, List.mem_append]
      at hid ⊢
    rcases hid with hid | hid
    · exact (Expr.Scoped.mentioned left h.1 hid).imp_right .inl
    · exact (Expr.Scoped.mentioned right h.2 hid).imp_right .inr
  | array info elements =>
    simpa using ScopedAll.mentioned elements h (by simpa using hid)
  | store info temp value => exact h.elim
  | sequence info temps stores result =>
    obtain ⟨-, hstores, hresult⟩ := h
    simp only [gather_sequence, ownMentioned, ownDeclared, List.mem_append] at hid ⊢
    rcases hid with hid | hid | hid
    · exact .inr (.inl hid)
    · exact (ScopedBindings.mentioned temps stores hstores hid).imp_right (·.imp_right .inl)
    -- the scope of the result holds the temporaries that the sequence declares
    · rcases Expr.Scoped.mentioned result hresult hid with hscope | hdeclared
      · exact (mem_scopeBehind.mp hscope).symm.imp_right .inl
      · exact .inr (.inr (.inr hdeclared))
  | dynamicMember info receiver name indexable =>
    simpa using Expr.Scoped.mentioned receiver h (by simpa using hid)
  | dynamicElement info receiver arguments names refKinds =>
    simp only [gather_dynamicElement, ownMentioned, ownDeclared, List.nil_append,
      List.mem_append] at hid ⊢
    rcases hid with hid | hid
    · exact (Expr.Scoped.mentioned receiver h.1 hid).imp_right .inl
    · exact (ScopedAll.mentioned arguments h.2 hid).imp_right .inr
termination_by structural expr

/-- Well-scoped expressions in a row mention what their scope has and what they declare. -/
theorem ScopedAll.mentioned {scope : List TempId} (exprs : List Expr)
    (h : ScopedAll scope exprs) {id : TempId} (hid : id ∈ exprs.flatMap Expr.mentioned) :
    id ∈ scope ∨ id ∈ exprs.flatMap Expr.declared := by
  cases exprs with
  | nil => cases hid
  | cons expr exprs =>
    rw [List.flatMap_cons, List.mem_append] at hid ⊢
    rcases hid with hid | hid
    · exact (Expr.Scoped.mentioned expr h.1 hid).imp_right .inl
    · exact (ScopedAll.mentioned exprs h.2 hid).imp_right .inr
termination_by structural exprs

/-- Well-scoped stores mention what their scope has, the temporaries that they initialize and what
their values declare. -/
theorem ScopedBindings.mentioned {scope : List TempId} (temps : List Temp) (stores : List Expr)
    (h : ScopedBindings scope temps stores) {id : TempId}
    (hid : id ∈ stores.flatMap Expr.mentioned) :
    id ∈ scope ∨ id ∈ temps.map (·.id) ∨ id ∈ stores.flatMap Expr.declared := by
  cases stores with
  | nil => cases hid
  | cons store stores =>
    cases temps with
    | nil => cases store <;> exact h.elim
    | cons temp temps =>
      cases store with
      | store info own value =>
        obtain ⟨⟨hvalue, rfl⟩, hstores⟩ := h
        simp only [List.flatMap_cons, gather_store, ownMentioned, ownDeclared, List.map_cons,
          List.nil_append, List.mem_append, List.mem_cons, List.not_mem_nil, or_false] at hid ⊢
        rcases hid with (hid | hid) | hid
        · exact .inr (.inl (.inl hid))
        · exact (Expr.Scoped.mentioned value hvalue hid).imp_right fun hid => .inr (.inl hid)
        -- later stores may read the temporary that was initialized here
        · rcases ScopedBindings.mentioned temps stores hstores hid with hscope | hown | hlater
          · rcases List.mem_cons.mp hscope with heq | hscope
            · exact .inr (.inl (.inl heq))
            · exact .inl hscope
          · exact .inr (.inl (.inr hown))
          · exact .inr (.inr (.inr hlater))
      | _ => exact h.elim
termination_by structural stores

end

end Mentioned

/-! ## §4 Temporaries bound to what is no storage -/

/-- The temporary of a binding, if it should hold storage but its initializer denotes none. -/
def Binding.misbound (binding : Binding) : List TempId :=
  match binding.store with
  | .store _ _ value =>
    if binding.temp.holding = .storage && !value.isAddressable then [binding.temp.id] else []
  | _ => []

/-- The temporaries that a sequence itself binds to what is no storage. -/
@[simp] def Expr.ownMisbound : Expr → List TempId
  | .sequence _ temps stores _ => (List.zipWith Binding.mk temps stores).flatMap Binding.misbound
  | _ => []

/-- The temporaries anywhere in an expression that should hold storage but cannot. -/
abbrev Expr.misbound (expr : Expr) : List TempId := expr.gather Expr.ownMisbound

/-- A fresh temporary is misbound exactly if it is to hold storage and its value denotes none. -/
theorem Binding.misbound_bind (allocator : Allocator) (value : Expr) (holding : Holding) :
    (allocator.bind value holding).1.misbound =
      if holding = .storage && !value.isAddressable then [allocator.next] else [] := rfl

/-! ## §5 Code made of bindings -/

/-- A sequence contributes what its bindings contribute. -/
structure SumsBindings {α : Type} (own : Expr → List α) (each : Binding → List α) : Prop where
  sequence : ∀ (info : Info) (bindings : List Binding) (result : Expr),
    own (.sequence info (bindings.map (·.temp)) (bindings.map (·.store)) result) =
      bindings.flatMap each

/-- Only sequences contribute, each with what its bindings contribute. -/
structure OfBindings {α : Type} (own : Expr → List α) (each : Binding → List α) : Prop extends
    SumsBindings own each where
  other : ∀ expr : Expr, expr.isSequence = false → own expr = []

/-- A sequence of bindings declares the temporary of each. -/
theorem ofBindings_declared : OfBindings Expr.ownDeclared fun binding => [binding.temp.id] where
  sequence info bindings result := by
    rw [Expr.ownDeclared, List.map_map, List.map_eq_flatMap]
    rfl
  other expr h := by cases expr <;> simp_all [Expr.isSequence]

/-- A sequence of bindings declares the temporary of each, with its name, type and capability. -/
theorem ofBindings_temps : OfBindings Expr.ownTemps fun binding => [binding.temp] where
  sequence info bindings result := by
    rw [Expr.ownTemps, List.map_eq_flatMap]
  other expr h := by cases expr <;> simp_all [Expr.isSequence]

/-- A sequence reads nothing by itself: its stores and its result do. -/
theorem sumsBindings_reads : SumsBindings Expr.ownReads fun _ => [] where
  sequence info bindings result := by simp

/-- Bindings are put together again from their temporaries and their stores. -/
theorem zipWith_mk (bindings : List Binding) :
    List.zipWith Binding.mk (bindings.map (·.temp)) (bindings.map (·.store)) = bindings := by
  induction bindings with
  | nil => rfl
  | cons binding bindings ih => simp [ih]

/-- As many stores as temporaries make bindings. -/
theorem exists_bindings {temps : List Temp} {stores : List Expr}
    (h : temps.length = stores.length) :
    ∃ bindings : List Binding,
      bindings.map (·.temp) = temps ∧ bindings.map (·.store) = stores := by
  refine ⟨List.zipWith Binding.mk temps stores, ?_, ?_⟩
  · rw [List.map_zipWith, ← List.map_uncurry_zip_eq_zipWith]
    exact List.map_fst_zip (Nat.le_of_eq h)
  · rw [List.map_zipWith, ← List.map_uncurry_zip_eq_zipWith]
    exact List.map_snd_zip (Nat.le_of_eq h.symm)

/-- A sequence of bindings has the misbound temporaries of each. -/
theorem ofBindings_misbound : OfBindings Expr.ownMisbound Binding.misbound where
  sequence info bindings result := by rw [Expr.ownMisbound, zipWith_mk]
  other expr h := by cases expr <;> simp_all [Expr.isSequence]

section Sequence

variable {scope : List TempId} {bindings : List Binding} {result : Expr}

/-- What a sequence of bindings gathers: the share of each binding, then what the stores and the
result gather. Without bindings both sides are what the result gathers. -/
theorem gather_sequence_of_bindings {α : Type} {own : Expr → List α} {each : Binding → List α}
    (hown : SumsBindings own each) (bindings : List Binding) (result : Expr) :
    (sequence bindings result).gather own =
      bindings.flatMap each ++
        ((bindings.map (·.store)).flatMap (Expr.gather own) ++ result.gather own) := by
  cases bindings with
  | nil => simp
  | cons binding bindings =>
    rw [sequence, Expr.gather_sequence, hown.sequence]

/-- Bindings whose initializers read the temporaries in front of them. -/
abbrev Binding.AllScoped (scope : List TempId) (bindings : List Binding) : Prop :=
  ScopedBindings scope (bindings.map (·.temp)) (bindings.map (·.store))

/-- A fresh binding in front of others: its value is well-scoped before it, the others behind it.
-/
theorem Binding.allScoped_bind_cons {allocator : Allocator} {value : Expr} {holding : Holding} :
    Binding.AllScoped scope ((allocator.bind value holding).1 :: bindings) ↔
      value.Scoped scope ∧ Binding.AllScoped (allocator.next :: scope) bindings :=
  ⟨fun h => ⟨h.1.1, h.2⟩, fun h => ⟨⟨h.1, rfl⟩, h.2⟩⟩

/-- A sequence made of bindings is well-scoped if its parts are, also without bindings. The result
sees all temporaries, each value only those before its own. -/
theorem scoped_sequence_iff :
    (sequence bindings result).Scoped scope ↔
      Binding.AllScoped scope bindings ∧
        result.Scoped (scopeBehind scope (bindings.map (·.temp))) := by
  cases bindings with
  | nil => exact ⟨fun h => ⟨trivial, h⟩, fun h => h.2⟩
  | cons binding bindings =>
    -- stores stand beside their temporaries because both come from the bindings
    exact ⟨fun h => h.2, fun h => ⟨⟨by simp, by simp⟩, h⟩⟩

/-- Bindings in front of others, which see their temporaries. -/
theorem Binding.AllScoped.append_of {temps : List Temp} {stores : List Expr}
    (h : Binding.AllScoped scope bindings)
    (h' : ScopedBindings (scopeBehind scope (bindings.map (·.temp))) temps stores) :
    ScopedBindings scope (bindings.map (·.temp) ++ temps) (bindings.map (·.store) ++ stores) := by
  induction bindings generalizing scope with
  | nil => exact h'
  | cons binding bindings ih =>
    -- the temporary of the head joins the scope of everything behind it
    obtain ⟨temp, store⟩ := binding
    cases store with
    | store info id value => exact ⟨h.1, ih h.2 (by simpa using h')⟩
    | _ => exact h.elim

/-- Bindings behind others, in the scope that these leave. -/
theorem Binding.AllScoped.append {bindings' : List Binding}
    (h : Binding.AllScoped scope bindings)
    (h' : Binding.AllScoped (scopeBehind scope (bindings.map (·.temp))) bindings') :
    Binding.AllScoped scope (bindings ++ bindings') := by
  rw [Binding.AllScoped, List.map_append, List.map_append]
  exact h.append_of h'

end Sequence

/-! ## §6 Lowered accesses -/

/-- The expressions of a place, in evaluation order. -/
def Place.operands : Place → List Expr
  | .indexer receiver _ _ _ arguments _ => receiver :: arguments
  | .dynamic receiver arguments _ _ => receiver :: arguments
  | .element object index => [object, index]

/-- A target whose place reads temporaries of a scope and those that its bindings initialize. -/
def Target.Scoped (scope : List TempId) (target : Target) : Prop :=
  target.temps.length = target.stores.length ∧
    ScopedBindings scope target.temps target.stores ∧
      ScopedAll (scopeBehind scope target.temps) target.place.operands

/-- The temporaries declared for a target or anywhere inside it. -/
def Target.declared (target : Target) : List TempId :=
  target.temps.map (·.id) ++
    (target.stores.flatMap Expr.declared ++ target.place.operands.flatMap Expr.declared)

/-- The same, with all there is to say about them. -/
def Target.allTemps (target : Target) : List Temp :=
  target.temps ++
    (target.stores.flatMap Expr.temps ++ target.place.operands.flatMap Expr.temps)

/-- The temporaries read anywhere inside a target. -/
def Target.reads (target : Target) : List TempId :=
  target.stores.flatMap Expr.reads ++ target.place.operands.flatMap Expr.reads

/-- The temporaries of a target that should hold storage but cannot. -/
def Target.misbound (target : Target) : List TempId :=
  (List.zipWith Binding.mk target.temps target.stores).flatMap Binding.misbound ++
    (target.stores.flatMap Expr.misbound ++ target.place.operands.flatMap Expr.misbound)

namespace Lowered

/-- A lowered access that reads temporaries of a scope and those it declares itself. -/
def Scoped (scope : List TempId) : Lowered → Prop
  | .value expr => expr.Scoped scope
  | .target assignable => assignable.Scoped scope

/-- The temporaries declared anywhere in a lowered access. -/
def declared : Lowered → List TempId
  | .value expr => expr.declared
  | .target assignable => assignable.declared

/-- The same, with all there is to say about them. -/
def temps : Lowered → List Temp
  | .value expr => expr.temps
  | .target assignable => assignable.allTemps

/-- The temporaries read anywhere in a lowered access. -/
def reads : Lowered → List TempId
  | .value expr => expr.reads
  | .target assignable => assignable.reads

/-- The temporaries anywhere in a lowered access that should hold storage but cannot. -/
def misbound : Lowered → List TempId
  | .value expr => expr.misbound
  | .target assignable => assignable.misbound

/-- The identities of the temporaries that an access declares, from the temporaries themselves. -/
theorem declared_eq_map_temps (lowered : Lowered) :
    lowered.declared = lowered.temps.map (·.id) := by
  have hdeclared : Expr.declared = fun expr => expr.temps.map (·.id) :=
    funext Expr.declared_eq_map_temps
  cases lowered with
  | value expr => exact expr.declared_eq_map_temps
  | target assignable =>
    simp only [declared, temps, Target.declared, Target.allTemps, List.map_append,
      List.map_flatMap, hdeclared]

end Lowered

end Subscript.Code
