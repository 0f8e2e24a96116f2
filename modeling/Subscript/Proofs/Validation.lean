import Mathlib.Data.List.Nodup
import Subscript.Code.Scoping
import Subscript.Proofs.Scoped

/-!
# What the scope check finds

The check accepts exactly the well-scoped code that declares no temporary twice and binds
temporaries that hold storage only to storage. `Records` says what a part of the check adds to the
audit, in terms of the declarative judgment; it is composed along the steps of the check.

## Architecture

- §1 `Found`, what is found between two audits
- §2 `Records`, what a step of the check finds from any audit
- §3 expressions and bindings
- §4 places and lowered accesses
-/

namespace Subscript.Code

/-! ## §1 Findings -/

/-- What the check of some code finds: the faults `new` and the declarations. Code that is not
well-scoped has faults; well-scoped code has none but declarations that are not new, and
temporaries bound to what is no storage. -/
structure Found (inScope : Prop) (declared misbound : List TempId) (before after : Audit)
    (new : List Fault) : Prop where
  faults : after.faults = before.faults ++ new
  complains : ¬ inScope → new ≠ []
  declares : inScope → ∀ id, id ∈ after.declared ↔ id ∈ before.declared ∨ id ∈ declared
  tolerates : inScope → declared.Nodup → declared.Disjoint before.declared →
    ∀ fault ∈ new, fault.kind = .invalidRefBinding
  accepts : inScope →
    (new = [] ↔ (declared.Nodup ∧ declared.Disjoint before.declared) ∧ misbound = [])

section Found

variable {inScope inScope' : Prop} {declared declared' misbound misbound' : List TempId}
  {before middle after : Audit} {new new' : List Fault}

/-- A check that changes nothing finds nothing. -/
private theorem Found.refl (audit : Audit) : Found True [] [] audit audit [] := by
  constructor <;> simp

/-- What two checks find, one after the other: faults are listed in this order, the code is in
scope if both parts are, and what the first one declares counts for the second one. -/
private theorem Found.append (h : Found inScope declared misbound before middle new)
    (h' : Found inScope' declared' misbound' middle after new') :
    Found (inScope ∧ inScope') (declared ++ declared') (misbound ++ misbound') before after
      (new ++ new') := by
  -- the second check starts with what the first one declared
  have hdisjoint : inScope → (declared'.Disjoint middle.declared ↔
      declared'.Disjoint before.declared ∧ declared'.Disjoint declared) := by
    intro hscoped
    constructor
    · intro hdisj
      exact ⟨fun id hid hbefore => hdisj hid ((h.declares hscoped id).mpr (.inl hbefore)),
        fun id hid hnew => hdisj hid ((h.declares hscoped id).mpr (.inr hnew))⟩
    · rintro ⟨hbefore, hnew⟩ id hid hmiddle
      exact ((h.declares hscoped id).mp hmiddle).elim (hbefore hid) (hnew hid)
  refine ⟨?_, ?_, ?_, ?_, ?_⟩
  · rw [h'.faults, h.faults, List.append_assoc]
  · intro hnot hnil
    obtain ⟨hnil, hnil'⟩ := List.append_eq_nil_iff.mp hnil
    -- one of the two is out of scope, and it says so
    by_cases hscoped : inScope
    · exact h'.complains (fun hscoped' => hnot ⟨hscoped, hscoped'⟩) hnil'
    · exact h.complains hscoped hnil
  · rintro ⟨hscoped, hscoped'⟩ id
    rw [h'.declares hscoped', h.declares hscoped, List.mem_append, or_assoc]
  · rintro ⟨hscoped, hscoped'⟩ hnodup hdisj fault hfault
    obtain ⟨hnodup, hnodup', hapart⟩ := List.nodup_append'.mp hnodup
    obtain ⟨hdisj, hdisj'⟩ := List.disjoint_append_left.mp hdisj
    -- in scope, only bindings that are amiss are found
    rcases List.mem_append.mp hfault with hfault | hfault
    · exact h.tolerates hscoped hnodup hdisj fault hfault
    · exact h'.tolerates hscoped' hnodup'
        ((hdisjoint hscoped).mpr ⟨hdisj', List.disjoint_symm hapart⟩) fault hfault
  · rintro ⟨hscoped, hscoped'⟩
    have hcomm : List.Disjoint declared' declared ↔ List.Disjoint declared declared' :=
      List.disjoint_comm
    rw [List.append_eq_nil_iff, h.accepts hscoped, h'.accepts hscoped', hdisjoint hscoped,
      List.nodup_append', List.disjoint_append_left, List.append_eq_nil_iff, hcomm]
    tauto

/-- Findings may be described in other words: what is in scope by an equivalent condition, and the
declared temporaries in another order. -/
private theorem Found.congr (h : Found inScope declared misbound before after new)
    (hscoped : inScope ↔ inScope') (hdeclared : inScope' → declared.Perm declared')
    (hmisbound : inScope' → (misbound = [] ↔ misbound' = [])) :
    Found inScope' declared' misbound' before after new := by
  refine ⟨h.faults, fun hnot => h.complains (mt hscoped.mp hnot), ?_, ?_, ?_⟩
  · intro hscoped' id
    rw [h.declares (hscoped.mpr hscoped'), (hdeclared hscoped').mem_iff]
  · intro hscoped' hnodup hdisj
    have hperm := hdeclared hscoped'
    exact h.tolerates (hscoped.mpr hscoped') (hperm.nodup_iff.mpr hnodup)
      fun id hid => hdisj (hperm.mem_iff.mp hid)
  · intro hscoped'
    have hperm := hdeclared hscoped'
    rw [h.accepts (hscoped.mpr hscoped'), hperm.nodup_iff, hmisbound hscoped']
    -- a permutation shares an element with a list exactly if the other one does
    have hdisj : declared.Disjoint before.declared ↔ declared'.Disjoint before.declared :=
      ⟨fun hdisj id hid => hdisj (hperm.mem_iff.mpr hid),
        fun hdisj id hid => hdisj (hperm.mem_iff.mp hid)⟩
    rw [hdisj]

end Found

/-! ## §2 Steps of the check -/

/-- A step of the check gives `value`, and finds what it should from any audit. -/
def Records {α : Type} (check : StateM Audit α) (value : α) (inScope : Prop)
    (declared misbound : List TempId) : Prop :=
  ∀ audit, (check.run audit).1 = value ∧
    ∃ new, Found inScope declared misbound audit (check.run audit).2 new

section Records

variable {α β : Type} {inScope inScope' : Prop}
  {declared declared' misbound misbound' : List TempId}

/-- A step that only gives a value finds nothing. -/
theorem Records.pure (value : α) : Records (pure value) value True [] [] := fun audit =>
  ⟨rfl, [], .refl audit⟩

/-- Steps in a row find what both do, the first one's findings in front. -/
theorem Records.bind {first : StateM Audit α} {next : α → StateM Audit β} {value : α}
    {result : β} (h : Records first value inScope declared misbound)
    (h' : Records (next value) result inScope' declared' misbound') :
    Records (first >>= next) result (inScope ∧ inScope') (declared ++ declared')
      (misbound ++ misbound') := by
  intro audit
  obtain ⟨hvalue, new, hfound⟩ := h audit
  obtain ⟨hresult, new', hfound'⟩ := h' (first.run audit).2
  -- the second step is the one for the value that the first gives
  have hrun : (first >>= next).run audit = (next value).run (first.run audit).2 := by
    rw [← hvalue]
    rfl
  rw [hrun]
  exact ⟨hresult, new ++ new', hfound.append hfound'⟩

/-- What a check finds may be described in other words, as long as they agree on well-scoped code.
Of code that is not well-scoped nothing but that is recorded. -/
theorem Records.congr {check : StateM Audit α} {value : α}
    (h : Records check value inScope declared misbound) (hscoped : inScope ↔ inScope')
    (hdeclared : inScope' → declared.Perm declared')
    (hmisbound : inScope' → (misbound = [] ↔ misbound' = [])) :
    Records check value inScope' declared' misbound' := by
  intro audit
  obtain ⟨hvalue, new, hfound⟩ := h audit
  exact ⟨hvalue, new, hfound.congr hscoped hdeclared hmisbound⟩

/-- A fault that is noted is a fault of scoping, whatever it is. -/
theorem Records.note (kind : FaultKind) (temp? : Option TempId) :
    Records (Audit.note kind temp?) () False [] [] := fun audit =>
  ⟨rfl, [⟨kind, temp?⟩], rfl, by simp, by simp, by simp, by simp⟩

/-- A fault that is noted on a condition: the code is well-scoped only if the condition fails. -/
private theorem Records.note_if (condition : Prop) [Decidable condition] (kind : FaultKind)
    (temp? : Option TempId) :
    Records (if condition then Audit.note kind temp? else Pure.pure ()) () (¬ condition) [] [] := by
  by_cases h : condition
  · rw [if_pos h]
    exact (Records.note kind temp?).congr (by simp [h]) (by simp) (by simp)
  · rw [if_neg h]
    exact (Records.pure ()).congr (by simp [h]) (by simp) (by simp)

/-- A temporary bound to what is no storage is not a fault of scoping. It is recorded by itself,
so that well-scoped code may have such temporaries. -/
private theorem Records.note_invalidRefBinding (id : TempId) :
    Records (Audit.note .invalidRefBinding (some id)) () True [] [id] := fun audit =>
  ⟨rfl, [⟨.invalidRefBinding, some id⟩], rfl, by simp,
    fun _ _ => (or_iff_left List.not_mem_nil).symm, by simp, by simp⟩

/-- The comparison of a store with the temporary at its position. -/
private theorem Records.ownStore (temp : Temp) (info : Info) (id : TempId) (value : Expr) :
    Records (if id = temp.id then
        if temp.holding = .storage && !value.isAddressable then
          Audit.note .invalidRefBinding (some temp.id)
        else Pure.pure ()
      else
        Audit.note .storeToUndeclared (some id) >>= fun _ =>
        Audit.note .unstoredTemp (some temp.id)) ()
      (id = temp.id) [] (Binding.misbound ⟨temp, .store info id value⟩) := by
  by_cases hid : id = temp.id
  · rw [if_pos hid, Binding.misbound]
    dsimp only
    split
    · exact (Records.note_invalidRefBinding temp.id).congr (by simp [hid]) (by simp) (by simp)
    · exact (Records.pure ()).congr (by simp [hid]) (by simp) (by simp)
  -- a store of another temporary is two faults, so nothing is said about its initializer
  · rw [if_neg hid]
    exact (Records.bind (Records.note _ _) (Records.note _ _)).congr (by simp [hid])
      (fun heq => absurd heq hid) fun heq => absurd heq hid

/-- A declaration declares its temporary, and finds a fault if it was declared before. Both cases
fit one description, as the faults are counted against the declarations. -/
private theorem Records.declare (id : TempId) : Records (Audit.declare id) () True [id] [] := by
  intro audit
  have hrun : (Audit.declare id).run audit =
      if id ∈ audit.declared then
        ((), { audit with faults := audit.faults ++ [⟨.multipleDefinitions, some id⟩] })
      else ((), { audit with declared := id :: audit.declared }) := by
    show (if id ∈ audit.declared then _ else _ : StateM Audit Unit).run audit = _
    split <;> rfl
  rw [hrun]
  by_cases hid : id ∈ audit.declared
  -- declared again: a fault, but not one of scoping
  · rw [if_pos hid]
    refine ⟨rfl, [⟨.multipleDefinitions, some id⟩], rfl, by simp, ?_, ?_, ?_⟩
    · intro _ other
      simp only [List.mem_singleton]
      exact ⟨.inl, fun h => Or.elim h (fun hmem => hmem) fun heq => heq ▸ hid⟩
    · intro _ _ hdisj
      exact absurd hid (hdisj (List.mem_singleton_self id))
    · simp [hid]
  -- declared for the first time: nothing is found
  · rw [if_neg hid]
    refine ⟨rfl, [], by simp, by simp, ?_, by simp, ?_⟩
    · intro _ other
      simp [or_comm]
    · simp [hid]

/-- Temporaries without stores are found exactly if there are any. -/
private theorem Records.noteUnstored (temps : List Temp) :
    Records (Audit.noteUnstored temps) () (temps = []) [] [] := by
  induction temps with
  | nil => exact (Records.pure ()).congr (by simp) (by simp) (by simp)
  | cons temp temps ih =>
    exact ((Records.note .unstoredTemp (some temp.id)).bind ih).congr (by simp) (by simp)
      (by simp)

end Records

/-! ## §3 Expressions and bindings -/

section Check

open Code.Expr

/-- The steps of checking a sequence. -/
theorem check_sequence (scope : List TempId) (info : Info) (temps : List Temp)
    (stores : List Expr) (result : Expr) :
    (Expr.sequence info temps stores result).check scope =
      ((if temps.isEmpty && stores.isEmpty then Audit.note .emptySequence none
        else Pure.pure ()) >>= fun _ =>
      Audit.noteUnstored (temps.drop stores.length) >>= fun _ =>
      checkBindings scope temps stores >>= fun inner => result.check inner) := by
  rw [check]
  split <;> rfl

/-- The steps of checking a store at the position of a temporary. -/
theorem checkBindings_store (scope : List TempId) (temp : Temp) (temps : List Temp) (info : Info)
    (id : TempId) (value : Expr) (stores : List Expr) :
    checkBindings scope (temp :: temps) (.store info id value :: stores) =
      (value.check scope >>= fun _ =>
      (if id = temp.id then
        if temp.holding = .storage && !value.isAddressable then
          Audit.note .invalidRefBinding (some temp.id)
        else Pure.pure ()
      else
        Audit.note .storeToUndeclared (some id) >>= fun _ =>
        Audit.note .unstoredTemp (some temp.id)) >>= fun _ =>
      Audit.declare temp.id >>= fun _ => checkBindings (temp.id :: scope) temps stores) := by
  rw [checkBindings]
  congr 1
  funext _
  split
  · split <;> rfl
  · rfl

mutual

/-- The check of an expression finds whether it is well-scoped, which temporaries it declares and
which of them are bound to what is no storage. -/
theorem Expr.check_records (scope : List TempId) (expr : Expr) :
    Records (expr.check scope) () (expr.Scoped scope) expr.declared expr.misbound := by
  cases expr with
  | literal info value =>
    exact (Records.pure ()).congr (by simp [Scoped]) (by simp) (by simp)
  | var info symbol => exact (Records.pure ()).congr (by simp [Scoped]) (by simp) (by simp)
  | self info => exact (Records.pure ()).congr (by simp [Scoped]) (by simp) (by simp)
  | temp info id =>
    rw [check]
    split
    · rename_i hid
      exact (Records.pure ()).congr (by simp [Scoped, hid]) (by simp) (by simp)
    · rename_i hid
      exact (Records.note _ _).congr (by simp [Scoped, hid]) (by simp) (by simp)
  | field info object field => exact (object.check_records scope).congr .rfl (by simp) (by simp)
  | element info object index =>
    exact ((object.check_records scope).bind (index.check_records scope)).congr .rfl (by simp)
      (by simp)
  | call info receiver method arguments byRef =>
    exact ((receiver.check_records scope).bind (checkAll_records scope arguments)).congr .rfl
      (by simp) (by simp)
  | staticCall info method arguments byRef =>
    exact (checkAll_records scope arguments).congr .rfl (by simp) (by simp)
  | construct info constructor arguments =>
    exact (checkAll_records scope arguments).congr .rfl (by simp) (by simp)
  | binary info op left right =>
    exact ((left.check_records scope).bind (right.check_records scope)).congr .rfl (by simp)
      (by simp)
  | array info elements =>
    exact (checkAll_records scope elements).congr .rfl (by simp) (by simp)
  | store info id value =>
    -- a store outside a sequence is a fault, whatever it stores
    exact ((value.check_records scope).bind (Records.note _ _)).congr (by simp [Scoped])
      False.elim False.elim
  | sequence info temps stores result =>
    rw [check_sequence]
    refine Records.congr (Records.bind (Records.note_if _ _ _) (Records.bind
      (Records.noteUnstored _) (Records.bind (checkBindings_records scope temps stores)
        (result.check_records _)))) ?_ ?_ ?_
    -- no temporary is left over, and none is missing, if there are as many as stores
    · constructor
      · rintro ⟨hsome, hdrop, hstores, hresult⟩
        have hle := List.drop_eq_nil_iff.mp hdrop
        have hlength := Nat.le_antisymm hle hstores.length_le
        rw [List.take_of_length_le hle] at hresult
        refine ⟨⟨?_, hlength⟩, hstores, hresult⟩
        rintro rfl
        simp [List.length_eq_zero_iff.mp hlength.symm] at hsome
      · rintro ⟨⟨hne, hlength⟩, hstores, hresult⟩
        rw [List.take_of_length_le (Nat.le_of_eq hlength)]
        exact ⟨by simp [hne], List.drop_eq_nil_iff.mpr (Nat.le_of_eq hlength), hstores, hresult⟩
    · rintro ⟨⟨-, hlength⟩, -, -⟩
      simp [List.take_of_length_le (Nat.le_of_eq hlength)]
    · simp
  | dynamicMember info receiver name indexable =>
    exact (receiver.check_records scope).congr .rfl (by simp) (by simp)
  | dynamicElement info receiver arguments names refKinds =>
    exact ((receiver.check_records scope).bind (checkAll_records scope arguments)).congr .rfl
      (by simp) (by simp)
termination_by structural expr

/-- The check of expressions in a row finds whether all are well-scoped. -/
theorem checkAll_records (scope : List TempId) (exprs : List Expr) :
    Records (checkAll scope exprs) () (ScopedAll scope exprs) (exprs.flatMap declared)
      (exprs.flatMap misbound) := by
  cases exprs with
  | nil => exact (Records.pure ()).congr .rfl (by simp) (by simp)
  | cons expr exprs =>
    exact ((expr.check_records scope).bind (checkAll_records scope exprs)).congr .rfl
      (by simp) (by simp)
termination_by structural exprs

/-- The check of stores gives the scope behind them. An initializer is checked in the scope of the
temporaries before its own, and this is what the judgment asks of it. -/
theorem checkBindings_records (scope : List TempId) (temps : List Temp) (stores : List Expr) :
    Records (checkBindings scope temps stores)
      (scopeBehind scope (temps.take stores.length)) (ScopedBindings scope temps stores)
      ((temps.take stores.length).map (·.id) ++ stores.flatMap declared)
      ((List.zipWith Binding.mk temps stores).flatMap Binding.misbound ++
        stores.flatMap misbound) := by
  cases stores with
  | nil => exact (Records.pure scope).congr (by simp [ScopedBindings]) (by simp) (by simp)
  | cons store stores =>
    cases temps with
    | nil =>
      -- a store without a temporary is a fault, whatever it is
      have hrest := checkBindings_records scope [] stores
      rw [List.take_nil] at hrest ⊢
      cases store with
      | store info id value =>
        exact (Records.bind (value.check_records scope)
          (Records.bind (Records.note _ _) hrest)).congr (by simp [ScopedBindings])
            False.elim False.elim
      | _ =>
        exact (Records.bind (Expr.check_records scope _)
          (Records.bind (Records.note _ _) hrest)).congr (by simp [ScopedBindings])
            False.elim False.elim
    | cons temp temps =>
      have hrest := checkBindings_records (temp.id :: scope) temps stores
      rw [List.length_cons, List.take_succ_cons, scopeBehind_cons]
      cases store with
      | store info id value =>
        rw [checkBindings_store]
        refine Records.congr (Records.bind (value.check_records scope) (Records.bind
          (Records.ownStore temp info id value) (Records.bind (Records.declare _) hrest))) ?_ ?_ ?_
        · simp [ScopedBindings, and_assoc]
        · intro _
          simp only [List.nil_append, List.map_cons, List.flatMap_cons, gather_store, ownDeclared,
            List.cons_append]
          -- the temporary is declared after those inside its initializer
          apply List.perm_middle.trans
          apply List.Perm.cons
          exact List.perm_append_comm_assoc _ _ _
        · intro _
          simp only [List.zipWith_cons_cons, List.flatMap_cons, gather_store, ownMisbound,
            List.nil_append, List.append_eq_nil_iff]
          tauto
      | _ =>
        -- what is no store initializes nothing, and its temporary is declared nevertheless
        exact (Records.bind (Expr.check_records scope _) (Records.bind (Records.note _ _)
          (Records.bind (Records.declare _) hrest))).congr (by simp [ScopedBindings])
            False.elim False.elim
termination_by structural stores

end

end Check

/-! ## §4 Lowered accesses -/

/-- A place is checked like its operands in a row. -/
theorem Place.check_eq_checkAll (scope : List TempId) (place : Place) :
    place.check scope = checkAll scope place.operands := by
  cases place with
  | indexer => rfl
  | dynamic => rfl
  | element object index =>
    show _ = (object.check scope >>= fun _ => index.check scope >>= fun _ => Pure.pure ())
    simp [Place.check]

/-- A target is checked as the bindings in front and, in their scope, the place. Bindings that
lack a store are reported first; with none of them, all temporaries are in scope of the place. -/
theorem Target.check_records (target : Target) :
    Records target.check () (target.Scoped []) target.declared target.misbound := by
  refine Records.congr (Records.bind (Records.noteUnstored _) (Records.bind
    (checkBindings_records [] target.temps target.stores)
    (target.place.check_eq_checkAll _ ▸ checkAll_records _ target.place.operands))) ?_ ?_ ?_
  -- in scope: no store is missing, so none is cut off ahead of the place
  · constructor
    · rintro ⟨hdrop, hstores, hplace⟩
      have hle := List.drop_eq_nil_iff.mp hdrop
      rw [List.take_of_length_le hle] at hplace
      exact ⟨Nat.le_antisymm hle hstores.length_le, hstores, hplace⟩
    · rintro ⟨hlength, hstores, hplace⟩
      rw [List.take_of_length_le (Nat.le_of_eq hlength)]
      exact ⟨List.drop_eq_nil_iff.mpr (Nat.le_of_eq hlength), hstores, hplace⟩
  · rintro ⟨hlength, -, -⟩
    simp [List.take_of_length_le (Nat.le_of_eq hlength), Target.declared]
  · simp [Target.misbound]

/-- A lowered access is checked as the value or the target that it is. -/
theorem Lowered.check_records (lowered : Lowered) :
    Records lowered.check () (lowered.Scoped []) lowered.declared lowered.misbound := by
  cases lowered with
  | value expr => exact expr.check_records []
  | target assignable => exact assignable.check_records

/-- The check accepts exactly the well-scoped accesses that declare no temporary twice and bind
storage only to storage. -/
theorem Lowered.faults_eq_nil_iff (lowered : Lowered) :
    lowered.faults = [] ↔
      lowered.Scoped [] ∧ lowered.declared.Nodup ∧ lowered.misbound = [] := by
  -- the check starts from an empty audit, so everything declared is new
  obtain ⟨-, new, hfound⟩ := lowered.check_records {}
  have hfaults : lowered.faults = new := hfound.faults
  rw [hfaults]
  by_cases hscoped : lowered.Scoped []
  · rw [hfound.accepts hscoped]
    simp [hscoped]
  · exact iff_of_false (hfound.complains hscoped) fun h => hscoped h.1

/-- In a well-scoped access that declares no temporary twice nothing is wrong but what its
temporaries are bound to. Every fault that lowering can cause is thus of one kind. -/
theorem Lowered.kind_of_mem_faults {lowered : Lowered} (hscoped : lowered.Scoped [])
    (hnodup : lowered.declared.Nodup) {fault : Fault} (hfault : fault ∈ lowered.faults) :
    fault.kind = .invalidRefBinding := by
  obtain ⟨-, new, hfound⟩ := lowered.check_records {}
  have hfaults : lowered.faults = new := hfound.faults
  rw [hfaults] at hfault
  exact hfound.tolerates hscoped hnodup (List.disjoint_nil_right _) fault hfault

end Subscript.Code
