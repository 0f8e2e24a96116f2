import Subscript.Lowering.Expression

/-!
# Lowerings that succeed

`Yields` relates a lowering and the allocator it starts from to its result and the allocator it
leaves; the events of the run are forgotten. Each primitive step and each look-up is characterized
here once, so that a successful lowering is taken apart without unfolding the monad.

## Architecture

- §1 `Yields` and the primitive steps
- §2 members used by lowered code
- §3 offsets, positions and ranges
- §4 `Fails`, lowerings that end with a violation
-/

namespace Subscript.Lowering

open Code (Allocator Binding Expr Holding Lowered)

variable {α β : Type} {env : Env} {allocator rest : Allocator}

/-! ## §1 Primitive steps -/

/-- Run from an allocator, the lowering gives `result` and leaves the allocator `rest`. -/
def Yields (lowering : Lowering α) (env : Env) (allocator : Allocator) (result : α)
    (rest : Allocator) : Prop :=
  ∃ events, lowering.run env allocator = ⟨.ok result, rest, events⟩

/-- A lowering yields one result and one allocator at most. -/
theorem Yields.unique {lowering : Lowering α} {result result' : α} {rest' : Allocator}
    (h : lowering.Yields env allocator result rest)
    (h' : lowering.Yields env allocator result' rest') : result = result' ∧ rest = rest' := by
  obtain ⟨events, hrun⟩ := h
  obtain ⟨events', hrun'⟩ := h'
  rw [hrun] at hrun'
  obtain ⟨houtcome, hrest, -⟩ := Run.mk.inj hrun'
  exact ⟨Except.ok.inj houtcome, hrest⟩

/-- A lowering that only gives a value yields this value, and leaves the allocator as it is. -/
@[simp] theorem yields_pure_iff {value result : α} :
    (pure value : Lowering α).Yields env allocator result rest ↔
      value = result ∧ allocator = rest := by
  constructor
  · rintro ⟨events, hrun⟩
    obtain ⟨houtcome, hrest, -⟩ := Run.mk.inj hrun
    exact ⟨Except.ok.inj houtcome, hrest⟩
  · rintro ⟨rfl, rfl⟩
    exact ⟨[], rfl⟩

/-- Two lowerings in a row yield what the second one does, from the allocator that the first
leaves. With `simp only`, this takes a successful run apart step by step. -/
@[simp] theorem yields_bind_iff {first : Lowering α} {next : α → Lowering β} {result : β} :
    (first >>= next).Yields env allocator result rest ↔
      ∃ value middle, first.Yields env allocator value middle ∧
        (next value).Yields env middle result rest := by
  constructor
  · rintro ⟨events, hrun⟩
    obtain ⟨value, middle, earlier, later, hfirst, hnext, -⟩ := run_bind_eq_ok_iff.mp hrun
    exact ⟨value, middle, ⟨earlier, hfirst⟩, later, hnext⟩
  · rintro ⟨value, middle, ⟨earlier, hfirst⟩, later, hnext⟩
    exact ⟨earlier ++ later,
      run_bind_eq_ok_iff.mpr ⟨value, middle, earlier, later, hfirst, hnext, rfl⟩⟩

/-- The tables are there to be read at any time. -/
@[simp] theorem yields_environment_iff {result : Env} :
    environment.Yields env allocator result rest ↔ env = result ∧ allocator = rest := by
  have hpure : (pure env : Lowering Env).Yields env allocator result rest ↔
      env = result ∧ allocator = rest := yields_pure_iff
  exact hpure

/-- A lowering that fails yields nothing, so a branch that fails is closed by this. -/
@[simp] theorem not_yields_fail {violation : Violation} {result : α} :
    ¬ (fail violation : Lowering α).Yields env allocator result rest := by
  rintro ⟨events, hrun⟩
  cases (Run.mk.inj hrun).1

/-- An event is written down and otherwise without effect: `Yields` forgets it. -/
@[simp] theorem yields_report_iff {event : Event} {result : Unit} :
    (report event).Yields env allocator result rest ↔ allocator = rest := by
  constructor
  · rintro ⟨events, hrun⟩
    exact (Run.mk.inj hrun).2.1
  · rintro rfl
    exact ⟨[event], rfl⟩

/-- A look-up that may go wrong yields what was found. -/
@[simp] theorem yields_ofExcept_iff {outcome : Except Violation α} {result : α} :
    (ofExcept outcome).Yields env allocator result rest ↔
      outcome = .ok result ∧ allocator = rest := by
  cases outcome with
  | ok value => simp [ofExcept]
  | error violation => simp [ofExcept]

/-- A placement of arguments yields what was placed; its faults become violations on the way. -/
@[simp] theorem yields_ofPlacement_iff {outcome : Except ArgumentFault α} {result : α} :
    (ofPlacement outcome).Yields env allocator result rest ↔
      outcome = .ok result ∧ allocator = rest := by
  cases outcome with
  | ok value => simp [ofPlacement]
  | error fault => simp [ofPlacement]

/-- A use of the allocator yields what the allocator gives and leaves it where the use does. The
bindings of temporaries all go through this. -/
@[simp] theorem yields_withAllocator_iff {use : StateM Allocator α} {result : α} :
    (withAllocator use).Yields env allocator result rest ↔ use.run allocator = (result, rest) := by
  constructor
  · rintro ⟨events, hrun⟩
    obtain ⟨houtcome, hrest, -⟩ := Run.mk.inj hrun
    exact Prod.ext (Except.ok.inj houtcome) hrest
  · intro huse
    exact ⟨[], by simp [Lowering.run, withAllocator, huse]⟩

/-- Asking how many temporaries were handed out hands out none. -/
@[simp] theorem yields_allocated_iff {result : UInt32} :
    allocated.Yields env allocator result rest ↔
      allocator.allocated = result ∧ allocator = rest := by
  have hpure : (pure allocator.allocated : Lowering UInt32).Yields env allocator result rest ↔
      allocator.allocated = result ∧ allocator = rest := yields_pure_iff
  exact hpure

/-- A binding is what the allocator makes of the value. -/
@[simp] theorem yields_bindTemp_iff {value : Expr} {holding : Holding} {result : Binding} :
    (bindTemp value holding).Yields env allocator result rest ↔
      allocator.bind value holding = (result, rest) :=
  yields_withAllocator_iff

/-! ## §2 Members -/

/-- A member of the library is yielded exactly if the library resolves it. -/
@[simp] theorem libraryMember_yields_iff {member : WellKnown.Member} {symbol : SymbolId} :
    (libraryMember member).Yields env allocator symbol rest ↔
      env.members.resolve member = .ok symbol ∧ allocator = rest := by
  cases h : env.members.resolve member with
  | ok found => simp [libraryMember, and_assoc, h]
  | error missing => simp [libraryMember, and_assoc, h]

/-- A method is yielded exactly if its symbol stands for a method. -/
@[simp] theorem methodOf_yields_iff {symbol : SymbolId} {method : Method} :
    (methodOf symbol).Yields env allocator method rest ↔
      env.symbols.method? symbol = some method ∧ allocator = rest := by
  cases h : env.symbols.method? symbol with
  | some found => simp [methodOf, and_assoc, h]
  | none => simp [methodOf, and_assoc, h]

/-- An indexer is yielded exactly if its symbol stands for a property. -/
@[simp] theorem indexerOf_yields_iff {symbol : SymbolId} {property : Property} :
    (indexerOf symbol).Yields env allocator property rest ↔
      env.symbols.property? symbol = some property ∧ allocator = rest := by
  cases h : env.symbols.property? symbol with
  | some found => simp [indexerOf, and_assoc, h]
  | none => simp [indexerOf, and_assoc, h]

/-- A getter is yielded exactly if the indexer has one. -/
@[simp] theorem getterOf_yields_iff {indexer getter : SymbolId} {property : Property} :
    (getterOf indexer property).Yields env allocator getter rest ↔
      property.getter? = some getter ∧ allocator = rest := by
  cases h : property.getter? with
  | some found => simp [getterOf, h]
  | none => simp [getterOf, h]

/-- A read through a property gives out storage if the property says so, and otherwise if its getter
does; only then is the getter looked up. -/
inductive ReadsByRef (env : Env) (property : Property) (getter : SymbolId) : Bool → Prop where
  /-- the property returns by reference -/
  | property (hbyRef : property.returnsByRef = true) : ReadsByRef env property getter true
  /-- the getter tells -/
  | getter {method : Method} (hbyRef : property.returnsByRef = false)
    (hmethod : env.symbols.method? getter = some method) :
    ReadsByRef env property getter method.returnsByRef

/-- Whether a read gives out storage is told by `ReadsByRef`: the getter has to be known only if
the property leaves the question open. -/
theorem readsByRef_yields_iff {property : Property} {getter : SymbolId} {byRef : Bool} :
    (readsByRef property getter).Yields env allocator byRef rest ↔
      ReadsByRef env property getter byRef ∧ allocator = rest := by
  unfold readsByRef
  constructor
  · intro h
    -- a property by reference settles it, and the getter is not looked up
    split at h
    · rename_i hbyRef
      obtain ⟨rfl, rfl⟩ := yields_pure_iff.mp h
      exact ⟨.property hbyRef, rfl⟩
    · rename_i hbyRef
      simp only [yields_bind_iff, methodOf_yields_iff, yields_pure_iff] at h
      obtain ⟨method, _, ⟨hmethod, rfl⟩, rfl, rfl⟩ := h
      exact ⟨.getter (Bool.not_eq_true _ ▸ hbyRef) hmethod, rfl⟩
  · rintro ⟨h, rfl⟩
    cases h with
    | property hbyRef =>
      rw [if_pos hbyRef]
      exact yields_pure_iff.mpr ⟨rfl, rfl⟩
    | getter hbyRef hmethod =>
      rw [if_neg (by simp [hbyRef])]
      simp only [yields_bind_iff, methodOf_yields_iff, yields_pure_iff]
      exact ⟨_, allocator, ⟨hmethod, rfl⟩, rfl, rfl⟩

/-- What reading a member of an object is: a call of the getter, or a read of the field. Anything
else has nothing to be read. -/
theorem readMember_yields_iff {object result : Expr} {member : SymbolId} {site : Location} :
    (readMember object member site).Yields env allocator result rest ↔ allocator = rest ∧
      ((∃ property getter byRef, env.symbols.get? member = some (.property property) ∧
          property.getter? = some getter ∧ ReadsByRef env property getter byRef ∧
          result = .call ⟨property.type, site⟩ object getter [] byRef) ∨
        ∃ field, env.symbols.get? member = some (.field field) ∧
          result = .field ⟨field.type, site⟩ object member) := by
  simp only [readMember, yields_bind_iff, yields_environment_iff]
  constructor
  · rintro ⟨_, _, ⟨rfl, rfl⟩, h⟩
    -- a member is a property, a field or nothing that can be read
    split at h
    · rename_i property hsymbol
      split at h
      · rename_i getter hgetter
        simp only [yields_bind_iff, readsByRef_yields_iff, yields_pure_iff] at h
        obtain ⟨byRef, _, ⟨hbyRef, rfl⟩, rfl, rfl⟩ := h
        exact ⟨rfl, .inl ⟨property, getter, byRef, hsymbol, hgetter, hbyRef, rfl⟩⟩
      · exact absurd h not_yields_fail
    · rename_i field hsymbol
      obtain ⟨rfl, rfl⟩ := yields_pure_iff.mp h
      exact ⟨rfl, .inr ⟨field, hsymbol, rfl⟩⟩
    · exact absurd h not_yields_fail
  · rintro ⟨rfl, ⟨property, getter, byRef, hsymbol, hgetter, hbyRef, rfl⟩ | ⟨field, hsymbol, rfl⟩⟩
    · refine ⟨env, allocator, ⟨rfl, rfl⟩, ?_⟩
      -- the symbol decides which branch is taken, on the way back as well
      simp only [hsymbol, hgetter, yields_bind_iff, readsByRef_yields_iff, yields_pure_iff]
      exact ⟨byRef, allocator, ⟨hbyRef, rfl⟩, rfl, rfl⟩
    · refine ⟨env, allocator, ⟨rfl, rfl⟩, ?_⟩
      rw [hsymbol]
      exact yields_pure_iff.mpr ⟨rfl, rfl⟩

/-! ## §3 Offsets, positions and ranges -/

/-- An offset is a call of the library on the position, with the length as its argument. -/
theorem offsetOf_yields_iff {position length result : Expr} {site : Location} :
    (offsetOf position length site).Yields env allocator result rest ↔
      allocator = rest ∧ ∃ method, env.members.resolve .indexGetOffset = .ok method ∧
        result = .call ⟨env.types.intType, site⟩ position method [length] false := by
  simp only [offsetOf, yields_bind_iff, libraryMember_yields_iff, yields_environment_iff,
    yields_pure_iff]
  constructor
  · rintro ⟨method, _, ⟨hmethod, rfl⟩, _, _, ⟨rfl, rfl⟩, rfl, rfl⟩
    exact ⟨rfl, method, hmethod, rfl⟩
  · rintro ⟨rfl, method, hmethod, rfl⟩
    exact ⟨method, allocator, ⟨hmethod, rfl⟩, env, allocator, ⟨rfl, rfl⟩, rfl, rfl⟩

/-- An end of a range is a call of a getter of the library, and has the type of positions. -/
theorem rangeEnd_yields_iff {range result : Expr} {getter : WellKnown.Member} {site : Location} :
    (rangeEnd range getter site).Yields env allocator result rest ↔
      allocator = rest ∧ ∃ method, env.members.resolve getter = .ok method ∧
        result = .call ⟨env.types.indexType, site⟩ range method [] false := by
  simp only [rangeEnd, yields_bind_iff, libraryMember_yields_iff, yields_environment_iff,
    yields_pure_iff]
  constructor
  · rintro ⟨method, _, ⟨hmethod, rfl⟩, _, _, ⟨rfl, rfl⟩, rfl, rfl⟩
    exact ⟨rfl, method, hmethod, rfl⟩
  · rintro ⟨rfl, method, hmethod, rfl⟩
    exact ⟨method, allocator, ⟨hmethod, rfl⟩, env, allocator, ⟨rfl, rfl⟩, rfl, rfl⟩

/-! ## §4 Violations -/

/-- Run from an allocator, the lowering ends with a violation. -/
def Fails (lowering : Lowering α) (env : Env) (allocator : Allocator) (violation : Violation) :
    Prop :=
  (lowering.run env allocator).outcome = .error violation

section Fails

variable {violation : Violation}

/-- A value that is there already cannot fail. -/
@[simp] theorem not_fails_pure {value : α} :
    ¬ (pure value : Lowering α).Fails env allocator violation :=
  fun h => by cases h

/-- A lowering that fails does so with the violation it names. -/
@[simp] theorem fails_fail_iff {cause : Violation} :
    (fail cause : Lowering α).Fails env allocator violation ↔ cause = violation :=
  ⟨fun h => Except.error.inj h, fun h => congrArg Except.error h⟩

@[simp] theorem not_fails_report {event : Event} :
    ¬ (report event).Fails env allocator violation :=
  fun h => by cases h

@[simp] theorem not_fails_withAllocator {use : StateM Allocator α} :
    ¬ (withAllocator use).Fails env allocator violation :=
  fun h => by cases h

/-- A placement that goes wrong fails with the violation that its fault stands for. -/
@[simp] theorem fails_ofPlacement_iff {outcome : Except ArgumentFault α} :
    (ofPlacement outcome).Fails env allocator violation ↔
      ∃ fault, outcome = .error fault ∧ fault.violation = violation := by
  cases outcome with
  | ok value => simp [ofPlacement]
  | error fault => simp [ofPlacement]

/-- Two lowerings in a row end with the violation of the first, or else with that of the second,
run from what the first one yields. -/
@[simp] theorem fails_bind_iff {first : Lowering α} {next : α → Lowering β} :
    (first >>= next).Fails env allocator violation ↔
      first.Fails env allocator violation ∨
        ∃ value middle, first.Yields env allocator value middle ∧
          (next value).Fails env middle violation := by
  -- either the first run stops, and nothing is left to be run, or it yields one value
  rcases hrun : first.run env allocator with ⟨cause | value, middle, events⟩
  · have hnone : ∀ value rest, ¬ first.Yields env allocator value rest := by
      rintro value rest ⟨later, hyields⟩
      rw [hrun] at hyields
      cases hyields
    simp [Fails, run_bind_error hrun, hrun, hnone]
  · have hone : ∀ {value' rest}, first.Yields env allocator value' rest →
        value = value' ∧ middle = rest := fun h => Yields.unique ⟨events, hrun⟩ h
    simp only [Fails, run_bind_ok hrun, hrun, reduceCtorEq, false_or]
    refine ⟨fun h => ⟨value, middle, ⟨events, hrun⟩, h⟩, ?_⟩
    rintro ⟨value', middle', hfirst, h⟩
    obtain ⟨rfl, rfl⟩ := hone hfirst
    exact h

end Fails

end Subscript.Lowering
