import Subscript.Proofs.Guard

/-!
# What the check rejects

The check at the end of every access rejects one thing only: an access through an indexer that has
to bind an argument its getter shares, although the lowered argument has no storage to share. Which
accesses those are is read off the source tree, `Misspills`; everything else that the check looks
for, such as a temporary read too early or declared twice, never occurs in lowered code.

## Architecture

- §1 `After`, what holds once a lowering has succeeded
- §2 `Misspills`, over expressions and accesses
- §3 misspilled arguments are exactly what is bound amiss
- §4 the check passes or stops
-/

namespace Subscript

open Code (Allocator Binding Expr Fault Lowered)
open Lowering
open Source (Mode)

/-! ## §1 After a lowering -/

/-- The lowering succeeds, and its result and the allocator it leaves have a property. -/
def Lowering.After {α : Type} (lowering : Lowering α) (env : Env) (allocator : Allocator)
    (holds : α → Allocator → Prop) : Prop :=
  ∃ result rest, lowering.Yields env allocator result rest ∧ holds result rest

/-- What holds after a lowering holds of its one result. -/
theorem Lowering.Yields.after_iff {α : Type} {lowering : Lowering α} {env : Env}
    {allocator rest : Allocator} {result : α} (h : lowering.Yields env allocator result rest)
    {holds : α → Allocator → Prop} :
    lowering.After env allocator holds ↔ holds result rest := by
  constructor
  · rintro ⟨result', rest', h', hholds⟩
    obtain ⟨rfl, rfl⟩ := h.unique h'
    exact hholds
  · intro hholds
    exact ⟨result, rest, h, hholds⟩

/-! ## §2 Misspilled arguments -/

mutual

/-- Somewhere in the expression an access through an indexer binds an argument by storage that its
lowered form does not have. The allocator is the one that the expression is lowered from. -/
def Source.Expr.Misspills (env : Env) : Source.Expr → Allocator → Prop
  | .literal _ _, _ | .var _ _, _ | .self _, _ | .rangeAll _, _ => False
  | .field _ object _, allocator | .property _ object _, allocator
  | .indexedProperty _ object _, allocator => object.Misspills env allocator
  | .call _ receiver _ arguments, allocator =>
    receiver.Misspills env allocator ∨
      receiver.lower.After env allocator fun _ middle => MisspillsAll env arguments middle
  | .staticCall _ _ arguments, allocator => MisspillsAll env arguments allocator
  | .fromEnd _ operand, allocator => operand.Misspills env allocator
  | .rangeFrom _ bound, allocator | .rangeUpTo _ bound, allocator => bound.Misspills env allocator
  | .rangeBetween _ start stop, allocator =>
    start.Misspills env allocator ∨
      start.lower.After env allocator fun _ middle => stop.Misspills env middle
  -- a nested access is read, whatever the access around it is wanted for
  | .access _ node, allocator => node.Misspills env .read allocator
termination_by structural expr => expr

/-- The same for one of several expressions, lowered from left to right. -/
def MisspillsAll (env : Env) : List Source.Expr → Allocator → Prop
  | [], _ => False
  | expr :: exprs, allocator =>
    expr.Misspills env allocator ∨
      expr.lower.After env allocator fun _ middle => MisspillsAll env exprs middle
termination_by structural exprs => exprs

/-- The same for an access: its receiver, its arguments and, where it goes through an indexer, the
access itself. -/
def Source.Access.Misspills (env : Env) : Source.Access → Mode → Allocator → Prop
  | .indexer receiver arguments indexer shape _, mode, allocator =>
    receiver.Misspills env allocator ∨
      (receiver.indexerReceiver Source.Expr.lower).After env allocator fun _ middle =>
        MisspillsAll env arguments middle ∨
          (lowerAll arguments).After env middle fun operands _ =>
            IndexerMisspills env indexer operands shape mode
  | .dynamic receiver arguments _ _ _ _, _, allocator =>
    receiver.Misspills env allocator ∨
      (receiver.dynamicReceiver Source.Expr.lower).After env allocator fun _ middle =>
        MisspillsAll env arguments middle
  -- the receiver of a pattern and its length are bound before the argument is lowered
  | .indexPattern receiver _ _ argument _, _, allocator
  | .rangePattern receiver _ _ argument _, _, allocator =>
    receiver.Misspills env allocator ∨
      receiver.lower.After env allocator fun _ middle =>
        argument.Misspills env (middle.advance 2)
termination_by structural node => node

end

/-! ## §3 What is bound amiss -/

section Amiss

variable {env : Env} {allocator rest : Allocator}

private theorem append_ne_nil_iff {α : Type} {xs ys : List α} :
    xs ++ ys ≠ [] ↔ xs ≠ [] ∨ ys ≠ [] := by
  rw [ne_eq, List.append_eq_nil_iff, not_and_or]

private theorem Lowering.Measured.rest_eq {value : Expr} {length : SymbolId} {site : Location}
    {holding : Code.Holding} {object size : Binding}
    (h : Measured env value length site holding allocator object size rest) :
    rest = allocator.advance 2 :=
  h.madeOf.1.rest_eq

mutual

/-- Something in a lowered expression is bound amiss exactly if an argument is misspilled. The
left side is read off the code, the right side off the source. -/
theorem Source.Expr.misbound_ne_nil_iff (hliterals : env.builder = .literals)
    (expr : Source.Expr) {allocator rest : Allocator} {lowered : Expr}
    (h : expr.lower.Yields env allocator lowered rest) :
    lowered.misbound ≠ [] ↔ expr.Misspills env allocator := by
  cases expr with
  | literal | var | self =>
    obtain ⟨rfl, rfl⟩ := yields_pure_iff.mp h
    simp [Source.Expr.Misspills]
  | field info object field =>
    obtain ⟨value, hobject, rfl⟩ := Source.Expr.field_yields h
    rw [Source.Expr.Misspills, ← object.misbound_ne_nil_iff hliterals hobject]
    simp
  | property info object property =>
    obtain ⟨value, _, hobject, hread⟩ := Source.Expr.property_yields h
    rw [Source.Expr.Misspills, ← object.misbound_ne_nil_iff hliterals hobject, Expr.misbound,
      gather_readMember Code.overlooksComputed_misbound hread]
  | indexedProperty => exact absurd h not_yields_fail
  | call info receiver method arguments =>
    obtain ⟨value, middle, values, _, hreceiver, harguments, -, rfl⟩ :=
      Source.Expr.call_yields h
    -- the arguments are judged from where the receiver stopped, hence `after_iff`
    rw [Source.Expr.Misspills, ← receiver.misbound_ne_nil_iff hliterals hreceiver,
      hreceiver.after_iff, ← misboundAll_ne_nil_iff hliterals arguments harguments,
      ← append_ne_nil_iff]
    simp
  | staticCall info method arguments =>
    obtain ⟨values, _, harguments, -, rfl⟩ := Source.Expr.staticCall_yields h
    rw [Source.Expr.Misspills, ← misboundAll_ne_nil_iff hliterals arguments harguments]
    simp
  | fromEnd info operand =>
    obtain ⟨constructor, value, -, hvalue, rfl⟩ := positionFromEnd_yields h
    rw [Source.Expr.Misspills, ← operand.misbound_ne_nil_iff hliterals hvalue]
    simp
  | rangeAll info =>
    obtain ⟨_, -, rfl, rfl⟩ := fullRange_yields h
    simp [Source.Expr.Misspills]
  -- a conversion to a position binds nothing
  | rangeFrom info bound | rangeUpTo info bound =>
    obtain ⟨_, value, _, -, hvalue, hbound, rfl⟩ := halfOpenRange_yields h
    rw [Source.Expr.Misspills, ← bound.misbound_ne_nil_iff hliterals hvalue, Expr.misbound,
      Expr.misbound, ← hbound.gather_eq Code.overlooksComputed_misbound]
    simp
  | rangeBetween info start stop =>
    obtain ⟨_, value, _, _, value', _, -, hvalue, hbound, hvalue', hbound', rfl⟩ :=
      closedRange_yields h
    rw [Source.Expr.Misspills, ← start.misbound_ne_nil_iff hliterals hvalue, hvalue.after_iff,
      ← stop.misbound_ne_nil_iff hliterals hvalue', Expr.misbound, Expr.misbound, Expr.misbound,
      ← hbound.gather_eq Code.overlooksComputed_misbound,
      ← hbound'.gather_eq Code.overlooksComputed_misbound, ← append_ne_nil_iff]
    simp
  | access info node =>
    exact node.misbound_ne_nil_iff hliterals (Source.Expr.access_yields h)
termination_by structural expr

/-- Something in a list of lowered operands is bound amiss exactly if an argument is misspilled in
one of them. -/
theorem misboundAll_ne_nil_iff (hliterals : env.builder = .literals) (exprs : List Source.Expr)
    {allocator rest : Allocator} {lowered : List Expr}
    (h : (lowerAll exprs).Yields env allocator lowered rest) :
    lowered.flatMap Expr.misbound ≠ [] ↔ MisspillsAll env exprs allocator := by
  cases exprs with
  | nil =>
    obtain ⟨rfl, rfl⟩ := yields_pure_iff.mp h
    simp [MisspillsAll]
  | cons expr exprs =>
    obtain ⟨value, middle, values, hvalue, hvalues, rfl⟩ := lowerAll_cons_yields h
    rw [MisspillsAll, ← expr.misbound_ne_nil_iff hliterals hvalue, hvalue.after_iff,
      ← misboundAll_ne_nil_iff hliterals exprs hvalues, List.flatMap_cons, append_ne_nil_iff]
termination_by structural exprs

/-- Something in a lowered access is bound amiss exactly if an argument is misspilled, in the
access or in one that is nested in it. Patterns bind copies and receivers that have storage, which
are never amiss. -/
theorem Source.Access.misbound_ne_nil_iff (hliterals : env.builder = .literals)
    (node : Source.Access) {mode : Mode} {site : Location} {allocator rest : Allocator}
    {lowered : Lowered} (h : (node.lower mode site).Yields env allocator lowered rest) :
    lowered.misbound ≠ [] ↔ node.Misspills env mode allocator := by
  have hcore := (Source.Access.lower_yields_iff.mp h).1
  cases node with
  | indexer receiver arguments indexer shape type =>
    obtain ⟨object, first, operands, second, hreceiver, harguments, helement⟩ :=
      Source.Access.indexer_yields hliterals hcore
    have hobject : object.misbound ≠ [] ↔ receiver.Misspills env allocator := by
      cases receiver with
      | indexedProperty info owner property =>
        obtain ⟨value, middle, hvalue, hread⟩ := readIndexedProperty_yields hreceiver
        rw [Source.Expr.Misspills, ← owner.misbound_ne_nil_iff hliterals hvalue, Expr.misbound,
          gather_readMember Code.overlooksComputed_misbound hread]
      | _ => exact Source.Expr.misbound_ne_nil_iff hliterals _ hreceiver
    -- what is amiss is so in the receiver, in an argument or in the bindings of the call
    obtain ⟨bindings, hmade, hmisbound⟩ := helement.madeOf
    rw [Source.Access.Misspills, hreceiver.after_iff, harguments.after_iff,
      hmade.misbound_ne_nil_iff, hobject, misboundAll_ne_nil_iff hliterals arguments harguments,
      hmisbound]
  | dynamic receiver arguments candidates names refKinds type =>
    obtain ⟨object, middle, operands, hreceiver, harguments, rfl⟩ :=
      Source.Access.dynamic_yields hcore
    have hobject : object.misbound ≠ [] ↔ receiver.Misspills env allocator := by
      cases receiver with
      | indexedProperty info owner property =>
        obtain ⟨value, hvalue, rfl⟩ := fetchIndexedProperty_yields hreceiver
        rw [Source.Expr.Misspills, ← owner.misbound_ne_nil_iff hliterals hvalue]
        simp
      | _ => exact Source.Expr.misbound_ne_nil_iff hliterals _ hreceiver
    -- nothing is bound for an access at run time
    have hcomprises := dynamicLowered_comprises object operands names refKinds ⟨type, site⟩ mode
    rw [Source.Access.Misspills, hreceiver.after_iff, hcomprises.misbound_ne_nil_iff, hobject,
      misboundAll_ne_nil_iff hliterals arguments harguments]
    simp
  | indexPattern receiver length intIndexer? argument type =>
    obtain ⟨value, first, object, size, second, position, third, offset, fourth, element,
      hreceiver, hmeasured, hposition, hoffset, helement, rfl⟩ :=
      Source.Access.indexPattern_yields hliterals hcore
    obtain ⟨bindings, -, -, hnone, hcomprises⟩ := index_madeOf hmeasured hoffset helement
    rw [Source.Access.Misspills, hreceiver.after_iff, ← hmeasured.rest_eq,
      ← receiver.misbound_ne_nil_iff hliterals hreceiver,
      ← argument.misbound_ne_nil_iff hliterals hposition, hcomprises.misbound_ne_nil_iff, hnone]
    simp
  | rangePattern receiver length slice argument type =>
    obtain ⟨rfl, result, rfl, hpattern⟩ := Source.Access.rangePattern_yields hcore
    obtain ⟨value, first, object, size, second, bounds, third, range, start, stop, hreceiver,
      hmeasured, hargument, hbounded, rfl⟩ := rangePattern_yields hpattern
    have hcomprises := range_comprises slice hmeasured hbounded
    rw [Source.Access.Misspills, hreceiver.after_iff, ← hmeasured.rest_eq,
      ← receiver.misbound_ne_nil_iff hliterals hreceiver,
      ← argument.misbound_ne_nil_iff hliterals hargument, hcomprises.misbound_ne_nil_iff,
      range_misbound hmeasured hbounded]
    simp
termination_by structural node

end

end Amiss

/-! ## §4 What the check does -/

/-- Turning the check on changes nothing, unless an argument is misspilled; then it ends the
lowering, and all it reports are temporaries bound by storage that their initializers do not have.
Nothing else is ever wrong with a lowered access, be it a value or a place to assign to. The
options under which the access was lowered before do not matter; the count of temporaries must not
wrap around. -/
theorem Source.Access.check_rejects_only_misspilled {env : Env}
    (hliterals : env.builder = .literals) (node : Source.Access) (mode : Mode) (site : Location)
    {allocator rest : Allocator} {lowered : Lowered}
    (h : (node.lower mode site).Yields env allocator lowered rest)
    (hroom : allocator.HasRoom lowered.declared.length) :
    (¬ node.Misspills env mode allocator →
        (node.lower mode site).Yields env.checked allocator lowered rest) ∧
      (node.Misspills env mode allocator → (node.lower mode site).Stops env.checked allocator) ∧
      ∀ fault ∈ lowered.faults, fault.kind = .invalidRefBinding := by
  have hself := node.lower_selfContained hliterals h
  -- temporaries handed out with room left are different from each other
  have hnodup : lowered.declared.Nodup := hself.handsOut.nodup hroom
  have hguarded := node.lower_guarded hliterals h hnodup
  have hamiss := node.misbound_ne_nil_iff hliterals h
  refine ⟨fun hnot => ?_, fun hmisspills => ?_, fun fault => ?_⟩
  · exact hguarded.passes (mt hamiss.mp hnot)
  · exact hguarded.stops (hamiss.mpr hmisspills)
  · exact Lowered.kind_of_mem_faults hself.wellScoped hnodup

/-- A getter whose arguments change places, the first of them a call given by reference: the check
ends the lowering. Given as a copy, the call passes. -/
theorem Source.Access.check_rejects_call_given_by_reference :
    let env : Env := { Sample.env with options := { validates := false } }
    let node (first : RefKind) := Sample.swapped Sample.call Sample.call [first, .byValue]
    ((node .byRef).Misspills env .read {} ∧
        ((node .byRef).lower .read .unknown).Stops env.checked {}) ∧
      ¬ (node .byValue).Misspills env .read {} ∧
        ∃ lowered rest,
          ((node .byValue).lower .read .unknown).Yields env.checked {} lowered rest := by
  intro env node
  have hliterals : env.builder = .literals := rfl
  have hshared : ((node .byRef).lower .read .unknown).Yields env {} _ _ := ⟨_, rfl⟩
  have hcopied : ((node .byValue).lower .read .unknown).Yields env {} _ _ := ⟨_, rfl⟩
  have hmisspills : (node .byRef).Misspills env .read {} :=
    ((node .byRef).misbound_ne_nil_iff hliterals hshared).mp (by decide)
  have hnot : ¬ (node .byValue).Misspills env .read {} :=
    fun h => ((node .byValue).misbound_ne_nil_iff hliterals hcopied).mpr h (by decide)
  obtain ⟨-, hstops, -⟩ :=
    check_rejects_only_misspilled hliterals (node .byRef) .read .unknown hshared (by decide)
  obtain ⟨hpasses, -, -⟩ :=
    check_rejects_only_misspilled hliterals (node .byValue) .read .unknown hcopied (by decide)
  exact ⟨⟨hmisspills, hstops hmisspills⟩, hnot, _, _, hpasses hnot⟩

end Subscript
