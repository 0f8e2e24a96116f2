import Subscript.Proofs.Accounting

/-!
# Nothing that is read gets lost

All that a tree reads before any of its code has run are variables and the object whose method runs.
Lowering moves these reads: a receiver is bound and its temporary is read instead, arguments change
places, are collected or go into stores. But each of them stands in the code exactly as often as it
stands in the tree, also if the access is a target that is still to be assigned.

## Architecture

- §1 `Atom`, what a tree reads, and what code reads
- §2 what is made of operands reads what they read
- §3 the induction over expressions and accesses
- §4 every read is kept once
-/

namespace Subscript

open Code (Allocator Binding Expr Lowered)
open Source (Mode)

/-! ## §1 Atoms -/

/-- What can be read before any code has run. -/
inductive Atom where
  /-- a local variable or parameter -/
  | var (symbol : SymbolId)
  /-- the object whose method runs -/
  | self
  deriving DecidableEq

mutual

/-- What an expression reads, each as often as it is written. -/
def Source.Expr.atoms : Source.Expr → List Atom
  | .literal _ _ | .rangeAll _ => []
  | .var _ symbol => [.var symbol]
  | .self _ => [.self]
  | .field _ object _ => object.atoms
  | .property _ object _ => object.atoms
  | .indexedProperty _ object _ => object.atoms
  | .call _ receiver _ arguments => receiver.atoms ++ atomsAll arguments
  | .staticCall _ _ arguments => atomsAll arguments
  | .fromEnd _ operand => operand.atoms
  | .rangeFrom _ start => start.atoms
  | .rangeUpTo _ stop => stop.atoms
  | .rangeBetween _ start stop => start.atoms ++ stop.atoms
  | .access _ node => node.atoms
termination_by structural expr => expr

/-- What expressions read. -/
def atomsAll : List Source.Expr → List Atom
  | [] => []
  | expr :: exprs => expr.atoms ++ atomsAll exprs
termination_by structural exprs => exprs

/-- What the receiver and the arguments of an access read. -/
def Source.Access.atoms : Source.Access → List Atom
  | .indexer receiver arguments _ _ _ => receiver.atoms ++ atomsAll arguments
  | .dynamic receiver arguments _ _ _ _ => receiver.atoms ++ atomsAll arguments
  | .indexPattern receiver _ _ argument _ => receiver.atoms ++ argument.atoms
  | .rangePattern receiver _ _ argument _ => receiver.atoms ++ argument.atoms
termination_by structural node => node

end

namespace Code

/-- What an expression itself reads. -/
@[simp] def Expr.ownAtoms : Expr → List Atom
  | .var _ symbol => [.var symbol]
  | .self _ => [.self]
  | _ => []

/-- What is read anywhere in an expression, each as often as it is. -/
abbrev Expr.atoms (expr : Expr) : List Atom := expr.gather Expr.ownAtoms

/-- What is read anywhere in a lowered access: in its value, or in the stores and the operands of
its place. -/
def Lowered.atoms : Lowered → List Atom
  | .value expr => expr.atoms
  | .target assignable =>
    assignable.stores.flatMap Expr.atoms ++ assignable.place.operands.flatMap Expr.atoms

theorem Lowered.atoms_eq_gather (lowered : Lowered) :
    lowered.atoms = lowered.gather Expr.ownAtoms fun _ => [] := by
  cases lowered with
  | value expr => rfl
  | target assignable => simp [Lowered.atoms, Lowered.gather]

/-- Neither computed expressions nor temporaries are atoms, so bindings can be added without
changing what is counted. -/
theorem overlooks_atoms : Lowering.Overlooks Expr.ownAtoms where
  computed expr h := by
    cases expr with
    | var | self => cases h
    | _ => rfl
  store _ _ _ := rfl
  temp _ _ := rfl

theorem sumsBindings_atoms : SumsBindings Expr.ownAtoms fun _ => [] where
  sequence info bindings result := by simp

/-- An expression that computes something reads what its operands read. -/
theorem Expr.atoms_of_isComputed {expr : Expr} (h : expr.isComputed = true) :
    expr.atoms = expr.operands.flatMap Expr.atoms :=
  overlooks_atoms.gather_computed h

private theorem Expr.atoms_of_operand {expr operand : Expr} (h : expr.isComputed = true)
    (hoperand : expr.operands = [operand]) : expr.atoms = operand.atoms := by
  rw [atoms_of_isComputed h, hoperand, List.flatMap_singleton]

private theorem Expr.atoms_pair_perm {left right : Expr} {atoms atoms' : List Atom}
    (h : left.atoms.Perm atoms) (h' : right.atoms.Perm atoms') :
    ([left, right].flatMap Expr.atoms).Perm (atoms ++ atoms') := by
  rw [List.flatMap_cons, List.flatMap_singleton]
  exact h.append h'

end Code

open Code.Expr (atoms_of_isComputed atoms_of_operand atoms_pair_perm)

/-! ## §2 Results and their operands -/

namespace Lowering

variable {env : Env} {allocator rest : Allocator}

/-- A result reads what its operands read: the bindings that are added to them only move it. -/
private theorem Comprises.atoms_perm {result : Lowered} {operands : List Expr}
    {bindings : List Binding} (h : Comprises result operands bindings) :
    result.atoms.Perm (operands.flatMap Expr.atoms) := by
  have hperm := h.gather_perm Code.overlooks_atoms Code.sumsBindings_atoms
  rwa [← Lowered.atoms_eq_gather, List.flatMap_eq_nil_iff.mpr fun _ _ => rfl,
    List.nil_append] at hperm

private theorem atoms_readMember {value read : Expr} {member : SymbolId} {site : Location}
    (h : (readMember value member site).Yields env allocator read rest) :
    read.atoms = value.atoms :=
  gather_readMember Code.overlooks_atoms.toOverlooksComputed h

private theorem BoundPosition.atoms_eq {bound : Info} {value position : Expr}
    (h : BoundPosition env bound value position) : position.atoms = value.atoms :=
  h.gather_eq Code.overlooks_atoms.toOverlooksComputed

end Lowering

/-! ## §3 Expressions and accesses -/

open Lowering

section Induction

variable {env : Env}

mutual

/-- A lowered expression reads what the expression reads: each variable as often, and the object
whose method runs as often. -/
theorem Source.Expr.lower_atoms (hliterals : env.builder = .literals) (expr : Source.Expr)
    {allocator rest : Allocator} {lowered : Expr}
    (h : expr.lower.Yields env allocator lowered rest) : lowered.atoms.Perm expr.atoms := by
  cases expr with
  | literal info value =>
    obtain ⟨rfl, rfl⟩ := yields_pure_iff.mp h
    exact .refl _
  | var info symbol =>
    obtain ⟨rfl, rfl⟩ := yields_pure_iff.mp h
    exact .refl _
  | self info =>
    obtain ⟨rfl, rfl⟩ := yields_pure_iff.mp h
    exact .refl _
  | field info object field =>
    obtain ⟨value, hobject, rfl⟩ := Source.Expr.field_yields h
    rw [atoms_of_operand rfl rfl]
    exact object.lower_atoms hliterals hobject
  | property info object property =>
    obtain ⟨value, middle, hobject, hread⟩ := Source.Expr.property_yields h
    rw [atoms_readMember hread]
    exact object.lower_atoms hliterals hobject
  | indexedProperty info object property => exact absurd h not_yields_fail
  | call info receiver method arguments =>
    obtain ⟨value, middle, values, _, hreceiver, harguments, -, rfl⟩ :=
      Source.Expr.call_yields h
    rw [atoms_of_isComputed rfl]
    exact (receiver.lower_atoms hliterals hreceiver).append
      (lowerAll_atoms hliterals arguments harguments)
  | staticCall info method arguments =>
    obtain ⟨values, _, harguments, -, rfl⟩ := Source.Expr.staticCall_yields h
    rw [atoms_of_isComputed rfl]
    exact lowerAll_atoms hliterals arguments harguments
  | fromEnd info operand =>
    obtain ⟨constructor, value, -, hvalue, rfl⟩ := positionFromEnd_yields h
    -- the second operand says that the position is counted from the end
    rw [atoms_of_isComputed rfl, ← List.append_nil (Source.Expr.atoms _)]
    exact atoms_pair_perm (operand.lower_atoms hliterals hvalue) .nil
  | rangeAll info =>
    obtain ⟨_, -, rfl, rfl⟩ := fullRange_yields h
    exact .refl _
  -- a bound that is converted is an operand of the conversion
  | rangeFrom info bound | rangeUpTo info bound =>
    obtain ⟨_, value, position, -, hvalue, hbound, rfl⟩ := halfOpenRange_yields h
    rw [atoms_of_operand rfl rfl, hbound.atoms_eq]
    exact bound.lower_atoms hliterals hvalue
  | rangeBetween info start stop =>
    obtain ⟨_, value, _, _, value', _, -, hvalue, hbound, hvalue', hbound', rfl⟩ :=
      closedRange_yields h
    have hstart := start.lower_atoms hliterals hvalue
    have hstop := stop.lower_atoms hliterals hvalue'
    rw [← hbound.atoms_eq] at hstart
    rw [← hbound'.atoms_eq] at hstop
    rw [atoms_of_isComputed rfl]
    exact atoms_pair_perm hstart hstop
  | access info node =>
    exact node.lowerCore_atoms hliterals
      (Source.Access.lower_yields_iff.mp (Source.Expr.access_yields h)).1
termination_by structural expr

/-- Operands that are lowered one by one read what they read in the source. -/
theorem lowerAll_atoms (hliterals : env.builder = .literals) (exprs : List Source.Expr)
    {allocator rest : Allocator} {lowered : List Expr}
    (h : (lowerAll exprs).Yields env allocator lowered rest) :
    (lowered.flatMap Expr.atoms).Perm (atomsAll exprs) := by
  cases exprs with
  | nil =>
    obtain ⟨rfl, rfl⟩ := yields_pure_iff.mp h
    exact .nil
  | cons expr exprs =>
    obtain ⟨value, _, values, hvalue, hvalues, rfl⟩ := lowerAll_cons_yields h
    exact (expr.lower_atoms hliterals hvalue).append (lowerAll_atoms hliterals exprs hvalues)
termination_by structural exprs

/-- An access lowered by itself reads what its receiver and its arguments read, each as often as
it is written. All that it adds are temporaries, which are no atoms. -/
theorem Source.Access.lowerCore_atoms (hliterals : env.builder = .literals)
    (node : Source.Access) {mode : Mode} {site : Location} {allocator rest : Allocator}
    {lowered : Lowered}
    (h : (node.lowerCore Source.Expr.lower mode site).Yields env allocator lowered rest) :
    lowered.atoms.Perm node.atoms := by
  cases node with
  | indexer receiver arguments indexer shape type =>
    obtain ⟨object, first, operands, second, hreceiver, harguments, helement⟩ :=
      Source.Access.indexer_yields hliterals h
    -- an indexed property is read here and nowhere else; it is no expression by itself
    have hobject : object.atoms.Perm receiver.atoms := by
      cases receiver with
      | indexedProperty info owner property =>
        obtain ⟨value, middle, hvalue, hread⟩ := readIndexedProperty_yields hreceiver
        rw [atoms_readMember hread]
        exact owner.lower_atoms hliterals hvalue
      | _ => exact Source.Expr.lower_atoms hliterals _ hreceiver
    obtain ⟨bindings, hmade, -⟩ := helement.madeOf
    exact hmade.atoms_perm.trans
      (hobject.append (lowerAll_atoms hliterals arguments harguments))
  | dynamic receiver arguments candidates names refKinds type =>
    obtain ⟨object, middle, operands, hreceiver, harguments, rfl⟩ :=
      Source.Access.dynamic_yields h
    have hobject : object.atoms.Perm receiver.atoms := by
      cases receiver with
      | indexedProperty info owner property =>
        obtain ⟨value, hvalue, rfl⟩ := fetchIndexedProperty_yields hreceiver
        rw [atoms_of_operand rfl rfl]
        exact owner.lower_atoms hliterals hvalue
      | _ => exact Source.Expr.lower_atoms hliterals _ hreceiver
    exact (dynamicLowered_comprises object operands names refKinds _ mode).atoms_perm.trans
      (hobject.append (lowerAll_atoms hliterals arguments harguments))
  | indexPattern receiver length intIndexer? argument type =>
    obtain ⟨value, first, object, size, second, position, third, offset, fourth, element,
      hreceiver, hmeasured, hposition, hoffset, helement, rfl⟩ :=
      Source.Access.indexPattern_yields hliterals h
    -- the length is read from the receiver's temporary, so the receiver is not read again
    obtain ⟨bindings, -, -, -, hcomprises⟩ := index_madeOf hmeasured hoffset helement
    exact hcomprises.atoms_perm.trans (atoms_pair_perm (receiver.lower_atoms hliterals hreceiver)
      (argument.lower_atoms hliterals hposition))
  | rangePattern receiver length slice argument type =>
    obtain ⟨rfl, value, rfl, hpattern⟩ := Source.Access.rangePattern_yields h
    obtain ⟨object, first, objectBinding, size, second, bounds, third, range, start, stop,
      hreceiver, hmeasured, hargument, hbounded, rfl⟩ := rangePattern_yields hpattern
    have hcomprises := range_comprises slice hmeasured hbounded
    exact hcomprises.atoms_perm.trans (atoms_pair_perm (receiver.lower_atoms hliterals hreceiver)
      (argument.lower_atoms hliterals hargument))
termination_by structural node

end

end Induction

/-! ## §4 Conservation -/

/-- Whatever an access is wanted for, and whether or not it is checked, its code reads each variable
and the object whose method runs exactly as often as its receiver and its arguments do. The same
holds for the code of every expression. -/
theorem Source.lower_keeps_reads {env : Env} (hliterals : env.builder = .literals)
    (allocator : Allocator) :
    (∀ (node : Source.Access) mode site lowered rest,
      (node.lower mode site).Yields env allocator lowered rest →
        ∀ atom, lowered.atoms.count atom = node.atoms.count atom) ∧
      ∀ (expr : Source.Expr) lowered rest, expr.lower.Yields env allocator lowered rest →
        ∀ atom, lowered.atoms.count atom = expr.atoms.count atom := by
  refine ⟨?_, ?_⟩
  · intro node mode site lowered rest h
    exact (node.lowerCore_atoms hliterals (Source.Access.lower_yields_iff.mp h).1).count_eq
  · intro expr lowered rest h
    exact (expr.lower_atoms hliterals h).count_eq

/-- A call and a variable that change places: the code reads the variable once, and the code of the
access as an expression reads the object once. -/
theorem Source.lower_keeps_reads_of_swapped_arguments :
    let read : Source.Expr := .var Sample.info ⟨7⟩
    let node : Source.Access := Sample.swapped Sample.call read []
    let expr : Source.Expr := .access Sample.info node
    ∃ lowered code rest rest', (node.lower .read .unknown).Yields Sample.env {} lowered rest ∧
      expr.lower.Yields Sample.env {} code rest' ∧
        lowered.atoms.count (.var ⟨7⟩) = 1 ∧ code.atoms.count .self = 1 := by
  intro read node expr
  have hnode : (node.lower .read .unknown).Yields Sample.env {} _ _ := ⟨_, rfl⟩
  have hexpr : expr.lower.Yields Sample.env {} _ _ := ⟨_, rfl⟩
  have hliterals : Sample.env.builder = .literals := rfl
  obtain ⟨hkeeps, hkeeps'⟩ := Source.lower_keeps_reads hliterals {}
  refine ⟨_, _, _, _, hnode, hexpr, ?_, ?_⟩
  · exact (hkeeps node .read .unknown _ _ hnode (.var ⟨7⟩)).trans (by decide)
  · exact (hkeeps' expr _ _ hexpr .self).trans (by decide)

end Subscript
