import Subscript.Proofs.Assignment

/-!
# Reading and writing through references

An indexer that returns by reference gives out the storage of its elements, so an assignment needs
no setter: the access is lowered for it just as if it were read. It is the property that decides
this. Its getter is not asked: where only the getter returns by reference, the element that is read
denotes storage, but for an assignment it is left to a setter.

## Architecture

- §1 `SameRun`, lowerings that run alike
- §2 elements behind an indexer
- §3 accesses whose element is behind an indexer
-/

namespace Subscript

open Code (Allocator Binding Expr Lowered)
open Source (Mode)

namespace Lowering

/-! ## §1 Lowerings that run alike -/

/-- With these tables, both lowerings do the same from any allocator: they give the same result or
end with the same violation, and they report the same events. -/
def SameRun {α : Type} (env : Env) (first second : Lowering α) : Prop :=
  ∀ allocator, first.run env allocator = second.run env allocator

section SameRun

variable {α β : Type} {env : Env}

/-- Every lowering runs like itself. -/
theorem SameRun.refl (lowering : Lowering α) : SameRun env lowering lowering := fun _ => rfl

/-- Steps in a row run alike if they do one by one; a violation of the first ends both. -/
theorem SameRun.bind {first first' : Lowering α} (h : SameRun env first first')
    {next next' : α → Lowering β} (hnext : ∀ value, SameRun env (next value) (next' value)) :
    SameRun env (first >>= next) (first' >>= next') := by
  intro allocator
  have hsame := h allocator
  cases hrun : first.run env allocator with
  | mk outcome rest events =>
    rw [hrun] at hsame
    cases outcome with
    | error violation => rw [run_bind_error hrun, run_bind_error hsame.symm]
    | ok value => rw [run_bind_ok hrun, run_bind_ok hsame.symm, hnext value rest]

/-- What comes after the same step may differ, as long as it runs alike. -/
theorem SameRun.behind (first : Lowering α) {next next' : α → Lowering β}
    (h : ∀ value, SameRun env (next value) (next' value)) :
    SameRun env (first >>= next) (first >>= next') :=
  (SameRun.refl first).bind h

theorem SameRun.ahead {first first' : Lowering α} (h : SameRun env first first')
    (next : α → Lowering β) : SameRun env (first >>= next) (first' >>= next) :=
  h.bind fun value => .refl (next value)

/-- Reading the tables is the same step in both. -/
theorem SameRun.environment {next next' : Env → Lowering α}
    (h : SameRun env (next env) (next' env)) :
    SameRun env (environment >>= next) (environment >>= next') := h

/-- Only the property that the tables have for the indexer matters. -/
theorem SameRun.indexerOf {indexer : SymbolId} {property : Property}
    (hproperty : env.symbols.property? indexer = some property)
    {next next' : Property → Lowering α} (h : SameRun env (next property) (next' property)) :
    SameRun env (indexerOf indexer >>= next) (indexerOf indexer >>= next') := by
  intro allocator
  have henvironment : Lowering.environment.run env allocator = ⟨.ok env, allocator, []⟩ := rfl
  have hrun : (Lowering.indexerOf indexer).run env allocator = ⟨.ok property, allocator, []⟩ := by
    rw [Lowering.indexerOf, run_bind_ok henvironment, hproperty]
    rfl
  rw [run_bind_ok hrun, run_bind_ok hrun, h allocator]

end SameRun

/-! ## §2 Elements behind an indexer -/

section Elements

variable {env : Env} {allocator rest : Allocator} {receiver : Expr} {indexer : SymbolId}
  {property : Property} {arguments : List Expr} {shape : CallShape} {info : Info}

/-- An indexer that returns by reference is called in either mode. -/
theorem indexerElement_sameRun (hproperty : env.symbols.property? indexer = some property)
    (hbyRef : property.returnsByRef = true) :
    SameRun env (indexerElement receiver indexer arguments shape info .write)
      (indexerElement receiver indexer arguments shape info .read) := by
  apply SameRun.indexerOf hproperty
  rw [hbyRef]
  exact .refl _

/-- An element that is read is a call of the getter, behind what runs ahead of it. -/
theorem indexerElement_eq_call {lowered : Lowered}
    (h : (indexerElement receiver indexer arguments shape info .read).Yields env allocator lowered
      rest) :
    ∃ property getter method bindings object operands,
      env.symbols.property? indexer = some property ∧ property.getter? = some getter ∧
      env.symbols.method? getter = some method ∧
      lowered = .value (Code.sequence bindings (.call info object getter operands
        (property.returnsByRef || method.returnsByRef))) := by
  simp only [indexerElement, Mode.isWrite, Bool.false_and, Bool.false_eq_true, if_false,
    callGetter, yields_bind_iff, indexerOf_yields_iff, getterOf_yields_iff, methodOf_yields_iff,
    yields_pure_iff] at h
  obtain ⟨property, _, ⟨hproperty, rfl⟩, value, _, ⟨getter, _, ⟨hgetter, rfl⟩, method, _,
    ⟨hmethod, rfl⟩, _, _, -, _, _, -, rfl, -⟩, rfl, -⟩ := h
  exact ⟨property, getter, method, _, _, _, hproperty, hgetter, hmethod, rfl⟩

/-- An element of any other indexer is left to an assignment, whatever its getter returns. -/
theorem indexerElement_eq_target (hproperty : env.symbols.property? indexer = some property)
    (hbyRef : property.returnsByRef = false) {lowered : Lowered}
    (h : (indexerElement receiver indexer arguments shape info .write).Yields env allocator lowered
      rest) : ∃ target, lowered = .target target := by
  simp only [indexerElement, Mode.isWrite, Bool.true_and, yields_bind_iff,
    indexerOf_yields_iff] at h
  obtain ⟨property', _, ⟨hproperty', rfl⟩, h⟩ := h
  obtain rfl := Option.some.inj (hproperty.symm.trans hproperty')
  rw [hbyRef] at h
  obtain ⟨rfl, -⟩ := yields_pure_iff.mp h
  exact ⟨_, rfl⟩

end Elements

end Lowering

open Lowering

/-! ## §3 Accesses -/

namespace Source.Access

/-- The indexer behind which the element of an access is found, if it is known. -/
def indexer? : Source.Access → Option SymbolId
  | .indexer _ _ symbol _ _ => some symbol
  | .indexPattern _ _ intIndexer? _ _ => intIndexer?
  | .dynamic _ _ _ _ _ _ | .rangePattern _ _ _ _ _ => none

section Indexer

variable {env : Env} {allocator rest : Allocator} {node : Source.Access} {symbol : SymbolId}
  {mode : Mode} {site : Location}

/-- The element behind the indexer is accessed in the mode of the access, behind the bindings of a
pattern if there are any. -/
theorem lowerCore_element (hindexer : node.indexer? = some symbol) {lowered : Lowered}
    (h : (node.lowerCore Source.Expr.lower mode site).Yields env allocator lowered rest) :
    ∃ receiver arguments shape bindings middle element,
      (indexerElement receiver symbol arguments shape ⟨node.resultType, site⟩ mode).Yields env
        middle element rest ∧ runAhead bindings element = lowered := by
  cases node with
  | indexer receiver arguments symbol' shape type =>
    obtain rfl : symbol' = symbol := Option.some.inj hindexer
    simp only [lowerCore, indexerAccess, yields_bind_iff] at h
    obtain ⟨object, first, -, operands, second, -, helement⟩ := h
    exact ⟨object, operands, shape, [], second, lowered, helement, runAhead_nil lowered⟩
  | indexPattern receiver length intIndexer? argument type =>
    obtain rfl : intIndexer? = some symbol := hindexer
    -- of all that a pattern binds only the last step is of interest
    obtain ⟨-, h⟩ := expectArgument_yields h
    simp only [indexPattern_eq, accessAt, yields_bind_iff, yields_pure_iff] at h
    obtain ⟨_, _, -, _, _, -, ⟨object, size⟩, _, -, _, _, -, _, _, -, offset, _, -, _, _, -,
      element, _, helement, hresult, rfl⟩ := h
    exact ⟨_, _, _, _, _, element, helement, hresult⟩
  | dynamic | rangePattern => cases hindexer

/-- An access through an indexer that returns by reference is lowered for an assignment just as it
is read, down to the violation that it may end with. -/
theorem lower_sameRun (hindexer : node.indexer? = some symbol) {property : Property}
    (hproperty : env.symbols.property? symbol = some property)
    (hbyRef : property.returnsByRef = true) (site : Location) :
    SameRun env (node.lower .write site) (node.lower .read site) := by
  rw [node.lower_eq_lowerWith, node.lower_eq_lowerWith]
  apply SameRun.ahead
  cases node with
  | indexer receiver arguments symbol' shape type =>
    obtain rfl : symbol' = symbol := Option.some.inj hindexer
    exact .behind _ fun _ => .behind _ fun _ => indexerElement_sameRun hproperty hbyRef
  | indexPattern receiver length intIndexer? argument type =>
    obtain rfl : intIndexer? = some symbol := hindexer
    rw [lowerCore, lowerCore, indexPattern_eq, indexPattern_eq]
    apply SameRun.environment
    split
    -- both modes bind the same; only the element is accessed in the mode
    · apply SameRun.behind
      intro value
      apply SameRun.environment
      refine .behind _ fun measured => .behind _ fun position => .behind _ fun call =>
        .behind _ fun offset => .behind _ fun _ => ?_
      exact .ahead (indexerElement_sameRun hproperty hbyRef) _
    · exact .refl _
  | dynamic | rangePattern => cases hindexer

/-- An access through an indexer that is read is a call of the getter, behind the bindings of a
pattern if there are any and behind those of the call. -/
theorem lower_eq_call (hindexer : node.indexer? = some symbol) {result : Code.Expr}
    (h : (node.lower .read site).Yields env allocator (.value result) rest) :
    ∃ property getter method bindings ahead object operands,
      env.symbols.property? symbol = some property ∧ property.getter? = some getter ∧
      env.symbols.method? getter = some method ∧
      result = Code.sequence bindings (Code.sequence ahead
        (.call ⟨node.resultType, site⟩ object getter operands
          (property.returnsByRef || method.returnsByRef))) := by
  obtain ⟨_, _, _, bindings, _, element, helement, hresult⟩ :=
    lowerCore_element hindexer (lower_yields_iff.mp h).1
  obtain ⟨property, getter, method, ahead, object, operands, hproperty, hgetter, hmethod, rfl⟩ :=
    indexerElement_eq_call helement
  exact ⟨property, getter, method, bindings, ahead, object, operands, hproperty, hgetter, hmethod,
    (Lowered.value.inj hresult).symm⟩

/-- Without a reference the element is left to the assignment, also behind a pattern's bindings. -/
theorem lower_eq_target (hindexer : node.indexer? = some symbol) {property : Property}
    (hproperty : env.symbols.property? symbol = some property)
    (hbyRef : property.returnsByRef = false) {lowered : Lowered}
    (h : (node.lower .write site).Yields env allocator lowered rest) :
    ∃ target, lowered = .target target := by
  obtain ⟨_, _, _, _, _, _, helement, rfl⟩ :=
    lowerCore_element hindexer (lower_yields_iff.mp h).1
  obtain ⟨target, rfl⟩ := indexerElement_eq_target hproperty hbyRef helement
  exact ⟨_, rfl⟩

/-- Where an access through an indexer can be read, lowering it for an assignment gives the very
same value if and only if the property returns by reference. The value that is read denotes storage
also if only the getter does; the assignment is then given a place to write, and no value. -/
theorem lower_write_eq_read_iff (hindexer : node.indexer? = some symbol) {result : Code.Expr}
    (hread : (node.lower .read site).Yields env allocator (.value result) rest) :
    ∃ property getter method, env.symbols.property? symbol = some property ∧
      property.getter? = some getter ∧ env.symbols.method? getter = some method ∧
      result.isAddressable = (property.returnsByRef || method.returnsByRef) ∧
      ((node.lower .write site).Yields env allocator (.value result) rest ↔
        property.returnsByRef = true) ∧
      (property.returnsByRef = false → ∀ lowered middle,
        (node.lower .write site).Yields env allocator lowered middle →
          ∃ target, lowered = .target target) := by
  obtain ⟨property, getter, method, bindings, ahead, object, operands, hproperty, hgetter, hmethod,
    hresult⟩ := lower_eq_call hindexer hread
  refine ⟨property, getter, method, hproperty, hgetter, hmethod, ?_, ⟨?_, ?_⟩, ?_⟩
  · rw [hresult, isAddressable_sequence, isAddressable_sequence, Code.Expr.isAddressable]
  -- a value for the assignment is no place, so the property gave out a reference
  · intro hwrite
    by_contra hbyRef
    obtain ⟨target, htarget⟩ :=
      lower_eq_target hindexer hproperty (Bool.eq_false_iff.mpr hbyRef) hwrite
    cases htarget
  · intro hbyRef
    obtain ⟨events, hrun⟩ := hread
    exact ⟨events, (lower_sameRun hindexer hproperty hbyRef site allocator).trans hrun⟩
  · intro hbyRef lowered middle hwrite
    exact lower_eq_target hindexer hproperty hbyRef hwrite

end Indexer

end Source.Access

namespace Sample

/-- A program with an indexer `Item` of one parameter, where property and getter may return by
reference. There is no setter. -/
def references (property getter : Bool) : Env where
  symbols :=
    let accessed : Property :=
      { name := "Item", declaringType := .invalid, type := .invalid, params := []
        getter? := some ⟨1⟩, setter? := none, returnsByRef := property }
    let reader : Method :=
      { name := "get_Item", declaringType := .invalid, returnType := .invalid
        params := [{ name := "p", type := .invalid }], returnsByRef := getter }
    ⟨#[.property accessed, .method reader]⟩
  types := .empty
  members := .empty

/-- The access `this[0]`. -/
def item : Source.Access :=
  .indexer (.self info) [.literal info (.int 0)] ⟨0⟩ .positional .invalid

end Sample

/-- Property and getter agree that `Item` returns by reference, so an assignment is given the call
that a read is given. -/
theorem Source.Access.lower_write_eq_read_of_references :
    let env := Sample.references true true
    ∃ result rest, (Sample.item.lower .read .unknown).Yields env {} (.value result) rest ∧
      (Sample.item.lower .write .unknown).Yields env {} (.value result) rest := by
  intro env
  have hread : (Sample.item.lower .read .unknown).Yields env {} (.value _) _ := ⟨_, rfl⟩
  obtain ⟨property, _, _, hproperty, -, -, -, hiff, -⟩ := lower_write_eq_read_iff rfl hread
  cases hproperty
  exact ⟨_, _, hread, hiff.mpr rfl⟩

/-- Only the getter of `Item` returns by reference: the element that is read denotes storage, but an
assignment is left to a setter that does not exist. -/
theorem Source.Access.lower_write_ne_read_of_getter :
    let env := Sample.references false true
    ∃ result rest, (Sample.item.lower .read .unknown).Yields env {} (.value result) rest ∧
      result.isAddressable = true ∧
      ¬ (Sample.item.lower .write .unknown).Yields env {} (.value result) rest ∧
      ∃ target middle, (Sample.item.lower .write .unknown).Yields env {} (.target target) middle ∧
        ∃ receiver arguments, target.place =
          .indexer receiver ⟨0⟩ (some ⟨1⟩) none arguments .positional := by
  intro env
  have hread : (Sample.item.lower .read .unknown).Yields env {} (.value _) _ := ⟨_, rfl⟩
  have hwrite : (Sample.item.lower .write .unknown).Yields env {} (.target _) _ := ⟨_, rfl⟩
  refine ⟨_, _, hread, rfl, fun hsame => ?_, _, _, hwrite, _, _, rfl⟩
  obtain ⟨hlowered, -⟩ := hwrite.unique hsame
  cases hlowered

end Subscript
