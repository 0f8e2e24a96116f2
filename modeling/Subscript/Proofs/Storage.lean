import Subscript.Proofs.Acceptance
import Subscript.Proofs.References
import Subscript.Proofs.Rejection

/-!
# Storage through lowering

Some source expressions denote storage: a write to them, or through a reference to them, is seen
later. Lowering tells such expressions by their shape. It looks at no types, so it overlooks the
storage of a field whose object was not in storage itself, but is a reference; and it takes no slice
for storage. Everything else that denotes storage still does so when it is lowered. A value that has
to be bound is then aliased and not copied, and the check has nothing to say about it.

## Architecture

- §1 `hasStorage`, by the rule of the source or by the one that lowering follows
- §2 classes and types of lowered expressions
- §3 what runs ahead of a lowered access
- §4 `KeepsStorage`
- §5 a small program with storage
-/

namespace Subscript

open Code (Allocator Binding Holding Lowered)
open Lowering
open Source (Mode)

/-! ## §1 What denotes storage -/

/-- Whether a symbol is a method that returns by reference. -/
def SymbolTable.returnsByRef (symbols : SymbolTable) (method : SymbolId) : Bool :=
  (symbols.method? method).any (·.returnsByRef)

/-- Whether reading a property gives storage: the property says so, or its getter does. -/
def SymbolTable.readsByRef (symbols : SymbolTable) (property : Property) : Bool :=
  property.returnsByRef || property.getter?.any symbols.returnsByRef

/-- Whether a member that is read denotes storage; a field does if its object keeps it there. -/
def SymbolTable.storesMember (symbols : SymbolTable) (member : SymbolId) (ofObject : Bool) :
    Bool :=
  match symbols.get? member with
  | some (.property property) => symbols.readsByRef property
  | some (.field _) => ofObject
  | _ => false

namespace Source

/-- What denotes storage besides variables, elements of arrays and what is given out by
reference. -/
structure StorageRule where
  /-- whether objects of a type keep their fields in storage, wherever the objects come from -/
  owns : TypeId → Bool
  /-- whether a slice denotes storage if the method that cuts it out returns by reference -/
  slices : Bool

/-- The rule of the source: an object of reference type has its fields in storage. -/
def StorageRule.declared (types : TypeTable) : StorageRule :=
  ⟨fun type => !types.isValueType type, true⟩

/-- The rule that lowering follows, which looks at no types and knows no slices. -/
def StorageRule.kept : StorageRule := ⟨fun _ => false, false⟩

section HasStorage

variable (rule : StorageRule) (symbols : SymbolTable)

/-- Whether the element that is accessed denotes storage. -/
def Access.hasStorage : Source.Access → Bool
  | .indexer _ _ symbol _ _ | .indexPattern _ _ (some symbol) _ _ =>
    (symbols.property? symbol).any symbols.readsByRef
  | .indexPattern _ _ none _ _ => true
  | .rangePattern _ _ slice _ _ => rule.slices && symbols.returnsByRef slice
  -- what an access gives at run time is not known
  | .dynamic _ _ _ _ _ _ => false

/-- Whether the expression denotes storage. -/
def Expr.hasStorage : Source.Expr → Bool
  | .var _ _ | .self _ => true
  | .field _ object _ => object.hasStorage || rule.owns object.type
  | .property _ object member =>
    symbols.storesMember member (object.hasStorage || rule.owns object.type)
  | .call _ _ method _ | .staticCall _ method _ => symbols.returnsByRef method
  | .access _ node => node.hasStorage rule symbols
  | .literal _ _ | .indexedProperty _ _ _ | .fromEnd _ _ | .rangeAll _ | .rangeFrom _ _
  | .rangeUpTo _ _ | .rangeBetween _ _ _ => false
termination_by structural expr => expr

end HasStorage

/-- Whether the value is the same whenever the expression is evaluated. -/
def Expr.isFixed : Source.Expr → Bool
  | .literal _ _ | .self _ => true
  | _ => false

/-- What stands in front of the brackets, as an expression of its own: an indexed property is read
like any property. -/
def Expr.inFront : Source.Expr → Source.Expr
  | .indexedProperty info object member => .property info object member
  | expr => expr

/-- How a receiver is bound: a value type is aliased if lowering sees its storage. -/
def Expr.holding (env : Env) (receiver : Source.Expr) : Holding :=
  if env.types.isValueType (receiver.codeType env) && receiver.hasStorage .kept env.symbols then
    .storage
  else
    .copy

/-- A member has storage no less if its object has. -/
private theorem storesMember_of_imp {symbols : SymbolTable} {member : SymbolId}
    {ofObject ofObject' : Bool} (himp : ofObject = true → ofObject' = true)
    (h : symbols.storesMember member ofObject = true) :
    symbols.storesMember member ofObject' = true := by
  unfold SymbolTable.storesMember at h ⊢
  split at h
  · exact h
  · exact himp h
  · exact h

/-- Whatever denotes storage for lowering does so for the source. The converse fails for members
of results that are passed by value, and for slices. -/
theorem Expr.hasStorage_declared (types : TypeTable) (symbols : SymbolTable) (expr : Source.Expr)
    (h : expr.hasStorage .kept symbols = true) :
    expr.hasStorage (.declared types) symbols = true := by
  -- a value type keeps its members in its own storage, by either rule; objects of other types do so
  -- by the declared one
  have himp : ∀ object : Source.Expr, (object.hasStorage .kept symbols = true →
      object.hasStorage (.declared types) symbols = true) →
      (object.hasStorage .kept symbols || StorageRule.kept.owns object.type) = true →
      (object.hasStorage (.declared types) symbols ||
        (StorageRule.declared types).owns object.type) = true := by
    intro object ih hobject
    rw [ih (by simpa [StorageRule.kept] using hobject), Bool.true_or]
  cases expr with
  | field info object field =>
    exact himp object (object.hasStorage_declared types symbols) h
  | property info object member =>
    exact storesMember_of_imp (himp object (object.hasStorage_declared types symbols)) h
  | access info node =>
    cases node with
    | rangePattern => cases h
    | indexPattern receiver length intIndexer? => cases intIndexer? <;> exact h
    | indexer | dynamic => exact h
  | _ => exact h
termination_by structural expr

end Source

/-! ## §2 Lowered expressions -/

section Lowered

variable {env : Env} {allocator rest : Allocator}

/-- A sequence is never stable: its result is not, and stores are effects. -/
private theorem isStable_sequence (bindings : List Binding) {result : Code.Expr}
    (h : result.isStable = false) : (Code.sequence bindings result).isStable = false := by
  cases bindings with
  | nil => exact h
  | cons => rfl

private theorem SymbolTable.readsByRef_eq {symbols : SymbolTable} {property : Property}
    {getter : SymbolId} {method : Method} (hgetter : property.getter? = some getter)
    (hmethod : symbols.method? getter = some method) :
    symbols.readsByRef property = (property.returnsByRef || method.returnsByRef) := by
  simp [SymbolTable.readsByRef, SymbolTable.returnsByRef, hgetter, hmethod]

private theorem SymbolTable.returnsByRef_eq {symbols : SymbolTable} {symbol : SymbolId}
    {method : Method} (hmethod : symbols.method? symbol = some method) :
    symbols.returnsByRef symbol = method.returnsByRef := by
  simp [SymbolTable.returnsByRef, hmethod]

/-- A lowered expression denotes storage if the source does by the rule that is kept; it is as
stable as the source and has the type that the source announces. -/
structure Source.Expr.Resembles (env : Env) (expr : Source.Expr) (value : Code.Expr) : Prop where
  addressable : value.isAddressable = expr.hasStorage .kept env.symbols
  stable : value.isStable = expr.isFixed
  type : value.type = expr.codeType env

/-- How a receiver is bound shows in the source. -/
private theorem Source.Expr.Resembles.receiverHolding {receiver : Source.Expr} {value : Code.Expr}
    (h : receiver.Resembles env value) :
    Lowering.receiverHolding env.types value = receiver.holding env := by
  rw [Lowering.receiverHolding, h.type, h.addressable, Source.Expr.holding]

/-- What a property and its getter say together is what is looked up. The getter is looked up only
if the property does not say so itself, but then it decides. -/
private theorem Lowering.ReadsByRef.eq_readsByRef {property : Property} {getter : SymbolId}
    {byRef : Bool} (hgetter : property.getter? = some getter)
    (h : ReadsByRef env property getter byRef) : byRef = env.symbols.readsByRef property := by
  cases h with
  | property hbyRef => rw [SymbolTable.readsByRef, hbyRef, Bool.true_or]
  | getter hbyRef hmethod =>
    rw [SymbolTable.readsByRef_eq hgetter hmethod, hbyRef, Bool.false_or]

/-- A read of a member denotes storage if the declaration of the member says so, and has to be
evaluated again each time. -/
private theorem storesMember_readMember {object read : Code.Expr} {member : SymbolId}
    {site : Location} (h : (readMember object member site).Yields env allocator read rest) :
    read.isAddressable = env.symbols.storesMember member object.isAddressable ∧
      read.isStable = false := by
  obtain ⟨-, ⟨property, getter, byRef, hsymbol, hgetter, hbyRef, rfl⟩ | ⟨field, hsymbol, rfl⟩⟩ :=
    readMember_yields_iff.mp h
  · rw [SymbolTable.storesMember, hsymbol]
    exact ⟨hbyRef.eq_readsByRef hgetter, rfl⟩
  · rw [SymbolTable.storesMember, hsymbol]
    exact ⟨rfl, rfl⟩

/-- A member that was read denotes storage if its object lets it. -/
private theorem Source.Expr.Resembles.readMember {object : Source.Expr} {value read : Code.Expr}
    (h : object.Resembles env value) {info : Info} {member : SymbolId}
    (hread : (readMember value member info.location).Yields env allocator read rest) :
    (Source.Expr.property info object member).Resembles env read := by
  obtain ⟨haddressable, hstable⟩ := storesMember_readMember hread
  refine ⟨?_, hstable, readMember_type hread⟩
  rw [haddressable, h.addressable, Source.Expr.hasStorage, Source.StorageRule.kept, Bool.or_false]

/-- The element that an access gives denotes storage if the access says so, and has to be
evaluated again each time. -/
theorem Source.Access.isAddressable_lower (hliterals : env.builder = .literals)
    {node : Source.Access} {site : Location} {value : Code.Expr}
    (h : (node.lower .read site).Yields env allocator (.value value) rest) :
    value.isAddressable = node.hasStorage .kept env.symbols ∧ value.isStable = false := by
  -- behind an indexer stands the call of its getter, by reference or not
  have hindexer : ∀ symbol, node.indexer? = some symbol →
      value.isAddressable = (env.symbols.property? symbol).any env.symbols.readsByRef ∧
        value.isStable = false := by
    intro symbol hsymbol
    obtain ⟨property, getter, method, bindings, ahead, object, operands, hproperty, hgetter,
      hmethod, rfl⟩ := lower_eq_call hsymbol h
    refine ⟨?_, isStable_sequence _ (isStable_sequence _ rfl)⟩
    rw [isAddressable_sequence, isAddressable_sequence, hproperty, Option.any_some,
      SymbolTable.readsByRef_eq hgetter hmethod, Code.Expr.isAddressable]
  have hcore := (Source.Access.lower_yields_iff.mp h).1
  cases node with
  | indexer receiver arguments symbol shape type => exact hindexer symbol rfl
  | dynamic receiver arguments candidates names refKinds type =>
    obtain ⟨object, middle, operands, -, -, hvalue⟩ := Source.Access.dynamic_yields hcore
    obtain rfl := Lowered.value.inj hvalue
    exact ⟨rfl, rfl⟩
  | indexPattern receiver length intIndexer? argument type =>
    cases intIndexer? with
    | some symbol => exact hindexer symbol rfl
    | none =>
      obtain ⟨_, _, object, size, _, _, _, offset, _, element, -, -, -, -, helement, hresult⟩ :=
        Source.Access.indexPattern_yields hliterals hcore
      cases helement with
      | indexer hnone => cases hnone
      | array =>
        obtain rfl := Lowered.value.inj hresult
        exact ⟨rfl, rfl⟩
  -- a slice is called by value, whatever its method declares
  | rangePattern receiver length slice argument type =>
    obtain ⟨-, value', hvalue, hpattern⟩ := Source.Access.rangePattern_yields hcore
    obtain rfl := Lowered.value.inj hvalue
    obtain ⟨_, _, _, _, _, _, _, _, _, _, -, -, -, -, rfl⟩ := Lowering.rangePattern_yields hpattern
    exact ⟨rfl, rfl⟩

/-- Lowering an expression keeps its storage, by the rule that looks at no types. By induction on
the expression: members and accesses inherit from their receivers, calls follow the flag of the
callee. -/
theorem Source.Expr.lower_resembles (hliterals : env.builder = .literals) (expr : Source.Expr)
    {allocator rest : Allocator} {value : Code.Expr}
    (h : expr.lower.Yields env allocator value rest) : expr.Resembles env value := by
  have htype := Source.Expr.lower_type hliterals h
  cases expr with
  | literal | var | self =>
    obtain ⟨rfl, rfl⟩ := yields_pure_iff.mp h
    exact ⟨rfl, rfl, rfl⟩
  | field info object field =>
    obtain ⟨inner, hobject, rfl⟩ := Source.Expr.field_yields h
    refine ⟨?_, rfl, rfl⟩
    rw [Code.Expr.isAddressable, (object.lower_resembles hliterals hobject).addressable,
      Source.Expr.hasStorage, Source.StorageRule.kept, Bool.or_false]
  | property info object member =>
    obtain ⟨inner, _, hobject, hread⟩ := Source.Expr.property_yields h
    exact (object.lower_resembles hliterals hobject).readMember hread
  | indexedProperty => exact absurd h not_yields_fail
  | call info receiver method arguments =>
    obtain ⟨_, _, _, found, -, -, hmethod, rfl⟩ := Source.Expr.call_yields h
    exact ⟨(SymbolTable.returnsByRef_eq hmethod).symm, rfl, rfl⟩
  | staticCall info method arguments =>
    obtain ⟨_, found, -, hmethod, rfl⟩ := Source.Expr.staticCall_yields h
    exact ⟨(SymbolTable.returnsByRef_eq hmethod).symm, rfl, rfl⟩
  | fromEnd info operand =>
    obtain ⟨_, _, -, -, rfl⟩ := positionFromEnd_yields h
    exact ⟨rfl, rfl, rfl⟩
  -- calls of the library are calls by value
  | rangeAll | rangeFrom | rangeUpTo =>
    obtain ⟨_, _, -, -, rfl⟩ := openRange_yields h
    exact ⟨rfl, rfl, rfl⟩
  | rangeBetween info start stop =>
    obtain ⟨_, _, _, _, _, _, -, -, -, -, -, rfl⟩ := closedRange_yields h
    exact ⟨rfl, rfl, rfl⟩
  | access info node =>
    obtain ⟨haddressable, hstable⟩ :=
      Source.Access.isAddressable_lower hliterals (Source.Expr.access_yields h)
    exact ⟨haddressable, hstable, htype⟩
termination_by structural expr

/-- The receiver of an access through an indexer is lowered as what stands in front. -/
private theorem Source.Expr.indexerReceiver_resembles (hliterals : env.builder = .literals)
    {receiver : Source.Expr} {value : Code.Expr}
    (h : (receiver.indexerReceiver Source.Expr.lower).Yields env allocator value rest) :
    receiver.inFront.Resembles env value := by
  cases receiver with
  | indexedProperty info owner property =>
    obtain ⟨object, _, hobject, hread⟩ := readIndexedProperty_yields h
    exact (owner.lower_resembles hliterals hobject).readMember hread
  | _ => exact Source.Expr.lower_resembles hliterals _ h

/-- The operand at a position is the lowered argument at this position. -/
private theorem lowerAll_resembles (hliterals : env.builder = .literals)
    {arguments : List Source.Expr}
    {operands : List Code.Expr} (h : (lowerAll arguments).Yields env allocator operands rest)
    (position : Nat) :
    Option.Rel (Source.Expr.Resembles env) arguments[position]? operands[position]? := by
  induction arguments generalizing allocator operands position with
  | nil =>
    obtain ⟨rfl, -⟩ := yields_pure_iff.mp h
    exact .none
  | cons argument arguments ih =>
    obtain ⟨operand, _, others, hoperand, hothers, rfl⟩ := lowerAll_cons_yields h
    cases position with
    | zero => exact .some (argument.lower_resembles hliterals hoperand)
    | succ position => simpa using ih hothers position

end Lowered

/-! ## §3 What runs ahead -/

/-- The bindings of a lowered access that run ahead of everything else in it. -/
def Code.Lowered.ahead : Lowered → List Binding
  | .value (.sequence _ temps stores _) => List.zipWith Binding.mk temps stores
  | .value _ => []
  | .target assignable => List.zipWith Binding.mk assignable.temps assignable.stores

section Ahead

/-- The bindings put ahead of a call are those that run ahead. -/
private theorem ahead_sequence_call (bindings : List Binding) (info : Info) (receiver : Code.Expr)
    (method : SymbolId) (arguments : List Code.Expr) (byRef : Bool) :
    (Lowered.value (Code.sequence bindings
      (.call info receiver method arguments byRef))).ahead = bindings := by
  cases bindings with
  | nil => rfl
  | cons binding bindings => exact Code.zipWith_mk (binding :: bindings)

/-- What is bound first runs first. -/
private theorem head?_ahead_runAhead (binding : Binding) (bindings : List Binding)
    (lowered : Lowered) :
    (runAhead (binding :: bindings) lowered).ahead.head? = some binding := by
  cases lowered <;> rfl

end Ahead

/-! ## §4 Storage is kept -/

/-- The argument would be bound by storage that lowering does not see. -/
def Source.Expr.IsMisspilled (env : Env) (shape : CallShape) (position : Nat)
    (argument : Source.Expr) : Prop :=
  argument.isFixed = false ∧ (shape.refKind position).isByRef = true ∧
    argument.hasStorage .kept env.symbols = false

/-- What lowering makes of storage. -/
structure KeepsStorage (env : Env) : Prop where
  /-- An expression denotes storage when it is lowered exactly if it does by the rule that is kept;
  then it does so by the rule of the source. -/
  addressable : ∀ {expr : Source.Expr} {allocator rest : Allocator} {value : Code.Expr},
    expr.lower.Yields env allocator value rest →
      value.isAddressable = expr.hasStorage .kept env.symbols ∧
        (value.isAddressable = true → expr.hasStorage (.declared env.types) env.symbols = true)
  /-- The receiver of an access by position is bound first, in either mode: by reference exactly if
  it has a value type and its storage is kept. -/
  pattern : ∀ {receiver argument : Source.Expr} {length : SymbolId} {intIndexer? : Option SymbolId}
    {type : TypeId} {mode : Mode} {site : Location} {allocator rest : Allocator}
    {lowered : Lowered},
    ((Source.Access.indexPattern receiver length intIndexer? argument type).lower mode site).Yields
      env allocator lowered rest →
      ∃ value first, receiver.lower.Yields env allocator value first ∧
        lowered.ahead.head? = some (first.bind value (receiver.holding env)).1
  /-- So is the receiver of an access through an indexer whose arguments are bound, unless it is
  the object itself or a constant. -/
  spilled : ∀ {receiver : Source.Expr} {arguments : List Source.Expr} {symbol : SymbolId}
    {shape : CallShape} {type : TypeId} {mode : Mode} {site : Location}
    {allocator rest : Allocator} {lowered : Lowered},
    ((Source.Access.indexer receiver arguments symbol shape type).lower mode site).Yields env
      allocator lowered rest → lowered.ahead ≠ [] → receiver.inFront.isFixed = false →
      ∃ value first operands second,
        (receiver.indexerReceiver Source.Expr.lower).Yields env allocator value first ∧
          (lowerAll arguments).Yields env first operands second ∧
          lowered.ahead.head? = some (second.bind value (receiver.inFront.holding env)).1
  /-- The check passes an access through an indexer exactly if no argument is bound by reference
  without its storage being kept. -/
  passes : ∀ {receiver : Source.Expr} {arguments : List Source.Expr} {symbol : SymbolId}
    {shape : CallShape} {type : TypeId} {mode : Mode} {site : Location}
    {allocator rest : Allocator} {lowered : Lowered}, env.options.validates = true →
    ((Source.Access.indexer receiver arguments symbol shape type).lowerCore Source.Expr.lower mode
      site).Yields env allocator lowered rest → allocator.HasRoom lowered.declared.length →
      (lowered.faults = [] ↔ (lowered.ahead ≠ [] → ∀ position, ∀ argument : Source.Expr,
        arguments[position]? = some argument → ¬ argument.IsMisspilled env shape position))

section KeepsStorage

variable {env : Env} {allocator rest : Allocator}

/-- Under the check, nothing in a guarded operand is bound amiss. -/
private theorem Lowering.GuardedBy.misbound_eq_nil {α : Type} {lowering : Lowering α}
    {declared misbound : α → List TempId} (h : GuardedBy lowering declared misbound env)
    (hchecks : env.options.validates = true) {result : α}
    (hyields : lowering.Yields env allocator result rest) (hnodup : (declared result).Nodup) :
    misbound result = [] := by
  by_contra hamiss
  obtain ⟨_, -, -, _, _, hstops⟩ := (h hyields hnodup).stops hamiss
  have hchecked : env.checked = env := by
    rw [Env.checked, ← hchecks]
  obtain ⟨_, hrun⟩ := hyields
  rw [hchecked, hrun] at hstops
  cases hstops

/-- The receiver of an access through an indexer is guarded like an expression, also if it is an
indexed property. -/
private theorem Source.Expr.indexerReceiver_guarded (hliterals : env.builder = .literals)
    (receiver : Source.Expr) :
    OperandGuarded (receiver.indexerReceiver Source.Expr.lower) env := by
  cases receiver with
  | indexedProperty info owner property =>
    exact (owner.lower_guarded hliterals).readIndexedProperty property info.location
  | _ => exact Source.Expr.lower_guarded hliterals _

/-- Which lowered arguments are bound amiss shows in the source, position by position. -/
theorem boundAmiss_iff (hliterals : env.builder = .literals) {arguments : List Source.Expr}
    {operands : List Code.Expr} (h : (lowerAll arguments).Yields env allocator operands rest)
    (shape : CallShape) :
    BoundAmiss shape 0 operands ↔ ∃ position, ∃ argument : Source.Expr,
      arguments[position]? = some argument ∧ argument.IsMisspilled env shape position := by
  refine exists_congr fun position => ?_
  have hrel := lowerAll_resembles hliterals h position
  generalize arguments[position]? = argument? at hrel ⊢
  generalize operands[position]? = operand? at hrel ⊢
  cases hrel with
  | none => simp
  | some hresembles =>
    simp [Source.Expr.IsMisspilled, hresembles.stable, hresembles.addressable]

/-- The call of a getter whose arguments are bound binds its receiver first, unless it is stable. -/
private theorem Lowering.GetterCall.head?_ahead {receiver : Code.Expr} {property : Property}
    {arguments : List Code.Expr} {shape : CallShape} {info : Info} {result : Code.Expr}
    (h : GetterCall env receiver property arguments shape info allocator result rest)
    (hahead : (Lowered.value result).ahead ≠ []) (hstable : receiver.isStable = false) :
    (Lowered.value result).ahead.head? =
      some (allocator.bind receiver (receiverHolding env.types receiver)).1 := by
  cases h with
  | mk _ _ hsettled hnormal =>
    rw [ahead_sequence_call] at hahead ⊢
    cases hsettled with
    | stays hplacement =>
      -- the receiver stays only if no argument is bound
      obtain ⟨hplaced, hspills⟩ := hplacement hstable
      obtain rfl := Except.ok.inj (hplaced.symm.trans hnormal.placed)
      exact absurd (hnormal.readFrom.of_not_spillsFor hspills).1 hahead
    | bound => rfl

/-- Arguments that are not all stable are bound exactly if something runs ahead of the call. -/
private theorem Lowering.Settled.ahead_ne_nil_iff {receiver read : Code.Expr}
    {arguments reads : List Code.Expr} {shape : CallShape} {params : List Param}
    {placement : List Nat} {ahead bindings : List Binding} {middle : Allocator}
    (hsettled : Settled env.types shape params arguments receiver allocator read ahead middle)
    (hplaced : shape.placement params arguments.length = .ok placement)
    (hreads : ReadFrom shape placement middle arguments reads bindings rest)
    (hunstable : ∃ argument ∈ arguments, argument.isStable = false) :
    ahead ++ bindings ≠ [] ↔ spillsFor placement arguments = true := by
  cases hreads with
  | bound hspills hspilled =>
    have hbindings := hspilled.bindings_ne_nil hunstable
    simp [hspills, hbindings]
  | direct hspills =>
    cases hsettled with
    | stays => simp [hspills]
    | bound _ hplaced' hspills' =>
      -- receiver and arguments were placed alike
      obtain rfl := Except.ok.inj (hplaced.symm.trans hplaced')
      rw [hspills] at hspills'
      cases hspills'

/-- Something is bound amiss for the call of a getter exactly if its arguments are bound and one of
them is shared without storage. -/
private theorem Lowering.GetterCall.misbound_ne_nil_iff {receiver : Code.Expr} {property : Property}
    {arguments : List Code.Expr} {shape : CallShape} {info : Info} {result : Code.Expr}
    (h : GetterCall env receiver property arguments shape info allocator result rest) :
    (Lowered.value result).ahead.flatMap Binding.misbound ≠ [] ↔
      (Lowered.value result).ahead ≠ [] ∧ BoundAmiss shape 0 arguments := by
  cases h with
  | mk _ _ hsettled hnormal =>
    rw [ahead_sequence_call, List.flatMap_append, hsettled.misbound, List.nil_append,
      hnormal.readFrom.misbound_ne_nil_iff, Misspills]
    refine and_congr_left fun hamiss => ?_
    obtain ⟨_, argument, hargument, hstable, -⟩ := hamiss
    have hunstable : ∃ argument ∈ arguments, argument.isStable = false :=
      ⟨argument, List.mem_of_getElem? hargument, hstable⟩
    exact (hsettled.ahead_ne_nil_iff hnormal.placed hnormal.readFrom hunstable).symm

/-- An element behind an indexer is made of its receiver, its arguments and what runs ahead. Of
that, something is bound amiss exactly if arguments are bound and one is shared without storage. -/
private theorem Lowering.IndexerElement.comprises_ahead {receiver : Code.Expr} {indexer : SymbolId}
    {arguments : List Code.Expr} {shape : CallShape} {info : Info} {mode : Mode} {lowered : Lowered}
    (h : IndexerElement env receiver indexer arguments shape info mode allocator lowered rest) :
    Comprises lowered (receiver :: arguments) lowered.ahead ∧
      (lowered.ahead.flatMap Binding.misbound ≠ [] ↔
        lowered.ahead ≠ [] ∧ BoundAmiss shape 0 arguments) := by
  cases h with
  | place => exact ⟨.of_place _ _, by simp [Code.Lowered.ahead]⟩
  | value _ _ hcall =>
    refine ⟨?_, hcall.misbound_ne_nil_iff⟩
    cases hcall with
    | mk _ _ hsettled hnormal =>
      rw [ahead_sequence_call]
      exact (hnormal.madeOf hsettled).toComprises

/-- Under the check, receiver and arguments of an access through an indexer bind nothing amiss. -/
private theorem misbound_indexer_operands (hliterals : env.builder = .literals)
    (hchecks : env.options.validates = true) {receiver : Source.Expr}
    {arguments : List Source.Expr} {object : Code.Expr} {operands : List Code.Expr}
    {middle last : Allocator}
    (hreceiver : (receiver.indexerReceiver Source.Expr.lower).Yields env allocator object middle)
    (harguments : (lowerAll arguments).Yields env middle operands last)
    (hobject : object.declared.Nodup) (hoperands : (operands.flatMap Code.Expr.declared).Nodup) :
    (object :: operands).flatMap Code.Expr.misbound = [] := by
  have hfirst : object.misbound = [] :=
    (receiver.indexerReceiver_guarded hliterals).misbound_eq_nil hchecks hreceiver hobject
  have hothers : operands.flatMap Code.Expr.misbound = [] :=
    (lowerAll_guarded hliterals arguments).misbound_eq_nil hchecks harguments hoperands
  rw [List.flatMap_cons, hfirst, hothers, List.nil_append]

/-- Lowering keeps the storage that it can see: what is addressable in the code, how receivers are
bound for patterns and for calls with spilled arguments, and what the check accepts. -/
theorem lower_keepsStorage {env : Env} (hliterals : env.builder = .literals) :
    KeepsStorage env where
  addressable {expr allocator rest value} h := by
    have hresembles := expr.lower_resembles hliterals h
    refine ⟨hresembles.addressable, fun haddressable => ?_⟩
    rw [hresembles.addressable] at haddressable
    exact expr.hasStorage_declared env.types env.symbols haddressable
  pattern h := by
    obtain ⟨value, first, object, size, _, _, _, offset, _, element, hreceiver, hmeasured, -, -, -,
      rfl⟩ := Source.Access.indexPattern_yields hliterals (Source.Access.lower_yields_iff.mp h).1
    refine ⟨value, first, hreceiver, ?_⟩
    rw [head?_ahead_runAhead,
      ← (Source.Expr.lower_resembles hliterals _ hreceiver).receiverHolding]
    cases hmeasured
    rfl
  spilled h hahead hfixed := by
    obtain ⟨object, first, operands, second, hreceiver, harguments, helement⟩ :=
      Source.Access.indexer_yields hliterals (Source.Access.lower_yields_iff.mp h).1
    have hresembles := Source.Expr.indexerReceiver_resembles hliterals hreceiver
    refine ⟨object, first, operands, second, hreceiver, harguments, ?_⟩
    cases helement with
    -- nothing is bound for a place
    | place => exact absurd rfl hahead
    | value _ _ hcall =>
      rw [hcall.head?_ahead hahead (hresembles.stable.trans hfixed), hresembles.receiverHolding]
  passes {receiver arguments symbol shape type mode site allocator rest lowered} hchecks h
      hroom := by
    obtain ⟨object, first, operands, second, hreceiver, harguments, helement⟩ :=
      Source.Access.indexer_yields hliterals h
    obtain ⟨hcomprises, hmisbound⟩ := helement.comprises_ahead
    have hself := Source.Access.lowerCore_selfContained hliterals _ h
    have hnodup := hself.handsOut.nodup hroom
    -- receiver and arguments were checked before, so only the bindings of the access matter
    obtain ⟨hobject, hoperands⟩ := hcomprises.nodup_cons hself.wellScoped hnodup
    have hclean := misbound_indexer_operands hliterals hchecks hreceiver harguments hobject
      hoperands
    -- what is left of the check is whether some argument is bound amiss
    rw [lowered.faults_eq_nil_iff, and_iff_right hself.wellScoped, and_iff_right hnodup,
      hcomprises.misbound_eq_nil_iff, and_iff_left hclean, ← not_ne_iff, hmisbound,
      boundAmiss_iff hliterals harguments shape]
    simp only [not_and, not_exists]

end KeepsStorage

/-! ## §5 A small program with storage -/

namespace Sample

/-- A program with a value type `Span` and a reference type `Holder` that has a field `buf` of it.
A span has a length, an indexer and a method `Cut` that returns by reference; `makeHolder` gives a
new holder. -/
def storage : Env where
  types :=
    ⟨#[⟨⟨0⟩, .structType .invalid "Span"⟩, ⟨⟨1⟩, .classType .invalid "Holder"⟩, ⟨⟨2⟩, .index⟩,
      ⟨⟨3⟩, .range⟩], ∅⟩
  symbols :=
    let method (name : String) (params : List Param) (byRef : Bool) : Symbol :=
      .method { name := name, declaringType := ⟨0⟩, returnType := .invalid, params := params
                returnsByRef := byRef }
    let property (name : String) (getter : SymbolId) : Symbol :=
      .property { name := name, declaringType := ⟨0⟩, type := .invalid, params := []
                  getter? := some getter, setter? := none }
    let int (name : String) : Param := { name := name, type := .invalid }
    ⟨#[.field { name := "buf", declaringType := ⟨1⟩, type := ⟨0⟩ }, method "makeHolder" [] false,
      property "Length" ⟨3⟩, method "get_Length" [] false,
      property "Item" ⟨5⟩, method "get_Item" [int "index"] false,
      method "Cut" [int "start", int "length"] true,
      method "GetOffset" [int "length"] false, method "get_Start" [] false,
      method "get_End" [] false]⟩
  members :=
    ((WellKnown.Registry.empty.register .indexGetOffset ⟨7⟩).register .rangeGetStart ⟨8⟩).register
      .rangeGetEnd ⟨9⟩

/-- A local variable of a type. -/
def varOf (type : TypeId) : Source.Expr := .var ⟨type, .unknown⟩ ⟨10⟩

/-- The field `object.buf`. -/
def buffer (object : Source.Expr) : Source.Expr := .field ⟨⟨0⟩, .unknown⟩ object ⟨0⟩

/-- The field `makeHolder().buf` of a holder that no variable has. -/
def freshBuffer : Source.Expr := buffer (.staticCall ⟨⟨1⟩, .unknown⟩ ⟨1⟩ [])

/-- The access `receiver[position]` of a span. -/
def elementOf (receiver : Source.Expr) : Source.Access :=
  .indexPattern receiver ⟨2⟩ (some ⟨4⟩) (varOf ⟨2⟩) .invalid

/-- The slice `span[range]`, which `Cut` gives out by reference. -/
def slice : Source.Expr :=
  .access ⟨⟨0⟩, .unknown⟩ (.rangePattern (varOf ⟨0⟩) ⟨2⟩ ⟨6⟩ (varOf ⟨3⟩) ⟨0⟩)

end Sample

/-- The field `buf` of a variable is aliased when an element of it is going to be written, as the
variable has storage and a field of it has so, too. -/
theorem lower_keepsStorage_of_variable :
    let node := Sample.elementOf (Sample.buffer (Sample.varOf ⟨1⟩))
    ∃ lowered rest binding, (node.lower .write .unknown).Yields Sample.storage {} lowered rest ∧
      lowered.ahead.head? = some binding ∧ binding.temp.holding = .storage := by
  intro node
  have hyields : (node.lower .write .unknown).Yields Sample.storage {} _ _ := ⟨_, rfl⟩
  obtain ⟨value, first, -, hhead⟩ := (lower_keepsStorage rfl).pattern hyields
  exact ⟨_, _, _, hyields, hhead, rfl⟩

/-- By the rule of the source, the field `buf` of a new holder denotes storage, and so does a slice
given out by reference. Lowering takes neither for storage; an element of the field is going to be
written in a copy. -/
theorem lower_overlooks_storage :
    let env := Sample.storage
    let declared := Source.StorageRule.declared env.types
    (∃ value rest, Sample.freshBuffer.lower.Yields env {} value rest ∧
      Sample.freshBuffer.hasStorage declared env.symbols = true ∧ value.isAddressable = false) ∧
    (∃ value rest, Sample.slice.lower.Yields env {} value rest ∧
      Sample.slice.hasStorage declared env.symbols = true ∧ value.isAddressable = false) ∧
    ∃ lowered rest binding,
      ((Sample.elementOf Sample.freshBuffer).lower .write .unknown).Yields env {} lowered rest ∧
      lowered.ahead.head? = some binding ∧ binding.temp.holding = .copy ∧
      env.types.isValueType binding.temp.type = true := by
  intro env declared
  exact ⟨⟨_, _, ⟨_, rfl⟩, rfl, rfl⟩, ⟨_, _, ⟨_, rfl⟩, rfl, rfl⟩,
    ⟨_, _, _, ⟨_, rfl⟩, rfl, rfl, rfl⟩⟩

end Subscript
