import Subscript.Lowering.Expression
import Subscript.Proofs.Arguments.NormalForm

/-!
# What expressions and accesses are lowered to

Each way to lower an expression or an access is taken apart once: which operands were lowered, in
which order and from which allocator, what was bound to temporaries, and what the result is made
of. Proofs about all lowered code go by cases on the source and use these lemmas alone.

## Architecture

- §1 the end of an access
- §2 calls of a getter
- §3 accesses through an indexer and accesses at run time
- §4 accesses by position and by range
- §5 positions and ranges themselves
- §6 expressions, one lemma for each form that has operands
- §7 access nodes
- §8 a small program
-/

namespace Subscript.Lowering

open Code (Allocator Binding Expr Holding Lowered Target)
open Source (Mode)

variable {env : Env} {allocator rest : Allocator}

/-! ## §1 Concluding -/

/-- The check of an access passes if it is turned off or finds no fault. -/
theorem validate_yields_iff {lowered : Lowered} {result : Unit} :
    (validate lowered).Yields env allocator result rest ↔
      (env.options.validates = true → lowered.faults = []) ∧ allocator = rest := by
  simp only [validate, yields_bind_iff, yields_environment_iff]
  constructor
  · rintro ⟨_, _, ⟨rfl, rfl⟩, h⟩
    split at h
    · exact absurd h not_yields_fail
    · rename_i hvalid
      exact ⟨by simpa using hvalid, (yields_pure_iff.mp h).2⟩
  · rintro ⟨hvalid, rfl⟩
    refine ⟨env, allocator, ⟨rfl, rfl⟩, ?_⟩
    rw [if_neg (by simpa using hvalid)]
    exact yields_pure_iff.mpr ⟨rfl, rfl⟩

/-- The end of an access checks what was lowered and reports it, but does not change it: what
comes out is what came in, with no fault in it if the options ask for the check. -/
theorem conclude_yields_iff {site : Location} {lowered result : Lowered} :
    (conclude site lowered).Yields env allocator result rest ↔
      (env.options.validates = true → lowered.faults = []) ∧ lowered = result ∧
        allocator = rest := by
  simp only [conclude, yields_bind_iff, validate_yields_iff, yields_environment_iff]
  constructor
  · rintro ⟨_, _, ⟨hvalid, rfl⟩, _, _, ⟨rfl, rfl⟩, h⟩
    -- with or without the extra event, nothing but the log changes
    split at h
    · simp only [yields_bind_iff, yields_report_iff, yields_allocated_iff, yields_pure_iff] at h
      obtain ⟨_, _, rfl, _, _, ⟨-, rfl⟩, _, _, rfl, rfl, rfl⟩ := h
      exact ⟨hvalid, rfl, rfl⟩
    · simp only [yields_bind_iff, yields_report_iff, yields_allocated_iff, yields_pure_iff] at h
      obtain ⟨_, _, ⟨-, rfl⟩, _, _, rfl, rfl, rfl⟩ := h
      exact ⟨hvalid, rfl, rfl⟩
  · rintro ⟨hvalid, rfl, rfl⟩
    refine ⟨(), allocator, ⟨hvalid, rfl⟩, env, allocator, ⟨rfl, rfl⟩, ?_⟩
    have hfinish : (do
        report (.finished site (← allocated))
        return lowered).Yields env allocator lowered allocator := by
      simp only [yields_bind_iff, yields_report_iff, yields_allocated_iff, yields_pure_iff]
      exact ⟨_, allocator, ⟨rfl, rfl⟩, (), allocator, rfl, trivial, rfl⟩
    split
    · exact yields_bind_iff.mpr ⟨(), allocator, yields_report_iff.mpr rfl, hfinish⟩
    · exact hfinish

/-- A value is taken out of an access that is one. -/
theorem valueOf_yields_iff {lowered : Lowered} {result : Expr} :
    (valueOf lowered).Yields env allocator result rest ↔
      lowered = .value result ∧ allocator = rest := by
  cases lowered with
  | value expr => simp [valueOf]
  | target assignable => simp [valueOf]

/-! ## §2 Calls of a getter -/

/-- What a receiver is read from when the getter is called: itself, if no argument is bound or
nothing could change it, or else a temporary. -/
inductive Settled (types : TypeTable) (shape : CallShape) (params : List Param)
    (arguments : List Expr) (receiver : Expr) (allocator : Allocator) :
    Expr → List Binding → Allocator → Prop where
  /-- the receiver stays where it is -/
  | stays {placement : List Nat} (hplacement : receiver.isStable = false →
      shape.placement params arguments.length = .ok placement ∧
        spillsFor placement arguments = false) :
    Settled types shape params arguments receiver allocator receiver [] allocator
  /-- the receiver is bound ahead of the arguments -/
  | bound {placement : List Nat} (hstable : receiver.isStable = false)
    (hplacement : shape.placement params arguments.length = .ok placement)
    (hspills : spillsFor placement arguments = true) :
    Settled types shape params arguments receiver allocator
      (allocator.bind receiver (receiverHolding types receiver)).1.reference
      [(allocator.bind receiver (receiverHolding types receiver)).1]
      (allocator.bind receiver (receiverHolding types receiver)).2

section Getter

variable {receiver : Expr} {arguments : List Expr} {shape : CallShape}

theorem spillsRequired_eq_ok_iff {params : List Param} {needed : Bool} :
    spillsRequired arguments shape params = .ok needed ↔
      ∃ placement, shape.placement params arguments.length = .ok placement ∧
        spillsFor placement arguments = needed := by
  unfold spillsRequired
  cases shape.placement params arguments.length with
  | error fault => simp
  | ok placement => simp

/-- What is bound for a receiver, and what is read in its place, is what `Settled` says. The
receiver has to run before the arguments, so it is bound as soon as these are. -/
theorem bindReceiver_yields_iff {params : List Param} {read : Expr} {ahead : List Binding} :
    (bindReceiver receiver arguments shape params).Yields env allocator (read, ahead) rest ↔
      Settled env.types shape params arguments receiver allocator read ahead rest := by
  unfold bindReceiver
  cases hstable : receiver.isStable with
  -- a stable receiver is left alone, and no placement is looked up for it
  | true =>
    simp only [if_true, yields_pure_iff]
    constructor
    · rintro ⟨hpair, rfl⟩
      cases hpair
      have hplacement : receiver.isStable = false →
          shape.placement params arguments.length = .ok [] ∧ spillsFor [] arguments = false := by
        simp [hstable]
      exact .stays hplacement
    · intro h
      cases h with
      | stays => exact ⟨rfl, rfl⟩
      | bound hunstable => exact absurd (hstable.symm.trans hunstable) (by decide)
  -- any other receiver is bound exactly if the arguments are
  | false =>
    simp only [Bool.false_eq_true, if_false, yields_bind_iff, yields_ofPlacement_iff,
      spillsRequired_eq_ok_iff]
    constructor
    · rintro ⟨_, _, ⟨⟨placement, hplacement, rfl⟩, rfl⟩, h⟩
      split at h
      · rename_i hspills
        simp only [yields_bind_iff, yields_environment_iff, yields_bindTemp_iff, yields_pure_iff]
          at h
        obtain ⟨_, _, ⟨rfl, rfl⟩, binding, _, hbind, hpair, rfl⟩ := h
        obtain ⟨rfl, rfl⟩ := Prod.mk.inj hbind
        cases hpair
        exact .bound hstable hplacement hspills
      · rename_i hspills
        obtain ⟨hpair, rfl⟩ := yields_pure_iff.mp h
        cases hpair
        exact .stays fun _ => ⟨hplacement, Bool.not_eq_true _ ▸ hspills⟩
    · intro h
      cases h with
      | stays hplacement =>
        obtain ⟨hplacement, hspills⟩ := hplacement hstable
        exact ⟨false, allocator, ⟨⟨_, hplacement, hspills⟩, rfl⟩, yields_pure_iff.mpr ⟨rfl, rfl⟩⟩
      | bound _ hplacement hspills =>
        refine ⟨true, allocator, ⟨⟨_, hplacement, hspills⟩, rfl⟩, ?_⟩
        simp only [if_true, yields_bind_iff, yields_environment_iff, yields_bindTemp_iff,
          yields_pure_iff]
        exact ⟨env, allocator, ⟨rfl, rfl⟩, _, _, rfl, rfl, rfl⟩

/-- A call of a getter, with its receiver and its arguments ready. -/
inductive GetterCall (env : Env) (receiver : Expr) (property : Property) (arguments : List Expr)
    (shape : CallShape) (info : Info) (allocator : Allocator) : Expr → Allocator → Prop where
  | mk {getter : SymbolId} {method : Method} {read : Expr} {ahead : List Binding}
    {middle rest : Allocator} {placement : List Nat} {reads : List Expr} {normalized : Normalized}
    (hgetter : property.getter? = some getter)
    (hmethod : env.symbols.method? getter = some method)
    (hsettled : Settled env.types shape method.params arguments receiver allocator read ahead
      middle)
    (hnormal : NormalForm env.types arguments shape method.params info.location placement reads
      middle normalized rest) :
    GetterCall env receiver property arguments shape info allocator
      (Code.sequence (ahead ++ normalized.bindings)
        (.call info read getter normalized.arguments
          (property.returnsByRef || method.returnsByRef))) rest

/-- The call of a getter is what `GetterCall` says: the receiver is settled, then the arguments
are normalized, and the getter is called behind all bindings. -/
theorem callGetter_yields_iff (hliterals : env.builder = .literals) {indexer : SymbolId}
    {property : Property} {info : Info} {result : Expr} :
    (callGetter receiver indexer property arguments shape info).Yields env allocator result
        rest ↔
      GetterCall env receiver property arguments shape info allocator result rest := by
  simp only [callGetter, yields_bind_iff, getterOf_yields_iff, methodOf_yields_iff,
    yields_pure_iff]
  constructor
  · rintro ⟨getter, _, ⟨hgetter, rfl⟩, method, _, ⟨hmethod, rfl⟩, ⟨read, ahead⟩, middle, hsettled,
      normalized, _, hnormal, rfl, rfl⟩
    obtain ⟨placement, reads, hnormal⟩ := (normalize_yields_iff hliterals).mp hnormal
    exact .mk hgetter hmethod (bindReceiver_yields_iff.mp hsettled) hnormal
  · rintro ⟨hgetter, hmethod, hsettled, hnormal⟩
    exact ⟨_, allocator, ⟨hgetter, rfl⟩, _, allocator, ⟨hmethod, rfl⟩, _, _,
      bindReceiver_yields_iff.mpr hsettled, _, rest,
      (normalize_yields_iff hliterals).mpr ⟨_, _, hnormal⟩, rfl, rfl⟩

/-! ## §3 Accesses through an indexer and at run time -/

/-- An element behind an indexer: a place for an assignment, or else the call of the getter. -/
inductive IndexerElement (env : Env) (receiver : Expr) (indexer : SymbolId)
    (arguments : List Expr) (shape : CallShape) (info : Info) (mode : Mode)
    (allocator : Allocator) : Lowered → Allocator → Prop where
  /-- the element is going to be written by the setter -/
  | place {property : Property} (hproperty : env.symbols.property? indexer = some property)
    (hwrite : (mode.isWrite && !property.returnsByRef) = true) :
    IndexerElement env receiver indexer arguments shape info mode allocator
      (.target {
        place := .indexer receiver indexer property.getter? property.setter? arguments shape
        info := info }) allocator
  /-- the element is read, or its storage is -/
  | value {property : Property} {result : Expr} {rest : Allocator}
    (hproperty : env.symbols.property? indexer = some property)
    (hread : (mode.isWrite && !property.returnsByRef) = false)
    (hcall : GetterCall env receiver property arguments shape info allocator result rest) :
    IndexerElement env receiver indexer arguments shape info mode allocator (.value result) rest

/-- An element behind an indexer is what `IndexerElement` says: a place if a setter has to be
called, the call of the getter otherwise. -/
theorem indexerElement_yields_iff (hliterals : env.builder = .literals) {indexer : SymbolId}
    {info : Info} {mode : Mode} {result : Lowered} :
    (indexerElement receiver indexer arguments shape info mode).Yields env allocator result
        rest ↔
      IndexerElement env receiver indexer arguments shape info mode allocator result rest := by
  simp only [indexerElement, yields_bind_iff, indexerOf_yields_iff]
  constructor
  · rintro ⟨property, _, ⟨hproperty, rfl⟩, h⟩
    split at h
    -- a property that gives out no storage is assigned to through its setter
    · rename_i hwrite
      obtain ⟨rfl, rfl⟩ := yields_pure_iff.mp h
      exact .place hproperty hwrite
    · rename_i hread
      simp only [yields_bind_iff, yields_pure_iff] at h
      obtain ⟨value, _, hcall, rfl, rfl⟩ := h
      exact .value hproperty (Bool.not_eq_true _ ▸ hread)
        ((callGetter_yields_iff hliterals).mp hcall)
  · intro h
    cases h with
    | place hproperty hwrite =>
      refine ⟨_, allocator, ⟨hproperty, rfl⟩, ?_⟩
      rw [if_pos hwrite]
      exact yields_pure_iff.mpr ⟨rfl, rfl⟩
    | value hproperty hread hcall =>
      refine ⟨_, allocator, ⟨hproperty, rfl⟩, ?_⟩
      rw [if_neg (by simp [hread])]
      simp only [yields_bind_iff, yields_pure_iff]
      exact ⟨_, rest, (callGetter_yields_iff hliterals).mpr hcall, rfl, rfl⟩

end Getter

section Operands

variable {receiver argument object : Lowering Expr} {arguments : Lowering (List Expr)}
  {info : Info} {mode : Mode}

theorem indexerAccess_yields (hliterals : env.builder = .literals) {indexer : SymbolId}
    {shape : CallShape} {result : Lowered}
    (h : (indexerAccess receiver arguments indexer shape info mode).Yields env allocator result
      rest) :
    ∃ object first operands second, receiver.Yields env allocator object first ∧
      arguments.Yields env first operands second ∧
      IndexerElement env object indexer operands shape info mode second result rest := by
  simp only [indexerAccess, yields_bind_iff] at h
  obtain ⟨object, first, hreceiver, operands, second, harguments, helement⟩ := h
  exact ⟨object, first, operands, second, hreceiver, harguments,
    (indexerElement_yields_iff hliterals).mp helement⟩

/-- A read of an indexed property reads a member of its object. -/
theorem readIndexedProperty_yields {property : SymbolId} {site : Location} {result : Expr}
    (h : (readIndexedProperty object property site).Yields env allocator result rest) :
    ∃ value middle, object.Yields env allocator value middle ∧
      (readMember value property site).Yields env middle result rest := by
  simp only [readIndexedProperty, yields_bind_iff, yields_environment_iff, yields_report_iff] at h
  obtain ⟨_, _, ⟨rfl, rfl⟩, _, _, rfl, value, middle, hobject, hread⟩ := h
  exact ⟨value, middle, hobject, hread⟩

/-- An indexed property that is fetched is looked up in its object by its name. -/
theorem fetchIndexedProperty_yields {property : SymbolId} {site : Location} {result : Expr}
    (h : (fetchIndexedProperty object property site).Yields env allocator result rest) :
    ∃ value, object.Yields env allocator value rest ∧
      result = .dynamicMember ⟨env.types.dynamicType, site⟩ value (env.symbols.name property)
        true := by
  simp only [fetchIndexedProperty, yields_bind_iff, yields_environment_iff, yields_report_iff,
    yields_pure_iff] at h
  obtain ⟨value, middle, hobject, _, _, ⟨rfl, rfl⟩, _, _, rfl, rfl, rfl⟩ := h
  exact ⟨value, hobject, rfl⟩

/-- All that is asked of candidates is that they are properties. -/
theorem announce_yields_iff {site : Location} {candidates : List SymbolId} {result : Unit} :
    (announce site candidates).Yields env allocator result rest ↔
      (∀ candidate ∈ candidates, ∃ property, env.symbols.property? candidate = some property) ∧
        allocator = rest := by
  induction candidates generalizing allocator with
  | nil => simp [announce]
  | cons candidate candidates ih =>
    simp only [announce, yields_bind_iff, indexerOf_yields_iff, yields_report_iff, ih,
      List.forall_mem_cons]
    constructor
    · rintro ⟨property, _, ⟨hproperty, rfl⟩, _, _, rfl, hothers, rfl⟩
      exact ⟨⟨⟨property, hproperty⟩, hothers⟩, rfl⟩
    · rintro ⟨⟨⟨property, hproperty⟩, hothers⟩, rfl⟩
      exact ⟨property, allocator, ⟨hproperty, rfl⟩, (), allocator, rfl, hothers, rfl⟩

/-- The element looked up at run time, for its value or for an assignment. -/
def dynamicLowered (receiver : Expr) (arguments : List Expr) (names : List (Option String))
    (refKinds : List RefKind) (info : Info) : Mode → Lowered
  | .read => .value (dynamicElement receiver arguments names refKinds info)
  | .write => .target { place := .dynamic receiver arguments names refKinds, info := info }

/-- A dynamic access announces its candidates, then lowers its operands; only its last step
depends on the mode. -/
theorem dynamicAccess_eq (receiver : Lowering Expr) (arguments : Lowering (List Expr))
    (candidates : List SymbolId) (names : List (Option String)) (refKinds : List RefKind)
    (info : Info) (mode : Mode) :
    dynamicAccess receiver arguments candidates names refKinds info mode = do
      announce info.location candidates
      let receiver ← receiver
      let arguments ← arguments
      return dynamicLowered receiver arguments names refKinds info mode := by
  cases mode <;> rfl

theorem dynamicAccess_yields {candidates : List SymbolId} {names : List (Option String)}
    {refKinds : List RefKind} {result : Lowered}
    (h : (dynamicAccess receiver arguments candidates names refKinds info mode).Yields env
      allocator result rest) :
    ∃ object middle operands, receiver.Yields env allocator object middle ∧
      arguments.Yields env middle operands rest ∧
      dynamicLowered object operands names refKinds info mode = result := by
  simp only [dynamicAccess_eq, yields_bind_iff, yields_pure_iff] at h
  obtain ⟨_, _, hannounce, object, middle, hreceiver, operands, _, harguments, rfl, rfl⟩ := h
  obtain rfl := (announce_yields_iff.mp hannounce).2
  exact ⟨object, middle, operands, hreceiver, harguments, rfl⟩

/-! ## §4 Accesses by position and by range -/

/-- The receiver of a pattern is bound, then its length. -/
inductive Measured (env : Env) (receiver : Expr) (length : SymbolId) (site : Location)
    (holding : Holding) (allocator : Allocator) : Binding → Binding → Allocator → Prop where
  | mk {read : Expr}
    (hlength : (readMember (allocator.bind receiver holding).1.reference length site).Yields env
      (allocator.bind receiver holding).2 read (allocator.bind receiver holding).2) :
    Measured env receiver length site holding allocator (allocator.bind receiver holding).1
      ((allocator.bind receiver holding).2.bind read .copy).1
      ((allocator.bind receiver holding).2.bind read .copy).2

/-- Bind the receiver of a pattern and its length. -/
def measure (receiver : Expr) (holding : Holding) (length : SymbolId) (site : Location) :
    Lowering (Binding × Binding) := do
  let object ← bindTemp receiver holding
  let size ← bindTemp (← readMember object.reference length site) .copy
  return (object, size)

/-- Binding a receiver and its length is what `Measured` says. -/
theorem measure_yields_iff {value : Expr} {holding : Holding} {length : SymbolId}
    {site : Location} {object size : Binding} :
    (measure value holding length site).Yields env allocator (object, size) rest ↔
      Measured env value length site holding allocator object size rest := by
  simp only [measure, yields_bind_iff, yields_bindTemp_iff, yields_pure_iff]
  constructor
  · rintro ⟨_, _, hobject, read, _, hread, _, _, hsize, hpair, rfl⟩
    -- reading the length hands out no temporary, so the two bindings follow each other
    obtain ⟨rfl, rfl⟩ := Prod.mk.inj hpair
    obtain ⟨rfl, rfl⟩ := Prod.mk.inj hobject
    obtain rfl := (readMember_yields_iff.mp hread).1
    obtain ⟨rfl, rfl⟩ := Prod.mk.inj hsize
    exact .mk hread
  · rintro ⟨hread⟩
    exact ⟨_, _, rfl, _, _, hread, _, _, rfl, rfl, rfl⟩

/-- The call that turns a position into an offset is bound. -/
inductive Offset (env : Env) (position length : Expr) (site : Location) (allocator : Allocator) :
    Binding → Allocator → Prop where
  | mk {method : SymbolId} (hmethod : env.members.resolve .indexGetOffset = .ok method) :
    Offset env position length site allocator
      (allocator.bind (.call ⟨env.types.intType, site⟩ position method [length] false) .copy).1
      (allocator.bind (.call ⟨env.types.intType, site⟩ position method [length] false) .copy).2

/-- An offset is the call that computes it, bound to a temporary. -/
theorem offset_iff {position length : Expr} {site : Location} {offset : Binding} :
    Offset env position length site allocator offset rest ↔
      ∃ call middle, (offsetOf position length site).Yields env allocator call middle ∧
        middle.bind call .copy = (offset, rest) := by
  simp only [offsetOf_yields_iff]
  constructor
  · rintro ⟨hmethod⟩
    exact ⟨_, allocator, ⟨rfl, _, hmethod, rfl⟩, rfl⟩
  · rintro ⟨_, _, ⟨rfl, method, hmethod, rfl⟩, hbind⟩
    obtain ⟨rfl, rfl⟩ := Prod.mk.inj hbind
    exact .mk hmethod

/-- The element of an array, for its value or for an assignment. -/
def elementLowered (array offset : Expr) (info : Info) : Mode → Lowered
  | .read => .value (.element info array offset)
  | .write => .target { place := .element array offset, info := info }

/-- The element at an offset, through an indexer or of a built-in array. -/
inductive ElementAt (env : Env) (object offset : Expr) (intIndexer? : Option SymbolId)
    (info : Info) (mode : Mode) (allocator : Allocator) : Lowered → Allocator → Prop where
  /-- through an indexer for integers -/
  | indexer {indexer : SymbolId} {result : Lowered} {rest : Allocator}
    (hindexer : intIndexer? = some indexer)
    (helement : IndexerElement env object indexer [offset] .positional info mode allocator result
      rest) : ElementAt env object offset intIndexer? info mode allocator result rest
  /-- of an array -/
  | array (hnone : intIndexer? = none) (harray : env.types.isArray object.type = true) :
    ElementAt env object offset intIndexer? info mode allocator
      (elementLowered object offset info mode) allocator

/-- An element is read or left as a place; either way the array has to be one. -/
theorem arrayElement_yields_iff {array offset : Expr} {result : Lowered} :
    (arrayElement array offset info mode).Yields env allocator result rest ↔
      env.types.isArray array.type = true ∧ elementLowered array offset info mode = result ∧
        allocator = rest := by
  simp only [arrayElement, yields_bind_iff, yields_environment_iff]
  cases harray : env.types.isArray array.type with
  | false => simp [harray]
  | true => cases mode <;> simp [harray, elementLowered]

/-- Bind the offset of a position and access the element there. -/
def accessAt (object size : Binding) (position : Expr) (intIndexer? : Option SymbolId)
    (info : Info) (mode : Mode) : Lowering Lowered := do
  let offset ← bindTemp (← offsetOf position size.reference info.location) .copy
  let bindings := [object, size, offset]
  report (.indexPattern bindings.length)
  let element ← match intIndexer? with
    | some indexer =>
      indexerElement object.reference indexer [offset.reference] .positional info mode
    | none => arrayElement object.reference offset.reference info mode
  return runAhead bindings element

/-- An access at a position binds an offset and takes the element there, behind the bindings of
the receiver and its length. -/
theorem accessAt_yields_iff (hliterals : env.builder = .literals) {object size : Binding}
    {position : Expr} {intIndexer? : Option SymbolId} {result : Lowered} :
    (accessAt object size position intIndexer? info mode).Yields env allocator result rest ↔
      ∃ offset middle element,
        Offset env position size.reference info.location allocator offset middle ∧
        ElementAt env object.reference offset.reference intIndexer? info mode middle element rest ∧
        runAhead [object, size, offset] element = result := by
  simp only [accessAt, yields_bind_iff, yields_bindTemp_iff, yields_report_iff]
  constructor
  · rintro ⟨call, _, hcall, offset, middle, hoffset, _, _, rfl, h⟩
    have hbound := offset_iff.mpr ⟨call, _, hcall, hoffset⟩
    cases intIndexer? with
    -- the offset is the one argument of the indexer
    | some indexer =>
      simp only [yields_bind_iff, yields_pure_iff] at h
      obtain ⟨element, _, helement, hresult, rfl⟩ := h
      exact ⟨offset, middle, element, hbound,
        .indexer rfl ((indexerElement_yields_iff hliterals).mp helement), hresult⟩
    | none =>
      simp only [yields_bind_iff, yields_pure_iff] at h
      obtain ⟨element, _, helement, hresult, rfl⟩ := h
      obtain ⟨harray, rfl, rfl⟩ := arrayElement_yields_iff.mp helement
      exact ⟨offset, middle, _, hbound, .array rfl harray, hresult⟩
  -- the other way round, each step has just what it needs
  · rintro ⟨offset, middle, element, hbound, helement, hresult⟩
    obtain ⟨call, _, hcall, hoffset⟩ := offset_iff.mp hbound
    refine ⟨call, _, hcall, offset, middle, hoffset, (), middle, rfl, ?_⟩
    cases helement with
    | indexer hindexer helement =>
      subst hindexer
      simp only [yields_bind_iff, yields_pure_iff]
      exact ⟨element, rest, (indexerElement_yields_iff hliterals).mpr helement, hresult, rfl⟩
    | array hnone harray =>
      subst hnone
      simp only [yields_bind_iff, yields_pure_iff]
      exact ⟨_, _, arrayElement_yields_iff.mpr ⟨harray, rfl, rfl⟩, hresult, rfl⟩

/-- Bindings run ahead of a value as a sequence. -/
theorem runAhead_eq_value {bindings : List Binding} {lowered : Lowered} {result : Expr}
    (h : runAhead bindings lowered = .value result) :
    ∃ value, lowered = .value value ∧ Code.sequence bindings value = result := by
  cases lowered with
  | value value => exact ⟨value, rfl, Lowered.value.inj h⟩
  | target => cases h

/-- An access by position measures the receiver, then looks at the position. -/
theorem indexPattern_eq (receiver argument : Lowering Expr) (length : SymbolId)
    (intIndexer? : Option SymbolId) (info : Info) (mode : Mode) :
    indexPattern receiver argument length intIndexer? info mode = (do
      let value ← receiver
      let env ← environment
      let measured ← measure value (receiverHolding env.types value) length info.location
      let position ← argument
      accessAt measured.1 measured.2 position intIndexer? info mode) := by
  cases intIndexer? <;> simp only [indexPattern, measure, accessAt, bind_assoc, pure_bind]

/-- An access by position binds object, length and offset, then accesses the element. -/
theorem indexPattern_yields (hliterals : env.builder = .literals) {length : SymbolId}
    {intIndexer? : Option SymbolId} {result : Lowered}
    (h : (indexPattern receiver argument length intIndexer? info mode).Yields env allocator result
      rest) :
    ∃ value first object size second position third offset fourth element,
      receiver.Yields env allocator value first ∧
      Measured env value length info.location (receiverHolding env.types value) first object size
        second ∧
      argument.Yields env second position third ∧
      Offset env position size.reference info.location third offset fourth ∧
      ElementAt env object.reference offset.reference intIndexer? info mode fourth element rest ∧
      runAhead [object, size, offset] element = result := by
  simp only [indexPattern_eq, yields_bind_iff, yields_environment_iff] at h
  obtain ⟨value, first, hreceiver, _, _, ⟨rfl, rfl⟩, ⟨object, size⟩, second, hmeasure, position,
    third, hposition, helement⟩ := h
  obtain ⟨offset, fourth, element, hoffset, helement, hresult⟩ :=
    (accessAt_yields_iff hliterals).mp helement
  exact ⟨value, first, object, size, second, position, third, offset, fourth, element, hreceiver,
    measure_yields_iff.mp hmeasure, hposition, hoffset, helement, hresult⟩

/-- Bind a range and the offsets of its ends, and cut out the slice between them. -/
def sliceAt (object size : Binding) (value : Expr) (slice : SymbolId) (info : Info) :
    Lowering Expr := do
  let range ← bindTemp value .copy
  let first ← rangeEnd range.reference .rangeGetStart info.location
  let start ← bindTemp (← offsetOf first size.reference info.location) .copy
  let last ← rangeEnd range.reference .rangeGetEnd info.location
  let stop ← bindTemp (← offsetOf last size.reference info.location) .copy
  let bindings := [object, size, range, start, stop]
  let count : Expr :=
    .binary ⟨(← environment).types.intType, info.location⟩ .sub stop.reference start.reference
  report (.rangePattern bindings.length)
  return Code.sequence bindings
    (.call info object.reference slice [start.reference, count] false)

/-- A range is bound, then its start and its end, as offsets. -/
inductive Bounded (env : Env) (value length : Expr) (site : Location) (allocator : Allocator) :
    Binding → Binding → Binding → Allocator → Prop where
  | mk {getStart getEnd : SymbolId} {start stop : Binding} {middle rest : Allocator}
    (hgetStart : env.members.resolve .rangeGetStart = .ok getStart)
    (hstart : Offset env (.call ⟨env.types.indexType, site⟩
      (allocator.bind value .copy).1.reference getStart [] false) length site
      (allocator.bind value .copy).2 start middle)
    (hgetEnd : env.members.resolve .rangeGetEnd = .ok getEnd)
    (hstop : Offset env (.call ⟨env.types.indexType, site⟩
      (allocator.bind value .copy).1.reference getEnd [] false) length site middle stop rest) :
    Bounded env value length site allocator (allocator.bind value .copy).1 start stop rest

/-- The call that cuts out what lies between two offsets. -/
def sliceBetween (env : Env) (object start stop : Binding) (slice : SymbolId) (info : Info) :
    Expr :=
  .call info object.reference slice [start.reference,
    .binary ⟨env.types.intType, info.location⟩ .sub stop.reference start.reference] false

/-- A slice binds the range and both of its ends, and is cut out behind all bindings. Which calls
fetch the ends is in `Bounded`; the five bindings always stand in this order. -/
theorem sliceAt_yields_iff {object size : Binding} {value : Expr} {slice : SymbolId}
    {result : Expr} :
    (sliceAt object size value slice info).Yields env allocator result rest ↔
      ∃ range start stop,
        Bounded env value size.reference info.location allocator range start stop rest ∧
        Code.sequence [object, size, range, start, stop]
          (sliceBetween env object start stop slice info) = result := by
  simp only [sliceAt, yields_bind_iff, yields_environment_iff, yields_bindTemp_iff,
    yields_report_iff, yields_pure_iff, rangeEnd_yields_iff]
  constructor
  · rintro ⟨range, first, hrange, _, _, ⟨rfl, getStart, hgetStart, rfl⟩, startCall, _, hstartCall,
      start, second, hstart, _, _, ⟨rfl, getEnd, hgetEnd, rfl⟩, stopCall, _, hstopCall, stop, _,
      hstop, _, _, ⟨rfl, rfl⟩, _, _, rfl, hresult, rfl⟩
    obtain ⟨rfl, rfl⟩ := Prod.mk.inj hrange
    -- an end is fetched by a call on the range, whose offset is then bound
    exact ⟨_, start, stop, .mk hgetStart (offset_iff.mpr ⟨_, _, hstartCall, hstart⟩) hgetEnd
      (offset_iff.mpr ⟨_, _, hstopCall, hstop⟩), hresult⟩
  · rintro ⟨_, start, stop, ⟨hgetStart, hstart, hgetEnd, hstop⟩, hresult⟩
    obtain ⟨startCall, _, hstartCall, hstart⟩ := offset_iff.mp hstart
    obtain ⟨stopCall, _, hstopCall, hstop⟩ := offset_iff.mp hstop
    exact ⟨_, _, rfl, _, _, ⟨rfl, _, hgetStart, rfl⟩, startCall, _, hstartCall, start, _, hstart,
      _, _, ⟨rfl, _, hgetEnd, rfl⟩, stopCall, _, hstopCall, stop, _, hstop, _, _, ⟨rfl, rfl⟩, (),
      _, rfl, hresult, rfl⟩

/-- An access by range measures the receiver, then looks at the range. -/
theorem rangePattern_eq (receiver argument : Lowering Expr) (length slice : SymbolId)
    (info : Info) :
    rangePattern receiver argument length slice info = (do
      let method ← methodOf slice
      if method.params.length ≠ 2 then
        fail (.badSliceSignature slice)
      else do
        let value ← receiver
        let measured ← measure value .copy length info.location
        let range ← argument
        sliceAt measured.1 measured.2 range slice info) := by
  simp only [rangePattern, measure, sliceAt, bind_assoc, pure_bind]

/-- An access by range binds object, length, range, start and end, then cuts out the slice. -/
theorem rangePattern_yields {length slice : SymbolId} {result : Expr}
    (h : (rangePattern receiver argument length slice info).Yields env allocator result rest) :
    ∃ value first object size second bounds third range start stop,
      receiver.Yields env allocator value first ∧
      Measured env value length info.location .copy first object size second ∧
      argument.Yields env second bounds third ∧
      Bounded env bounds size.reference info.location third range start stop rest ∧
      Code.sequence [object, size, range, start, stop]
        (sliceBetween env object start stop slice info) = result := by
  simp only [rangePattern_eq, yields_bind_iff, methodOf_yields_iff] at h
  obtain ⟨method, _, ⟨-, rfl⟩, h⟩ := h
  split at h
  -- a method that takes anything but a start and a count is turned down
  · exact absurd h not_yields_fail
  · simp only [yields_bind_iff] at h
    obtain ⟨value, first, hreceiver, ⟨object, size⟩, second, hmeasure, bounds, third, hargument,
      hslice⟩ := h
    obtain ⟨range, start, stop, hbounded, hresult⟩ := sliceAt_yields_iff.mp hslice
    exact ⟨value, first, object, size, second, bounds, third, range, start, stop, hreceiver,
      measure_yields_iff.mp hmeasure, hargument, hbounded, hresult⟩

/-- An access by range is read: there is no place to assign a range to. -/
theorem rangeAccess_yields {length slice : SymbolId} {result : Lowered}
    (h : (rangeAccess receiver argument length slice info mode).Yields env allocator result
      rest) :
    mode = .read ∧ ∃ value, result = .value value ∧
      (rangePattern receiver argument length slice info).Yields env allocator value rest := by
  cases mode with
  -- a slice is no place to assign to
  | write => exact absurd h not_yields_fail
  | read =>
    simp only [rangeAccess, yields_bind_iff, yields_pure_iff] at h
    obtain ⟨value, _, hvalue, rfl, rfl⟩ := h
    exact ⟨rfl, value, rfl, hvalue⟩

/-- An argument has the type that is expected of it, or nothing is lowered. -/
theorem expectArgument_yields {expected : TypeKind} {found : TypeId} {pattern : Lowering Lowered}
    {result : Lowered}
    (h : (expectArgument expected found pattern).Yields env allocator result rest) :
    env.types.kind? found = some expected ∧ pattern.Yields env allocator result rest := by
  simp only [expectArgument, yields_bind_iff, yields_environment_iff] at h
  obtain ⟨_, _, ⟨rfl, rfl⟩, h⟩ := h
  split at h
  · rename_i hkind
    exact ⟨hkind, h⟩
  · exact absurd h not_yields_fail

/-! ## §5 Positions and ranges -/

theorem positionFromEnd_yields {operand : Lowering Expr} {result : Expr}
    (h : (positionFromEnd info operand).Yields env allocator result rest) :
    ∃ constructor value, env.members.resolve .indexConstructor = .ok constructor ∧
      operand.Yields env allocator value rest ∧
      result = .construct info constructor
        [value, .literal ⟨env.types.boolType, info.location⟩ (.bool true)] := by
  simp only [positionFromEnd, yields_bind_iff, libraryMember_yields_iff, yields_environment_iff,
    yields_pure_iff] at h
  obtain ⟨constructor, _, ⟨hconstructor, rfl⟩, value, middle, hvalue, _, _, ⟨rfl, rfl⟩, rfl,
    rfl⟩ := h
  exact ⟨constructor, value, hconstructor, hvalue, rfl⟩

/-- A bound of a range as a position: an integer is counted from the start. -/
inductive BoundPosition (env : Env) (bound : Info) (value : Expr) : Expr → Prop where
  /-- an integer is turned into a position -/
  | counted {method : SymbolId} (hint : env.types.isInt bound.type = true)
    (hmethod : env.members.resolve .indexFromInt = .ok method) :
    BoundPosition env bound value
      (.staticCall ⟨env.types.indexType, bound.location⟩ method [value] false)
  /-- anything else is a position already -/
  | same (hint : env.types.isInt bound.type = false) : BoundPosition env bound value value

theorem positionOf_yields {bound : Info} {lowered : Lowering Expr} {result : Expr}
    (h : (positionOf bound lowered).Yields env allocator result rest) :
    ∃ value, lowered.Yields env allocator value rest ∧ BoundPosition env bound value result := by
  simp only [positionOf, yields_bind_iff, yields_environment_iff] at h
  obtain ⟨value, middle, hvalue, _, _, ⟨rfl, rfl⟩, h⟩ := h
  split at h
  · rename_i hint
    simp only [yields_bind_iff, libraryMember_yields_iff, yields_pure_iff] at h
    obtain ⟨method, _, ⟨hmethod, rfl⟩, rfl, rfl⟩ := h
    exact ⟨value, hvalue, .counted hint hmethod⟩
  · rename_i hint
    obtain ⟨rfl, rfl⟩ := yields_pure_iff.mp h
    exact ⟨value, hvalue, .same (Bool.not_eq_true _ ▸ hint)⟩

theorem openRange_yields {member : WellKnown.Member} {bounds : Lowering (List Expr)}
    {result : Expr} (h : (openRange info member bounds).Yields env allocator result rest) :
    ∃ method values, env.members.resolve member = .ok method ∧
      bounds.Yields env allocator values rest ∧ result = .staticCall info method values false := by
  simp only [openRange, yields_bind_iff, libraryMember_yields_iff, yields_pure_iff] at h
  obtain ⟨method, _, ⟨hmethod, rfl⟩, values, _, hvalues, rfl, rfl⟩ := h
  exact ⟨method, values, hmethod, hvalues, rfl⟩

theorem fullRange_yields {member : WellKnown.Member} {result : Expr}
    (h : (openRange info member (pure [])).Yields env allocator result rest) :
    ∃ method, env.members.resolve member = .ok method ∧ allocator = rest ∧
      result = .staticCall info method [] false := by
  obtain ⟨method, values, hmethod, hvalues, rfl⟩ := openRange_yields h
  obtain ⟨rfl, rfl⟩ := yields_pure_iff.mp hvalues
  exact ⟨method, hmethod, rfl, rfl⟩

theorem halfOpenRange_yields {member : WellKnown.Member} {bound : Info} {lowered : Lowering Expr}
    {result : Expr}
    (h : (openRange info member (return [← positionOf bound lowered])).Yields env allocator result
      rest) :
    ∃ method value position, env.members.resolve member = .ok method ∧
      lowered.Yields env allocator value rest ∧ BoundPosition env bound value position ∧
      result = .staticCall info method [position] false := by
  obtain ⟨method, values, hmethod, hvalues, rfl⟩ := openRange_yields h
  simp only [yields_bind_iff, yields_pure_iff] at hvalues
  obtain ⟨position, _, hposition, rfl, rfl⟩ := hvalues
  obtain ⟨value, hvalue, hbound⟩ := positionOf_yields hposition
  exact ⟨method, value, position, hmethod, hvalue, hbound, rfl⟩

theorem closedRange_yields {first last : Info} {start stop : Lowering Expr} {result : Expr}
    (h : (closedRange info (positionOf first start) (positionOf last stop)).Yields env allocator
      result rest) :
    ∃ constructor value position middle value' position',
      env.members.resolve .rangeConstructor = .ok constructor ∧
      start.Yields env allocator value middle ∧ BoundPosition env first value position ∧
      stop.Yields env middle value' rest ∧ BoundPosition env last value' position' ∧
      result = .construct info constructor [position, position'] := by
  simp only [closedRange, yields_bind_iff, libraryMember_yields_iff, yields_pure_iff] at h
  obtain ⟨constructor, _, ⟨hconstructor, rfl⟩, position, middle, hstart, position', _, hstop, rfl,
    rfl⟩ := h
  obtain ⟨value, hvalue, hbound⟩ := positionOf_yields hstart
  obtain ⟨value', hvalue', hbound'⟩ := positionOf_yields hstop
  exact ⟨constructor, value, position, middle, value', position', hconstructor, hvalue, hbound,
    hvalue', hbound', rfl⟩

end Operands

end Subscript.Lowering

namespace Subscript

open Code (Allocator Lowered)
open Lowering
open Source (Mode)

/-! ## §6 Expressions -/

section Expressions

variable {env : Env} {allocator rest : Allocator} {info : Info} {object receiver : Source.Expr}
  {symbol : SymbolId} {arguments : List Source.Expr} {lowered : Code.Expr}

theorem Source.Expr.field_yields
    (h : (Source.Expr.field info object symbol).lower.Yields env allocator lowered rest) :
    ∃ value, object.lower.Yields env allocator value rest ∧
      lowered = .field info value symbol := by
  simp only [Source.Expr.lower, yields_bind_iff, yields_pure_iff] at h
  obtain ⟨value, _, hobject, rfl, rfl⟩ := h
  exact ⟨value, hobject, rfl⟩

theorem Source.Expr.property_yields
    (h : (Source.Expr.property info object symbol).lower.Yields env allocator lowered rest) :
    ∃ value middle, object.lower.Yields env allocator value middle ∧
      (readMember value symbol info.location).Yields env middle lowered rest := by
  simpa only [Source.Expr.lower, yields_bind_iff] using h

/-- The arguments of a call are lowered from the allocator that its receiver leaves. -/
theorem Source.Expr.call_yields
    (h : (Source.Expr.call info receiver symbol arguments).lower.Yields env allocator lowered
      rest) :
    ∃ value middle values method, receiver.lower.Yields env allocator value middle ∧
      (lowerAll arguments).Yields env middle values rest ∧
      env.symbols.method? symbol = some method ∧
      lowered = .call info value symbol values method.returnsByRef := by
  simp only [Source.Expr.lower, yields_bind_iff, methodOf_yields_iff, yields_pure_iff] at h
  obtain ⟨value, middle, hreceiver, values, _, harguments, method, _, ⟨hmethod, rfl⟩, rfl, rfl⟩ := h
  exact ⟨value, middle, values, method, hreceiver, harguments, hmethod, rfl⟩

theorem Source.Expr.staticCall_yields
    (h : (Source.Expr.staticCall info symbol arguments).lower.Yields env allocator lowered rest) :
    ∃ values method, (lowerAll arguments).Yields env allocator values rest ∧
      env.symbols.method? symbol = some method ∧
      lowered = .staticCall info symbol values method.returnsByRef := by
  simp only [Source.Expr.lower, yields_bind_iff, methodOf_yields_iff, yields_pure_iff] at h
  obtain ⟨values, _, harguments, method, _, ⟨hmethod, rfl⟩, rfl, rfl⟩ := h
  exact ⟨values, method, harguments, hmethod, rfl⟩

/-- A nested access is read, and its value is all that is left of it. -/
theorem Source.Expr.access_yields {node : Source.Access}
    (h : (Source.Expr.access info node).lower.Yields env allocator lowered rest) :
    (node.lower .read info.location).Yields env allocator (.value lowered) rest := by
  simp only [Source.Expr.lower, yields_bind_iff, valueOf_yields_iff] at h
  obtain ⟨_, _, hnode, rfl, rfl⟩ := h
  exact hnode

theorem lowerAll_cons_yields {expr : Source.Expr} {exprs : List Source.Expr}
    {values : List Code.Expr}
    (h : (lowerAll (expr :: exprs)).Yields env allocator values rest) :
    ∃ value middle others, expr.lower.Yields env allocator value middle ∧
      (lowerAll exprs).Yields env middle others rest ∧ values = value :: others := by
  simp only [lowerAll, yields_bind_iff, yields_pure_iff] at h
  obtain ⟨value, middle, hvalue, others, _, hothers, rfl, rfl⟩ := h
  exact ⟨value, middle, others, hvalue, hothers, rfl⟩

end Expressions

/-! ## §7 Access nodes -/

section Nodes

variable {env : Env} {allocator rest : Allocator} {receiver argument : Source.Expr}
  {arguments : List Source.Expr} {type : TypeId} {mode : Mode} {site : Location}
  {result : Lowered}

/-- An access is lowered by itself, then checked. -/
theorem Source.Access.lower_yields_iff {node : Source.Access} :
    (node.lower mode site).Yields env allocator result rest ↔
      (node.lowerCore Source.Expr.lower mode site).Yields env allocator result rest ∧
        (env.options.validates = true → result.faults = []) := by
  rw [node.lower_eq_lowerWith, Source.Access.lowerWith]
  simp only [yields_bind_iff, conclude_yields_iff]
  constructor
  · rintro ⟨_, _, hcore, hvalid, rfl, rfl⟩
    exact ⟨hcore, hvalid⟩
  · rintro ⟨hcore, hvalid⟩
    exact ⟨result, rest, hcore, hvalid, rfl, rfl⟩

theorem Source.Access.indexer_yields (hliterals : env.builder = .literals) {indexer : SymbolId}
    {shape : CallShape}
    (h : ((Source.Access.indexer receiver arguments indexer shape type).lowerCore
      Source.Expr.lower mode site).Yields env allocator result rest) :
    ∃ object first operands second,
      (receiver.indexerReceiver Source.Expr.lower).Yields env allocator object first ∧
      (lowerAll arguments).Yields env first operands second ∧
      IndexerElement env object indexer operands shape ⟨type, site⟩ mode second result rest := by
  rw [Source.Access.lowerCore, ← lowerAll_eq_mapM] at h
  exact indexerAccess_yields hliterals h

theorem Source.Access.dynamic_yields {candidates : List SymbolId} {names : List (Option String)}
    {refKinds : List RefKind}
    (h : ((Source.Access.dynamic receiver arguments candidates names refKinds type).lowerCore
      Source.Expr.lower mode site).Yields env allocator result rest) :
    ∃ object middle operands,
      (receiver.dynamicReceiver Source.Expr.lower).Yields env allocator object middle ∧
      (lowerAll arguments).Yields env middle operands rest ∧
      dynamicLowered object operands names refKinds ⟨type, site⟩ mode = result := by
  rw [Source.Access.lowerCore, ← lowerAll_eq_mapM] at h
  exact dynamicAccess_yields h

theorem Source.Access.indexPattern_yields (hliterals : env.builder = .literals)
    {length : SymbolId} {intIndexer? : Option SymbolId}
    (h : ((Source.Access.indexPattern receiver length intIndexer? argument type).lowerCore
      Source.Expr.lower mode site).Yields env allocator result rest) :
    ∃ value first object size second position third offset fourth element,
      receiver.lower.Yields env allocator value first ∧
      Measured env value length site (receiverHolding env.types value) first object size second ∧
      argument.lower.Yields env second position third ∧
      Offset env position size.reference site third offset fourth ∧
      ElementAt env object.reference offset.reference intIndexer? ⟨type, site⟩ mode fourth element
        rest ∧
      runAhead [object, size, offset] element = result := by
  exact Lowering.indexPattern_yields hliterals (expectArgument_yields h).2

theorem Source.Access.rangePattern_yields {length slice : SymbolId}
    (h : ((Source.Access.rangePattern receiver length slice argument type).lowerCore
      Source.Expr.lower mode site).Yields env allocator result rest) :
    mode = .read ∧ ∃ value, result = .value value ∧
      (Lowering.rangePattern receiver.lower argument.lower length slice ⟨type, site⟩).Yields env
        allocator value rest := by
  exact rangeAccess_yields (expectArgument_yields h).2

end Nodes

/-! ## §8 A small program -/

namespace Sample

/-- A program with a property `Item`, an indexer of two parameters, and a function `f`. -/
def env : Env where
  symbols :=
    let getter : Method :=
      { name := "get_Item", declaringType := .invalid, returnType := .invalid
        params := [{ name := "p", type := .invalid }, { name := "q", type := .invalid }] }
    let property : Property :=
      { name := "Item", declaringType := .invalid, type := .invalid, params := []
        getter? := some ⟨1⟩, setter? := none }
    let function : Method :=
      { name := "f", declaringType := .invalid, returnType := .invalid, params := [] }
    ⟨#[.property property, .method getter, .method function]⟩
  types := .empty
  members := .empty

/-- Where everything in the program stands, and of what type. -/
def info : Info := ⟨.invalid, .unknown⟩

/-- The call `f()`. -/
def call : Source.Expr := .staticCall info ⟨2⟩ []

/-- The access `this[first, second]` with the arguments in the order of `q` and `p`. -/
def swapped (first second : Source.Expr) (refKinds : List RefKind) : Source.Access :=
  .indexer (.self info) [first, second] ⟨0⟩ { placement? := some [1, 0], refKinds := refKinds }
    .invalid

end Sample

end Subscript
