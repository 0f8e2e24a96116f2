import Subscript.Proofs.Accesses

/-!
# What can be lowered

A lowering returns a result or ends with a violation. Whether it returns depends on the tables of
the program alone: on the symbols that the nodes of the tree refer to, on the library members that
they need and on the argument lists that they carry. `Visit.Fits` says for each node what it asks
for, and an access is lowered exactly if every node that lowering comes by gets what it asks for.

## Architecture

- §1 `ReturnsIff`, when a lowering returns
- §2 members that are read and library members
- §3 argument lists
- §4 accesses through an indexer, of an array and at run time
- §5 accesses by position and by range
- §6 positions and ranges themselves
- §7 `Visit`, a node that lowering comes by
- §8 `Visit.Fits`, what a node asks for
- §9 the induction over expressions and accesses
-/

namespace Subscript

open Code (Allocator Binding Expr Holding Lowered)
open Source (Mode)

namespace Lowering

variable {α β : Type} {env : Env} {P P' Q : Prop}

/-! ## §1 Lowerings that return -/

/-- From an allocator, a lowering gives some result. -/
def Returns (lowering : Lowering α) (env : Env) (allocator : Allocator) : Prop :=
  ∃ result rest, lowering.Yields env allocator result rest

/-- Whatever the allocator is, a lowering returns on one condition. -/
def ReturnsIff (lowering : Lowering α) (env : Env) (P : Prop) : Prop :=
  ∀ allocator, lowering.Returns env allocator ↔ P

section ReturnsIff

variable {first : Lowering α} {next : α → Lowering β}

/-- What a lowering asks for may be described in other words. -/
theorem ReturnsIff.congr (h : ReturnsIff first env P) (hiff : P ↔ P') : ReturnsIff first env P' :=
  fun allocator => (h allocator).trans hiff

/-- A value that is there already asks for nothing. -/
theorem ReturnsIff.pure (value : α) : ReturnsIff (Pure.pure value : Lowering α) env True :=
  fun allocator => iff_of_true ⟨value, allocator, yields_pure_iff.mpr ⟨rfl, rfl⟩⟩ trivial

theorem ReturnsIff.fail (violation : Violation) :
    ReturnsIff (Lowering.fail violation : Lowering α) env False :=
  fun _ => iff_of_false (fun ⟨_, _, h⟩ => not_yields_fail h) id

/-- Two lowerings in a row both have to return; what the second needs does not depend on the
result of the first. -/
theorem ReturnsIff.bind (h : ReturnsIff first env P)
    (h' : ∀ allocator value rest, first.Yields env allocator value rest →
      ReturnsIff (next value) env Q) : ReturnsIff (first >>= next) env (P ∧ Q) := by
  intro allocator
  constructor
  · rintro ⟨result, rest, hyields⟩
    obtain ⟨value, middle, hfirst, hnext⟩ := yields_bind_iff.mp hyields
    exact ⟨(h allocator).mp ⟨value, middle, hfirst⟩,
      (h' allocator value middle hfirst middle).mp ⟨result, rest, hnext⟩⟩
  · rintro ⟨hP, hQ⟩
    obtain ⟨value, middle, hfirst⟩ := (h allocator).mpr hP
    obtain ⟨result, rest, hnext⟩ := (h' allocator value middle hfirst middle).mpr hQ
    exact ⟨result, rest, yields_bind_iff.mpr ⟨value, middle, hfirst, hnext⟩⟩

/-- Two lowerings in a row, the second of which asks for the same whatever the first gives. -/
theorem ReturnsIff.seq (h : ReturnsIff first env P) (h' : ∀ value, ReturnsIff (next value) env Q) :
    ReturnsIff (first >>= next) env (P ∧ Q) :=
  h.bind fun _ value _ _ => h' value

/-- What always returns asks for nothing behind a lowering. -/
theorem ReturnsIff.before (h : ReturnsIff first env P)
    (h' : ∀ value, ReturnsIff (next value) env True) : ReturnsIff (first >>= next) env P :=
  (h.seq h').congr (iff_of_eq (and_true P))

theorem ReturnsIff.bind_pure (h : ReturnsIff first env P) (f : α → β) :
    ReturnsIff (first >>= fun value => Pure.pure (f value)) env P :=
  h.before fun value => .pure (f value)

/-- What always returns asks for nothing in front of a lowering. -/
theorem ReturnsIff.behind (h : ReturnsIff first env True)
    (h' : ∀ allocator value rest, first.Yields env allocator value rest →
      ReturnsIff (next value) env Q) : ReturnsIff (first >>= next) env Q :=
  (h.bind h').congr (iff_of_eq (true_and Q))

/-- A look-up in front of a lowering, which then depends on what was found. The symbol has to
stand for something, and the rest has to return for just that. -/
theorem ReturnsIff.lookup {found : α → Prop} {Q : α → Prop}
    (h : ∀ allocator value rest,
      first.Yields env allocator value rest ↔ found value ∧ allocator = rest)
    (h' : ∀ value, found value → ReturnsIff (next value) env (Q value)) :
    ReturnsIff (first >>= next) env (∃ value, found value ∧ Q value) := by
  intro allocator
  constructor
  · rintro ⟨result, rest, hyields⟩
    obtain ⟨value, middle, hfirst, hnext⟩ := yields_bind_iff.mp hyields
    have hfound := ((h allocator value middle).mp hfirst).1
    exact ⟨value, hfound, (h' value hfound middle).mp ⟨result, rest, hnext⟩⟩
  · rintro ⟨value, hfound, hQ⟩
    obtain ⟨result, rest, hnext⟩ := (h' value hfound allocator).mpr hQ
    exact ⟨result, rest, yields_bind_iff.mpr
      ⟨value, allocator, (h allocator value allocator).mpr ⟨hfound, rfl⟩, hnext⟩⟩

/-- The tables may always be read, so only what follows asks for something. -/
theorem ReturnsIff.environment {next : Env → Lowering β} (h : ReturnsIff (next env) env Q) :
    ReturnsIff (environment >>= next) env Q := by
  have hreturns : ReturnsIff Lowering.environment env True :=
    fun allocator => iff_of_true ⟨env, allocator, yields_environment_iff.mpr ⟨rfl, rfl⟩⟩ trivial
  apply hreturns.behind
  intro allocator value rest hyields
  obtain ⟨rfl, -⟩ := yields_environment_iff.mp hyields
  exact h

/-- An event may always be reported. -/
theorem ReturnsIff.report (event : Event) {next : Unit → Lowering β}
    (h : ReturnsIff (next ()) env Q) : ReturnsIff (Lowering.report event >>= next) env Q := by
  have hreturns : ReturnsIff (Lowering.report event) env True :=
    fun allocator => iff_of_true ⟨(), allocator, yields_report_iff.mpr rfl⟩ trivial
  exact hreturns.behind fun _ _ _ _ => h

end ReturnsIff

/-! ## §2 Members -/

end Lowering

open Lowering

/-- A library member is there. -/
def Env.Provides (env : Env) (member : WellKnown.Member) : Prop :=
  ∃ symbol, env.members.resolve member = .ok symbol

/-- A symbol is a method. -/
def Env.HasMethod (env : Env) (symbol : SymbolId) : Prop :=
  ∃ method, env.symbols.method? symbol = some method

/-- A member can be read: it is a field, or a property with a getter, which is a method unless the
property itself says that it gives out storage. -/
def Env.Readable (env : Env) (member : SymbolId) : Prop :=
  (∃ field, env.symbols.get? member = some (.field field)) ∨
    ∃ property getter, env.symbols.get? member = some (.property property) ∧
      property.getter? = some getter ∧ (property.returnsByRef = false → env.HasMethod getter)

section Members

variable {env : Env}

theorem methodOf_returnsIff (symbol : SymbolId) :
    ReturnsIff (methodOf symbol) env (env.HasMethod symbol) := by
  simp [ReturnsIff, Returns, Env.HasMethod]

theorem libraryMember_returnsIff (member : WellKnown.Member) :
    ReturnsIff (libraryMember member) env (env.Provides member) := by
  simp [ReturnsIff, Returns, Env.Provides]

/-- Whether a read gives out storage can be told unless the getter is needed and missing. -/
private theorem readsByRef_exists_iff {property : Property} {getter : SymbolId} :
    (∃ byRef, ReadsByRef env property getter byRef) ↔
      (property.returnsByRef = false → env.HasMethod getter) := by
  constructor
  · rintro ⟨byRef, h⟩ hvalue
    cases h with
    | property hbyRef => exact absurd (hbyRef.symm.trans hvalue) (by decide)
    | getter _ hmethod => exact ⟨_, hmethod⟩
  · intro h
    cases hbyRef : property.returnsByRef with
    | true => exact ⟨true, .property hbyRef⟩
    | false =>
      obtain ⟨method, hmethod⟩ := h hbyRef
      exact ⟨_, .getter hbyRef hmethod⟩

/-- A member is read exactly if it is a field or a property whose getter can be called. -/
theorem readMember_returnsIff (object : Expr) (member : SymbolId) (site : Location) :
    ReturnsIff (readMember object member site) env (env.Readable member) := by
  intro allocator
  constructor
  · rintro ⟨result, rest, h⟩
    obtain ⟨-, ⟨property, getter, byRef, hsymbol, hgetter, hbyRef, -⟩ | ⟨field, hsymbol, -⟩⟩ :=
      readMember_yields_iff.mp h
    · exact .inr ⟨property, getter, hsymbol, hgetter, readsByRef_exists_iff.mp ⟨byRef, hbyRef⟩⟩
    · exact .inl ⟨field, hsymbol⟩
  · rintro (⟨field, hsymbol⟩ | ⟨property, getter, hsymbol, hgetter, hmethod⟩)
    · exact ⟨_, _, readMember_yields_iff.mpr ⟨rfl, .inr ⟨field, hsymbol, rfl⟩⟩⟩
    · obtain ⟨byRef, hbyRef⟩ := readsByRef_exists_iff.mpr hmethod
      exact ⟨_, _, readMember_yields_iff.mpr
        ⟨rfl, .inl ⟨property, getter, byRef, hsymbol, hgetter, hbyRef, rfl⟩⟩⟩

end Members

/-! ## §3 Argument lists -/

/-- A parameter is served: it collects arguments, one is placed there, or it is filled in. -/
def CallShape.Serves (shape : CallShape) (params : List Param) (placement : List Nat)
    (position : Nat) (param : Param) : Prop :=
  shape.collecting? params = some position ∨ position ∈ placement ∨ param.isParams = true ∨
    param.isOptional = true

/-- An argument list of so many arguments fits a parameter list: each argument has a parameter, no
parameter gets several unless it collects them, and every parameter is served. -/
def CallShape.Accepts (shape : CallShape) (params : List Param) (count : Nat) : Prop :=
  ∃ placement, shape.placement params count = .ok placement ∧
    (∀ position < params.length, shape.collecting? params ≠ some position →
      placement.count position ≤ 1) ∧
    ∀ position param, params[position]? = some param →
      shape.Serves params placement position param

section ArgumentLists

variable {types : TypeTable} {site : Location} {shape : CallShape} {params : List Param}
  {arguments reads : List Expr} {placement : List Nat} {allocator : Allocator}

/-- A parameter that collects nothing is left with nothing only if it was given nothing and has no
default. -/
private theorem Lowering.Argument.exists_iff {param : Param} {collects : Bool}
    {placed : List Expr} :
    (∃ argument, Argument types site param collects placed argument) ↔
      collects = true ∨ placed ≠ [] ∨ param.isParams = true ∨ param.isOptional = true := by
  constructor
  · rintro ⟨argument, h⟩
    cases h with
    | collected => exact .inl rfl
    | written argument others => exact .inr (.inl (List.cons_ne_nil argument others))
    | empty hparams => exact .inr (.inr (.inl hparams))
    | default _ hdefault => exact .inr (.inr (.inr (Option.isSome_iff_exists.mpr ⟨_, hdefault⟩)))
  · intro h
    -- the rules are tried in the order in which the builder goes
    cases collects with
    | true => exact ⟨_, .collected placed⟩
    | false =>
      cases placed with
      | cons argument others => exact ⟨argument, .written argument others⟩
      | nil =>
        cases hparams : param.isParams with
        | true => exact ⟨_, .empty hparams⟩
        | false =>
          have hoptional : param.isOptional = true := by simpa [hparams] using h
          obtain ⟨value, hvalue⟩ := Option.isSome_iff_exists.mp hoptional
          exact ⟨_, .default hparams hvalue⟩

/-- The parameters from `position` on get arguments exactly if each of them is served. The
induction is on the parameters that are left; `position` counts up with it, so the list of
parameters is entered at `position + index`. -/
private theorem Lowering.Arguments.exists_iff (hlength : placement.length = reads.length)
    {position : Nat} {later : List Param} :
    (∃ arguments, Arguments types site (shape.collecting? params) placement reads position later
        arguments) ↔
      ∀ index param, later[index]? = some param →
        shape.Serves params placement (position + index) param := by
  induction later generalizing position with
  | nil => exact iff_of_true ⟨[], .nil position⟩ (by simp)
  | cons first later ih =>
    -- arguments are placed at a position exactly if the placement mentions it
    have hplaced : placedAt position placement reads ≠ [] ↔ position ∈ placement := by
      rw [← List.length_pos_iff, length_placedAt hlength, List.count_pos_iff]
    have hfirst : (∃ argument, Argument types site first
        (decide (shape.collecting? params = some position)) (placedAt position placement reads)
        argument) ↔ shape.Serves params placement position first := by
      rw [Argument.exists_iff, hplaced, decide_eq_true_iff, CallShape.Serves]
    constructor
    · rintro ⟨_, h⟩ index param hparam
      obtain _ | ⟨hargument, hlater⟩ := h
      cases index with
      | zero => exact Option.some.inj hparam ▸ hfirst.mp ⟨_, hargument⟩
      | succ index =>
        rw [Nat.add_comm index, ← Nat.add_assoc]
        exact ih.mp ⟨_, hlater⟩ index param hparam
    · intro hserves
      obtain ⟨argument, hargument⟩ := hfirst.mpr (hserves 0 first rfl)
      have hlater : ∀ index param, later[index]? = some param →
          shape.Serves params placement (position + 1 + index) param := by
        intro index param hparam
        rw [Nat.add_assoc, Nat.add_comm 1]
        exact hserves (index + 1) param hparam
      obtain ⟨arguments, harguments⟩ := ih.mpr hlater
      exact ⟨argument :: arguments, .cons hargument harguments⟩

/-- An argument list has a normal form exactly if it fits. Only the placement and the defaults can
be in the way: binding the arguments never fails, so what is read in their place always exists. -/
theorem Lowering.NormalForm.exists_iff :
    (∃ normalized rest placement reads, NormalForm types arguments shape params site placement
        reads allocator normalized rest) ↔ shape.Accepts params arguments.length := by
  constructor
  · rintro ⟨normalized, rest, placement, reads, h⟩
    refine ⟨placement, h.placed, CallShape.overbound?_eq_none_iff.mp h.unbound, ?_⟩
    have hserves := (Arguments.exists_iff h.length_placement).mp ⟨_, h.arguments⟩
    simpa using hserves
  · rintro ⟨placement, hplaced, hone, hserves⟩
    obtain ⟨reads, bindings, rest, hreads⟩ := ReadFrom.exists shape placement allocator arguments
    have hlength : placement.length = reads.length :=
      (CallShape.placement_ok hplaced).1.trans hreads.length_reads.symm
    -- the arguments are put together from whatever is read in their place
    obtain ⟨called, hcalled⟩ : ∃ called, Arguments types site (shape.collecting? params) placement
        reads 0 params called := (Arguments.exists_iff hlength).mpr (by simpa using hserves)
    exact ⟨⟨called, bindings⟩, rest, placement, reads, hplaced,
      CallShape.overbound?_eq_none_iff.mpr hone, hreads, hcalled⟩

/-- An argument list can be put in the order of the parameters exactly if it fits. What it is
bound to and how it is read does not matter. -/
theorem normalize_returnsIff {env : Env} (hliterals : env.builder = .literals)
    (arguments : List Expr) (shape : CallShape) (params : List Param) (site : Location) :
    ReturnsIff (normalize arguments shape params site) env
      (shape.Accepts params arguments.length) := by
  intro allocator
  simp only [Returns, normalize_yields_iff hliterals]
  exact NormalForm.exists_iff

end ArgumentLists

/-! ## §4 Accesses through an indexer, of an array and at run time -/

/-- An indexer takes so many arguments in a mode: it is a property and, unless its setter is going
to be called, it has a getter, which is a method that accepts the arguments. -/
def Env.Indexes (env : Env) (indexer : SymbolId) (count : Nat) (shape : CallShape) (mode : Mode) :
    Prop :=
  ∃ property, env.symbols.property? indexer = some property ∧
    (¬ (mode = .write ∧ property.returnsByRef = false) → ∃ getter,
      property.getter? = some getter ∧ ∃ method, env.symbols.method? getter = some method ∧
        shape.Accepts method.params count)

/-- There is an element at an offset: an indexer takes the offset, or the object is an array. -/
def Env.HasElement (env : Env) (object : TypeId) (mode : Mode) : Option SymbolId → Prop
  | some indexer => env.Indexes indexer 1 .positional mode
  | none => env.types.isArray object = true

section Elements

variable {env : Env} {P Q : Prop}

/-- If the arguments are placed, it is known whether the receiver is bound. -/
private theorem Lowering.Settled.exists_of_placed {types : TypeTable} {shape : CallShape}
    {params : List Param} {arguments : List Expr} {placement : List Nat}
    (hplaced : shape.placement params arguments.length = .ok placement) (receiver : Expr)
    (allocator : Allocator) :
    ∃ read ahead rest, Settled types shape params arguments receiver allocator read ahead rest := by
  cases hspills : spillsFor placement arguments with
  | false => exact ⟨_, _, _, .stays fun _ => ⟨hplaced, hspills⟩⟩
  | true =>
    cases hstable : receiver.isStable with
    | false => exact ⟨_, _, _, .bound hstable hplaced hspills⟩
    | true =>
      have hstays : receiver.isStable = false →
          shape.placement params arguments.length = .ok placement ∧
            spillsFor placement arguments = false := by simp [hstable]
      exact ⟨_, _, _, .stays hstays⟩

/-- A getter is called exactly if there is one that accepts the arguments. -/
theorem Lowering.GetterCall.exists_iff {receiver : Expr} {property : Property}
    {arguments : List Expr} {shape : CallShape} {info : Info} {allocator : Allocator} :
    (∃ result rest, GetterCall env receiver property arguments shape info allocator result rest) ↔
      ∃ getter, property.getter? = some getter ∧ ∃ method,
        env.symbols.method? getter = some method ∧
          shape.Accepts method.params arguments.length := by
  constructor
  · rintro ⟨_, _, ⟨hgetter, hmethod, -, hnormal⟩⟩
    exact ⟨_, hgetter, _, hmethod, NormalForm.exists_iff.mp ⟨_, _, _, _, hnormal⟩⟩
  · rintro ⟨getter, hgetter, method, hmethod, haccepts⟩
    -- arguments that are accepted have been placed
    have hplaced := haccepts.choose_spec.1
    obtain ⟨read, ahead, middle, hsettled⟩ : ∃ read ahead middle, Settled env.types shape
        method.params arguments receiver allocator read ahead middle :=
      Settled.exists_of_placed hplaced receiver allocator
    obtain ⟨normalized, rest, placement, reads, hnormal⟩ := NormalForm.exists_iff.mpr haccepts
    exact ⟨_, rest, .mk hgetter hmethod hsettled hnormal⟩

/-- The getter is left alone if the setter is going to be called. So nothing is asked of it when
an element is going to be assigned, unless the property gives out storage. -/
theorem Lowering.IndexerElement.exists_iff {receiver : Expr} {indexer : SymbolId}
    {arguments : List Expr} {shape : CallShape} {info : Info} {mode : Mode}
    {allocator : Allocator} :
    (∃ lowered rest, IndexerElement env receiver indexer arguments shape info mode allocator
        lowered rest) ↔ env.Indexes indexer arguments.length shape mode := by
  have hsetter {property : Property} : (mode.isWrite && !property.returnsByRef) = true ↔
      mode = .write ∧ property.returnsByRef = false := by
    cases mode <;> simp [Mode.isWrite]
  constructor
  · rintro ⟨lowered, rest, h⟩
    cases h with
    | place hproperty hwrite =>
      exact ⟨_, hproperty, fun hread => absurd (hsetter.mp hwrite) hread⟩
    | value hproperty _ hcall =>
      exact ⟨_, hproperty, fun _ => GetterCall.exists_iff.mp ⟨_, _, hcall⟩⟩
  -- a place needs no getter, so its condition is empty there
  · rintro ⟨property, hproperty, hgetter⟩
    cases hwrite : mode.isWrite && !property.returnsByRef with
    | true => exact ⟨_, _, .place hproperty hwrite⟩
    | false =>
      have hread : ¬ (mode = .write ∧ property.returnsByRef = false) := by
        rw [← hsetter, hwrite]
        decide
      obtain ⟨result, rest, hcall⟩ := GetterCall.exists_iff.mpr (hgetter hread)
      exact ⟨_, rest, .value hproperty hwrite hcall⟩

/-- An element of an indexer asks for the property and, unless it is written in place, for a
getter that takes the arguments. -/
theorem indexerElement_returnsIff (hliterals : env.builder = .literals) (receiver : Expr)
    (indexer : SymbolId) (arguments : List Expr) (shape : CallShape) (info : Info) (mode : Mode) :
    ReturnsIff (indexerElement receiver indexer arguments shape info mode) env
      (env.Indexes indexer arguments.length shape mode) := by
  intro allocator
  simp only [Returns, indexerElement_yields_iff hliterals]
  exact IndexerElement.exists_iff

/-- An indexed property is read exactly if its object is lowered and it can be read there. -/
theorem readIndexedProperty_returnsIff {object : Lowering Expr}
    (hobject : ReturnsIff object env P) (property : SymbolId) (site : Location) :
    ReturnsIff (readIndexedProperty object property site) env (P ∧ env.Readable property) := by
  apply ReturnsIff.environment
  apply ReturnsIff.report
  exact hobject.seq fun value => readMember_returnsIff value property site

/-- A property that is looked up by its name need not be declared. -/
theorem fetchIndexedProperty_returnsIff {object : Lowering Expr}
    (hobject : ReturnsIff object env P) (property : SymbolId) (site : Location) :
    ReturnsIff (fetchIndexedProperty object property site) env P := by
  apply hobject.before
  intro value
  apply ReturnsIff.environment
  exact .report _ (.pure _)

theorem announce_returnsIff (site : Location) (candidates : List SymbolId) :
    ReturnsIff (announce site candidates) env
      (∀ candidate ∈ candidates, ∃ property,
        env.symbols.property? candidate = some property) := by
  simp [ReturnsIff, Returns, announce_yields_iff]

section Operands

variable {receiver : Lowering Expr} {arguments : Lowering (List Expr)}
  (hreceiver : ReturnsIff receiver env P) (harguments : ReturnsIff arguments env Q)

include hreceiver harguments

/-- An access through an indexer asks for its receiver, its arguments and an element behind the
indexer. The number of arguments is all that the last of these has to know. -/
theorem indexerAccess_returnsIff (hliterals : env.builder = .literals) {count : Nat}
    (hcount : ∀ allocator operands rest, arguments.Yields env allocator operands rest →
      operands.length = count) (indexer : SymbolId) (shape : CallShape) (info : Info)
    (mode : Mode) :
    ReturnsIff (indexerAccess receiver arguments indexer shape info mode) env
      (P ∧ Q ∧ env.Indexes indexer count shape mode) := by
  apply hreceiver.seq
  intro object
  apply harguments.bind
  intro allocator operands rest hoperands
  rw [← hcount allocator operands rest hoperands]
  exact indexerElement_returnsIff hliterals object indexer operands shape info mode

/-- A dynamic access asks for its candidates, its receiver and its arguments; which candidate is
meant is left to the world. -/
theorem dynamicAccess_returnsIff (candidates : List SymbolId) (names : List (Option String))
    (refKinds : List RefKind) (info : Info) (mode : Mode) :
    ReturnsIff (dynamicAccess receiver arguments candidates names refKinds info mode) env
      ((∀ candidate ∈ candidates, ∃ property,
        env.symbols.property? candidate = some property) ∧ P ∧ Q) := by
  rw [dynamicAccess_eq]
  apply (announce_returnsIff info.location candidates).seq
  intro _
  apply hreceiver.seq
  intro object
  exact harguments.bind_pure _

end Operands

end Elements

/-! ## §5 Accesses by position and by range -/

section Patterns

variable {env : Env} {P Q : Prop}

/-- A receiver can be measured exactly if its length can be read. -/
theorem measure_returnsIff (receiver : Expr) (holding : Holding) (length : SymbolId)
    (site : Location) :
    ReturnsIff (measure receiver holding length site) env (env.Readable length) := by
  intro allocator
  rw [← readMember_returnsIff (allocator.bind receiver holding).1.reference length site]
  constructor
  · rintro ⟨⟨object, size⟩, rest, h⟩
    obtain ⟨hlength⟩ := measure_yields_iff.mp h
    exact ⟨_, _, hlength⟩
  · rintro ⟨read, rest, hlength⟩
    obtain rfl := (readMember_yields_iff.mp hlength).1
    exact ⟨_, _, measure_yields_iff.mpr (.mk hlength)⟩

/-- An offset is bound exactly if there is a method that computes it. -/
private theorem Lowering.Offset.exists_iff {position length : Expr} {site : Location}
    {allocator : Allocator} :
    (∃ offset rest, Offset env position length site allocator offset rest) ↔
      env.Provides .indexGetOffset := by
  constructor
  · rintro ⟨_, _, ⟨hmethod⟩⟩
    exact ⟨_, hmethod⟩
  · rintro ⟨method, hmethod⟩
    exact ⟨_, _, .mk hmethod⟩

/-- An element is found at an offset exactly if the indexer accepts one argument or, without an
indexer, the receiver is an array. -/
theorem Lowering.ElementAt.exists_iff {object offset : Expr} {intIndexer? : Option SymbolId}
    {info : Info} {mode : Mode} {allocator : Allocator} :
    (∃ element rest, ElementAt env object offset intIndexer? info mode allocator element rest) ↔
      env.HasElement object.type mode intIndexer? := by
  cases intIndexer? with
  | some indexer =>
    -- with an indexer there is one way to come by an element
    have hindexes : (∃ element rest, IndexerElement env object indexer [offset] .positional info
        mode allocator element rest) ↔ env.HasElement object.type mode (some indexer) :=
      IndexerElement.exists_iff
    rw [← hindexes]
    constructor
    · rintro ⟨element, rest, h⟩
      cases h with
      | indexer hindexer helement => exact ⟨element, rest, Option.some.inj hindexer ▸ helement⟩
      | array hnone => cases hnone
    · rintro ⟨element, rest, helement⟩
      exact ⟨element, rest, .indexer rfl helement⟩
  | none =>
    constructor
    · rintro ⟨element, rest, h⟩
      cases h with
      | indexer hindexer => cases hindexer
      | array _ harray => exact harray
    · intro harray
      exact ⟨_, _, .array rfl harray⟩

theorem accessAt_returnsIff (hliterals : env.builder = .literals) (object size : Binding)
    (position : Expr) (intIndexer? : Option SymbolId) (info : Info) (mode : Mode) :
    ReturnsIff (accessAt object size position intIndexer? info mode) env
      (env.Provides .indexGetOffset ∧ env.HasElement object.reference.type mode intIndexer?) := by
  intro allocator
  simp only [Returns, accessAt_yields_iff hliterals]
  constructor
  · rintro ⟨_, rest, offset, middle, element, hoffset, helement, rfl⟩
    exact ⟨Offset.exists_iff.mp ⟨offset, middle, hoffset⟩,
      ElementAt.exists_iff.mp ⟨element, rest, helement⟩⟩
  · rintro ⟨hprovides, hhas⟩
    obtain ⟨offset, middle, hoffset⟩ := Offset.exists_iff.mpr hprovides
    obtain ⟨element, rest, helement⟩ := ElementAt.exists_iff.mpr hhas
    exact ⟨_, rest, offset, middle, element, hoffset, helement, rfl⟩

/-- Both ends of a range are looked up, then turned into offsets in the same way. -/
theorem sliceAt_returnsIff (object size : Binding) (value : Expr) (slice : SymbolId)
    (info : Info) :
    ReturnsIff (sliceAt object size value slice info) env
      (env.Provides .rangeGetStart ∧ env.Provides .rangeGetEnd ∧
        env.Provides .indexGetOffset) := by
  intro allocator
  simp only [Returns, sliceAt_yields_iff]
  constructor
  · rintro ⟨_, _, _, _, _, ⟨hgetStart, hstart, hgetEnd, -⟩, -⟩
    exact ⟨⟨_, hgetStart⟩, ⟨_, hgetEnd⟩, Offset.exists_iff.mp ⟨_, _, hstart⟩⟩
  · rintro ⟨⟨getStart, hgetStart⟩, ⟨getEnd, hgetEnd⟩, hoffset⟩
    obtain ⟨start, middle, hstart⟩ := Offset.exists_iff.mpr hoffset
    obtain ⟨stop, rest, hstop⟩ := Offset.exists_iff.mpr hoffset
    exact ⟨_, rest, _, start, stop, .mk hgetStart hstart hgetEnd hstop, rfl⟩

section Operands

variable {receiver argument : Lowering Expr} (hreceiver : ReturnsIff receiver env P)
  (hargument : ReturnsIff argument env Q)

theorem expectArgument_returnsIff (expected : TypeKind) (found : TypeId)
    {pattern : Lowering Lowered} (hpattern : ReturnsIff pattern env P) :
    ReturnsIff (expectArgument expected found pattern) env
      (env.types.kind? found = some expected ∧ P) := by
  apply ReturnsIff.environment
  split
  · rename_i hkind
    exact hpattern.congr (by simp [hkind])
  · rename_i hkind
    exact (ReturnsIff.fail _).congr (by simp [hkind])

include hreceiver hargument

/-- What an access by position asks for: a length that can be read, the library's offset, and an
element at that offset, which is an indexer for integers or an array. `P` and `Q` are what the
receiver and the position ask for themselves. -/
theorem indexPattern_returnsIff (hliterals : env.builder = .literals) {object : TypeId}
    (hobject : ∀ allocator value rest, receiver.Yields env allocator value rest →
      value.type = object) (length : SymbolId) (intIndexer? : Option SymbolId) (info : Info)
    (mode : Mode) :
    ReturnsIff (indexPattern receiver argument length intIndexer? info mode) env
      (P ∧ env.Readable length ∧ Q ∧ env.Provides .indexGetOffset ∧
        env.HasElement object mode intIndexer?) := by
  rw [indexPattern_eq]
  apply hreceiver.bind
  intro allocator value rest hvalue
  apply ReturnsIff.environment
  apply (measure_returnsIff value _ length info.location).bind
  rintro _ ⟨object', size⟩ _ hmeasured
  apply hargument.seq
  intro position
  -- the receiver is bound at the type that its code has
  have htype : object'.reference.type = object := by
    cases measure_yields_iff.mp hmeasured
    exact hobject allocator value rest hvalue
  exact htype ▸ accessAt_returnsIff hliterals object' size position intIndexer? info mode

/-- What an access by range asks for: a slice method of two parameters, a length and the offsets of
both ends; and that nothing is assigned to it. -/
theorem rangeAccess_returnsIff (length slice : SymbolId) (info : Info) (mode : Mode) :
    ReturnsIff (rangeAccess receiver argument length slice info mode) env
      (mode = .read ∧ (∃ method, env.symbols.method? slice = some method ∧
        method.params.length = 2) ∧ P ∧ env.Readable length ∧ Q ∧ env.Provides .rangeGetStart ∧
          env.Provides .rangeGetEnd ∧ env.Provides .indexGetOffset) := by
  cases mode with
  -- a range cannot be assigned to
  | write => exact (ReturnsIff.fail _).congr (by simp)
  | read =>
    simp only [true_and, ← exists_and_right]
    rw [rangeAccess, rangePattern_eq]
    refine ReturnsIff.bind_pure ?_ _
    simp only [and_assoc]
    apply ReturnsIff.lookup fun _ _ _ => methodOf_yields_iff
    intro method _
    split
    · rename_i hparams
      exact (ReturnsIff.fail _).congr (by simp [hparams])
    · rename_i hparams
      simp only [Decidable.not_not.mp hparams, true_and]
      -- from here on everything is lowered and looked up in its order
      apply hreceiver.seq
      intro value
      apply (measure_returnsIff value .copy length info.location).seq
      rintro ⟨object, size⟩
      apply hargument.seq
      intro range
      exact sliceAt_returnsIff object size range slice info

end Operands

/-! ## §6 Positions and ranges -/

theorem positionFromEnd_returnsIff {operand : Lowering Expr} (info : Info)
    (hoperand : ReturnsIff operand env P) :
    ReturnsIff (positionFromEnd info operand) env (env.Provides .indexConstructor ∧ P) := by
  apply (libraryMember_returnsIff .indexConstructor).seq
  intro constructor
  apply hoperand.before
  intro value
  exact .environment (.pure _)

/-- Only an integer has to be turned into a position. -/
theorem positionOf_returnsIff {lowered : Lowering Expr} (bound : Info)
    (hlowered : ReturnsIff lowered env P) :
    ReturnsIff (positionOf bound lowered) env
      (P ∧ (env.types.isInt bound.type = true → env.Provides .indexFromInt)) := by
  apply hlowered.seq
  intro value
  apply ReturnsIff.environment
  dsimp only
  split
  · rename_i hint
    apply ((libraryMember_returnsIff .indexFromInt).bind_pure _).congr
    simp [hint]
  · rename_i hint
    exact (ReturnsIff.pure value).congr (by simp [hint])

theorem openRange_returnsIff {bounds : Lowering (List Expr)} (info : Info)
    (member : WellKnown.Member) (hbounds : ReturnsIff bounds env P) :
    ReturnsIff (openRange info member bounds) env (env.Provides member ∧ P) := by
  apply (libraryMember_returnsIff member).seq
  exact fun _ => hbounds.bind_pure _

theorem closedRange_returnsIff {start stop : Lowering Expr} (info : Info)
    (hstart : ReturnsIff start env P) (hstop : ReturnsIff stop env Q) :
    ReturnsIff (closedRange info start stop) env
      (env.Provides .rangeConstructor ∧ P ∧ Q) := by
  apply (libraryMember_returnsIff .rangeConstructor).seq
  intro constructor
  exact hstart.seq fun _ => hstop.bind_pure _

end Patterns

/-! ## §7 The nodes of a tree -/

/-- A node that lowering comes by. -/
inductive Visit where
  /-- an expression -/
  | expr (node : Source.Expr)
  /-- an access, and what its element is wanted for -/
  | access (node : Source.Access) (mode : Mode)

mutual

/-- The nodes that lowering an expression comes by. -/
def Source.Expr.visits (expr : Source.Expr) : List Visit :=
  .expr expr :: match expr with
    | .literal _ _ | .var _ _ | .self _ | .rangeAll _ => []
    | .field _ object _ => object.visits
    | .property _ object _ => object.visits
    | .indexedProperty _ object _ => object.visits
    | .call _ receiver _ arguments => receiver.visits ++ visitsAll arguments
    | .staticCall _ _ arguments => visitsAll arguments
    | .fromEnd _ operand => operand.visits
    | .rangeFrom _ start => start.visits
    | .rangeUpTo _ stop => stop.visits
    | .rangeBetween _ start stop => start.visits ++ stop.visits
    -- a nested access is read, whatever the access around it is wanted for
    | .access _ node => node.visits .read
termination_by structural expr

/-- The nodes that lowering a list of expressions comes by. -/
def visitsAll : List Source.Expr → List Visit
  | [] => []
  | expr :: exprs => expr.visits ++ visitsAll exprs
termination_by structural exprs => exprs

/-- The nodes that lowering an access comes by. An indexed property in front of the brackets
belongs to the access and is no node of its own. -/
def Source.Access.visits (node : Source.Access) (mode : Mode) : List Visit :=
  .access node mode :: match node with
    | .indexer receiver arguments _ _ _ | .dynamic receiver arguments _ _ _ _ =>
      (match receiver with
        | .indexedProperty _ object _ => object.visits
        | other => other.visits) ++ visitsAll arguments
    | .indexPattern receiver _ _ argument _ => receiver.visits ++ argument.visits
    | .rangePattern receiver _ _ argument _ => receiver.visits ++ argument.visits
termination_by structural node

end

/-- The nodes in front of the brackets of an access through an indexer or at run time. -/
def Source.Expr.receiverVisits : Source.Expr → List Visit
  | .indexedProperty _ object _ => object.visits
  | other => other.visits

private theorem Source.Access.visits_indexer (receiver : Source.Expr) (arguments : List Source.Expr)
    (indexer : SymbolId) (shape : CallShape) (type : TypeId) (mode : Mode) :
    (Source.Access.indexer receiver arguments indexer shape type).visits mode =
      .access (.indexer receiver arguments indexer shape type) mode ::
        (receiver.receiverVisits ++ visitsAll arguments) := by
  cases receiver <;> rfl

private theorem Source.Access.visits_dynamic (receiver : Source.Expr) (arguments : List Source.Expr)
    (candidates : List SymbolId) (names : List (Option String)) (refKinds : List RefKind)
    (type : TypeId) (mode : Mode) :
    (Source.Access.dynamic receiver arguments candidates names refKinds type).visits mode =
      .access (.dynamic receiver arguments candidates names refKinds type) mode ::
        (receiver.receiverVisits ++ visitsAll arguments) := by
  cases receiver <;> rfl

/-! ## §8 What nodes ask for -/

/-- A bound of a range can be made a position: an integer takes a library member. -/
def Env.Bounds (env : Env) (bound : Source.Expr) : Prop :=
  env.types.isInt bound.type = true → env.Provides .indexFromInt

/-- The type of the code of an expression; that of a member read is declared with the member. -/
def Source.Expr.codeType (env : Env) : Source.Expr → TypeId
  | .property info _ member =>
    match env.symbols.get? member with
    | some (.property symbol) => symbol.type
    | some (.field symbol) => symbol.type
    | _ => info.type
  | .access _ node => node.resultType
  | expr => expr.type

/-- What an expression asks for, apart from its operands. -/
def Source.Expr.Fits (env : Env) : Source.Expr → Prop
  | .literal _ _ | .var _ _ | .self _ | .field _ _ _ | .access _ _ => True
  | .property _ _ member => env.Readable member
  -- an indexed property without brackets behind it means nothing
  | .indexedProperty _ _ _ => False
  | .call _ _ method _ => env.HasMethod method
  | .staticCall _ method _ => env.HasMethod method
  | .fromEnd _ _ => env.Provides .indexConstructor
  | .rangeAll _ => env.Provides .rangeAll
  | .rangeFrom _ start => env.Provides .rangeStartAt ∧ env.Bounds start
  | .rangeUpTo _ stop => env.Provides .rangeEndAt ∧ env.Bounds stop
  | .rangeBetween _ start stop =>
    env.Provides .rangeConstructor ∧ env.Bounds start ∧ env.Bounds stop

/-- What an access asks for, apart from its operands. -/
def Source.Access.Fits (env : Env) (mode : Mode) : Source.Access → Prop
  | .indexer receiver arguments symbol shape _ =>
    (∀ object member, receiver.indexedProperty? = some (object, member) → env.Readable member) ∧
      env.Indexes symbol arguments.length shape mode
  | .dynamic _ _ candidates _ _ _ =>
    ∀ candidate ∈ candidates, ∃ property, env.symbols.property? candidate = some property
  | .indexPattern receiver length intIndexer? argument _ =>
    env.types.kind? argument.type = some .index ∧ env.Readable length ∧
      env.Provides .indexGetOffset ∧ env.HasElement (receiver.codeType env) mode intIndexer?
  | .rangePattern _ length slice argument _ =>
    env.types.kind? argument.type = some .range ∧ mode = .read ∧
      (∃ method, env.symbols.method? slice = some method ∧ method.params.length = 2) ∧
        env.Readable length ∧ env.Provides .rangeGetStart ∧ env.Provides .rangeGetEnd ∧
          env.Provides .indexGetOffset

/-- A node gets from the tables what it asks for. -/
def Visit.Fits (env : Env) : Visit → Prop
  | .expr node => node.Fits env
  | .access node mode => node.Fits env mode

/-! ## §9 Trees that are lowered -/

section Induction

variable {env : Env} {allocator rest : Allocator}

/-- Without the check, nothing can go wrong at the end of an access. -/
theorem conclude_returnsIff (hunchecked : env.options.validates = false) (site : Location)
    (lowered : Lowered) : ReturnsIff (conclude site lowered) env True := by
  intro allocator
  apply iff_of_true _ trivial
  exact ⟨lowered, allocator, conclude_yields_iff.mpr ⟨by simp [hunchecked], rfl, rfl⟩⟩

private theorem lowerAll_length {exprs : List Source.Expr} {lowered : List Expr}
    (h : (lowerAll exprs).Yields env allocator lowered rest) : lowered.length = exprs.length := by
  induction exprs generalizing allocator rest lowered with
  | nil =>
    obtain ⟨rfl, -⟩ := yields_pure_iff.mp h
    rfl
  | cons expr exprs ih =>
    obtain ⟨_, _, values, -, hvalues, rfl⟩ := lowerAll_cons_yields h
    exact congrArg (· + 1) (ih hvalues)

/-- Reading through an indexer gives a value, of the type of the access. -/
private theorem Lowering.IndexerElement.read_type {receiver : Expr} {indexer : SymbolId}
    {arguments : List Expr} {shape : CallShape} {info : Info} {lowered : Lowered}
    (h : IndexerElement env receiver indexer arguments shape info .read allocator lowered rest) :
    ∃ value, lowered = .value value ∧ value.type = info.type := by
  cases h with
  | place _ hwrite => cases hwrite
  | value _ _ hcall =>
    cases hcall
    exact ⟨_, rfl, congrArg Info.type (Code.info_sequence _ _)⟩

/-- An access that is read gives a value, of the type of the element. The check behind it passes
the value on unchanged, so the type of a nested access is known to the access around it. -/
theorem Source.Access.lowerCore_read (hliterals : env.builder = .literals)
    {node : Source.Access} {site : Location} {lowered : Lowered}
    (h : (node.lowerCore Source.Expr.lower .read site).Yields env allocator lowered rest) :
    ∃ value, lowered = .value value ∧ value.type = node.resultType := by
  cases node with
  | indexer receiver arguments symbol shape type =>
    obtain ⟨_, _, _, _, -, -, helement⟩ := Source.Access.indexer_yields hliterals h
    exact helement.read_type
  | dynamic receiver arguments candidates names refKinds type =>
    obtain ⟨_, _, _, -, -, rfl⟩ := Source.Access.dynamic_yields h
    exact ⟨_, rfl, rfl⟩
  | indexPattern receiver length intIndexer? argument type =>
    obtain ⟨_, _, object, size, _, _, _, offset, _, element, -, -, -, -, helement, rfl⟩ :=
      Source.Access.indexPattern_yields hliterals h
    -- what runs ahead of an element does not change its type
    cases helement with
    | indexer _ helement =>
      obtain ⟨value, rfl, htype⟩ := helement.read_type
      exact ⟨_, rfl, htype⟩
    | array => exact ⟨_, rfl, rfl⟩
  | rangePattern receiver length slice argument type =>
    obtain ⟨-, value, rfl, hvalue⟩ := Source.Access.rangePattern_yields h
    obtain ⟨_, _, _, _, _, _, _, _, _, _, -, -, -, -, rfl⟩ := Lowering.rangePattern_yields hvalue
    exact ⟨_, rfl, rfl⟩

theorem Lowering.readMember_type {object read : Expr} {info : Info} {owner : Source.Expr}
    {member : SymbolId} (h : (readMember object member info.location).Yields env allocator read
      rest) : read.type = (Source.Expr.property info owner member).codeType env := by
  obtain ⟨-, ⟨property, getter, byRef, hsymbol, -, -, rfl⟩ | ⟨field, hsymbol, rfl⟩⟩ :=
    readMember_yields_iff.mp h
  · simp [Source.Expr.codeType, hsymbol, Code.Expr.type, Code.Expr.info]
  · simp [Source.Expr.codeType, hsymbol, Code.Expr.type, Code.Expr.info]

/-- The code of an expression has the type that is known ahead of lowering it. Positions and
ranges are treated by the types of their operands, and so acceptance can be told from the tree
alone. -/
theorem Source.Expr.lower_type (hliterals : env.builder = .literals) {expr : Source.Expr}
    {lowered : Code.Expr} (h : expr.lower.Yields env allocator lowered rest) :
    lowered.type = expr.codeType env := by
  cases expr with
  | literal info value =>
    obtain ⟨rfl, -⟩ := yields_pure_iff.mp h
    rfl
  | var info symbol =>
    obtain ⟨rfl, -⟩ := yields_pure_iff.mp h
    rfl
  | self info =>
    obtain ⟨rfl, -⟩ := yields_pure_iff.mp h
    rfl
  | field info object field =>
    obtain ⟨_, -, rfl⟩ := Source.Expr.field_yields h
    rfl
  | property info object property =>
    obtain ⟨_, _, -, hread⟩ := Source.Expr.property_yields h
    -- a getter gives the type of its property, whatever the node says
    exact readMember_type hread
  | indexedProperty info object property => exact absurd h not_yields_fail
  | call info receiver method arguments =>
    obtain ⟨_, _, _, _, -, -, -, rfl⟩ := Source.Expr.call_yields h
    rfl
  | staticCall info method arguments =>
    obtain ⟨_, _, -, -, rfl⟩ := Source.Expr.staticCall_yields h
    rfl
  | fromEnd info operand =>
    obtain ⟨_, _, -, -, rfl⟩ := positionFromEnd_yields h
    rfl
  | rangeAll | rangeFrom | rangeUpTo =>
    obtain ⟨_, _, -, -, rfl⟩ := openRange_yields h
    rfl
  | rangeBetween info start stop =>
    obtain ⟨_, _, _, _, _, _, -, -, -, -, -, rfl⟩ := closedRange_yields h
    rfl
  -- what an access gives was typed by the node inside it
  | access info node =>
    obtain ⟨value, hvalue, htype⟩ := Source.Access.lowerCore_read hliterals
      (Source.Access.lower_yields_iff.mp (Source.Expr.access_yields h)).1
    exact Lowered.value.inj hvalue ▸ htype

mutual

/-- An expression is lowered exactly if all its nodes get what they ask for. Each case combines
what the node itself asks for with what its operands do. -/
theorem Source.Expr.lower_returnsIff (hliterals : env.builder = .literals)
    (hunchecked : env.options.validates = false) (expr : Source.Expr) :
    ReturnsIff expr.lower env (∀ visit ∈ expr.visits, visit.Fits env) := by
  cases expr with
  | literal info value =>
    apply (ReturnsIff.pure _).congr
    simp [Source.Expr.visits, Visit.Fits, Source.Expr.Fits]
  | var info symbol =>
    apply (ReturnsIff.pure _).congr
    simp [Source.Expr.visits, Visit.Fits, Source.Expr.Fits]
  | self info =>
    apply (ReturnsIff.pure _).congr
    simp [Source.Expr.visits, Visit.Fits, Source.Expr.Fits]
  | field info object field =>
    apply ((object.lower_returnsIff hliterals hunchecked).bind_pure _).congr
    simp [Source.Expr.visits, Visit.Fits, Source.Expr.Fits]
  | property info object property =>
    apply ((object.lower_returnsIff hliterals hunchecked).seq fun value =>
      readMember_returnsIff value property info.location).congr
    simp [Source.Expr.visits, Visit.Fits, Source.Expr.Fits, and_comm]
  -- an indexed property fits nowhere on its own
  | indexedProperty info object property =>
    apply (ReturnsIff.fail _).congr
    simp [Source.Expr.visits, Visit.Fits, Source.Expr.Fits]
  -- the method is looked up behind its operands, but all that counts is that it is there
  | call info receiver method arguments =>
    apply ((receiver.lower_returnsIff hliterals hunchecked).seq fun _ =>
      (lowerAll_returnsIff hliterals hunchecked arguments).seq fun _ =>
        (methodOf_returnsIff method).bind_pure _).congr
    simp only [Source.Expr.visits, List.forall_mem_cons, List.forall_mem_append, Visit.Fits,
      Source.Expr.Fits]
    tauto
  | staticCall info method arguments =>
    apply ((lowerAll_returnsIff hliterals hunchecked arguments).seq fun _ =>
      (methodOf_returnsIff method).bind_pure _).congr
    simp [Source.Expr.visits, Visit.Fits, Source.Expr.Fits, and_comm]
  | fromEnd info operand =>
    apply (positionFromEnd_returnsIff info (operand.lower_returnsIff hliterals hunchecked)).congr
    simp [Source.Expr.visits, Visit.Fits, Source.Expr.Fits]
  -- a range asks for its constructor, and each bound for the implicit conversion if it needs it
  | rangeAll info =>
    apply (openRange_returnsIff info .rangeAll (.pure [])).congr
    simp [Source.Expr.visits, Visit.Fits, Source.Expr.Fits]
  | rangeFrom info start =>
    apply (openRange_returnsIff info .rangeStartAt ((positionOf_returnsIff start.info
      (start.lower_returnsIff hliterals hunchecked)).bind_pure _)).congr
    simp only [Source.Expr.visits, List.forall_mem_cons, Visit.Fits, Source.Expr.Fits, Env.Bounds]
    tauto
  | rangeUpTo info stop =>
    apply (openRange_returnsIff info .rangeEndAt ((positionOf_returnsIff stop.info
      (stop.lower_returnsIff hliterals hunchecked)).bind_pure _)).congr
    simp only [Source.Expr.visits, List.forall_mem_cons, Visit.Fits, Source.Expr.Fits, Env.Bounds]
    tauto
  | rangeBetween info start stop =>
    apply (closedRange_returnsIff info
      (positionOf_returnsIff start.info (start.lower_returnsIff hliterals hunchecked))
      (positionOf_returnsIff stop.info (stop.lower_returnsIff hliterals hunchecked))).congr
    simp only [Source.Expr.visits, List.forall_mem_cons, List.forall_mem_append, Visit.Fits,
      Source.Expr.Fits, Env.Bounds]
    tauto
  | access info node =>
    apply ReturnsIff.congr
    · apply (node.lower_returnsIff hliterals hunchecked .read info.location).bind
      intro _ lowered _ hnode
      -- an access that is read gives a value
      obtain ⟨value, rfl, -⟩ :=
        Source.Access.lowerCore_read hliterals (Source.Access.lower_yields_iff.mp hnode).1
      exact .pure value
    · simp [Source.Expr.visits, Visit.Fits, Source.Expr.Fits]
termination_by structural expr

theorem lowerAll_returnsIff (hliterals : env.builder = .literals)
    (hunchecked : env.options.validates = false) (exprs : List Source.Expr) :
    ReturnsIff (lowerAll exprs) env (∀ visit ∈ visitsAll exprs, visit.Fits env) := by
  cases exprs with
  | nil => exact (ReturnsIff.pure []).congr (by simp [visitsAll])
  | cons expr exprs =>
    rw [visitsAll, List.forall_mem_append]
    exact (expr.lower_returnsIff hliterals hunchecked).seq fun _ =>
      (lowerAll_returnsIff hliterals hunchecked exprs).bind_pure _
termination_by structural exprs

/-- An access is lowered exactly if all its nodes get what they ask for. An indexed property is
asked for by the access around it and not by itself. -/
theorem Source.Access.lower_returnsIff (hliterals : env.builder = .literals)
    (hunchecked : env.options.validates = false) (node : Source.Access) (mode : Mode)
    (site : Location) :
    ReturnsIff (node.lower mode site) env (∀ visit ∈ node.visits mode, visit.Fits env) := by
  rw [node.lower_eq_lowerWith]
  refine ReturnsIff.before ?_ (conclude_returnsIff hunchecked site)
  cases node with
  | indexer receiver arguments symbol shape type =>
    have hreceiver : ReturnsIff (receiver.indexerReceiver Source.Expr.lower) env
        ((∀ visit ∈ receiver.receiverVisits, visit.Fits env) ∧ ∀ object member,
          receiver.indexedProperty? = some (object, member) → env.Readable member) := by
      -- an indexed property is read here and nowhere else; it is no expression by itself
      cases receiver with
      | indexedProperty info owner property =>
        apply (readIndexedProperty_returnsIff (owner.lower_returnsIff hliterals hunchecked)
          property info.location).congr
        simp [Source.Expr.receiverVisits, Source.Expr.indexedProperty?]
      | _ =>
        apply (Source.Expr.lower_returnsIff hliterals hunchecked _).congr
        simp [Source.Expr.receiverVisits, Source.Expr.indexedProperty?]
    rw [Source.Access.lowerCore, ← lowerAll_eq_mapM, Source.Access.visits_indexer]
    apply (indexerAccess_returnsIff hreceiver (lowerAll_returnsIff hliterals hunchecked arguments)
      hliterals (fun _ _ _ => lowerAll_length) symbol shape ⟨type, site⟩ mode).congr
    simp only [List.forall_mem_cons, List.forall_mem_append, Visit.Fits, Source.Access.Fits]
    tauto
  | dynamic receiver arguments candidates names refKinds type =>
    have hreceiver : ReturnsIff (receiver.dynamicReceiver Source.Expr.lower) env
        (∀ visit ∈ receiver.receiverVisits, visit.Fits env) := by
      cases receiver with
      | indexedProperty info owner property =>
        exact fetchIndexedProperty_returnsIff (owner.lower_returnsIff hliterals hunchecked)
          property info.location
      | _ => exact Source.Expr.lower_returnsIff hliterals hunchecked _
    rw [Source.Access.lowerCore, ← lowerAll_eq_mapM, Source.Access.visits_dynamic]
    apply (dynamicAccess_returnsIff hreceiver (lowerAll_returnsIff hliterals hunchecked arguments)
      candidates names refKinds ⟨type, site⟩ mode).congr
    simp only [List.forall_mem_cons, List.forall_mem_append, Visit.Fits, Source.Access.Fits]
  | indexPattern receiver length intIndexer? argument type =>
    apply (expectArgument_returnsIff .index argument.type (indexPattern_returnsIff
      (receiver.lower_returnsIff hliterals hunchecked)
      (argument.lower_returnsIff hliterals hunchecked) hliterals
      (fun _ _ _ => Source.Expr.lower_type hliterals) length intIndexer? ⟨type, site⟩ mode)).congr
    simp only [Source.Access.visits, List.forall_mem_cons, List.forall_mem_append, Visit.Fits,
      Source.Access.Fits]
    tauto
  | rangePattern receiver length slice argument type =>
    apply (expectArgument_returnsIff .range argument.type (rangeAccess_returnsIff
      (receiver.lower_returnsIff hliterals hunchecked)
      (argument.lower_returnsIff hliterals hunchecked) length slice ⟨type, site⟩ mode)).congr
    simp only [Source.Access.visits, List.forall_mem_cons, List.forall_mem_append, Visit.Fits,
      Source.Access.Fits]
    tauto
termination_by structural node

end

end Induction

/-- Without the check of its output, an access is lowered without a violation exactly if every
node that lowering comes by gets from the tables what it asks for. The free temporaries have no
say in it. -/
theorem Source.Access.lower_returns_iff_fits {env : Env} (hliterals : env.builder = .literals)
    (hunchecked : env.options.validates = false) (node : Source.Access) (mode : Mode)
    (site : Location) (allocator : Allocator) :
    (node.lower mode site).Returns env allocator ↔
      ∀ visit ∈ node.visits mode, visit.Fits env :=
  node.lower_returnsIff hliterals hunchecked mode site allocator

/-- Swapped calls are lowered; a range in place of one of them is not, as there are no ranges.
What lowering comes by is listed in both cases, and looked up in the tables. -/
theorem Source.Access.lower_returns_swapped_calls :
    let env : Env := { Sample.env with options := { validates := false } }
    ((Sample.swapped Sample.call Sample.call []).lower .read .unknown).Returns env {} ∧
      ¬ ((Sample.swapped Sample.call (.rangeAll Sample.info) []).lower .read .unknown).Returns env
        {} := by
  intro env
  have hcall : env.HasMethod ⟨2⟩ := ⟨_, rfl⟩
  -- each of the two parameters gets one of the arguments
  have haccepts : CallShape.Accepts { placement? := some [1, 0] }
      [⟨"p", .invalid, .byValue, none, false⟩, ⟨"q", .invalid, .byValue, none, false⟩] 2 := by
    refine ⟨[1, 0], rfl, by decide, ?_⟩
    intro position param hparam
    obtain ⟨hposition, -⟩ := List.getElem?_eq_some_iff.mp hparam
    have hplaced : position ∈ [1, 0] := by
      simp only [List.length_cons, List.length_nil] at hposition
      simp only [List.mem_cons, List.not_mem_nil]
      omega
    exact .inr (.inl hplaced)
  have hindexes : env.Indexes ⟨0⟩ 2 { placement? := some [1, 0] } .read :=
    ⟨_, rfl, fun _ => ⟨⟨1⟩, rfl, _, rfl, haccepts⟩⟩
  constructor
  · apply (lower_returns_iff_fits rfl rfl _ .read .unknown {}).mpr
    simp [Sample.swapped, Sample.call, visits_indexer, Source.Expr.receiverVisits,
      Source.Expr.visits, visitsAll, Visit.Fits, Source.Expr.Fits, Source.Access.Fits,
      Source.Expr.indexedProperty?, hcall, hindexes]
  · intro hreturns
    have hvisit : Visit.expr (.rangeAll Sample.info) ∈
        (Sample.swapped Sample.call (.rangeAll Sample.info) []).visits .read := by
      simp [Sample.swapped, visits_indexer, visitsAll, Source.Expr.visits]
    -- nothing is registered in the library of the program
    obtain ⟨symbol, hresolve⟩ :=
      (lower_returns_iff_fits rfl rfl _ .read .unknown {}).mp hreturns _ hvisit
    cases hresolve

end Subscript
