import Subscript.Proofs.Accesses

/-!
# The steps of lowering, in two settings at once

Several facts about lowering compare two runs: under other options the steps of a lowering do the
same, and from a later allocator they do the same with other temporaries. Some facts about a single
run are of the same kind, such as that no step asks for metadata. All of them are true because a
step looks at little of what it is given. That is said once here: a `Transport` describes how the
second setting differs from the first, and every step `CarriesOver` along any transport. What a
particular transport has to offer is no more than laws about single nodes.

The ends of accesses are left out. The scope check depends on the options and on all of the code,
so it is up to the proofs about a particular transport.

## Architecture

- §1 `Translation`, from the code of one setting to that of the other
- §2 `Transport`, from one setting to the other
- §3 `CarriesOver` and the primitive steps
- §4 members
- §5 argument lists
- §6 elements behind an indexer and of an array
- §7 positions and ranges
-/

namespace Subscript

open Code (Allocator Binding Expr Holding Lowered Place Target Temp)
open Lowering (Normalized)
open Source (Mode)

/-! ## §1 Translated code -/

/-- A translation of lowered code in which steps find the same: types and places stay, and so do
the classes of expressions; the forms that steps build are translated part by part. -/
structure Code.Translation where
  /-- the translation of an expression -/
  expr : Expr → Expr
  /-- the translation of a declared temporary -/
  temp : Temp → Temp
  info_expr : ∀ value, (expr value).info = value.info
  isStable_expr : ∀ value, (expr value).isStable = value.isStable
  isSideEffectFree_expr : ∀ value, (expr value).isSideEffectFree = value.isSideEffectFree
  isAddressable_expr : ∀ value, (expr value).isAddressable = value.isAddressable
  field : ∀ info object field,
    expr (.field info object field) = .field info (expr object) field
  element : ∀ info object index,
    expr (.element info object index) = .element info (expr object) (expr index)
  call : ∀ info receiver method arguments byRef,
    expr (.call info receiver method arguments byRef) =
      .call info (expr receiver) method (arguments.map expr) byRef
  binary : ∀ info op left right,
    expr (.binary info op left right) = .binary info op (expr left) (expr right)
  sequence : ∀ info temps stores result,
    expr (.sequence info temps stores result) =
      .sequence info (temps.map temp) (stores.map expr) (expr result)
  reference : ∀ binding : Binding,
    expr binding.reference = Binding.reference ⟨temp binding.temp, expr binding.store⟩

namespace Code.Translation

variable (translation : Translation)

/-- The translation of a binding. -/
def binding (binding : Binding) : Binding :=
  ⟨translation.temp binding.temp, translation.expr binding.store⟩

/-- The translation of a place. -/
def place : Place → Place
  | .indexer receiver symbol getter? setter? arguments shape =>
    .indexer (translation.expr receiver) symbol getter? setter? (arguments.map translation.expr)
      shape
  | .dynamic receiver arguments names refKinds =>
    .dynamic (translation.expr receiver) (arguments.map translation.expr) names refKinds
  | .element object index => .element (translation.expr object) (translation.expr index)

/-- The translation of a lowered access. -/
def lowered : Lowered → Lowered
  | .value expr => .value (translation.expr expr)
  | .target target => .target {
      temps := target.temps.map translation.temp
      stores := target.stores.map translation.expr
      place := translation.place target.place
      info := target.info }

/-- The translation of arguments in the order of their parameters. -/
def normalized (normalized : Normalized) : Normalized :=
  ⟨normalized.arguments.map translation.expr, normalized.bindings.map translation.binding⟩

/-- A translated expression has the type of the original. -/
private theorem type_expr (value : Expr) : (translation.expr value).type = value.type :=
  congrArg Info.type (translation.info_expr value)

/-- A read of a translated binding is the translated read. -/
theorem reference_binding (binding : Binding) :
    (translation.binding binding).reference = translation.expr binding.reference :=
  (translation.reference binding).symm

/-- A sequence of bindings is translated binding by binding; without any there is no sequence. -/
private theorem sequence_map_binding (bindings : List Binding) (result : Expr) :
    Code.sequence (bindings.map translation.binding) (translation.expr result) =
      translation.expr (Code.sequence bindings result) := by
  cases bindings with
  | nil => rfl
  | cons binding bindings =>
    simp [Code.sequence, translation.sequence, translation.info_expr, Code.Translation.binding]

/-- Bindings that run ahead of an access, of its value or of its place. -/
private theorem runAhead_map_binding (bindings : List Binding) (lowered : Lowered) :
    Lowering.runAhead (bindings.map translation.binding) (translation.lowered lowered) =
      translation.lowered (Lowering.runAhead bindings lowered) := by
  cases lowered with
  | value expr => exact congrArg Lowered.value (translation.sequence_map_binding bindings expr)
  | target => simp [Lowering.runAhead, Code.Translation.lowered, Code.Translation.binding]

/-- Arguments are bound for their classes and their placement, which stay. -/
private theorem spillsFor_map (placement : List Nat) (arguments : List Expr) :
    Lowering.spillsFor placement (arguments.map translation.expr) =
      Lowering.spillsFor placement arguments := by
  simp [Lowering.spillsFor, List.any_map, Function.comp_def, translation.isSideEffectFree_expr]

/-- A receiver is held for its type and its class, which stay. -/
theorem receiverHolding_expr (types : TypeTable) (receiver : Expr) :
    Lowering.receiverHolding types (translation.expr receiver) =
      Lowering.receiverHolding types receiver := by
  simp [Lowering.receiverHolding, translation.type_expr, translation.isAddressable_expr]

/-- The translation that leaves everything as it is. -/
def identity : Translation where
  expr := id
  temp := id
  info_expr _ := rfl
  isStable_expr _ := rfl
  isSideEffectFree_expr _ := rfl
  isAddressable_expr _ := rfl
  field _ _ _ := rfl
  element _ _ _ := rfl
  call := by simp
  binary _ _ _ _ := rfl
  sequence := by simp
  reference _ := rfl

/-- The identity translates no part of an access. -/
theorem lowered_identity (lowered : Lowered) : identity.lowered lowered = lowered := by
  cases lowered with
  | value => rfl
  | target target =>
    rcases target with ⟨temps, stores, place, info⟩
    cases place <;> simp [Translation.lowered, Translation.place, identity]

/-- The identity goes along with any binding, which is the law that a transport asks of its
allocators. -/
theorem bind_identity (first : Allocator) (value : Expr) (holding : Holding) :
    (id first).bind (identity.expr value) holding =
      (identity.binding (first.bind value holding).1, id (first.bind value holding).2) := rfl

end Code.Translation

/-! ## §2 From one setting to another -/

/-- How a second run differs from a first one: in its options, in its allocator and in its code. It
also says which violations and which events of the two runs go together. -/
structure Transport extends Code.Translation where
  /-- the options of the second run -/
  options : Options → Options
  /-- the allocator of the second run -/
  allocator : Allocator → Allocator
  /-- violations with which the two runs may end -/
  violations : Violation → Violation → Prop
  /-- events that the two runs may report in the same place -/
  events : Event → Event → Prop
  /-- values are bound to temporaries alike -/
  bind : ∀ first value holding,
    (allocator first).bind (expr value) holding =
      (toTranslation.binding (first.bind value holding).1, allocator (first.bind value holding).2)
  /-- only the report of the scope check may turn into another violation -/
  violation_self : ∀ violation, (∀ report, violation ≠ .malformedSequence report) →
    violations violation violation
  /-- only announcements may be kept from going together with themselves -/
  event_self : ∀ event, (∀ type candidate site, event ≠ .embed type candidate site) →
    events event event

namespace Transport

/-- What the second run reads: the tables of the first one, and its own options. -/
def env (transport : Transport) (env : Env) : Env :=
  { env with options := transport.options env.options }

/-- A builder goes along with a transport: its defaults stay what they are, its violations go
together with themselves, and it builds the same array of translated elements. -/
structure Suits (transport : Transport) (builder : ArgumentBuilder) : Prop where
  default : ∀ {param types site value}, builder.defaultValue param types site = .ok value →
    transport.expr value = value
  violation : ∀ {param types site violation},
    builder.defaultValue param types site = .error violation →
      transport.violations violation violation
  array : ∀ param elements site,
    builder.paramsArray param (elements.map transport.expr) site =
      transport.expr (builder.paramsArray param elements site)

/-- Where the code stays as it is, any builder goes along. -/
theorem suits_of_identity {transport : Transport} (hidentity : transport.expr = id)
    (hviolations : ∀ violation, transport.violations violation violation)
    (builder : ArgumentBuilder) : transport.Suits builder where
  default _ := congrFun hidentity _
  violation _ := hviolations _
  array := by simp [hidentity]

end Transport

/-- Two runs both give a result, the second one the `image` of the first, or both end, with
violations that go together. -/
inductive Outcome.Carried {α β : Type} (transport : Transport) (image : α → β) :
    Except Violation α → Except Violation β → Prop where
  /-- both give a result -/
  | ok (value : α) : Carried transport image (.ok value) (.ok (image value))
  /-- both end early -/
  | error {violation violation' : Violation} (h : transport.violations violation violation') :
    Carried transport image (.error violation) (.error violation')

/-- The second run is the first one, carried over. -/
structure Run.Carried {α β : Type} (transport : Transport) (image : α → β) (run : Run α)
    (run' : Run β) : Prop where
  outcome : Outcome.Carried transport image run.outcome run'.outcome
  allocator : run'.allocator = transport.allocator run.allocator
  events : List.Forall₂ transport.events run.events run'.events

namespace Lowering

/-! ## §3 Steps that carry over -/

/-- Wherever the first step starts, the second one does the same in the other setting. -/
def CarriesOver {α β : Type} (transport : Transport) (env : Env) (image : α → β)
    (step : Lowering α) (step' : Lowering β) : Prop :=
  ∀ allocator, Run.Carried transport image (step.run env allocator)
    (step'.run (transport.env env) (transport.allocator allocator))

section Primitive

variable {transport : Transport} {env : Env} {α β γ δ : Type} {image : α → β} {image' : γ → δ}

/-- A step that only gives a value carries over to the step that gives the image of the value. -/
theorem CarriesOver.pure (value : α) {value' : β} (h : image value = value') :
    CarriesOver transport env image (pure value) (pure value') := by
  subst h
  exact fun _ => ⟨.ok value, rfl, .nil⟩

/-- Violations may differ between the settings, as far as the transport lets them. -/
theorem CarriesOver.error {violation violation' : Violation}
    (h : transport.violations violation violation') :
    CarriesOver transport env image (fail violation) (fail violation') :=
  fun _ => ⟨.error h, rfl, .nil⟩

/-- All violations but the report of the scope check are the same in both settings. -/
theorem CarriesOver.fail {violation : Violation}
    (h : ∀ report, violation ≠ .malformedSequence report) :
    CarriesOver transport env image (fail violation) (fail violation) :=
  .error (transport.violation_self violation h)

/-- Steps in a row carry over one by one. The second step is compared at the value and the
allocator that the first one leaves, and so the laws of a transport need not speak of more than
one step. -/
theorem CarriesOver.bind {first : Lowering α} {first' : Lowering β} {next : α → Lowering γ}
    {next' : β → Lowering δ} (h : CarriesOver transport env image first first')
    (h' : ∀ value, CarriesOver transport env image' (next value) (next' (image value))) :
    CarriesOver transport env image' (first >>= next) (first' >>= next') := by
  intro allocator
  have hfirst := h allocator
  rcases hrun : first.run env allocator with ⟨outcome, rest, events⟩
  rcases hrun' : first'.run (transport.env env) (transport.allocator allocator) with
    ⟨outcome', rest', events'⟩
  rw [hrun, hrun'] at hfirst
  obtain ⟨houtcome, hrest, hevents⟩ := hfirst
  obtain rfl : rest' = transport.allocator rest := hrest
  -- the next step is reached in both settings, or in neither
  cases houtcome with
  | error hviolation =>
    rw [run_bind_error hrun, run_bind_error hrun']
    exact ⟨.error hviolation, rfl, hevents⟩
  | ok value =>
    rw [run_bind_ok hrun, run_bind_ok hrun']
    obtain ⟨hnext, hlast, hlater⟩ := h' value rest
    exact ⟨hnext, hlast, List.rel_append hevents hlater⟩

/-- Reading the tables gives the same, up to the options. -/
theorem CarriesOver.environment {next : Env → Lowering α} {next' : Env → Lowering β}
    (h : CarriesOver transport env image (next env) (next' (transport.env env))) :
    CarriesOver transport env image (environment >>= next) (environment >>= next') := h

/-- Events may differ between the settings, as far as the transport lets them. -/
theorem CarriesOver.report {event event' : Event} (h : transport.events event event') :
    CarriesOver transport env id (report event) (report event') :=
  fun _ => ⟨.ok (), rfl, .cons h .nil⟩

/-- All events but announcements may be reported in both settings. -/
theorem CarriesOver.note (event : Event)
    (h : ∀ type candidate site, event ≠ .embed type candidate site) :
    CarriesOver transport env id (Lowering.report event) (Lowering.report event) :=
  .report (transport.event_self event h)

/-- A placement does not depend on the setting, and its faults are no reports of the scope check.
-/
theorem CarriesOver.ofPlacement (outcome : Except ArgumentFault α) :
    CarriesOver transport env id (ofPlacement outcome) (ofPlacement outcome) := by
  cases outcome with
  | ok value => exact .pure value rfl
  | error fault => exact .fail nofun

/-- A value is bound to the temporary that the other setting has for it. -/
theorem CarriesOver.bindTemp (value : Expr) (holding : Holding) :
    CarriesOver transport env transport.binding (bindTemp value holding)
      (bindTemp (transport.expr value) holding) := by
  intro allocator
  have hbind := transport.bind allocator value holding
  refine ⟨?_, ?_, .nil⟩
  · simp only [Lowering.run, Lowering.bindTemp, hbind]
    exact .ok _
  · simp only [Lowering.run, Lowering.bindTemp, hbind]

/-- The count of temporaries is translated as the allocator is. -/
theorem CarriesOver.allocated (count : UInt32 → UInt32)
    (h : ∀ allocator, (transport.allocator allocator).allocated = count allocator.allocated) :
    CarriesOver transport env count allocated allocated := by
  intro allocator
  refine ⟨?_, rfl, .nil⟩
  simp only [Lowering.run, Lowering.allocated, h]
  exact .ok _

/-- A choice carries over if it falls the same way in both settings. -/
theorem CarriesOver.ite {condition condition' : Prop} [Decidable condition]
    [Decidable condition'] (hsame : condition' ↔ condition) {yes no : Lowering α}
    {yes' no' : Lowering β} (hyes : CarriesOver transport env image yes yes')
    (hno : CarriesOver transport env image no no') :
    CarriesOver transport env image (if condition then yes else no)
      (if condition' then yes' else no') := by
  by_cases h : condition
  · rwa [if_pos h, if_pos (hsame.mpr h)]
  · rwa [if_neg h, if_neg (mt hsame.mp h)]

end Primitive

/-! ## §4 Members -/

section Members

variable (transport : Transport) (env : Env)

/-- The library is the same in both settings. -/
theorem libraryMember_carriesOver (member : WellKnown.Member) :
    CarriesOver transport env id (libraryMember member) (libraryMember member) := by
  apply CarriesOver.environment
  dsimp only [Transport.env]
  split
  · exact .pure _ rfl
  · exact .fail nofun

/-- The methods are the same in both settings. -/
theorem methodOf_carriesOver (symbol : SymbolId) :
    CarriesOver transport env id (methodOf symbol) (methodOf symbol) := by
  apply CarriesOver.environment
  dsimp only [Transport.env]
  split
  · exact .pure _ rfl
  · exact .fail nofun

/-- The indexers are the same in both settings. -/
theorem indexerOf_carriesOver (symbol : SymbolId) :
    CarriesOver transport env id (indexerOf symbol) (indexerOf symbol) := by
  apply CarriesOver.environment
  dsimp only [Transport.env]
  split
  · exact .pure _ rfl
  · exact .fail nofun

/-- The getters are the same in both settings. -/
theorem getterOf_carriesOver (indexer : SymbolId) (property : Property) :
    CarriesOver transport env id (getterOf indexer property) (getterOf indexer property) := by
  unfold getterOf
  split
  · exact .pure _ rfl
  · exact .fail nofun

/-- A member is read from the translated object by the same getter or field: which of the two it
is, is asked of the symbols, and these are the same in both settings. -/
theorem readMember_carriesOver (object : Expr) (member : SymbolId) (site : Location) :
    CarriesOver transport env transport.expr (readMember object member site)
      (readMember (transport.expr object) member site) := by
  apply CarriesOver.environment
  dsimp only [Transport.env]
  split
  · split
    · rename_i property _ _ getter _
      -- whether the getter is asked depends on the property alone
      have hbyRef : CarriesOver transport env id (readsByRef property getter)
          (readsByRef property getter) := by
        unfold readsByRef
        split
        · exact .pure _ rfl
        · exact (methodOf_carriesOver transport env getter).bind fun _ => .pure _ rfl
      exact hbyRef.bind fun _ => .pure _ (transport.call _ _ _ _ _)
    · exact .fail nofun
  · exact .pure _ (transport.field _ _ _)
  · exact .fail nofun

end Members

/-! ## §5 Argument lists -/

section Arguments

variable (transport : Transport) {env : Env}

/-- The builder is called alike, and makes the translated array. -/
theorem collect_carriesOver (hbuilder : transport.Suits env.builder) (param : Param)
    (elements : List Expr) (site : Location) :
    CarriesOver transport env transport.expr (collect param elements site)
      (collect param (elements.map transport.expr) site) := by
  unfold collect
  rw [List.length_map]
  apply (CarriesOver.note (.packed param.name elements.length site) nofun).bind
  intro _
  exact .environment (.pure _ (hbuilder.array param elements site).symm)

/-- The builder is called alike, and makes a default that translates to itself. -/
theorem takeDefault_carriesOver (hbuilder : transport.Suits env.builder) (param : Param)
    (site : Location) :
    CarriesOver transport env transport.expr (takeDefault param site) (takeDefault param site) := by
  apply (CarriesOver.note (.defaulted param.name site) nofun).bind
  intro _
  apply CarriesOver.environment
  dsimp only [Transport.env]
  cases hdefault : env.builder.defaultValue param env.types site with
  | ok value => exact .pure value (hbuilder.default hdefault)
  | error violation => exact .error (hbuilder.violation hdefault)

/-- What a parameter gets depends on how much is placed at it, and that is not changed by
translating. -/
theorem argumentFor_carriesOver (hbuilder : transport.Suits env.builder) (param : Param)
    (collects : Bool) (placed : List Expr) (site : Location) :
    CarriesOver transport env transport.expr (argumentFor param collects placed site)
      (argumentFor param collects (placed.map transport.expr) site) := by
  unfold argumentFor
  split
  · exact collect_carriesOver transport hbuilder param placed site
  · cases placed with
    | cons argument placed => exact .pure argument rfl
    | nil =>
      dsimp only [List.map_nil]
      split
      · exact collect_carriesOver transport hbuilder param [] site
      · exact takeDefault_carriesOver transport hbuilder param site

/-- By induction on the parameters, each of which is served alike. -/
theorem argumentsFrom_carriesOver (hbuilder : transport.Suits env.builder)
    (collecting? : Option Nat) (placement : List Nat) (reads : List Expr) (site : Location)
    (position : Nat) (params : List Param) :
    CarriesOver transport env (List.map transport.expr)
      (argumentsFrom collecting? placement reads site position params)
      (argumentsFrom collecting? placement (reads.map transport.expr) site position params) := by
  induction params generalizing position with
  | nil => exact .pure [] rfl
  | cons param params ih =>
    simp only [argumentsFrom, placedAt_map]
    exact (argumentFor_carriesOver transport hbuilder param _ _ site).bind fun _ =>
      (ih (position + 1)).bind fun _ => .pure _ rfl

/-- The translated arguments are bound where the arguments are, to the translated temporaries. A
transport keeps an argument stable or not, so the same arguments are bound on both sides. -/
private theorem run_spill_map (shape : CallShape) (position : Nat) (arguments : List Expr)
    (allocator : Allocator) :
    (spill shape position (arguments.map transport.expr)).run (transport.allocator allocator) =
      (((spill shape position arguments).run allocator).1.map (List.map transport.expr)
          (List.map transport.binding),
        transport.allocator ((spill shape position arguments).run allocator).2) := by
  induction arguments generalizing position allocator with
  | nil => rfl
  | cons argument arguments ih =>
    have hsame := transport.isStable_expr argument
    cases hstable : argument.isStable with
    | true =>
      rw [hstable] at hsame
      rw [List.map_cons, run_spill_stable hstable, run_spill_stable hsame]
      dsimp only
      rw [ih (position + 1)]
      rfl
    -- the argument and those behind it are bound from allocators that go together
    | false =>
      rw [hstable] at hsame
      rw [List.map_cons, run_spill_bound hstable, run_spill_bound hsame, transport.bind]
      dsimp only
      rw [ih (position + 1), transport.reference_binding]
      rfl

/-- Arguments are bound in both settings or in neither, and the announcement is no other one. -/
theorem spillIf_carriesOver (needed : Bool) (shape : CallShape) (arguments : List Expr) :
    CarriesOver transport env (Prod.map (List.map transport.expr) (List.map transport.binding))
      (spillIf needed shape arguments)
      (spillIf needed shape (arguments.map transport.expr)) := by
  unfold spillIf
  rw [List.length_map]
  split
  · apply (CarriesOver.note (.spilling arguments.length) nofun).bind
    intro _ allocator
    have hrun := run_spill_map transport shape 0 arguments allocator
    refine ⟨?_, ?_, .nil⟩
    · simp only [Lowering.run, withAllocator, hrun]
      exact .ok _
    · simp only [Lowering.run, withAllocator, hrun]
  · exact .pure _ rfl

/-- The placement does not look at the arguments, and whether they are bound is read off their
classes. -/
theorem normalize_carriesOver (hbuilder : transport.Suits env.builder)
    (arguments : List Expr) (shape : CallShape) (params : List Param) (site : Location) :
    CarriesOver transport env transport.normalized (normalize arguments shape params site)
      (normalize (arguments.map transport.expr) shape params site) := by
  rw [normalize_eq, normalize_eq, List.length_map]
  apply (CarriesOver.ofPlacement _).bind
  intro placement
  dsimp only [id]
  split
  · exact .fail nofun
  · rw [transport.spillsFor_map]
    apply (spillIf_carriesOver transport _ shape arguments).bind
    intro spilled
    exact (argumentsFrom_carriesOver transport hbuilder _ placement spilled.1 site 0 params).bind
      fun _ => .pure _ rfl

end Arguments

/-! ## §6 Elements -/

section Elements

variable (transport : Transport) {env : Env}

/-- The receiver is bound in both settings or in neither: that depends on its class and on whether
the arguments are bound. -/
theorem bindReceiver_carriesOver (receiver : Expr) (arguments : List Expr)
    (shape : CallShape) (params : List Param) :
    CarriesOver transport env (Prod.map transport.expr (List.map transport.binding))
      (bindReceiver receiver arguments shape params)
      (bindReceiver (transport.expr receiver) (arguments.map transport.expr) shape params) := by
  -- whether arguments are bound depends on their places and on which of them have effects
  have hneeded : spillsRequired (arguments.map transport.expr) shape params =
      spillsRequired arguments shape params := by
    simp only [spillsRequired, List.length_map, transport.spillsFor_map]
  unfold bindReceiver
  rw [transport.isStable_expr, hneeded]
  split
  · exact .pure _ rfl
  · apply (CarriesOver.ofPlacement _).bind
    intro needed
    dsimp only [id]
    split
    · apply CarriesOver.environment
      dsimp only [Transport.env]
      rw [transport.receiverHolding_expr]
      refine (CarriesOver.bindTemp receiver _).bind fun binding => .pure _ ?_
      simp [transport.reference_binding]
    · exact .pure _ rfl

/-- The getter is called on the translated receiver with the translated arguments. -/
theorem callGetter_carriesOver (hbuilder : transport.Suits env.builder) (receiver : Expr)
    (indexer : SymbolId) (property : Property) (arguments : List Expr) (shape : CallShape)
    (info : Info) :
    CarriesOver transport env transport.expr
      (callGetter receiver indexer property arguments shape info)
      (callGetter (transport.expr receiver) indexer property (arguments.map transport.expr) shape
        info) := by
  apply (getterOf_carriesOver transport env indexer property).bind
  intro getter
  apply (methodOf_carriesOver transport env getter).bind
  intro method
  apply (bindReceiver_carriesOver transport receiver arguments shape method.params).bind
  intro settled
  refine (normalize_carriesOver transport hbuilder arguments shape method.params
    info.location).bind fun normalized => .pure _ ?_
  -- what runs ahead is translated binding by binding, then the call
  rw [← transport.sequence_map_binding, List.map_append, transport.call]
  rfl

/-- An element behind an indexer: the call of the getter or the place for an assignment. -/
theorem indexerElement_carriesOver (hbuilder : transport.Suits env.builder) (receiver : Expr)
    (indexer : SymbolId) (arguments : List Expr) (shape : CallShape) (info : Info) (mode : Mode) :
    CarriesOver transport env transport.lowered
      (indexerElement receiver indexer arguments shape info mode)
      (indexerElement (transport.expr receiver) indexer (arguments.map transport.expr) shape info
        mode) := by
  apply (indexerOf_carriesOver transport env indexer).bind
  intro property
  dsimp only [id]
  split
  · exact .pure _ rfl
  · exact (callGetter_carriesOver transport hbuilder receiver indexer property arguments shape
      info).bind fun _ => .pure _ rfl

/-- An element of an array, which is told by its type. -/
theorem arrayElement_carriesOver (array offset : Expr) (info : Info) (mode : Mode) :
    CarriesOver transport env transport.lowered (arrayElement array offset info mode)
      (arrayElement (transport.expr array) (transport.expr offset) info mode) := by
  apply CarriesOver.environment
  rw [transport.type_expr]
  refine .ite .rfl (.fail nofun) ?_
  cases mode with
  | read => exact .pure _ (congrArg Lowered.value (transport.element info array offset))
  | write => exact .pure _ rfl

end Elements

/-! ## §7 Positions and ranges -/

section Patterns

variable (transport : Transport) {env : Env}

/-- The receiver of a pattern and its length are bound alike. -/
theorem measure_carriesOver (receiver : Expr) (holding : Holding) (length : SymbolId)
    (site : Location) :
    CarriesOver transport env (Prod.map transport.binding transport.binding)
      (measure receiver holding length site)
      (measure (transport.expr receiver) holding length site) := by
  apply (CarriesOver.bindTemp receiver holding).bind
  intro object
  rw [transport.reference_binding]
  exact (readMember_carriesOver transport env object.reference length site).bind fun read =>
    (CarriesOver.bindTemp read .copy).bind fun _ => .pure _ rfl

/-- An offset is counted by the same member of the library. -/
theorem offsetOf_carriesOver (position length : Expr) (site : Location) :
    CarriesOver transport env transport.expr (offsetOf position length site)
      (offsetOf (transport.expr position) (transport.expr length) site) :=
  (libraryMember_carriesOver transport env .indexGetOffset).bind fun _ =>
    .environment (.pure _ (transport.call _ _ _ _ _))

/-- An end of a range is read by the same member of the library. -/
theorem rangeEnd_carriesOver (range : Expr) (getter : WellKnown.Member) (site : Location) :
    CarriesOver transport env transport.expr (rangeEnd range getter site)
      (rangeEnd (transport.expr range) getter site) :=
  (libraryMember_carriesOver transport env getter).bind fun _ =>
    .environment (.pure _ (transport.call _ _ _ _ _))

/-- An access by position binds its offset and reads the element, both alike. Four steps are put
together by `bind`, and only the last one depends on whether there is an indexer for integers. -/
theorem accessAt_carriesOver (hbuilder : transport.Suits env.builder) (object size : Binding)
    (position : Expr) (intIndexer? : Option SymbolId) (info : Info) (mode : Mode) :
    CarriesOver transport env transport.lowered
      (accessAt object size position intIndexer? info mode)
      (accessAt (transport.binding object) (transport.binding size) (transport.expr position)
        intIndexer? info mode) := by
  unfold accessAt
  simp only [transport.reference_binding]
  apply (offsetOf_carriesOver transport position size.reference info.location).bind
  intro call
  apply (CarriesOver.bindTemp call .copy).bind
  intro offset
  apply (CarriesOver.note (.indexPattern 3) nofun).bind
  intro _
  simp only [transport.reference_binding]
  -- what was bound runs ahead of the element in both settings
  have hahead (element : Lowered) := (transport.runAhead_map_binding [object, size, offset]
    element).symm
  cases intIndexer? with
  | some indexer =>
    exact (indexerElement_carriesOver transport hbuilder object.reference indexer
      [offset.reference] .positional info mode).bind fun element => .pure _ (hahead element)
  | none =>
    exact (arrayElement_carriesOver transport object.reference offset.reference info mode).bind
      fun element => .pure _ (hahead element)

/-- A slice binds the range and its two ends, one after the other, and calls its method with them.
-/
theorem sliceAt_carriesOver (object size : Binding) (value : Expr) (slice : SymbolId)
    (info : Info) :
    CarriesOver transport env transport.expr (sliceAt object size value slice info)
      (sliceAt (transport.binding object) (transport.binding size) (transport.expr value) slice
        info) := by
  unfold sliceAt
  simp only [transport.reference_binding]
  apply (CarriesOver.bindTemp value .copy).bind
  -- the start of the range is bound before its end is looked at
  intro range
  simp only [transport.reference_binding]
  apply (rangeEnd_carriesOver transport range.reference .rangeGetStart info.location).bind
  intro first
  apply (offsetOf_carriesOver transport first size.reference info.location).bind
  intro startCall
  apply (CarriesOver.bindTemp startCall .copy).bind
  intro start
  apply (rangeEnd_carriesOver transport range.reference .rangeGetEnd info.location).bind
  intro last
  apply (offsetOf_carriesOver transport last size.reference info.location).bind
  intro stopCall
  apply (CarriesOver.bindTemp stopCall .copy).bind
  intro stop
  apply CarriesOver.environment
  refine (CarriesOver.note (.rangePattern 5) nofun).bind fun _ => .pure _ ?_
  -- what is left is one equation about the code in front of the slice
  rw [← transport.sequence_map_binding, transport.call]
  simp only [transport.reference_binding, transport.binary, List.map_cons, List.map_nil]
  rfl

/-- Candidates are looked up and announced alike, where announcements may go together with
themselves. -/
theorem announce_carriesOver (hevents : ∀ event, transport.events event event)
    (site : Location) (candidates : List SymbolId) :
    CarriesOver transport env id (announce site candidates) (announce site candidates) := by
  induction candidates with
  | nil => exact .pure () rfl
  | cons candidate candidates ih =>
    exact (indexerOf_carriesOver transport env candidate).bind fun _ =>
      (CarriesOver.report (hevents _)).bind fun _ => ih

end Patterns

end Lowering

end Subscript
