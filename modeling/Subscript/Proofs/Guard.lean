import Subscript.Proofs.SelfContained
import Subscript.Proofs.Steps
import Subscript.Proofs.Validation

/-!
# Lowering with the check turned on

The check at the end of every access changes nothing but that it may end the lowering. `Guarded`
compares a lowering that succeeds without the check with the same lowering under the check: it goes
the same way, unless something is wrong, and then it ends with a report of what is wrong. Nested
accesses are checked first, so the report is that of the first access with a fault.

## Architecture

- §1 lowerings that take no notice of the options
- §2 `Guarded` and how it is composed
- §3 accesses with guarded operands
- §4 the induction over expressions and accesses
-/

namespace Subscript

open Code (Allocator Binding Expr Fault Holding Lowered)
open Source (Mode)

/-- The same tables, with the check of every access turned on. -/
def Env.checked (env : Env) : Env :=
  { env with options := { env.options with validates := true } }

/-! ## §1 Lowerings that take no notice of the options -/

/-- The same run under other options: nothing else differs, and nothing may come out differently. -/
def Transport.withOptions (options : Options) : Transport where
  toTranslation := .identity
  options _ := options
  allocator := id
  violations := Eq
  events := Eq
  bind := Code.Translation.bind_identity
  violation_self _ _ := rfl
  event_self _ _ := rfl

/-- Where only the options change, any builder goes along: it does not see them. -/
private theorem Transport.withOptions_suits (options : Options) (builder : ArgumentBuilder) :
    (withOptions options).Suits builder :=
  suits_of_identity rfl (fun _ => rfl) builder

theorem Transport.expr_withOptions (options : Options) : (withOptions options).expr = id := rfl

/-- Other options change no lowered access. -/
private theorem Transport.lowered_withOptions (options : Options) :
    (withOptions options).lowered = id :=
  funext Code.Translation.lowered_identity

/-- Being carried over by the options alone is being the same run, as this transport leaves
values, temporaries and events where they are. -/
private theorem Run.carried_withOptions_iff {α : Type} {options : Options} {run run' : Run α} :
    Run.Carried (.withOptions options) id run run' ↔ run' = run := by
  constructor
  · rintro ⟨houtcome, hallocator, hevents⟩
    obtain ⟨outcome, rest, events⟩ := run
    obtain ⟨outcome', rest', events'⟩ := run'
    obtain rfl : rest' = rest := hallocator
    -- no event may differ, so the lists are equal
    obtain rfl : events = events' := List.forall₂_eq_eq_eq ▸ hevents
    cases houtcome with
    | ok => rfl
    | error hviolation =>
      cases hviolation
      rfl
  · rintro rfl
    refine ⟨?_, rfl, List.forall₂_same.mpr fun _ _ => rfl⟩
    cases run'.outcome with
    | ok value => exact .ok value
    | error violation => exact .error rfl

namespace Lowering

variable {α β : Type}

/-- Whatever the options are, the lowering runs the same way. -/
def OptionFree (lowering : Lowering α) : Prop :=
  ∀ env options allocator,
    lowering.run { env with options := options } allocator = lowering.run env allocator

/-- A lowering takes no notice of the options exactly if it carries over to any others. All that
is said of single steps below comes from the general account of steps by this equivalence. -/
theorem optionFree_iff {lowering : Lowering α} :
    OptionFree lowering ↔
      ∀ env options, CarriesOver (.withOptions options) env id lowering lowering := by
  constructor
  · exact fun h env options allocator => Run.carried_withOptions_iff.mpr (h env options allocator)
  · exact fun h env options allocator => Run.carried_withOptions_iff.mp (h env options allocator)

/-- Steps in a row take no notice of the options if none of them does. -/
theorem OptionFree.bind {first : Lowering α} {next : α → Lowering β} (h : OptionFree first)
    (h' : ∀ value, OptionFree (next value)) : OptionFree (first >>= next) :=
  optionFree_iff.mpr fun env options => (optionFree_iff.mp h env options).bind fun value =>
    optionFree_iff.mp (h' value) env options

private theorem run_environment_bind (next : Env → Lowering α) (env : Env) (allocator : Allocator) :
    (environment >>= next).run env allocator = (next env).run env allocator := rfl

/-- Reading the tables is no notice of the options. -/
private theorem OptionFree.environment_bind {next : Env → Lowering α}
    (hsame : ∀ env options, next { env with options := options } = next env)
    (h : ∀ env, OptionFree (next env)) : OptionFree (environment >>= next) := by
  intro env options allocator
  rw [run_environment_bind, run_environment_bind, hsame]
  exact h env env options allocator

private theorem optionFree_pure (value : α) : OptionFree (pure value) := fun _ _ _ => rfl

private theorem optionFree_report (event : Event) : OptionFree (report event) := fun _ _ _ => rfl

private theorem optionFree_libraryMember (member : WellKnown.Member) :
    OptionFree (libraryMember member) :=
  optionFree_iff.mpr fun env _ => libraryMember_carriesOver _ env member

private theorem optionFree_methodOf (symbol : SymbolId) : OptionFree (methodOf symbol) :=
  optionFree_iff.mpr fun env _ => methodOf_carriesOver _ env symbol

private theorem optionFree_readMember (object : Expr) (member : SymbolId) (site : Location) :
    OptionFree (readMember object member site) :=
  optionFree_iff.mpr fun env _ => readMember_carriesOver _ env object member site

private theorem optionFree_announce (site : Location) (candidates : List SymbolId) :
    OptionFree (announce site candidates) :=
  optionFree_iff.mpr fun _ _ => announce_carriesOver _ (fun _ => rfl) site candidates

/-- The element behind an indexer is read or assigned without a look at the options. -/
private theorem optionFree_indexerElement (receiver : Expr) (indexer : SymbolId)
    (arguments : List Expr) (shape : CallShape) (info : Info) (mode : Mode) :
    OptionFree (indexerElement receiver indexer arguments shape info mode) := by
  apply optionFree_iff.mpr
  intro env options
  have hcarries := indexerElement_carriesOver (.withOptions options)
    (Transport.withOptions_suits options env.builder) receiver indexer arguments shape info mode
  rwa [Transport.lowered_withOptions, Transport.expr_withOptions, List.map_id] at hcarries

private theorem optionFree_measure (receiver : Expr) (holding : Holding) (length : SymbolId)
    (site : Location) : OptionFree (measure receiver holding length site) :=
  optionFree_iff.mpr fun _ _ => measure_carriesOver _ receiver holding length site

/-- An access by position binds its offset and reads the element without a look at the options. -/
private theorem optionFree_accessAt (object size : Binding) (position : Expr)
    (intIndexer? : Option SymbolId) (info : Info) (mode : Mode) :
    OptionFree (accessAt object size position intIndexer? info mode) := by
  apply optionFree_iff.mpr
  intro env options
  have hcarries := accessAt_carriesOver (.withOptions options)
    (Transport.withOptions_suits options env.builder) object size position intIndexer? info mode
  rwa [Transport.lowered_withOptions] at hcarries

private theorem optionFree_sliceAt (object size : Binding) (value : Expr) (slice : SymbolId)
    (info : Info) : OptionFree (sliceAt object size value slice info) :=
  optionFree_iff.mpr fun _ _ => sliceAt_carriesOver _ object size value slice info

/-! ## §2 Guarded lowerings -/

/-- The check ends the lowering: what is reported is one or more temporaries bound by storage that
their initializers do not have. -/
def Stops (lowering : Lowering α) (env : Env) (allocator : Allocator) : Prop :=
  ∃ faults : List Fault, faults ≠ [] ∧ (∀ fault ∈ faults, fault.kind = .invalidRefBinding) ∧
    ∃ rest events, lowering.run env allocator =
      ⟨.error (.malformedSequence (Fault.report faults)), rest, events⟩

/-- Under the check a lowering gives the same result, unless something is amiss; then the check
ends it. -/
structure Guarded (lowering : Lowering α) (env : Env) (allocator : Allocator) (result : α)
    (rest : Allocator) (amiss : Prop) : Prop where
  passes : ¬ amiss → lowering.Yields env.checked allocator result rest
  stops : amiss → lowering.Stops env.checked allocator

section Guarded

variable {env : Env} {allocator middle rest : Allocator} {amiss amiss' : Prop}

/-- Steps in a row are guarded by what is amiss in either. If the first one is stopped by the
check, the second is not reached under the check at all. -/
theorem Guarded.bind {first : Lowering α} {next : α → Lowering β} {value : α} {result : β}
    (h : Guarded first env allocator value middle amiss)
    (h' : Guarded (next value) env middle result rest amiss') :
    Guarded (first >>= next) env allocator result rest (amiss ∨ amiss') := by
  refine ⟨fun hnot => ?_, fun hamiss => ?_⟩
  · obtain ⟨hnot, hnot'⟩ := not_or.mp hnot
    exact yields_bind_iff.mpr ⟨value, middle, h.passes hnot, h'.passes hnot'⟩
  -- the first step that is stopped ends the whole
  · by_cases hfirst : amiss
    · obtain ⟨faults, hne, hkind, rest, events, hrun⟩ := h.stops hfirst
      exact ⟨faults, hne, hkind, rest, events, run_bind_error hrun⟩
    · obtain ⟨events, hfirst⟩ := h.passes hfirst
      obtain ⟨faults, hne, hkind, rest, later, hrun⟩ :=
        h'.stops (hamiss.resolve_left ‹¬ amiss›)
      refine ⟨faults, hne, hkind, rest, events ++ later, ?_⟩
      rw [run_bind_ok hfirst, hrun]

/-- What is amiss may be described in other words. -/
theorem Guarded.congr {lowering : Lowering α} {result : α}
    (h : Guarded lowering env allocator result rest amiss) (hiff : amiss ↔ amiss') :
    Guarded lowering env allocator result rest amiss' :=
  ⟨fun hnot => h.passes (mt hiff.mp hnot), fun hamiss => h.stops (hiff.mpr hamiss)⟩

/-- A lowering that takes no notice of the options is never ended by the check. -/
theorem Guarded.of_optionFree {lowering : Lowering α} {result : α} (hfree : OptionFree lowering)
    (h : lowering.Yields env allocator result rest) :
    Guarded lowering env allocator result rest False := by
  refine ⟨fun _ => ?_, False.elim⟩
  obtain ⟨events, hrun⟩ := h
  exact ⟨events, (hfree env _ allocator).trans hrun⟩

/-- An event is reported under the check as well. -/
private theorem Guarded.report (event : Event) (allocator : Allocator) :
    Guarded (report event) env allocator () allocator False :=
  .of_optionFree (optionFree_report event) (yields_report_iff.mpr rfl)

/-- Looking at the tables shows no difference, if what is done with them does not depend on the
check. -/
theorem Guarded.of_environment {next : Env → Lowering α} {result : α}
    (h : Guarded (next env) env allocator result rest amiss) (hsame : next env.checked = next env) :
    Guarded (environment >>= next) env allocator result rest amiss := by
  have hrun : (environment >>= next).run env.checked allocator =
      (next env).run env.checked allocator := by
    rw [run_environment_bind, hsame]
  refine ⟨fun hnot => ?_, fun hamiss => ?_⟩
  · obtain ⟨events, hpasses⟩ := h.passes hnot
    exact ⟨events, hrun.trans hpasses⟩
  · obtain ⟨faults, hne, hkind, left, events, hstops⟩ := h.stops hamiss
    exact ⟨faults, hne, hkind, left, events, hrun.trans hstops⟩

/-- The check at the end of an access looks for temporaries bound amiss, if the access is
well-scoped and declares no temporary twice. -/
theorem Guarded.conclude {site : Location} {lowered : Lowered} (hscoped : lowered.Scoped [])
    (hnodup : lowered.declared.Nodup) :
    Guarded (conclude site lowered) env allocator lowered allocator (lowered.misbound ≠ []) := by
  refine ⟨fun hnot => ?_, fun hamiss => ?_⟩
  · refine conclude_yields_iff.mpr ⟨fun _ => ?_, rfl, rfl⟩
    exact lowered.faults_eq_nil_iff.mpr ⟨hscoped, hnodup, not_not.mp hnot⟩
  · have hfaults : lowered.faults ≠ [] :=
      fun hnil => hamiss (lowered.faults_eq_nil_iff.mp hnil).2.2
    refine ⟨lowered.faults, hfaults, fun fault => Lowered.kind_of_mem_faults hscoped hnodup,
      allocator, [], ?_⟩
    apply run_bind_error
    -- under the check the faults are looked for whatever the options say
    have hvalidate : (validate lowered).run env.checked allocator =
        (if env.checked.options.validates && !lowered.faults.isEmpty then
          fail (.malformedSequence (Fault.report lowered.faults)) else pure () :
          Lowering Unit).run env.checked allocator := rfl
    rw [hvalidate, if_pos (by simpa [Env.checked] using hfaults)]
    rfl

end Guarded

/-! ## §3 Guarded operands -/

/-- The check ends a lowering exactly if something in its result is amiss. -/
def GuardedBy (lowering : Lowering α) (declared misbound : α → List TempId) (env : Env) : Prop :=
  ∀ ⦃allocator rest result⦄, lowering.Yields env allocator result rest →
    (declared result).Nodup →
      Guarded lowering env allocator result rest (misbound result ≠ [])

/-- A guarded operand. -/
abbrev OperandGuarded (operand : Lowering Expr) (env : Env) : Prop :=
  GuardedBy operand Expr.declared Expr.misbound env

/-- Guarded operands, lowered one after the other. -/
abbrev OperandsGuarded (operands : Lowering (List Expr)) (env : Env) : Prop :=
  GuardedBy operands (·.flatMap Expr.declared) (·.flatMap Expr.misbound) env

/-- An access, before it is checked itself, is guarded through its operands. -/
def AccessGuarded (access : Lowering Lowered) (env : Env) : Prop :=
  ∀ ⦃allocator rest lowered⦄, access.Yields env allocator lowered rest → lowered.Scoped [] →
    lowered.declared.Nodup → ∃ amiss, Guarded access env allocator lowered rest amiss ∧
      (amiss → lowered.misbound ≠ [])

section Operands

variable {env : Env} {operand receiver argument : Lowering Expr}
  {arguments : Lowering (List Expr)} {info : Info} {mode : Mode} {site : Location}

section GuardedBy

variable {γ : Type} {first : Lowering α} {second : Lowering β} {declared misbound : α → List TempId}
  {declared' misbound' : β → List TempId} {declared'' misbound'' : γ → List TempId}

/-- What happens ahead takes no notice of the options. -/
private theorem GuardedBy.after (hfree : OptionFree first) {next : α → Lowering β}
    (h : ∀ value, GuardedBy (next value) declared' misbound' env) :
    GuardedBy (first >>= next) declared' misbound' env := by
  intro allocator rest result hyields hnodup
  obtain ⟨value, middle, hvalue, hnext⟩ := yields_bind_iff.mp hyields
  apply ((Guarded.of_optionFree hfree hvalue).bind (h value hnext hnodup)).congr
  rw [false_or]

/-- What happens to a result afterwards takes no notice of the options, and neither adds nor
removes anything amiss. -/
private theorem GuardedBy.before (h : GuardedBy first declared misbound env) {next : α → Lowering β}
    (hfree : ∀ value, OptionFree (next value))
    (hkeeps : ∀ {value result middle rest}, (next value).Yields env middle result rest →
      declared' result = declared value ∧ misbound' result = misbound value) :
    GuardedBy (first >>= next) declared' misbound' env := by
  intro allocator rest result hyields hnodup
  obtain ⟨value, middle, hvalue, hnext⟩ := yields_bind_iff.mp hyields
  obtain ⟨hdeclared, hmisbound⟩ := hkeeps hnext
  apply ((h hvalue (hdeclared ▸ hnodup)).bind (.of_optionFree (hfree value) hnext)).congr
  rw [hmisbound, or_false]

/-- The same for what is made of two results. -/
private theorem GuardedBy.pair (h : GuardedBy first declared misbound env)
    (h' : GuardedBy second declared' misbound' env) {next : α → β → Lowering γ}
    (hfree : ∀ left right, OptionFree (next left right))
    (hkeeps : ∀ {left right result middle rest},
      (next left right).Yields env middle result rest →
        declared'' result = declared left ++ declared' right ∧
          misbound'' result = misbound left ++ misbound' right) :
    GuardedBy (first >>= fun left => second >>= fun right => next left right) declared''
      misbound'' env := by
  intro allocator rest result hyields hnodup
  simp only [yields_bind_iff] at hyields
  obtain ⟨left, middle, hleft, right, last, hright, hnext⟩ := hyields
  obtain ⟨hdeclared, hmisbound⟩ := hkeeps hnext
  rw [hdeclared] at hnodup
  obtain ⟨hnodup, hnodup', -⟩ := List.nodup_append.mp hnodup
  refine ((h hleft hnodup).bind ((h' hright hnodup').bind
    (.of_optionFree (hfree left right) hnext))).congr ?_
  rw [hmisbound, or_false]
  simp only [ne_eq, List.append_eq_nil_iff, not_and_or]

end GuardedBy

/-- A member of an object is guarded by what is amiss in the object. -/
private theorem OperandGuarded.readMember (h : OperandGuarded operand env) (member : SymbolId)
    (site : Location) :
    OperandGuarded (operand >>= fun object => readMember object member site) env :=
  h.before (fun _ => optionFree_readMember _ _ _) fun hread =>
    ⟨gather_readMember Code.overlooksComputed_declared hread,
      gather_readMember Code.overlooksComputed_misbound hread⟩

/-- A bound of a range is guarded by what is amiss in it, whether or not it is converted to a
position. -/
private theorem OperandGuarded.positionOf (h : OperandGuarded operand env) (bound : Info) :
    OperandGuarded (positionOf bound operand) env := by
  have hfree : ∀ value : Expr, OptionFree (Lowering.positionOf bound (pure value)) := fun value =>
    (optionFree_pure value).bind fun _ => .environment_bind (fun _ _ => rfl) fun env => by
      dsimp only
      split
      · exact (optionFree_libraryMember _).bind fun _ => optionFree_pure _
      · exact optionFree_pure _
  -- the operand comes first, and what follows takes no notice of the options
  have hsplit : Lowering.positionOf bound operand =
      operand >>= fun value => Lowering.positionOf bound (pure value) := by
    simp [Lowering.positionOf]
  rw [hsplit]
  apply h.before hfree
  intro _ _ _ _ hposition
  obtain ⟨value, hvalue, hbound⟩ := positionOf_yields hposition
  obtain ⟨rfl, rfl⟩ := yields_pure_iff.mp hvalue
  exact ⟨hbound.gather_eq Code.overlooksComputed_declared,
    hbound.gather_eq Code.overlooksComputed_misbound⟩

/-- A range with one bound is guarded by its bound. -/
private theorem OperandGuarded.openRange (h : OperandGuarded operand env) (info : Info)
    (member : WellKnown.Member) :
    OperandGuarded (openRange info member (return [← operand])) env := by
  apply GuardedBy.after (optionFree_libraryMember _)
  intro method
  rw [bind_assoc]
  apply h.before (fun _ => (optionFree_pure _).bind fun _ => optionFree_pure _)
  intro _ _ _ _ hresult
  simp only [yields_bind_iff, yields_pure_iff] at hresult
  obtain ⟨_, _, ⟨rfl, rfl⟩, rfl, rfl⟩ := hresult
  simp

/-- A read of an indexed property is guarded by what is amiss in its object. -/
theorem OperandGuarded.readIndexedProperty (h : OperandGuarded operand env)
    (property : SymbolId)
    (site : Location) : OperandGuarded (readIndexedProperty operand property site) env := by
  intro allocator rest result hyields hnodup
  simp only [Lowering.readIndexedProperty, yields_bind_iff, yields_environment_iff,
    yields_report_iff] at hyields
  obtain ⟨_, _, ⟨rfl, rfl⟩, _, _, rfl, hread⟩ := hyields
  refine Guarded.of_environment ?_ rfl
  refine ((Guarded.report _ allocator).bind
    (h.readMember property site (yields_bind_iff.mpr hread) hnodup)).congr ?_
  rw [false_or]

/-- The same where the property is looked up by its name. -/
private theorem OperandGuarded.fetchIndexedProperty (h : OperandGuarded operand env)
    (property : SymbolId) (site : Location) :
    OperandGuarded (fetchIndexedProperty operand property site) env := by
  refine h.before (fun value => ?_) fun hfetch => ?_
  · exact .environment_bind (fun _ _ => rfl) fun _ =>
      (optionFree_report _).bind fun _ => optionFree_pure _
  · simp only [yields_bind_iff, yields_environment_iff, yields_report_iff, yields_pure_iff]
      at hfetch
    obtain ⟨_, _, ⟨rfl, rfl⟩, _, _, rfl, rfl, rfl⟩ := hfetch
    simp

/-- An access through an indexer is guarded by its receiver and its arguments: what they have
amiss is amiss in the access, since nothing of them is dropped. -/
theorem AccessGuarded.indexerAccess (hliterals : env.builder = .literals)
    (hreceiver : OperandGuarded receiver env) (harguments : OperandsGuarded arguments env)
    (indexer : SymbolId) (shape : CallShape) :
    AccessGuarded (indexerAccess receiver arguments indexer shape info mode) env := by
  intro allocator rest lowered hyields hscoped hnodup
  simp only [Lowering.indexerAccess, yields_bind_iff] at hyields
  obtain ⟨object, first, hobject, operands, second, hoperands, helement⟩ := hyields
  obtain ⟨bindings, hmade, -⟩ := ((indexerElement_yields_iff hliterals).mp helement).madeOf
  -- operands of a result that declares no temporary twice declare none twice either
  obtain ⟨hobjectNodup, hoperandsNodup⟩ := hmade.nodup_cons hscoped hnodup
  refine ⟨_, (hreceiver hobject hobjectNodup).bind ((harguments hoperands hoperandsNodup).bind
    (.of_optionFree (optionFree_indexerElement _ _ _ _ _ _) helement)), fun hamiss => ?_⟩
  rw [or_false] at hamiss
  exact hmade.misbound_ne_nil_iff.mpr (hamiss.imp_right .inl)

/-- A dynamic access is guarded by its receiver and its arguments. -/
theorem AccessGuarded.dynamicAccess (hreceiver : OperandGuarded receiver env)
    (harguments : OperandsGuarded arguments env) (candidates : List SymbolId)
    (names : List (Option String)) (refKinds : List RefKind) :
    AccessGuarded (dynamicAccess receiver arguments candidates names refKinds info mode) env := by
  intro allocator rest lowered hyields hscoped hnodup
  rw [dynamicAccess_eq] at hyields ⊢
  simp only [yields_bind_iff] at hyields
  obtain ⟨_, _, hannounce, object, first, hobject, operands, second, hoperands, hlast⟩ := hyields
  obtain rfl := (yields_pure_iff.mp hlast).1
  have hcomprises := dynamicLowered_comprises object operands names refKinds info mode
  obtain ⟨hobjectNodup, hoperandsNodup⟩ := hcomprises.nodup_cons hscoped hnodup
  refine ⟨_, Guarded.bind (.of_optionFree (optionFree_announce _ _) hannounce)
    ((hreceiver hobject hobjectNodup).bind ((harguments hoperands hoperandsNodup).bind
      (.of_optionFree (optionFree_pure _) hlast))), fun hamiss => ?_⟩
  -- nothing is bound here, so what is amiss is so in an operand
  rw [false_or, or_false] at hamiss
  exact hcomprises.misbound_ne_nil_iff.mpr (hamiss.imp_right .inl)

/-- An access by position is guarded by its receiver and its position. Between the two the length
is read, which takes no notice of the options. -/
theorem AccessGuarded.indexPattern (hliterals : env.builder = .literals)
    (hreceiver : OperandGuarded receiver env) (hargument : OperandGuarded argument env)
    (length : SymbolId) (intIndexer? : Option SymbolId) :
    AccessGuarded (indexPattern receiver argument length intIndexer? info mode) env := by
  intro allocator rest lowered hyields hscoped hnodup
  rw [indexPattern_eq] at hyields ⊢
  simp only [yields_bind_iff, yields_environment_iff] at hyields
  obtain ⟨value, first, hvalue, _, _, ⟨rfl, rfl⟩, ⟨object, size⟩, second, hmeasure, position,
    third, hposition, haccess⟩ := hyields
  obtain ⟨offset, fourth, element, hoffset, helement, rfl⟩ :=
    (accessAt_yields_iff hliterals).mp haccess
  -- the access has both operands in it, and what is amiss in one of them is amiss in it
  obtain ⟨bindings, -, -, -, hcomprises⟩ :=
    index_madeOf (measure_yields_iff.mp hmeasure) hoffset helement
  obtain ⟨hvalueNodup, hpositionNodup⟩ := hcomprises.nodup_pair hscoped hnodup
  refine ⟨_, (hreceiver hvalue hvalueNodup).bind (Guarded.of_environment (Guarded.bind
    (.of_optionFree (optionFree_measure _ _ _ _) hmeasure)
    ((hargument hposition hpositionNodup).bind
      (.of_optionFree (optionFree_accessAt _ _ _ _ _ _) haccess))) rfl), fun hamiss => ?_⟩
  rw [false_or, or_false] at hamiss
  exact hcomprises.misbound_ne_nil_of_pair hamiss

/-- A slice is guarded by its receiver and its range. Its own bindings are copies, so nothing is
amiss in it that is not amiss in one of these two. -/
private theorem Guarded.rangePattern (hreceiver : OperandGuarded receiver env)
    (hargument : OperandGuarded argument env) {length slice : SymbolId}
    {allocator rest : Allocator} {result : Expr}
    (hyields : (rangePattern receiver argument length slice info).Yields env allocator result rest)
    (hscoped : result.Scoped []) (hnodup : result.declared.Nodup) :
    ∃ amiss, Guarded (rangePattern receiver argument length slice info) env allocator result rest
        amiss ∧ (amiss → result.misbound ≠ []) := by
  simp only [rangePattern_eq, yields_bind_iff, methodOf_yields_iff] at hyields ⊢
  obtain ⟨method, _, ⟨hmethod, rfl⟩, hpattern⟩ := hyields
  -- the signature of the slice method is looked at before anything is lowered
  by_cases hsize : method.params.length ≠ 2
  · rw [if_pos hsize] at hpattern
    exact absurd hpattern not_yields_fail
  · rw [if_neg hsize] at hpattern
    simp only [yields_bind_iff] at hpattern
    obtain ⟨value, first, hvalue, ⟨object, size⟩, second, hmeasure, bounds, third, hbounds,
      hslice⟩ := hpattern
    obtain ⟨range, start, stop, hbounded, hresult⟩ := sliceAt_yields_iff.mp hslice
    have hcomprises : Comprises (.value result) [value, bounds] _ :=
      hresult ▸ range_comprises slice (measure_yields_iff.mp hmeasure) hbounded
    have hscoped' : (Lowered.value result).Scoped [] := hscoped
    obtain ⟨hvalueNodup, hboundsNodup⟩ := hcomprises.nodup_pair hscoped' hnodup
    refine ⟨False ∨ value.misbound ≠ [] ∨ bounds.misbound ≠ [], Guarded.bind
      (.of_optionFree (optionFree_methodOf _) (methodOf_yields_iff.mpr ⟨hmethod, rfl⟩)) ?_,
      fun hamiss => ?_⟩
    · rw [if_neg hsize]
      refine ((hreceiver hvalue hvalueNodup).bind (Guarded.bind
        (.of_optionFree (optionFree_measure _ _ _ _) hmeasure)
        ((hargument hbounds hboundsNodup).bind
          (.of_optionFree (optionFree_sliceAt _ _ _ _ _) hslice)))).congr ?_
      rw [false_or, or_false]
    · rw [false_or] at hamiss
      exact hcomprises.misbound_ne_nil_of_pair hamiss

/-- An access by range is guarded as the slice is; there is none to be assigned. -/
theorem AccessGuarded.rangeAccess (hreceiver : OperandGuarded receiver env)
    (hargument : OperandGuarded argument env) (length slice : SymbolId) :
    AccessGuarded (rangeAccess receiver argument length slice info mode) env := by
  intro allocator rest lowered hyields hscoped hnodup
  obtain ⟨rfl, result, rfl, hpattern⟩ := rangeAccess_yields hyields
  obtain ⟨amiss, hguarded, hmisbound⟩ :=
    Guarded.rangePattern hreceiver hargument hpattern hscoped hnodup
  refine ⟨_, hguarded.bind (.of_optionFree (optionFree_pure _) (yields_pure_iff.mpr ⟨rfl, rfl⟩)),
    fun hamiss => hmisbound ?_⟩
  rwa [or_false] at hamiss

/-- The type of an argument is looked at before anything is lowered. -/
private theorem AccessGuarded.expectArgument {pattern : Lowering Lowered}
    (h : AccessGuarded pattern env) (expected : TypeKind) (found : TypeId) :
    AccessGuarded (expectArgument expected found pattern) env := by
  intro allocator rest lowered hyields hscoped hnodup
  obtain ⟨hkind, hpattern⟩ := expectArgument_yields hyields
  obtain ⟨amiss, hguarded, hmisbound⟩ := h hpattern hscoped hnodup
  refine ⟨amiss, Guarded.of_environment ?_ rfl, hmisbound⟩
  rw [if_pos hkind]
  exact hguarded

end Operands

end Lowering

open Lowering

/-! ## §4 Expressions and accesses -/

section Induction

variable {env : Env}

/-- An access that is checked itself is guarded by all there is in it. -/
private theorem Lowering.AccessGuarded.concluded (hliterals : env.builder = .literals)
    {node : Source.Access} {mode : Mode} {site : Location}
    (h : AccessGuarded (node.lowerCore Source.Expr.lower mode site) env)
    {allocator rest : Allocator} {lowered : Lowered}
    (hyields : (node.lower mode site).Yields env allocator lowered rest)
    (hnodup : lowered.declared.Nodup) :
    Guarded (node.lower mode site) env allocator lowered rest (lowered.misbound ≠ []) := by
  have hscoped := (node.lower_selfContained hliterals hyields).wellScoped
  obtain ⟨amiss, hguarded, hmisbound⟩ :=
    h (Source.Access.lower_yields_iff.mp hyields).1 hscoped hnodup
  rw [node.lower_eq_lowerWith, Source.Access.lowerWith]
  -- whatever stopped an operand would also stop the access itself
  apply (hguarded.bind (.conclude hscoped hnodup)).congr
  exact ⟨fun hamiss => hamiss.elim hmisbound id, Or.inr⟩

mutual

/-- A lowered expression is guarded by what is amiss in it: under the check it is lowered to the
same, or the lowering ends with a report. The report is that of the first nested access with a
fault. -/
theorem Source.Expr.lower_guarded (hliterals : env.builder = .literals) (expr : Source.Expr) :
    OperandGuarded expr.lower env := by
  cases expr with
  | literal | var | self =>
    intro allocator rest result hyields _
    obtain ⟨rfl, rfl⟩ := yields_pure_iff.mp hyields
    exact (Guarded.of_optionFree (optionFree_pure _) hyields).congr (by simp)
  | field info object field =>
    rw [Source.Expr.lower]
    apply (object.lower_guarded hliterals).before (fun _ => optionFree_pure _)
    intro _ _ _ _ hresult
    obtain ⟨rfl, rfl⟩ := yields_pure_iff.mp hresult
    simp
  | property info object property =>
    rw [Source.Expr.lower]
    exact (object.lower_guarded hliterals).readMember property info.location
  | indexedProperty => exact fun _ _ _ hyields => absurd hyields not_yields_fail
  | call info receiver method arguments =>
    rw [Source.Expr.lower]
    -- behind the operands the options are not looked at any more
    refine (receiver.lower_guarded hliterals).pair (lowerAll_guarded hliterals arguments)
      (fun _ _ => (optionFree_methodOf _).bind fun _ => optionFree_pure _) fun hresult => ?_
    simp only [yields_bind_iff, methodOf_yields_iff, yields_pure_iff] at hresult
    obtain ⟨_, _, ⟨-, rfl⟩, rfl, rfl⟩ := hresult
    simp
  | staticCall info method arguments =>
    rw [Source.Expr.lower]
    refine (lowerAll_guarded hliterals arguments).before
      (fun _ => (optionFree_methodOf _).bind fun _ => optionFree_pure _) fun hresult => ?_
    simp only [yields_bind_iff, methodOf_yields_iff, yields_pure_iff] at hresult
    obtain ⟨_, _, ⟨-, rfl⟩, rfl, rfl⟩ := hresult
    simp
  | fromEnd info operand =>
    rw [Source.Expr.lower, positionFromEnd]
    apply GuardedBy.after (optionFree_libraryMember _)
    intro constructor
    refine (operand.lower_guarded hliterals).before
      (fun _ => .environment_bind (fun _ _ => rfl) fun _ => optionFree_pure _) fun hresult => ?_
    simp only [yields_bind_iff, yields_environment_iff, yields_pure_iff] at hresult
    obtain ⟨_, _, ⟨rfl, rfl⟩, rfl, rfl⟩ := hresult
    simp
  | rangeAll info =>
    intro allocator rest result hyields _
    have hfree : OptionFree (Source.Expr.rangeAll info).lower :=
      (optionFree_libraryMember _).bind fun _ => (optionFree_pure _).bind fun _ =>
        optionFree_pure _
    obtain ⟨_, -, -, rfl⟩ := fullRange_yields hyields
    exact (Guarded.of_optionFree hfree hyields).congr (by simp)
  | rangeFrom info start =>
    rw [Source.Expr.lower]
    exact ((start.lower_guarded hliterals).positionOf start.info).openRange info .rangeStartAt
  | rangeUpTo info stop =>
    rw [Source.Expr.lower]
    exact ((stop.lower_guarded hliterals).positionOf stop.info).openRange info .rangeEndAt
  | rangeBetween info start stop =>
    rw [Source.Expr.lower, closedRange]
    apply GuardedBy.after (optionFree_libraryMember _)
    intro constructor
    refine ((start.lower_guarded hliterals).positionOf start.info).pair
      ((stop.lower_guarded hliterals).positionOf stop.info) (fun _ _ => optionFree_pure _)
      fun hresult => ?_
    obtain ⟨rfl, rfl⟩ := yields_pure_iff.mp hresult
    simp
  | access info node =>
    -- a nested access is checked by itself, before anything around it
    intro allocator rest result hyields hnodup
    rw [Source.Expr.lower]
    have hnode := Source.Expr.access_yields hyields
    have hvalue : (valueOf (.value result)).Yields env rest result rest :=
      valueOf_yields_iff.mpr ⟨rfl, rfl⟩
    have hfree : OptionFree (valueOf (.value result)) := optionFree_pure _
    refine ((node.lower_guarded hliterals hnode hnodup).bind
      (.of_optionFree hfree hvalue)).congr ?_
    rw [or_false]
    rfl
termination_by structural expr

/-- Expressions that are lowered one by one are guarded by what is amiss in any of them. -/
theorem lowerAll_guarded (hliterals : env.builder = .literals) (exprs : List Source.Expr) :
    OperandsGuarded (lowerAll exprs) env := by
  cases exprs with
  | nil =>
    intro allocator rest result hyields _
    obtain ⟨rfl, rfl⟩ := yields_pure_iff.mp hyields
    exact (Guarded.of_optionFree (optionFree_pure _) hyields).congr (by simp)
  | cons expr exprs =>
    rw [lowerAll]
    refine (expr.lower_guarded hliterals).pair (lowerAll_guarded hliterals exprs)
      (fun _ _ => optionFree_pure _) fun hresult => ?_
    obtain ⟨rfl, rfl⟩ := yields_pure_iff.mp hresult
    simp
termination_by structural exprs

/-- Under the check, lowering an access gives the same, unless something in it is bound amiss;
then it stops for this reason and for no other. -/
theorem Source.Access.lower_guarded (hliterals : env.builder = .literals) (node : Source.Access)
    {mode : Mode} {site : Location} {allocator rest : Allocator} {lowered : Lowered}
    (hyields : (node.lower mode site).Yields env allocator lowered rest)
    (hnodup : lowered.declared.Nodup) :
    Guarded (node.lower mode site) env allocator lowered rest (lowered.misbound ≠ []) := by
  refine AccessGuarded.concluded hliterals ?_ hyields hnodup
  -- what is amiss in the operands is found by the checks of nested accesses; the last check, of the
  -- access itself, finds the rest
  cases node with
  | indexer receiver arguments indexer shape type =>
    have hreceiver : OperandGuarded (receiver.indexerReceiver Source.Expr.lower) env := by
      cases receiver with
      | indexedProperty info owner property =>
        exact (owner.lower_guarded hliterals).readIndexedProperty property info.location
      | _ => exact Source.Expr.lower_guarded hliterals _
    rw [Source.Access.lowerCore, ← lowerAll_eq_mapM]
    exact .indexerAccess hliterals hreceiver (lowerAll_guarded hliterals arguments) indexer shape
  | dynamic receiver arguments candidates names refKinds type =>
    have hreceiver : OperandGuarded (receiver.dynamicReceiver Source.Expr.lower) env := by
      cases receiver with
      | indexedProperty info owner property =>
        exact (owner.lower_guarded hliterals).fetchIndexedProperty property info.location
      | _ => exact Source.Expr.lower_guarded hliterals _
    rw [Source.Access.lowerCore, ← lowerAll_eq_mapM]
    exact .dynamicAccess hreceiver (lowerAll_guarded hliterals arguments) candidates names refKinds
  | indexPattern receiver length intIndexer? argument type =>
    exact (AccessGuarded.indexPattern hliterals (receiver.lower_guarded hliterals)
      (argument.lower_guarded hliterals) length intIndexer?).expectArgument .index argument.type
  | rangePattern receiver length slice argument type =>
    exact (AccessGuarded.rangeAccess (receiver.lower_guarded hliterals)
      (argument.lower_guarded hliterals) length slice).expectArgument .range argument.type
termination_by structural node

end

end Induction

end Subscript
