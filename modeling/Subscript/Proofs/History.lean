import Subscript.Proofs.Renumbering
import Subscript.Proofs.Steps

/-!
# Lowering does not depend on what was lowered before

All that lowering remembers of what it did before is how many temporaries it handed out. Started
from another count and with another stem of names, it goes the very same way: it returns or ends
alike, and what it gives differs in the numbers and names of temporaries only, all of them moved by
the distance of the two counts.

That single steps repeat themselves is nothing but the laws of renumbered code, for every step
carries over along any transport. What is left to show is that the check at the end of an access
finds the same again, and that accesses repeat themselves if their operands do.

## Architecture

- §1 runs, outcomes and violations that differ by a renumbering
- §2 `Repeats`, being carried over by a renumbering
- §3 the end of an access
- §4 accesses whose operands repeat themselves
- §5 the induction over expressions and accesses
-/

namespace Subscript

open Code (Allocator Binding Expr Fault Holding Lowered Renumbering)
open Source (Mode)

/-! ## §1 Renumbered runs -/

/-- The report of the scope check, if the violation is one. -/
def Violation.report? : Violation → Option String
  | .malformedSequence report => some report
  | _ => none

/-- The second violation is the first one, or both report the same faults, about renumbered
temporaries. -/
inductive Violation.Renumbered (again : Renumbering) : Violation → Violation → Prop where
  /-- no other violation names a temporary -/
  | same {violation : Violation} (hreport : violation.report? = none) :
    Renumbered again violation violation
  /-- the faults that the scope check found -/
  | report (faults : List Fault) :
    Renumbered again (.malformedSequence (Fault.report faults))
      (.malformedSequence (Fault.report (faults.map (Fault.renumber again))))

/-- Two runs both give a result, and the second one is the first one `renumbered`, or both end with
the same violation. -/
inductive Outcome.Renumbered {α β : Type} (again : Renumbering) (renumbered : α → β) :
    Except Violation α → Except Violation β → Prop where
  /-- both give a result -/
  | ok (value : α) : Renumbered again renumbered (.ok value) (.ok (renumbered value))
  /-- both end early -/
  | error {violation violation' : Violation}
    (hviolation : violation.Renumbered again violation') :
    Renumbered again renumbered (.error violation) (.error violation')

/-- A lowering that succeeds is repeated with success. -/
private theorem Outcome.Renumbered.of_ok {α β : Type} {again : Renumbering} {renumbered : α → β}
    {value : α}
    {outcome' : Except Violation β} (h : Outcome.Renumbered again renumbered (.ok value) outcome') :
    outcome' = .ok (renumbered value) := by
  cases h
  rfl

/-- Two runs with outcomes that differ by a renumbering, and so do the allocators that they
leave. -/
structure Run.Renumbered {α β : Type} (again : Renumbering) (renumbered : α → β) (run : Run α)
    (run' : Run β) : Prop where
  outcome : Outcome.Renumbered again renumbered run.outcome run'.outcome
  allocator : run'.allocator = run.allocator.renumber again

/-- The same tables and choices, with another stem for the names of temporaries. -/
def Env.withStem (env : Env) (stem : String) : Env :=
  { env with options := { env.options with stem := stem } }

/-- A builder that pays no heed to temporaries: its defaults have none, and its arrays treat all
alike. It reports no faults of the scope check. -/
structure ArgumentBuilder.OverlooksTemps (builder : ArgumentBuilder) : Prop where
  default : ∀ (again : Renumbering) {param : Param} {types : TypeTable} {site : Location}
    {value : Expr}, builder.defaultValue param types site = .ok value →
      value.renumber again = value
  violation : ∀ {param : Param} {types : TypeTable} {site : Location} {violation : Violation},
    builder.defaultValue param types site = .error violation → violation.report? = none
  array : ∀ (again : Renumbering) (param : Param) (elements : List Expr) (site : Location),
    builder.paramsArray param (elements.map (Expr.renumber again)) site =
      (builder.paramsArray param elements site).renumber again

/-- The default builder makes constants and arrays, and does not look at temporaries. -/
theorem ArgumentBuilder.literals_overlooksTemps : ArgumentBuilder.literals.OverlooksTemps where
  default again param types site value h := by
    unfold literals at h
    dsimp only at h
    split at h
    · cases h
      rfl
    · cases h
  violation h := by
    unfold literals at h
    dsimp only at h
    split at h
    · cases h
    · cases h
      rfl
  array again param elements site := by
    simp [literals, Expr.renumber, Code.renumberAll_eq_map]

/-! ## §2 Lowerings that repeat others -/

/-- Renumbering as a translation of code. -/
def Code.Renumbering.translation (again : Renumbering) : Code.Translation where
  expr := Expr.renumber again
  temp := Code.Temp.renumber again
  info_expr := Expr.info_renumber again
  isStable_expr := Expr.isStable_renumber again
  isSideEffectFree_expr := Expr.isSideEffectFree_renumber again
  isAddressable_expr := Expr.isAddressable_renumber again
  field _ _ _ := rfl
  element _ _ _ := rfl
  call info receiver method arguments byRef := by
    rw [Expr.renumber, Code.renumberAll_eq_map]
  binary _ _ _ _ := rfl
  sequence info temps stores result := by
    rw [Expr.renumber, Code.renumberAll_eq_map]
  reference binding := (binding.reference_renumber again).symm

/-- From a renumbered allocator and with the new stem, the code is renumbered. What is reported may
differ, for reports tell how many temporaries were handed out. -/
def Transport.renumbered (again : Renumbering) (stem : String) : Transport where
  toTranslation := again.translation
  options options := { options with stem := stem }
  allocator := Allocator.renumber again
  violations := Violation.Renumbered again
  events _ _ := True
  bind := Allocator.bind_renumber again
  violation_self violation h := by
    cases violation with
    | malformedSequence report => exact absurd rfl (h report)
    | _ => exact .same rfl
  event_self _ _ := trivial

/-- A builder that overlooks temporaries goes along with any renumbering. -/
private theorem ArgumentBuilder.OverlooksTemps.suits {builder : ArgumentBuilder}
    (h : builder.OverlooksTemps) (again : Renumbering) (stem : String) :
    (Transport.renumbered again stem).Suits builder where
  default := h.default again
  violation hviolation := .same (h.violation hviolation)
  array := h.array again

/-- Where violations may not differ but in the report of the scope check, outcomes are renumbered.
-/
private theorem Outcome.Carried.renumbered {α β : Type} {again : Renumbering} {stem : String}
    {image : α → β} {outcome : Except Violation α} {outcome' : Except Violation β}
    (h : Outcome.Carried (.renumbered again stem) image outcome outcome') :
    Outcome.Renumbered again image outcome outcome' := by
  cases h with
  | ok value => exact .ok value
  | error hviolation => exact .error hviolation

namespace Lowering

/-- From a renumbered allocator, the second lowering does what the first one does, renumbered. Only
the stem may differ in what it reads. -/
abbrev Repeats {α β : Type} (again : Renumbering) (env : Env) (stem : String) (renumbered : α → β)
    (lowering : Lowering α) (lowering' : Lowering β) : Prop :=
  CarriesOver (.renumbered again stem) env renumbered lowering lowering'

/-- A lowering that repeats another has a renumbered run from every renumbered allocator. -/
theorem Repeats.run_renumbered {α β : Type} {again : Renumbering} {env : Env}
    {stem : String} {renumbered : α → β} {lowering : Lowering α} {lowering' : Lowering β}
    (h : Repeats again env stem renumbered lowering lowering') (allocator : Allocator) :
    Run.Renumbered again renumbered (lowering.run env allocator)
      (lowering'.run (env.withStem stem) (allocator.renumber again)) := by
  obtain ⟨houtcome, hallocator, -⟩ := h allocator
  exact ⟨houtcome.renumbered, hallocator⟩

/-! ## §3 The end of an access -/

section Conclusion

variable (again : Renumbering) {env : Env} (stem : String)

/-- The check finds the same, renumbered, so it ends the lowering alike. -/
theorem validate_repeats (lowered : Lowered) :
    Repeats again env stem id (validate lowered) (validate (lowered.renumber again)) := by
  apply CarriesOver.environment
  rw [lowered.faults_renumber again]
  refine .ite (by simp [Transport.env, Transport.renumbered]) ?_ (.pure () rfl)
  exact .error (.report lowered.faults)

/-- An access ends alike: it is checked with the same result, and the events that follow tell the
same except for the count. -/
theorem conclude_repeats (site : Location) (lowered : Lowered) :
    Repeats again env stem (Lowered.renumber again) (conclude site lowered)
      (conclude site (lowered.renumber again)) := by
  apply (validate_repeats again stem lowered).bind
  intro _
  apply CarriesOver.environment
  -- the count that is reported is another one, and only that
  have hallocated : Repeats again env stem (fun count => count + again.shift) allocated allocated :=
    .allocated _ fun _ => rfl
  have hfinish : Repeats again env stem (Lowered.renumber again)
      (do
        report (.finished site (← allocated))
        return lowered)
      (do
        report (.finished site (← allocated))
        return lowered.renumber again) :=
    hallocated.bind fun _ => (CarriesOver.report trivial).bind fun _ => .pure _ rfl
  exact .ite .rfl ((CarriesOver.report trivial).bind fun _ => hfinish) hfinish

/-- A value is taken out of the renumbered access as the renumbered value. -/
private theorem valueOf_repeats (lowered : Lowered) :
    Repeats again env stem (Expr.renumber again) (valueOf lowered)
      (valueOf (lowered.renumber again)) := by
  cases lowered with
  | value expr => exact .pure expr rfl
  | target assignable => exact .fail nofun

end Conclusion

/-! ## §4 Accesses whose operands repeat themselves -/

section Operands

variable {again : Renumbering} {env : Env} {stem : String}
  {receiver argument object : Lowering Expr} {arguments : Lowering (List Expr)}

/-- An access through an indexer repeats itself if its receiver and its arguments do. -/
theorem Repeats.indexerAccess (hbuilder : env.builder.OverlooksTemps)
    (hreceiver : Repeats again env stem (Expr.renumber again) receiver receiver)
    (harguments : Repeats again env stem (List.map (Expr.renumber again)) arguments arguments)
    (indexer : SymbolId) (shape : CallShape) (info : Info) (mode : Mode) :
    Repeats again env stem (Lowered.renumber again)
      (indexerAccess receiver arguments indexer shape info mode)
      (indexerAccess receiver arguments indexer shape info mode) :=
  hreceiver.bind fun object => harguments.bind fun operands =>
    indexerElement_carriesOver _ (hbuilder.suits again stem) object indexer operands shape info mode

private theorem Repeats.readIndexedProperty
    (hobject : Repeats again env stem (Expr.renumber again) object object) (property : SymbolId)
    (site : Location) :
    Repeats again env stem (Expr.renumber again) (readIndexedProperty object property site)
      (readIndexedProperty object property site) :=
  .environment <| (CarriesOver.report trivial).bind fun _ => hobject.bind fun value =>
    readMember_carriesOver _ env value property site

private theorem Repeats.fetchIndexedProperty
    (hobject : Repeats again env stem (Expr.renumber again) object object) (property : SymbolId)
    (site : Location) :
    Repeats again env stem (Expr.renumber again) (fetchIndexedProperty object property site)
      (fetchIndexedProperty object property site) :=
  hobject.bind fun _ => .environment <| (CarriesOver.report trivial).bind fun _ => .pure _ rfl

/-- A dynamic access repeats itself if its receiver and its arguments do. -/
theorem Repeats.dynamicAccess
    (hreceiver : Repeats again env stem (Expr.renumber again) receiver receiver)
    (harguments : Repeats again env stem (List.map (Expr.renumber again)) arguments arguments)
    (candidates : List SymbolId) (names : List (Option String)) (refKinds : List RefKind)
    (info : Info) (mode : Mode) :
    Repeats again env stem (Lowered.renumber again)
      (dynamicAccess receiver arguments candidates names refKinds info mode)
      (dynamicAccess receiver arguments candidates names refKinds info mode) := by
  -- renumbering the result is building it from renumbered operands
  have hlowered : ∀ object operands,
      (dynamicLowered object operands names refKinds info mode).renumber again =
        dynamicLowered (object.renumber again) (operands.map (Expr.renumber again)) names refKinds
          info mode := by
    intro object operands
    cases mode with
    | read => exact congrArg (fun arguments => Lowered.value (.dynamicElement info
        (object.renumber again) arguments names refKinds)) (Code.renumberAll_eq_map again operands)
    | write => rfl
  rw [dynamicAccess_eq]
  exact (announce_carriesOver _ (fun _ => trivial) info.location candidates).bind fun _ =>
    hreceiver.bind fun object => harguments.bind fun operands => .pure _ (hlowered object operands)

/-- An access by position repeats itself if its receiver and its position do. -/
theorem Repeats.indexPattern (hbuilder : env.builder.OverlooksTemps)
    (hreceiver : Repeats again env stem (Expr.renumber again) receiver receiver)
    (hargument : Repeats again env stem (Expr.renumber again) argument argument)
    (length : SymbolId) (intIndexer? : Option SymbolId) (info : Info) (mode : Mode) :
    Repeats again env stem (Lowered.renumber again)
      (indexPattern receiver argument length intIndexer? info mode)
      (indexPattern receiver argument length intIndexer? info mode) := by
  rw [indexPattern_eq]
  apply hreceiver.bind
  intro value
  apply CarriesOver.environment
  -- the receiver is held alike, for its type and its class are the same
  have hholding : receiverHolding ((Transport.renumbered again stem).env env).types
      (value.renumber again) = receiverHolding env.types value :=
    again.translation.receiverHolding_expr env.types value
  rw [hholding]
  apply (measure_carriesOver _ value _ length info.location).bind
  intro measured
  exact hargument.bind fun position =>
    accessAt_carriesOver _ (hbuilder.suits again stem) measured.1 measured.2 position intIndexer?
      info mode

/-- An access by range repeats itself if its receiver and its range do. -/
theorem Repeats.rangePattern
    (hreceiver : Repeats again env stem (Expr.renumber again) receiver receiver)
    (hargument : Repeats again env stem (Expr.renumber again) argument argument)
    (length slice : SymbolId) (info : Info) :
    Repeats again env stem (Expr.renumber again)
      (rangePattern receiver argument length slice info)
      (rangePattern receiver argument length slice info) := by
  rw [rangePattern_eq]
  apply (methodOf_carriesOver _ env slice).bind
  intro method
  refine CarriesOver.ite .rfl (.fail nofun) ?_
  apply hreceiver.bind
  intro value
  apply (measure_carriesOver _ value .copy length info.location).bind
  intro measured
  exact hargument.bind fun range =>
    sliceAt_carriesOver _ measured.1 measured.2 range slice info

private theorem Repeats.rangeAccess
    (hreceiver : Repeats again env stem (Expr.renumber again) receiver receiver)
    (hargument : Repeats again env stem (Expr.renumber again) argument argument)
    (length slice : SymbolId) (info : Info) (mode : Mode) :
    Repeats again env stem (Lowered.renumber again)
      (rangeAccess receiver argument length slice info mode)
      (rangeAccess receiver argument length slice info mode) := by
  cases mode with
  | read => exact (hreceiver.rangePattern hargument length slice info).bind fun _ => .pure _ rfl
  | write => exact .fail nofun

private theorem Repeats.expectArgument {pattern : Lowering Lowered}
    (hpattern : Repeats again env stem (Lowered.renumber again) pattern pattern)
    (expected : TypeKind) (found : TypeId) :
    Repeats again env stem (Lowered.renumber again) (expectArgument expected found pattern)
      (expectArgument expected found pattern) :=
  .environment <| .ite .rfl hpattern (.fail nofun)

private theorem Repeats.positionFromEnd
    (hoperand : Repeats again env stem (Expr.renumber again) argument argument) (info : Info) :
    Repeats again env stem (Expr.renumber again) (positionFromEnd info argument)
      (positionFromEnd info argument) :=
  (libraryMember_carriesOver _ env .indexConstructor).bind fun _ =>
    hoperand.bind fun _ => .environment <| .pure _ rfl

/-- A bound repeats itself as a position: whether it is converted depends on its type. -/
private theorem Repeats.positionOf
    (hbound : Repeats again env stem (Expr.renumber again) argument argument) (bound : Info) :
    Repeats again env stem (Expr.renumber again) (positionOf bound argument)
      (positionOf bound argument) := by
  apply hbound.bind
  intro value
  apply CarriesOver.environment
  refine .ite .rfl ?_ (.pure _ rfl)
  exact (libraryMember_carriesOver _ env .indexFromInt).bind fun _ => .pure _ rfl

private theorem Repeats.openRange
    (hbounds : Repeats again env stem (List.map (Expr.renumber again)) arguments arguments)
    (info : Info) (member : WellKnown.Member) :
    Repeats again env stem (Expr.renumber again) (openRange info member arguments)
      (openRange info member arguments) := by
  apply (libraryMember_carriesOver _ env member).bind
  intro method
  refine hbounds.bind fun bounds => .pure _ ?_
  rw [Expr.renumber, Code.renumberAll_eq_map]
  rfl

private theorem Repeats.closedRange {start stop : Lowering Expr}
    (hstart : Repeats again env stem (Expr.renumber again) start start)
    (hstop : Repeats again env stem (Expr.renumber again) stop stop) (info : Info) :
    Repeats again env stem (Expr.renumber again) (closedRange info start stop)
      (closedRange info start stop) :=
  (libraryMember_carriesOver _ env .rangeConstructor).bind fun _ =>
    hstart.bind fun _ => hstop.bind fun _ => .pure _ rfl

/-- A single bound, as the list of bounds. -/
private theorem Repeats.singleton
    (hbound : Repeats again env stem (Expr.renumber again) argument argument) :
    Repeats again env stem (List.map (Expr.renumber again)) (do return [← argument])
      (do return [← argument]) :=
  hbound.bind fun _ => .pure _ rfl

end Operands

end Lowering

open Lowering

/-! ## §5 Expressions and accesses -/

section Induction

variable {again : Renumbering} {env : Env} {stem : String}

mutual

/-- An expression is lowered to the same code, whatever was lowered before. The steps carry over
along the renumbering, and the induction puts them together for each kind of expression. -/
theorem Source.Expr.lower_repeats (hbuilder : env.builder.OverlooksTemps) (expr : Source.Expr) :
    Repeats again env stem (Expr.renumber again) expr.lower expr.lower := by
  cases expr with
  | literal | var | self => exact .pure _ rfl
  | field info object field =>
    exact (object.lower_repeats hbuilder).bind fun _ => .pure _ rfl
  | property info object property =>
    exact (object.lower_repeats hbuilder).bind fun value =>
      readMember_carriesOver _ env value property info.location
  | indexedProperty => exact .fail nofun
  | call info receiver method arguments =>
    -- the method that is called has the same number in both runs
    refine (receiver.lower_repeats hbuilder).bind fun _ =>
      (lowerAll_repeats hbuilder arguments).bind fun _ =>
        (methodOf_carriesOver _ env method).bind fun _ => .pure _ ?_
    rw [Expr.renumber, Code.renumberAll_eq_map]
    rfl
  | staticCall info method arguments =>
    refine (lowerAll_repeats hbuilder arguments).bind fun _ =>
      (methodOf_carriesOver _ env method).bind fun _ => .pure _ ?_
    rw [Expr.renumber, Code.renumberAll_eq_map]
    rfl
  | fromEnd info operand => exact (operand.lower_repeats hbuilder).positionFromEnd info
  | rangeAll info => exact Repeats.openRange (.pure [] rfl) info .rangeAll
  | rangeFrom info start =>
    exact ((start.lower_repeats hbuilder).positionOf start.info).singleton.openRange info
      .rangeStartAt
  | rangeUpTo info stop =>
    exact ((stop.lower_repeats hbuilder).positionOf stop.info).singleton.openRange info
      .rangeEndAt
  | rangeBetween info start stop =>
    exact ((start.lower_repeats hbuilder).positionOf start.info).closedRange
      ((stop.lower_repeats hbuilder).positionOf stop.info) info
  | access info node =>
    exact (node.lower_repeats hbuilder .read info.location).bind fun lowered =>
      valueOf_repeats again stem lowered
termination_by structural expr

/-- Expressions are lowered to the same code one by one. -/
theorem lowerAll_repeats (hbuilder : env.builder.OverlooksTemps) (exprs : List Source.Expr) :
    Repeats again env stem (List.map (Expr.renumber again)) (lowerAll exprs) (lowerAll exprs) := by
  cases exprs with
  | nil => exact .pure [] rfl
  | cons expr exprs =>
    exact (expr.lower_repeats hbuilder).bind fun _ =>
      (lowerAll_repeats hbuilder exprs).bind fun _ => .pure _ rfl
termination_by structural exprs

/-- An access is lowered to the same code, whatever was lowered before. Its receiver may be an
indexed property, which is read or fetched on the way. -/
theorem Source.Access.lower_repeats (hbuilder : env.builder.OverlooksTemps) (node : Source.Access)
    (mode : Mode) (site : Location) :
    Repeats again env stem (Lowered.renumber again) (node.lower mode site)
      (node.lower mode site) := by
  rw [node.lower_eq_lowerWith]
  refine CarriesOver.bind ?_ fun lowered => conclude_repeats again stem site lowered
  -- every kind of access ends alike, so only the steps before its end are compared
  cases node with
  | indexer receiver arguments indexer shape type =>
    have hreceiver : Repeats again env stem (Expr.renumber again)
        (receiver.indexerReceiver Source.Expr.lower)
        (receiver.indexerReceiver Source.Expr.lower) := by
      cases receiver with
      | indexedProperty info owner property =>
        exact (owner.lower_repeats hbuilder).readIndexedProperty property info.location
      | _ => exact Source.Expr.lower_repeats hbuilder _
    rw [Source.Access.lowerCore, ← lowerAll_eq_mapM]
    exact hreceiver.indexerAccess hbuilder (lowerAll_repeats hbuilder arguments) indexer shape _
      mode
  | dynamic receiver arguments candidates names refKinds type =>
    have hreceiver : Repeats again env stem (Expr.renumber again)
        (receiver.dynamicReceiver Source.Expr.lower)
        (receiver.dynamicReceiver Source.Expr.lower) := by
      cases receiver with
      | indexedProperty info owner property =>
        exact (owner.lower_repeats hbuilder).fetchIndexedProperty property info.location
      | _ => exact Source.Expr.lower_repeats hbuilder _
    rw [Source.Access.lowerCore, ← lowerAll_eq_mapM]
    exact hreceiver.dynamicAccess (lowerAll_repeats hbuilder arguments) candidates names refKinds
      _ mode
  | indexPattern receiver length intIndexer? argument type =>
    exact ((receiver.lower_repeats hbuilder).indexPattern hbuilder
      (argument.lower_repeats hbuilder) length intIndexer? _ mode).expectArgument .index
        argument.type
  | rangePattern receiver length slice argument type =>
    exact ((receiver.lower_repeats hbuilder).rangeAccess (argument.lower_repeats hbuilder) length
      slice _ mode).expectArgument .range argument.type
termination_by structural node

end

end Induction

/-- Lowering an access does not depend on what was lowered before. From any two counts, and with
any two stems, it goes alike: either it gives the same code, with every temporary moved by the
distance of the counts and named anew, or it ends with the same violation. Either way it hands out
as many temporaries. -/
theorem Source.Access.lower_forgets_history {env : Env} (hbuilder : env.builder.OverlooksTemps)
    (node : Source.Access) (mode : Mode) (site : Location) (stem : String)
    (first second : Allocator) :
    let again : Renumbering := ⟨second.allocated - first.allocated, second.stem⟩
    let run := (node.lower mode site).run env first
    let run' := (node.lower mode site).run (env.withStem stem) second
    Run.Renumbered again (Lowered.renumber again) run run' ∧
      run'.allocator.allocated - second.allocated = run.allocator.allocated - first.allocated := by
  intro again run run'
  have hsecond : first.renumber again = second := by
    have hraw : first.next.raw + (second.next.raw - first.next.raw) = second.next.raw := by
      rw [UInt32.add_comm, UInt32.sub_add_cancel]
    exact congrArg (fun raw => Allocator.mk ⟨raw⟩ second.stem) hraw
  have hrun : Run.Renumbered again (Lowered.renumber again) run run' := by
    have hrepeats : Repeats again env stem (Lowered.renumber again) (node.lower mode site)
        (node.lower mode site) := node.lower_repeats hbuilder mode site
    have hrenumbered := hrepeats.run_renumbered first
    rwa [hsecond] at hrenumbered
  refine ⟨hrun, ?_⟩
  have hallocated : run'.allocator.allocated =
      run.allocator.allocated + (second.allocated - first.allocated) :=
    congrArg Allocator.allocated hrun.allocator
  rw [hallocated]
  -- what lies between the counts cancels, whether or not they wrap around
  grind

/-- Two swapped calls are bound to the first two temporaries; lowered after seven others and with
another stem, they are bound to the eighth and the ninth, and the code is the same otherwise. -/
theorem Source.Access.lower_forgets_history_swapped_arguments :
    let node := Sample.swapped Sample.call Sample.call []
    let later : Allocator := ⟨⟨7⟩, "t"⟩
    ∃ code, ((node.lower .read .unknown).run Sample.env {}).outcome = .ok (.value code) ∧
      code.declared = [⟨0⟩, ⟨1⟩] ∧
      ((node.lower .read .unknown).run (Sample.env.withStem "t") later).outcome =
        .ok (.value (code.renumber ⟨7, "t"⟩)) ∧
      (code.renumber ⟨7, "t"⟩).declared = [⟨7⟩, ⟨8⟩] := by
  intro node later
  have hread : ((node.lower .read .unknown).run Sample.env {}).outcome = .ok (.value _) := rfl
  have hbuilder : Sample.env.builder.OverlooksTemps := ArgumentBuilder.literals_overlooksTemps
  obtain ⟨⟨houtcome, -⟩, -⟩ := lower_forgets_history hbuilder node .read .unknown "t" {} later
  have hdistance : later.allocated - Allocator.allocated {} = 7 := by decide
  rw [hread, hdistance] at houtcome
  exact ⟨_, hread, by decide, houtcome.of_ok, by decide⟩

end Subscript
