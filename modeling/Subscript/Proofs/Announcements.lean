import Subscript.Proofs.Steps

/-!
# Announced candidates

Lowering announces the candidates of every dynamic access, so that their metadata can be embedded.
Dynamic accesses may stand anywhere inside an access, and their code may be moved into stores and
past each other afterwards. What is announced follows the tree alone: each dynamic access in it
announces its own candidates in their order, ahead of everything inside it, and otherwise operands
are gone through from left to right.

## Architecture

- §1 `announcements`, the candidates in a tree
- §2 `announced`, what a run announces
- §3 `Announces` and how it is composed
- §4 steps that announce nothing
- §5 accesses whose operands announce something
- §6 the induction over expressions and accesses
-/

namespace Subscript

open Code (Allocator Binding Expr Holding Lowered)
open Source (Mode)

/-! ## §1 Candidates in a tree -/

/-- A candidate of a dynamic access, and where the access stands. -/
structure Candidate where
  /-- the indexer that may apply -/
  symbol : SymbolId
  /-- the place of the access -/
  site : Location
  deriving DecidableEq

mutual

/-- The candidates of all dynamic accesses in an expression. -/
def Source.Expr.announcements : Source.Expr → List Candidate
  | .literal _ _ | .var _ _ | .self _ | .rangeAll _ => []
  | .field _ object _ => object.announcements
  | .property _ object _ => object.announcements
  | .indexedProperty _ object _ => object.announcements
  | .call _ receiver _ arguments => receiver.announcements ++ announcementsAll arguments
  | .staticCall _ _ arguments => announcementsAll arguments
  | .fromEnd _ operand => operand.announcements
  | .rangeFrom _ start => start.announcements
  | .rangeUpTo _ stop => stop.announcements
  | .rangeBetween _ start stop => start.announcements ++ stop.announcements
  | .access info node => node.announcements info.location
termination_by structural expr => expr

/-- The candidates in expressions, from left to right. -/
def announcementsAll : List Source.Expr → List Candidate
  | [] => []
  | expr :: exprs => expr.announcements ++ announcementsAll exprs
termination_by structural exprs => exprs

/-- The candidates in an access at a place: its own come first. -/
def Source.Access.announcements : Source.Access → Location → List Candidate
  | .indexer receiver arguments _ _ _, _ => receiver.announcements ++ announcementsAll arguments
  | .dynamic receiver arguments candidates _ _ _, site =>
    candidates.map (⟨·, site⟩) ++ (receiver.announcements ++ announcementsAll arguments)
  | .indexPattern receiver _ _ argument _, _ => receiver.announcements ++ argument.announcements
  | .rangePattern receiver _ _ argument _, _ => receiver.announcements ++ argument.announcements
termination_by structural node => node

end

/-! ## §2 What a run announces -/

/-- Metadata that is asked for: a property of a type, for an access at a place. -/
structure Embedding where
  /-- the type that declares the property -/
  declaringType : TypeId
  /-- the property -/
  candidate : SymbolId
  /-- the place of the access -/
  site : Location
  deriving DecidableEq

/-- The announcement in an event, if it is one. -/
def Event.embedding? : Event → Option Embedding
  | .embed declaringType candidate site => some ⟨declaringType, candidate, site⟩
  | _ => none

/-- What is announced in a run, in order and each time that it is. -/
def announced (events : List Event) : List Embedding := events.filterMap Event.embedding?

/-- What has to be announced for a candidate: the property with the type that declares it. -/
def SymbolTable.embedding? (symbols : SymbolTable) (candidate : Candidate) : Option Embedding :=
  (symbols.property? candidate.symbol).map fun property =>
    ⟨property.declaringType, candidate.symbol, candidate.site⟩

namespace Lowering

/-! ## §3 Announcing -/

section Announces

variable {α β : Type} {env : Env} {candidates candidates' : List Candidate}

/-- Whenever a lowering succeeds, it has announced exactly the given candidates, all of which are
properties, in their order. -/
def Announces (env : Env) (lowering : Lowering α) (candidates : List Candidate) : Prop :=
  ∀ allocator result rest events,
    lowering.run env allocator = ⟨.ok result, rest, events⟩ →
      (announced events).map some = candidates.map env.symbols.embedding?

/-- A value that is there already announces nothing. -/
theorem Announces.pure (value : α) : Announces env (Pure.pure value) [] := by
  intro allocator result rest events hrun
  obtain ⟨-, -, rfl⟩ := Run.mk.inj hrun
  rfl

/-- What fails announces whatever one likes: only runs that succeed are spoken of. -/
theorem Announces.fail (violation : Violation) (candidates : List Candidate) :
    Announces env (Lowering.fail violation : Lowering α) candidates := by
  intro allocator result rest events hrun
  cases (Run.mk.inj hrun).1

/-- The second step is run with a value that the first one yields. -/
theorem Announces.bind_of_yields {first : Lowering α} {next : α → Lowering β}
    (h : Announces env first candidates)
    (h' : ∀ value allocator rest, first.Yields env allocator value rest →
      Announces env (next value) candidates') :
    Announces env (first >>= next) (candidates ++ candidates') := by
  intro allocator result rest events hrun
  obtain ⟨value, middle, earlier, later, hfirst, hnext, rfl⟩ := run_bind_eq_ok_iff.mp hrun
  rw [announced, List.filterMap_append, List.map_append, List.map_append]
  congr 1
  · exact h allocator value middle earlier hfirst
  · exact h' value allocator middle ⟨earlier, hfirst⟩ middle result rest later hnext

/-- Steps in a row announce what both do, in their order. -/
theorem Announces.bind {first : Lowering α} {next : α → Lowering β}
    (h : Announces env first candidates) (h' : ∀ value, Announces env (next value) candidates') :
    Announces env (first >>= next) (candidates ++ candidates') :=
  h.bind_of_yields fun value _ _ _ => h' value

/-- A lowering that announces nothing. -/
abbrev Quiet (env : Env) (lowering : Lowering α) : Prop := Announces env lowering []

/-- A step that announces nothing may come first. -/
theorem Announces.behind {first : Lowering α} {next : α → Lowering β} (h : Quiet env first)
    (h' : ∀ value, Announces env (next value) candidates) :
    Announces env (first >>= next) candidates :=
  h.bind h'

/-- A step that announces nothing may come last. -/
theorem Announces.ahead {first : Lowering α} {next : α → Lowering β}
    (h : Announces env first candidates) (h' : ∀ value, Quiet env (next value)) :
    Announces env (first >>= next) candidates :=
  List.append_nil candidates ▸ h.bind h'

/-- Reading the tables announces nothing, and what follows may depend on them. -/
theorem Announces.environment {next : Env → Lowering α}
    (h : Announces env (next env) candidates) :
    Announces env (Lowering.environment >>= next) candidates := h

/-- A choice announces what its branches agree on. -/
theorem Announces.ite {condition : Prop} [Decidable condition] {first second : Lowering α}
    (h : Announces env first candidates) (h' : Announces env second candidates) :
    Announces env (if condition then first else second) candidates := by
  split
  · exact h
  · exact h'

/-! ## §4 Quiet steps -/

/-- The same run once more, in which nothing that is announced may be reported. -/
def unannounced : Transport where
  toTranslation := .identity
  options := id
  allocator := id
  violations _ _ := True
  events event _ := event.embedding? = none
  bind := Code.Translation.bind_identity
  violation_self _ _ := trivial
  event_self event h := by
    cases event with
    | embed type candidate site => exact absurd rfl (h type candidate site)
    | _ => rfl

/-- No announcement comes from the builder, so any builder goes along. -/
private theorem unannounced_suits (builder : ArgumentBuilder) : unannounced.Suits builder :=
  Transport.suits_of_identity rfl (fun _ => trivial) builder

/-- What carries over although nothing may be announced announces nothing. The second setting is
the first one; all that the transport adds is that it has no counterpart for an announcement. -/
theorem Quiet.of_carriesOver {image : α → β} {step : Lowering α} {step' : Lowering β}
    (h : CarriesOver unannounced env image step step') : Quiet env step := by
  intro allocator result rest events hrun
  have hnone {events events' : List Event} (h : List.Forall₂ unannounced.events events events') :
      announced events = [] := by
    induction h with
    | nil => rfl
    | cons hevent _ ih => exact (List.filterMap_cons_none hevent).trans ih
  have hevents := (h allocator).events
  rw [hrun] at hevents
  rw [hnone hevents]
  rfl

/-- An event that is no announcement may be reported. -/
theorem Quiet.report {event : Event} (h : event.embedding? = none) :
    Quiet env (Lowering.report event) := by
  have hreport : CarriesOver unannounced env id (Lowering.report event) (Lowering.report event) :=
    .report h
  exact .of_carriesOver hreport

theorem Quiet.libraryMember (member : WellKnown.Member) :
    Quiet env (Lowering.libraryMember member) :=
  .of_carriesOver (libraryMember_carriesOver _ env member)

theorem Quiet.methodOf (symbol : SymbolId) : Quiet env (Lowering.methodOf symbol) :=
  .of_carriesOver (methodOf_carriesOver _ env symbol)

theorem Quiet.indexerOf (symbol : SymbolId) : Quiet env (Lowering.indexerOf symbol) :=
  .of_carriesOver (indexerOf_carriesOver _ env symbol)

theorem Quiet.readMember (object : Expr) (member : SymbolId) (site : Location) :
    Quiet env (Lowering.readMember object member site) :=
  .of_carriesOver (readMember_carriesOver _ env object member site)

/-- Filling in arguments is reported, but nothing is announced for it. -/
theorem Quiet.indexerElement (receiver : Expr) (indexer : SymbolId) (arguments : List Expr)
    (shape : CallShape) (info : Info) (mode : Mode) :
    Quiet env (Lowering.indexerElement receiver indexer arguments shape info mode) :=
  .of_carriesOver (indexerElement_carriesOver _ (unannounced_suits env.builder) receiver indexer
    arguments shape info mode)

theorem Quiet.measure (receiver : Expr) (holding : Holding) (length : SymbolId)
    (site : Location) : Quiet env (Lowering.measure receiver holding length site) :=
  .of_carriesOver (measure_carriesOver _ receiver holding length site)

theorem Quiet.accessAt (object size : Binding) (position : Expr)
    (intIndexer? : Option SymbolId) (info : Info) (mode : Mode) :
    Quiet env (Lowering.accessAt object size position intIndexer? info mode) :=
  .of_carriesOver (accessAt_carriesOver _ (unannounced_suits env.builder) object size position
    intIndexer? info mode)

theorem Quiet.sliceAt (object size : Binding) (value : Expr) (slice : SymbolId)
    (info : Info) :
    Quiet env (Lowering.sliceAt object size value slice info) :=
  .of_carriesOver (sliceAt_carriesOver _ object size value slice info)

/-- The check and the reports at the end of an access announce nothing. -/
theorem Quiet.conclude (site : Location) (lowered : Lowered) :
    Quiet env (Lowering.conclude site lowered) := by
  have hvalidate : Quiet env (validate lowered) := .environment (.ite (.fail _ _) (.pure _))
  have hallocated : Quiet env allocated := .of_carriesOver (CarriesOver.allocated id fun _ => rfl)
  have hfinish : Quiet env (allocated >>= fun count =>
      Lowering.report (.finished site count) >>= fun _ => Pure.pure lowered) :=
    hallocated.behind fun _ => (Quiet.report rfl).behind fun _ => .pure _
  refine hvalidate.behind fun _ => .environment ?_
  exact .ite ((Quiet.report rfl).behind fun _ => hfinish) hfinish

/-- A value is taken out of an access in silence. -/
theorem Quiet.valueOf (lowered : Lowered) : Quiet env (Lowering.valueOf lowered) := by
  cases lowered with
  | value expr => exact .pure expr
  | target => exact .fail _ _

end Announces

/-! ## §5 Operands that announce something -/

section Operands

variable {env : Env} {receiver argument object operand start stop : Lowering Expr}
  {arguments bounds : Lowering (List Expr)} {candidates candidates' : List Candidate}

/-- A property is announced with the type that declares it. -/
private theorem embed_announces {symbol : SymbolId} {property : Property}
    (hproperty : env.symbols.property? symbol = some property) (site : Location) :
    Announces env (report (.embed property.declaringType symbol site)) [⟨symbol, site⟩] := by
  intro allocator result rest events hrun
  obtain ⟨-, -, rfl⟩ := Run.mk.inj hrun
  rw [List.map_singleton, SymbolTable.embedding?, hproperty]
  rfl

/-- Every candidate of a dynamic access is announced, once for each time that it is listed. -/
private theorem announce_announces (site : Location) (symbols : List SymbolId) :
    Announces env (announce site symbols) (symbols.map (⟨·, site⟩)) := by
  induction symbols with
  | nil => exact .pure ()
  | cons symbol symbols ih =>
    refine (Quiet.indexerOf symbol).bind_of_yields fun property _ _ hyields => ?_
    have hproperty := (indexerOf_yields_iff.mp hyields).1
    exact (embed_announces hproperty site).bind fun _ => ih

/-- An access through an indexer announces what its receiver and its arguments do. -/
theorem Announces.indexerAccess (hreceiver : Announces env receiver candidates)
    (harguments : Announces env arguments candidates') (indexer : SymbolId) (shape : CallShape)
    (info : Info) (mode : Mode) :
    Announces env (Lowering.indexerAccess receiver arguments indexer shape info mode)
      (candidates ++ candidates') :=
  hreceiver.bind fun _ => harguments.ahead fun _ => Quiet.indexerElement _ _ _ _ _ _

private theorem Announces.readIndexedProperty (hobject : Announces env object candidates)
    (property : SymbolId) (site : Location) :
    Announces env (Lowering.readIndexedProperty object property site) candidates :=
  .environment ((Quiet.report rfl).behind fun _ =>
    hobject.ahead fun _ => Quiet.readMember _ _ _)

private theorem Announces.fetchIndexedProperty (hobject : Announces env object candidates)
    (property : SymbolId) (site : Location) :
    Announces env (Lowering.fetchIndexedProperty object property site) candidates :=
  hobject.ahead fun _ => .environment ((Quiet.report rfl).behind fun _ => .pure _)

/-- A dynamic access announces its own candidates first, before anything in its receiver or its
arguments. -/
theorem Announces.dynamicAccess (hreceiver : Announces env receiver candidates)
    (harguments : Announces env arguments candidates') (symbols : List SymbolId)
    (names : List (Option String)) (refKinds : List RefKind) (info : Info) (mode : Mode) :
    Announces env (Lowering.dynamicAccess receiver arguments symbols names refKinds info mode)
      (symbols.map (⟨·, info.location⟩) ++ (candidates ++ candidates')) := by
  rw [dynamicAccess_eq]
  refine (announce_announces info.location symbols).bind fun _ => ?_
  exact hreceiver.bind fun _ => harguments.ahead fun _ => .pure _

/-- The position is lowered after the receiver, although its length is read in between. -/
theorem Announces.indexPattern (hreceiver : Announces env receiver candidates)
    (hargument : Announces env argument candidates') (length : SymbolId)
    (intIndexer? : Option SymbolId) (info : Info) (mode : Mode) :
    Announces env (Lowering.indexPattern receiver argument length intIndexer? info mode)
      (candidates ++ candidates') := by
  rw [indexPattern_eq]
  refine hreceiver.bind fun value => .environment ?_
  refine (Quiet.measure _ _ _ _).behind fun measured => ?_
  exact hargument.ahead fun _ => Quiet.accessAt _ _ _ _ _ _

/-- An access by range announces what its receiver and its range do; whether it is refused as a
target is found out only afterwards. -/
theorem Announces.rangeAccess (hreceiver : Announces env receiver candidates)
    (hargument : Announces env argument candidates') (length slice : SymbolId) (info : Info)
    (mode : Mode) :
    Announces env (Lowering.rangeAccess receiver argument length slice info mode)
      (candidates ++ candidates') := by
  cases mode with
  | write => exact .fail _ _
  | read =>
    have hpattern : Announces env (rangePattern receiver argument length slice info)
        (candidates ++ candidates') := by
      rw [rangePattern_eq]
      refine (Quiet.methodOf slice).behind fun method => .ite (.fail _ _) ?_
      refine hreceiver.bind fun value => (Quiet.measure _ _ _ _).behind fun measured => ?_
      exact hargument.ahead fun _ => Quiet.sliceAt _ _ _ _ _
    exact hpattern.ahead fun _ => .pure _

private theorem Announces.expectArgument {pattern : Lowering Lowered}
    (h : Announces env pattern candidates) (expected : TypeKind) (found : TypeId) :
    Announces env (Lowering.expectArgument expected found pattern) candidates :=
  .environment (.ite h (.fail _ _))

private theorem Announces.positionFromEnd (hoperand : Announces env operand candidates)
    (info : Info) :
    Announces env (Lowering.positionFromEnd info operand) candidates :=
  (Quiet.libraryMember _).behind fun _ => hoperand.ahead fun _ => .environment (.pure _)

/-- A bound is converted in silence. -/
private theorem Announces.positionOf (hoperand : Announces env operand candidates) (bound : Info) :
    Announces env (Lowering.positionOf bound operand) candidates :=
  hoperand.ahead fun _ =>
    .environment (.ite ((Quiet.libraryMember _).behind fun _ => .pure _) (.pure _))

private theorem Announces.openRange (hbounds : Announces env bounds candidates) (info : Info)
    (member : WellKnown.Member) :
    Announces env (Lowering.openRange info member bounds) candidates :=
  (Quiet.libraryMember _).behind fun _ => hbounds.ahead fun _ => .pure _

private theorem Announces.closedRange (hstart : Announces env start candidates)
    (hstop : Announces env stop candidates') (info : Info) :
    Announces env (Lowering.closedRange info start stop) (candidates ++ candidates') :=
  (Quiet.libraryMember _).behind fun _ => hstart.bind fun _ => hstop.ahead fun _ => .pure _

end Operands

end Lowering

/-! ## §6 Expressions and accesses -/

open Lowering

section Induction

variable {env : Env}

mutual

/-- Lowering an expression announces its candidates. No operand is lowered twice, so nothing is
announced twice. -/
theorem Source.Expr.lower_announces (expr : Source.Expr) :
    Announces env expr.lower expr.announcements := by
  cases expr with
  | literal info value => exact .pure _
  | var info symbol => exact .pure _
  | self info => exact .pure _
  | field info object field => exact object.lower_announces.ahead fun _ => .pure _
  -- a getter is looked up in silence, and so is a method
  | property info object property =>
    exact object.lower_announces.ahead fun _ => Quiet.readMember _ _ _
  | indexedProperty info object property => exact .fail _ _
  | call info receiver method arguments =>
    refine receiver.lower_announces.bind fun _ => (lowerAll_announces arguments).ahead fun _ => ?_
    exact (Quiet.methodOf method).behind fun _ => .pure _
  | staticCall info method arguments =>
    refine (lowerAll_announces arguments).ahead fun _ => ?_
    exact (Quiet.methodOf method).behind fun _ => .pure _
  | fromEnd info operand => exact operand.lower_announces.positionFromEnd info
  | rangeAll info => exact (Announces.pure []).openRange info .rangeAll
  -- only the bounds of a range may announce something
  | rangeFrom info start =>
    have hstart := start.lower_announces.positionOf start.info
    exact (hstart.ahead fun _ => .pure _).openRange info .rangeStartAt
  | rangeUpTo info stop =>
    have hstop := stop.lower_announces.positionOf stop.info
    exact (hstop.ahead fun _ => .pure _).openRange info .rangeEndAt
  | rangeBetween info start stop =>
    have hstart := start.lower_announces.positionOf start.info
    have hstop := stop.lower_announces.positionOf stop.info
    exact hstart.closedRange hstop info
  -- a nested access announces what it does anywhere else
  | access info node =>
    exact (node.lower_announces .read info.location).ahead fun _ => Quiet.valueOf _
termination_by structural expr

/-- Expressions that are lowered one by one announce their candidates from left to right. -/
theorem lowerAll_announces (exprs : List Source.Expr) :
    Announces env (lowerAll exprs) (announcementsAll exprs) := by
  cases exprs with
  | nil => exact .pure _
  | cons expr exprs =>
    exact expr.lower_announces.bind fun _ => (lowerAll_announces exprs).ahead fun _ => .pure _
termination_by structural exprs

/-- Lowering an access announces its candidates in pre-order, whatever the access is wanted for.
The check at its end and the bindings in front of the element announce nothing. -/
theorem Source.Access.lower_announces (node : Source.Access) (mode : Mode) (site : Location) :
    Announces env (node.lower mode site) (node.announcements site) := by
  rw [node.lower_eq_lowerWith]
  refine Announces.ahead ?_ fun lowered => Quiet.conclude site lowered
  cases node with
  | indexer receiver arguments indexer shape type =>
    -- an indexed property is read here and nowhere else; it is no expression by itself
    have hreceiver : Announces env (receiver.indexerReceiver Source.Expr.lower)
        receiver.announcements := by
      cases receiver with
      | indexedProperty info object property =>
        exact object.lower_announces.readIndexedProperty property info.location
      | _ => exact Source.Expr.lower_announces _
    rw [Source.Access.lowerCore, ← lowerAll_eq_mapM]
    exact hreceiver.indexerAccess (lowerAll_announces arguments) indexer shape ⟨type, site⟩ mode
  -- its own candidates come first, then those of the receiver and of the arguments
  | dynamic receiver arguments candidates names refKinds type =>
    have hreceiver : Announces env (receiver.dynamicReceiver Source.Expr.lower)
        receiver.announcements := by
      cases receiver with
      | indexedProperty info object property =>
        exact object.lower_announces.fetchIndexedProperty property info.location
      | _ => exact Source.Expr.lower_announces _
    rw [Source.Access.lowerCore, ← lowerAll_eq_mapM]
    exact hreceiver.dynamicAccess (lowerAll_announces arguments) candidates names refKinds
      ⟨type, site⟩ mode
  | indexPattern receiver length intIndexer? argument type =>
    exact (receiver.lower_announces.indexPattern argument.lower_announces length intIndexer?
      ⟨type, site⟩ mode).expectArgument .index argument.type
  | rangePattern receiver length slice argument type =>
    exact (receiver.lower_announces.rangeAccess argument.lower_announces length slice
      ⟨type, site⟩ mode).expectArgument .range argument.type
termination_by structural node

end

end Induction

/-- Whenever an access is lowered, exactly the candidates of the dynamic accesses in it have been
announced, in the order of the tree, each with the type that declares it and the place of its
access. Another run announces the same: what the access is wanted for, how arguments are spelled and
bound, and which temporaries are free make no difference. -/
theorem Source.Access.lower_announces_candidates {env : Env} (node : Source.Access) {mode : Mode}
    {site : Location} {allocator rest : Allocator} {lowered : Lowered} {events : List Event}
    (hrun : (node.lower mode site).run env allocator = ⟨.ok lowered, rest, events⟩) :
    (announced events).map some = (node.announcements site).map env.symbols.embedding? ∧
      ∀ env' mode' allocator' lowered' rest' events', env'.symbols = env.symbols →
        (node.lower mode' site).run env' allocator' = ⟨.ok lowered', rest', events'⟩ →
          announced events' = announced events := by
  have hannounced := node.lower_announces mode site _ _ _ _ hrun
  refine ⟨hannounced, ?_⟩
  intro env' mode' allocator' lowered' rest' events' hsymbols hrun'
  have hannounced' := node.lower_announces mode' site _ _ _ _ hrun'
  rw [hsymbols, ← hannounced] at hannounced'
  exact (List.map_inj_right fun _ _ => Option.some.inj).mp hannounced'

/-- A dynamic access with a candidate that is listed twice, whose receiver is one with a candidate
of its own: the outer access announces its candidates first, whether it is written or read. -/
theorem Source.Access.lower_announces_candidates_of_nested_access :
    let place : Location := ⟨0, 4, 12, 73⟩
    let inner : Source.Access := .dynamic (.self Sample.info) [] [⟨0⟩] [] [] .invalid
    let node : Source.Access :=
      .dynamic (.access ⟨.invalid, place⟩ inner) [Sample.call] [⟨0⟩, ⟨0⟩] [] [] .invalid
    ∃ lowered rest events lowered' rest' events',
      (node.lower .write .unknown).run Sample.env {} = ⟨.ok lowered, rest, events⟩ ∧
        announced events = [⟨.invalid, ⟨0⟩, .unknown⟩, ⟨.invalid, ⟨0⟩, .unknown⟩,
          ⟨.invalid, ⟨0⟩, place⟩] ∧
          (node.lower .read .unknown).run Sample.env {} = ⟨.ok lowered', rest', events'⟩ ∧
            announced events' = announced events := by
  intro place inner node
  have hwrite : (node.lower .write .unknown).run Sample.env {} = ⟨.ok _, _, _⟩ := rfl
  have hread : (node.lower .read .unknown).run Sample.env {} = ⟨.ok _, _, _⟩ := rfl
  obtain ⟨hannounced, hsame⟩ := node.lower_announces_candidates hwrite
  refine ⟨_, _, _, _, _, _, hwrite, ?_, hread, hsame _ _ _ _ _ _ rfl hread⟩
  exact (List.map_inj_right fun _ _ => Option.some.inj).mp hannounced

end Subscript
