import Mathlib.Data.List.Flatten
import Subscript.Lowering.Session
import Subscript.Proofs.SelfContained

/-!
# The temporaries of a session

Accesses and expressions are lowered one after the other in one session, and the options may change
in between. Every output declares exactly the temporaries that were handed out for it and reads all
of them; no two outputs of a session share a temporary, and temporaries named by the same stem have
different names.

## Architecture

- §1 `Session.steps`, what is done in a session
- §2 `Session.Accounted`, what is known of the temporaries of all outputs
- §3 one step
- §4 a whole session
-/

namespace Subscript

open Code (Allocator Lowered Temp)
open Lowering
open Source (Mode)

namespace Session

/-! ## §1 Steps -/

/-- Something that is done in a session. -/
inductive Step where
  /-- an access is lowered -/
  | access (node : Source.Access) (mode : Mode) (site : Location)
  /-- an expression is lowered -/
  | expression (expr : Source.Expr)
  /-- the options change -/
  | options (options : Options)

/-- The output of a step that lowers something, and the session in front of it and behind it. -/
structure Entry where
  /-- the session before the step -/
  before : Session
  /-- what the step lowers -/
  output : Lowered
  /-- the session after the step -/
  after : Session

/-- Lower something, unless that ends with a violation. -/
def lowers (session : Session) (lowering : Lowering Lowered) :
    Except Violation (List Entry × Session) :=
  match session.run lowering with
  | (.ok output, _, after) => .ok ([⟨session, output, after⟩], after)
  | (.error violation, _, _) => .error violation

/-- Do one step. -/
def step (session : Session) : Step → Except Violation (List Entry × Session)
  | .access node mode site => session.lowers (node.lower mode site)
  | .expression expr => session.lowers do return .value (← expr.lower)
  | .options options => .ok ([], session.withOptions options)

/-- Do steps one after the other, until one ends with a violation. -/
def steps (session : Session) : List Step → Except Violation (List Entry × Session)
  | [] => .ok ([], session)
  | first :: later => do
    let (entries, middle) ← session.step first
    let (entries', last) ← middle.steps later
    return (entries ++ entries', last)

/-! ## §2 Accounts -/

/-- An output declares exactly the temporaries handed out for it, each once, reads all of them, and
names them by the stem in force. -/
structure Entry.Accounted (entry : Entry) : Prop where
  /-- nothing is declared twice -/
  nodup : entry.output.declared.Nodup
  /-- what is declared are the numbers from the count before the step up to the count after it -/
  range : ∀ id : TempId, id ∈ entry.output.declared ↔
    entry.before.allocator.allocated ≤ id.raw ∧ id.raw < entry.after.allocator.allocated
  /-- nothing is declared in vain -/
  read : ∀ id ∈ entry.output.declared, id ∈ entry.output.reads
  /-- a name is the stem of the options followed by the number -/
  named : ∀ temp ∈ entry.output.temps, temp.NamedBy entry.before.env.options.stem

/-- The temporaries declared in some outputs. -/
def declaredIn (entries : List Entry) : List TempId := entries.flatMap (·.output.declared)

/-- The outputs of a session, accounted for one by one and all together. -/
structure Accounted (entries : List Entry) : Prop where
  /-- each output by itself -/
  each : ∀ entry ∈ entries, entry.Accounted
  /-- no two outputs share a temporary -/
  nodup : (declaredIn entries).Nodup
  /-- no temporary is the reserved one -/
  valid : ∀ id ∈ declaredIn entries, id.isValid = true
  /-- under one stem, different temporaries have different names -/
  names : ∀ stem : String,
    (((entries.filter fun entry => entry.before.env.options.stem = stem).flatMap
      (·.output.temps)).map (·.name)).Nodup

/-! ## §3 One step -/

/-- A session that spells arguments out as literals and names temporaries as its options say. -/
structure Plain (session : Session) : Prop where
  literals : session.env.builder = .literals
  stem : session.allocator.stem = session.env.options.stem

private theorem plain_start (symbols : SymbolTable) (types : TypeTable)
    (members : WellKnown.Registry) :
    (start symbols types members).Plain := ⟨rfl, rfl⟩

/-- What some entries are known to be after they were made between two sessions. -/
structure Made (session : Session) (entries : List Entry) (last : Session) : Prop where
  plain : last.Plain
  handsOut : session.allocator.HandsOut (declaredIn entries)
    (last.allocator.withStem session.allocator.stem)
  each : session.allocator.HasRoom (declaredIn entries).length →
    ∀ entry ∈ entries, entry.Accounted

section Made

variable {session middle last : Session} {entries entries' : List Entry}

theorem Made.nil (h : session.Plain) : session.Made [] session :=
  ⟨h, .nil session.allocator, fun _ _ hentry => absurd hentry List.not_mem_nil⟩

/-- What an allocator hands out does not depend on its stem. -/
private theorem handsOut_withStem {allocator rest : Allocator} {ids : List TempId}
    (h : allocator.HandsOut ids rest) (stem : String) :
    (allocator.withStem stem).HandsOut ids (rest.withStem stem) := by
  refine ⟨h.perm, ?_⟩
  rw [h.rest_eq]
  rfl

/-- What is made in one part of a session and in the next is made in both together. -/
theorem Made.append (h : session.Made entries middle) (h' : middle.Made entries' last) :
    session.Made (entries ++ entries') last := by
  have hrest := handsOut_withStem h'.handsOut session.allocator.stem
  have hids : declaredIn (entries ++ entries') = declaredIn entries ++ declaredIn entries' :=
    List.flatMap_append
  refine ⟨h'.plain, ?_, ?_⟩
  · rw [hids]
    exact h.handsOut.append hrest
  · intro hroom entry hentry
    rw [hids, List.length_append] at hroom
    rcases List.mem_append.mp hentry with hentry | hentry
    · exact h.each (hroom.mono (Nat.le_add_right _ _)) entry hentry
    -- the later steps have the room that the earlier ones leave
    · exact h'.each (h.handsOut.hasRoom hroom) entry hentry

/-- A self-contained output is accounted for. -/
theorem made_of_selfContained (h : session.Plain) {output : Lowered} {rest : Allocator}
    (hself : SelfContained session.allocator output rest) :
    session.Made [⟨session, output, { session with allocator := rest }⟩]
      { session with allocator := rest } := by
  have hids : declaredIn [⟨session, output, { session with allocator := rest }⟩] =
      output.declared := List.flatMap_singleton ..
  have hstem := hself.handsOut.stem_eq
  refine ⟨⟨h.literals, hstem.trans h.stem⟩, ?_, ?_⟩
  · rw [hids, ← hstem]
    exact hself.handsOut
  · intro hroom entry hentry
    obtain rfl := List.mem_singleton.mp hentry
    rw [hids] at hroom
    exact ⟨hself.handsOut.nodup hroom, fun id => hself.handsOut.mem_iff hroom, hself.read,
      h.stem ▸ hself.named⟩

/-- A lowering that succeeds makes one entry and moves the allocator, and nothing else of the
session. -/
private theorem lowers_eq_ok {lowering : Lowering Lowered}
    (h : session.lowers lowering = .ok (entries, last)) :
    ∃ output rest, lowering.Yields session.env session.allocator output rest ∧
      last = { session with allocator := rest } ∧ entries = [⟨session, output, last⟩] := by
  simp only [lowers, run] at h
  cases hrun : lowering.run session.env session.allocator with
  | mk outcome rest events =>
    rw [hrun] at h
    cases outcome with
    | error violation => cases h
    | ok output =>
      cases h
      exact ⟨output, rest, ⟨events, hrun⟩, rfl, rfl⟩

/-- One step of a session leaves it plain, and its outputs are made of the temporaries handed out.
-/
theorem step_made (h : session.Plain) {first : Step}
    (hstep : session.step first = .ok (entries, middle)) : session.Made entries middle := by
  cases first with
  | access node mode site =>
    obtain ⟨output, rest, hyields, rfl, rfl⟩ := lowers_eq_ok hstep
    exact made_of_selfContained h (node.lower_selfContained h.literals hyields)
  | expression expr =>
    obtain ⟨output, rest, hyields, rfl, rfl⟩ := lowers_eq_ok hstep
    simp only [yields_bind_iff, yields_pure_iff] at hyields
    obtain ⟨value, _, hvalue, rfl, rfl⟩ := hyields
    exact made_of_selfContained h (expr.lower_selfContained h.literals hvalue)
  | options options =>
    cases hstep
    -- the number of the next temporary stays, and the stem is that of the options again
    exact ⟨⟨h.literals, rfl⟩, .nil session.allocator,
      fun _ _ hentry => absurd hentry List.not_mem_nil⟩

end Made

/-! ## §4 Whole sessions -/

/-- A session that succeeds succeeds step by step. The later steps start where the first one left
the session, and their entries are listed behind its own. -/
theorem steps_cons_eq_ok {session last : Session} {first : Step} {later : List Step}
    {entries : List Entry} (h : session.steps (first :: later) = .ok (entries, last)) :
    ∃ entries' middle entries'', session.step first = .ok (entries', middle) ∧
      middle.steps later = .ok (entries'', last) ∧ entries = entries' ++ entries'' := by
  rw [steps] at h
  cases hfirst : session.step first with
  | error violation =>
    rw [hfirst] at h
    cases h
  | ok made =>
    rw [hfirst] at h
    -- the first step succeeds, so all depends on the later ones
    obtain ⟨entries', middle⟩ := made
    cases hlater : middle.steps later with
    | error violation =>
      simp only [bind, Except.bind, hlater] at h
      cases h
    | ok made =>
      simp only [bind, Except.bind, hlater, pure, Except.pure] at h
      cases h
      exact ⟨entries', middle, made.1, rfl, hlater, rfl⟩

/-- Whatever is done in a session, its outputs are made of the temporaries handed out: by
induction over the steps, each of which starts where the one before it stopped. -/
theorem steps_made {session last : Session} (h : session.Plain) {todo : List Step}
    {entries : List Entry} (hsteps : session.steps todo = .ok (entries, last)) :
    session.Made entries last := by
  induction todo generalizing session entries with
  | nil =>
    cases hsteps
    exact .nil h
  | cons first later ih =>
    obtain ⟨entries', middle, entries'', hfirst, hlater, rfl⟩ := steps_cons_eq_ok hsteps
    have hmade := step_made h hfirst
    exact hmade.append (ih hmade.plain hlater)

/-- Temporaries with different numbers have different names if one stem names all of them. -/
private theorem nodup_names {stem : String} {temps : List Temp} (hnodup : (temps.map (·.id)).Nodup)
    (hnamed : ∀ temp ∈ temps, temp.NamedBy stem) : (temps.map (·.name)).Nodup := by
  apply List.Nodup.map_on _ hnodup.of_map
  intro temp htemp temp' htemp' hname
  have hid := (hnamed temp htemp).id_eq (hnamed temp' htemp') hname
  exact List.inj_on_of_nodup_map hnodup htemp htemp' hid

private theorem map_id_temps (entries : List Entry) :
    (entries.flatMap (·.output.temps)).map (·.id) = declaredIn entries := by
  rw [List.map_flatMap, declaredIn]
  congr 1
  funext entry
  exact entry.output.declared_eq_map_temps.symm

/-- In a session with fewer temporaries than there are valid identifiers, all outputs are accounted
for, whatever is lowered and however the options change. -/
theorem steps_accounted {symbols : SymbolTable} {types : TypeTable} {members : WellKnown.Registry}
    {todo : List Step} {entries : List Entry} {last : Session}
    (hsteps : (start symbols types members).steps todo = .ok (entries, last))
    (htotal : (declaredIn entries).length < UInt32.size - 1) : Accounted entries := by
  have hmade := steps_made (plain_start symbols types members) hsteps
  have hroom : (start symbols types members).allocator.HasRoom (declaredIn entries).length := by
    show 0 + (declaredIn entries).length < UInt32.size
    omega
  have hnodup := hmade.handsOut.nodup hroom
  have heach := hmade.each hroom
  refine ⟨heach, hnodup, ?_, ?_⟩
  · intro id hid
    -- the session starts counting at zero, so it never arrives at the reserved identifier
    have hlt := (hmade.handsOut.bounds hroom hid).2
    have hzero : (start symbols types members).allocator.next.raw.toNat = 0 := rfl
    apply id.isValid_iff_ne_invalid.mpr
    rintro rfl
    have hinvalid : (Id.invalid : TempId).raw.toNat = UInt32.size - 1 := rfl
    omega
  · intro stem
    apply nodup_names
    · rw [map_id_temps]
      exact hnodup.sublist (List.filter_sublist.flatMap _)
    · intro temp htemp
      obtain ⟨entry, hentry, htemp⟩ := List.mem_flatMap.mp htemp
      obtain ⟨hentry, hstem⟩ := List.mem_filter.mp hentry
      have hnamed := (heach entry hentry).named temp htemp
      rwa [of_decide_eq_true hstem] at hnamed

/-- A read, a change of the stem and an expression, with two bound arguments each. The count goes
on over the change, and the names of the last two temporaries begin with the new stem. -/
theorem steps_accounted_of_changed_stem :
    let node := Sample.swapped Sample.call Sample.call []
    let todo : List Step :=
      [.access node .read .unknown, .options { stem := "t" },
        .expression (.access Sample.info node)]
    ∃ entries last,
      (start Sample.env.symbols Sample.env.types Sample.env.members).steps todo =
          .ok (entries, last) ∧
        (declaredIn entries).length < UInt32.size - 1 ∧ Accounted entries ∧
          entries.flatMap (fun entry => entry.output.temps.map (·.name)) =
            ["_tmp0", "_tmp1", "t2", "t3"] := by
  intro node todo
  have hrun : (start Sample.env.symbols Sample.env.types Sample.env.members).steps todo =
      .ok (_, _) := rfl
  exact ⟨_, _, hrun, by decide, steps_accounted hrun (by decide), by decide⟩

end Session

end Subscript
