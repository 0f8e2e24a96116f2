import Subscript.Proofs.Accounting
import Subscript.Proofs.SourceEvaluation

/-!
# What lowered elements do

The code of an element is evaluated behind the bindings it was given. This file follows the
temporaries: a bound receiver keeps its value while the arguments run, and what is left in place is
evaluated late but gives the same value. In the end the getter is called for the same receiver and
the same values, in the same world, as if everything had been evaluated where it was written.

## Architecture

- §1 stores of bound arguments
- §2 calls of a getter
- §3 members, offsets and ranges
-/

namespace Subscript.Lowering

open Code (Allocator Binding Expr Lowered Machine Memory evalAll)
open Evaluation

variable {σ ν : Type} (machine : Machine σ ν) {env : Env}

/-! ## §1 Stores of bound arguments -/

section Stores

variable {shape : CallShape} {placement : List Nat} {raw reads : List Expr}
  {bindings : List Binding} {allocator rest : Allocator}

/-- Binding the arguments changes no temporary that was there before, unless an argument does. -/
theorem ReadFrom.temps_eval (h : ReadFrom shape placement allocator raw reads bindings rest)
    (hroom : allocator.HasRoom bindings.length) {id : TempId} (hid : id < allocator.next)
    (hstored : id ∉ raw.flatMap Expr.stored) (memory : Memory σ ν) :
    (evalAll machine (bindings.map (·.store)) memory).2.temps id = memory.temps id := by
  cases h with
  | direct => rfl
  | bound _ hspilled =>
    have hroom' : allocator.HasRoom (bindings.map (·.temp.id)).length := by simpa using hroom
    apply Code.temps_evalAll machine _ memory
    intro hmem
    rcases hspilled.mem_stored hmem with hown | hargument
    · exact hspilled.handsOut.not_mem_of_lt hroom' hid hown
    · exact hstored hargument

end Stores

/-! ## §2 Calls of a getter -/

section Calls

variable {receiver read : Expr} {arguments reads : List Expr} {shape : CallShape}
  {params : List Param} {site : Location} {placement : List Nat} {ahead : List Binding}
  {normalized : Normalized} {allocator middle rest : Allocator}

/-- Once some bindings have run, a receiver and arguments are evaluated in place of the written
ones, and in the end a getter is called for the same object and for what its parameters receive of
the same values, in the same world. -/
def CallsAlike (shape : CallShape) (params : List Param)
    (placement : List Nat) (receiver : Expr) (arguments : List Expr) (bindings : List Binding)
    (read : Expr) (passed : List Expr) (memory : Memory σ ν) : Prop :=
  let object := receiver.eval machine memory
  let values := evalAll machine arguments object.2
  let late := read.eval machine (evalAll machine (bindings.map (·.store)) memory).2
  let called := evalAll machine passed late.2
  late.1 = object.1 ∧ called.1 = shape.received machine params placement values.1 ∧
    called.2.world = values.2.world

/-- If nothing is bound, everything is evaluated in its place. -/
private theorem NormalForm.callsAlike_of_not_spillsFor
    (h : NormalForm env.types arguments shape params site placement reads allocator normalized rest)
    (hspills : spillsFor placement arguments = false) (memory : Memory σ ν) :
    CallsAlike machine shape params placement receiver arguments normalized.bindings receiver
      normalized.arguments memory := by
  obtain ⟨hbindings, rfl, -⟩ := h.readFrom.of_not_spillsFor hspills
  simp only [CallsAlike]
  rw [hbindings, List.map_nil, Code.evalAll_nil]
  rw [h.eval_arguments]
  exact ⟨rfl, rfl, rfl⟩

/-- A stable receiver can wait for the arguments that are bound. A variable or the object itself
is not touched by them, and none of them stores the temporary that the receiver may be. -/
private theorem NormalForm.callsAlike_of_isStable
    (h : NormalForm env.types arguments shape params site placement reads allocator normalized rest)
    (hstable : receiver.isStable = true)
    (hknown : ∀ id ∈ (receiver :: arguments).flatMap Expr.mentioned, id < allocator.next)
    (hbare : BareTempsUnstored (receiver :: arguments))
    (hroom : allocator.HasRoom normalized.bindings.length) (memory : Memory σ ν) :
    CallsAlike machine shape params placement receiver arguments normalized.bindings receiver
      normalized.arguments memory := by
  rw [List.flatMap_cons] at hknown
  have harguments : ∀ id ∈ arguments.flatMap Expr.mentioned, id < allocator.next :=
    fun id hid => hknown id (List.mem_append_right _ hid)
  -- neither evaluating the receiver nor waiting with it changes anything
  have hobject : (receiver.eval machine memory).2 = memory :=
    Expr.eval_of_isSideEffectFree (Expr.isSideEffectFree_of_isStable hstable) memory
  have hlate : receiver.eval machine
      (evalAll machine (normalized.bindings.map (·.store)) memory).2 =
        ((receiver.eval machine memory).1,
          (evalAll machine (normalized.bindings.map (·.store)) memory).2) := by
    -- the one stable expression that a store could change is a temporary
    apply eval_of_isStable hstable
    intro info id hreceiver
    subst hreceiver
    have hstored : id ∉ arguments.flatMap Expr.stored := by
      intro hmem
      exact hbare info id (.head _) (List.mem_append_right _ hmem)
    exact h.readFrom.temps_eval machine hroom (hknown id (by simp)) hstored memory
  obtain ⟨hvalues, hleft⟩ :=
    h.readFrom.eval machine harguments hroom hbare.of_cons memory
  simp only [CallsAlike]
  rw [hlate, h.eval_arguments, hobject, hvalues]
  exact ⟨rfl, rfl, hleft.world⟩

/-- A receiver that is bound ahead keeps its value in its temporary, and the arguments do not
notice: the temporary is a fresh one, which they neither read nor store. -/
private theorem NormalForm.callsAlike_of_bound {types : TypeTable} {receiver : Expr}
    {holding : Code.Holding}
    (h : NormalForm types arguments shape params site placement reads
      (allocator.bind receiver holding).2 normalized rest)
    (hknown : ∀ id ∈ arguments.flatMap Expr.mentioned, id < allocator.next)
    (hbare : BareTempsUnstored arguments)
    (hroom : allocator.HasRoom (1 + normalized.bindings.length)) (memory : Memory σ ν) :
    CallsAlike machine shape params placement receiver arguments
      ((allocator.bind receiver holding).1 :: normalized.bindings)
      (allocator.bind receiver holding).1.reference normalized.arguments memory := by
  have hbound : allocator.HandsOut [(allocator.bind receiver holding).1.temp.id]
      (allocator.bind receiver holding).2 := .of_bind rfl
  have hone : allocator.HasRoom 1 := hroom.mono (Nat.le_add_right _ _)
  have hlater := hbound.hasRoom hroom
  have hknown' : ∀ id ∈ arguments.flatMap Expr.mentioned,
      id < (allocator.bind receiver holding).2.next :=
    fun id hid => hbound.lt_next_of_lt hone (hknown id hid)
  -- no argument knows the temporary of the receiver
  have hunknown : ∀ id ∈ arguments.flatMap Expr.mentioned, id ≠ allocator.next := by
    intro id hid heq
    apply hbound.not_mem_of_lt hone (hknown id hid)
    rw [heq]
    exact .head _
  let object := receiver.eval machine memory
  let stored := object.2.store allocator.next object.1
  -- and none of the stores sets it
  have hkept : (evalAll machine (normalized.bindings.map (·.store)) stored).2.temps allocator.next =
      object.1 := by
    refine (h.readFrom.temps_eval machine hlater (hbound.lt_next hone (.head _)) (fun hmem => ?_)
      stored).trans (Memory.temps_store_self _ _ _)
    exact hunknown _ (mem_flatMap_mentioned hmem) rfl
  obtain ⟨hvalues, hleft⟩ := h.readFrom.eval machine hknown' hlater hbare stored
  -- so the arguments do the same as if it had not been set
  obtain ⟨hvalues', hleft'⟩ := Code.evalAll_agree machine arguments hunknown
    ((Memory.AgreeOn.refl (· ≠ allocator.next) object.2).store_left (fun hne => hne rfl) object.1)
  have hready : (evalAll machine
      (((allocator.bind receiver holding).1 :: normalized.bindings).map (·.store)) memory).2 =
        (evalAll machine (normalized.bindings.map (·.store)) stored).2 := rfl
  simp only [CallsAlike]
  rw [hready, Allocator.reference_bind, Expr.eval, h.eval_arguments, hvalues, hvalues']
  exact ⟨hkept, rfl, hleft.world.trans hleft'.world⟩

/-- When the getter is called, its receiver and its arguments have the values that they have where
they were written, and the world is the same. -/
private theorem Settled.callsAlike
    (h : Settled env.types shape params arguments receiver allocator read ahead middle)
    (hnormal : NormalForm env.types arguments shape params site placement reads middle normalized
      rest)
    (hknown : ∀ id ∈ (receiver :: arguments).flatMap Expr.mentioned, id < allocator.next)
    (hbare : BareTempsUnstored (receiver :: arguments))
    (hroom : allocator.HasRoom (ahead ++ normalized.bindings).length) (memory : Memory σ ν) :
    CallsAlike machine shape params placement receiver arguments (ahead ++ normalized.bindings) read
      normalized.arguments memory := by
  cases h with
  | stays hplacement =>
    cases hstable : receiver.isStable with
    | true => exact hnormal.callsAlike_of_isStable machine hstable hknown hbare hroom memory
    | false =>
      -- the receiver was left alone because the arguments are, by the same placement
      obtain ⟨hplaced, hspills⟩ := hplacement hstable
      obtain rfl := Except.ok.inj (hnormal.placed.symm.trans hplaced)
      exact hnormal.callsAlike_of_not_spillsFor machine hspills memory
  | bound =>
    rw [List.flatMap_cons] at hknown
    rw [List.length_append, List.length_singleton] at hroom
    exact hnormal.callsAlike_of_bound machine
      (fun id hid => hknown id (List.mem_append_right _ hid)) hbare.of_cons hroom memory

/-- The code of a getter call does what the element means: the same getter is found, the arguments
have the same places, and by `CallsAlike` it is called on the same values. -/
private theorem GetterCall.gives {property : Property} {info : Info} {result : Expr}
    {indexer : SymbolId}
    (h : GetterCall env receiver property arguments shape info allocator result rest)
    (hproperty : env.symbols.property? indexer = some property)
    (hknown : ∀ id ∈ (receiver :: arguments).flatMap Expr.mentioned, id < allocator.next)
    (hbare : BareTempsUnstored (receiver :: arguments))
    (hroom : ∀ bindings, MadeOf (.value result) (receiver :: arguments) bindings allocator rest →
      allocator.HasRoom bindings.length) (memory : Memory σ ν) :
    let object := receiver.eval machine memory
    let values := evalAll machine arguments object.2
    (element env machine object.1 indexer shape values.1).Gives values.2.world
      (result.eval machine memory).1 (result.eval machine memory).2.world := by
  intro object values
  cases h with
  | @mk getter method read ahead middle _ placement reads normalized hgetter hmethod hsettled
      hnormal =>
    obtain ⟨hobject, hvalues, hworld⟩ := hsettled.callsAlike machine hnormal hknown
      hbare (hroom _ (hnormal.madeOf hsettled)) memory
    have hplaced : (shape.placement method.params values.1.length).toOption = some placement := by
      rw [Code.length_evalAll, hnormal.placed]
      rfl
    refine (gives_found hproperty).bind ((gives_found hgetter).bind ((gives_found hmethod).bind
      ((gives_found hplaced).bind ?_)))
    -- behind the bindings the call is performed once
    rw [Code.eval_sequence, Expr.eval, Memory.fst_perform, Memory.world_perform, hobject, hvalues,
      hworld]
    exact gives_act machine _

/-- Reading an element behind an indexer does what the element means: the getter is called with
the values that receiver and arguments have where they were written. -/
theorem IndexerElement.gives {info : Info} {result : Expr} {indexer : SymbolId}
    (h : IndexerElement env receiver indexer arguments shape info .read allocator (.value result)
      rest)
    (hknown : ∀ id ∈ (receiver :: arguments).flatMap Expr.mentioned, id < allocator.next)
    (hbare : BareTempsUnstored (receiver :: arguments))
    (hroom : ∀ bindings, MadeOf (.value result) (receiver :: arguments) bindings allocator rest →
      allocator.HasRoom bindings.length) (memory : Memory σ ν) :
    let object := receiver.eval machine memory
    let values := evalAll machine arguments object.2
    (element env machine object.1 indexer shape values.1).Gives values.2.world
      (result.eval machine memory).1 (result.eval machine memory).2.world := by
  cases h with
  | value hproperty _ hcall => exact hcall.gives machine hproperty hknown hbare hroom memory

end Calls

/-! ## §3 Members, offsets and ranges -/

section Members

variable {allocator rest : Allocator} {site : Location} {object size : Binding}

/-- The code that reads a member does what the member means, and sets no temporary. -/
theorem readMember_gives {object read : Expr} {symbol : SymbolId}
    (h : (readMember object symbol site).Yields env allocator read rest) (memory : Memory σ ν) :
    (member env machine (object.eval machine memory).1 symbol).Gives
        (object.eval machine memory).2.world (read.eval machine memory).1
        (read.eval machine memory).2.world ∧
      (read.eval machine memory).2.temps = (object.eval machine memory).2.temps := by
  obtain ⟨-, ⟨property, getter, byRef, hsymbol, hgetter, -, rfl⟩ | ⟨field, hsymbol, rfl⟩⟩ :=
    readMember_yields_iff.mp h
  · refine ⟨?_, rfl⟩
    simp only [member, hsymbol]
    exact (gives_found hgetter).bind (gives_act machine _)
  · refine ⟨?_, rfl⟩
    simp only [member, hsymbol]
    exact gives_inspect _

/-- A pattern binds the values of its receiver and of the receiver's length. The length is read
from the receiver's temporary, which is another one than its own. -/
theorem Measured.gives {value : Expr} {length : SymbolId} {holding : Code.Holding}
    (h : Measured env value length site holding allocator object size rest)
    (hroom : allocator.HasRoom 2) (memory : Memory σ ν) :
    let receiver := value.eval machine memory
    let left := (evalAll machine [object.store, size.store] memory).2
    (member env machine receiver.1 length).Gives receiver.2.world (left.temps size.temp.id)
        left.world ∧ left.temps object.temp.id = receiver.1 := by
  have hnodup := h.madeOf.1.nodup hroom
  cases h with
  | @mk read hlength =>
    intro receiver left
    let stored := receiver.2.store allocator.next receiver.1
    obtain ⟨hmember, htemps⟩ := readMember_gives machine hlength stored
    rw [Allocator.reference_bind, Expr.eval, Memory.temps_store_self, Memory.world_store] at hmember
    -- two temporaries handed out one after the other, with room for both, differ
    have hne : allocator.next ≠ (allocator.bind value holding).2.next :=
      (List.nodup_cons.mp hnodup).1 ∘ List.mem_singleton.mpr
    have hsize : left.temps ((allocator.bind value holding).2.bind read .copy).1.temp.id =
        (read.eval machine stored).1 := Memory.temps_store_self _ _ _
    refine ⟨?_, ?_⟩
    · rw [hsize]
      exact hmember
    · apply (Memory.temps_store_of_ne _ _ hne).trans
      exact (congrFun htemps _).trans (Memory.temps_store_self _ _ _)

/-- The offset of a position is bound, and no other temporary is set once position and length are
evaluated. -/
theorem Offset.gives {position length : Expr} {offset : Binding}
    (h : Offset env position length site allocator offset rest) (memory : Memory σ ν) :
    let place := position.eval machine memory
    let count := length.eval machine place.2
    let left := (offset.store.eval machine memory).2
    (Evaluation.offset env machine place.1 count.1).Gives count.2.world (left.temps offset.temp.id)
        left.world ∧ ∀ id, id ≠ offset.temp.id → left.temps id = count.2.temps id := by
  cases h with
  | mk hmethod =>
    intro place count left
    refine ⟨?_, fun id hid => Memory.temps_store_of_ne _ _ hid⟩
    have hoffset : left.temps allocator.next = _ := Memory.temps_store_self _ _ _
    apply (gives_library hmethod).bind
    show Gives _ _ (left.temps allocator.next) _
    rw [hoffset]
    exact gives_act machine _

/-- An end of a range is bound as an offset. -/
private theorem Offset.gives_rangeEnd {range offset : Binding} {getter : SymbolId}
    {symbol : WellKnown.Member} {info : Info}
    (h : Offset env (.call info range.reference getter [] false) size.reference site allocator
      offset rest)
    (hgetter : env.members.resolve symbol = .ok getter) (memory : Memory σ ν) :
    let left := (offset.store.eval machine memory).2
    (Evaluation.rangeEnd env machine (memory.temps range.temp.id) symbol
        (memory.temps size.temp.id)).Gives memory.world (left.temps offset.temp.id) left.world ∧
      ∀ id, id ≠ offset.temp.id → left.temps id = memory.temps id := by
  obtain ⟨hoffset, hkept⟩ := h.gives machine memory
  exact ⟨(gives_library hgetter).bind ((gives_act machine _).bind hoffset), hkept⟩

/-- The ends of a range are bound as offsets, and no temporary from before is set once the range is
evaluated. -/
theorem Bounded.gives {bounds : Expr} {range start stop : Binding}
    (h : Bounded env bounds size.reference site allocator range start stop rest)
    (hroom : allocator.HasRoom 3) (hsize : size.temp.id < allocator.next)
    (memory : Memory σ ν) :
    let value := bounds.eval machine memory
    let left := (evalAll machine [range.store, start.store, stop.store] memory).2
    (∃ middle, (Evaluation.rangeEnd env machine value.1 .rangeGetStart
          (value.2.temps size.temp.id)).Gives value.2.world (left.temps start.temp.id) middle ∧
        (Evaluation.rangeEnd env machine value.1 .rangeGetEnd
          (value.2.temps size.temp.id)).Gives middle (left.temps stop.temp.id) left.world) ∧
      ∀ id < allocator.next, left.temps id = value.2.temps id := by
  have hout := h.madeOf.1
  -- the three temporaries are fresh, and different from each other
  have hold : ∀ id < allocator.next, id ≠ range.temp.id ∧ id ≠ start.temp.id ∧
      id ≠ stop.temp.id := by
    intro id hid
    have hnot := hout.not_mem_of_lt hroom hid
    simpa [not_or] using hnot
  have hnodup := hout.nodup hroom
  simp only [List.nodup_cons, List.mem_cons, List.not_mem_nil, or_false, not_or] at hnodup
  obtain ⟨⟨hrangeStart, -⟩, hstartStop, -⟩ := hnodup
  cases h with
  | @mk getStart getEnd start stop middle rest hgetStart hstart hgetEnd hstop =>
    intro value left
    let ready := value.2.store allocator.next value.1
    let started := (start.store.eval machine ready).2
    obtain ⟨hfirst, hkept⟩ := hstart.gives_rangeEnd machine hgetStart ready
    obtain ⟨hlast, hkept'⟩ := hstop.gives_rangeEnd machine hgetEnd started
    have hrange : ready.temps allocator.next = value.1 := Memory.temps_store_self _ _ _
    have hready : ∀ id < allocator.next, ready.temps id = value.2.temps id :=
      fun id hid => Memory.temps_store_of_ne _ _ (hold id hid).1
    have hstarted : ∀ id < allocator.next, started.temps id = value.2.temps id :=
      fun id hid => (hkept id (hold id hid).2.1).trans (hready id hid)
    have hrange' : started.temps allocator.next = value.1 := (hkept _ hrangeStart).trans hrange
    refine ⟨⟨started.world, ?_, ?_⟩, fun id hid => ?_⟩
    -- setting the end leaves the start alone
    · have hleft : left.temps start.temp.id = started.temps start.temp.id := hkept' _ hstartStop
      rw [hleft, ← hrange, ← hready _ hsize]
      exact hfirst
    · rw [← hrange', ← hstarted _ hsize]
      exact hlast
    · exact (hkept' id (hold id hid).2.2).trans (hstarted id hid)

/-- The element at an offset is that of the object and the offset that are bound. An indexer is
called on their two references, which store nothing; an array is read at once. -/
theorem ElementAt.gives {offset : Binding} {intIndexer? : Option SymbolId} {info : Info}
    {result : Expr}
    (h : ElementAt env object.reference offset.reference intIndexer? info .read allocator
      (.value result) rest)
    (hobject : object.temp.id < allocator.next) (hoffset : offset.temp.id < allocator.next)
    (hroom : ∀ bindings, MadeOf (.value result) [object.reference, offset.reference] bindings
      allocator rest → allocator.HasRoom bindings.length) (memory : Memory σ ν) :
    (elementAt env machine intIndexer? (memory.temps object.temp.id)
      (memory.temps offset.temp.id)).Gives memory.world (result.eval machine memory).1
        (result.eval machine memory).2.world := by
  generalize hlowered : Lowered.value result = lowered at h
  cases h with
  | indexer hindexer helement =>
    subst hlowered hindexer
    refine helement.gives machine ?_ ?_ hroom memory
    -- what the call mentions are these two temporaries, handed out before
    · intro id hid
      have hcases : id = object.temp.id ∨ id = offset.temp.id := by
        simpa [Binding.reference, Code.Temp.reference] using hid
      exact hcases.elim (· ▸ hobject) (· ▸ hoffset)
    · intro info id _ hstored
      simp [Binding.reference, Code.Temp.reference] at hstored
  | array hnone harray =>
    subst hnone
    cases hlowered
    exact gives_act machine _

end Members

end Subscript.Lowering
