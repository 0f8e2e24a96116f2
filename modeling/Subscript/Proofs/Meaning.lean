import Subscript.Proofs.Meaning.Elements
import Subscript.Proofs.SelfContained

/-!
# Lowering keeps the meaning of expressions

The code of a lowered expression does what the expression means: from any memory it gives the same
value and leaves the same world, with the same log of everything that was done. Operands of an
access are code of their own, which sets only temporaries that were handed out for it; so whatever
is bound around them keeps its value, however deep the accesses are nested.

## Architecture

- §1 operands and the temporaries around them
- §2 `Means`
- §3 accesses
- §4 the induction over expressions and accesses
-/

namespace Subscript

open Code (Allocator Binding Expr Lowered Machine Memory ScopedAll evalAll)
open Evaluation
open Lowering
open Source (Mode)

variable {σ ν : Type} (machine : Machine σ ν) {env : Env} {allocator middle rest : Allocator}

/-! ## §1 Operands -/

/-- Running code of its own leaves the temporaries alone that were handed out before. So what was
bound earlier is still there when the code has run. -/
theorem SelfContained.temps_eval {expr : Expr} (h : SelfContained allocator (.value expr) rest)
    (hroom : allocator.HasRoom expr.declared.length) {id : TempId} (hid : id < allocator.next)
    (memory : Memory σ ν) : (expr.eval machine memory).2.temps id = memory.temps id := by
  apply expr.temps_eval machine memory
  intro hstored
  -- what is stored inside is declared inside, so it was handed out on the way
  rcases Expr.Scoped.mentioned expr h.wellScoped (Expr.mem_mentioned_of_mem_stored hstored) with
    hscope | hdeclared
  · cases hscope
  · exact h.handsOut.not_mem_of_lt hroom hid hdeclared

/-- Operands mention temporaries that were handed out for them. -/
private theorem SelfContainedAll.lt_next {exprs : List Expr}
    (h : SelfContainedAll allocator exprs rest)
    (hroom : allocator.HasRoom (exprs.flatMap Expr.declared).length) {id : TempId}
    (hid : id ∈ exprs.flatMap Expr.mentioned) : id < rest.next := by
  rcases ScopedAll.mentioned exprs h.wellScoped hid with hscope | hdeclared
  · cases hscope
  · exact h.handsOut.lt_next hroom hdeclared

/-- No operand is a temporary by itself. -/
private theorem SelfContainedAll.bareTempsUnstored {exprs : List Expr}
    (h : SelfContainedAll allocator exprs rest) : BareTempsUnstored exprs := by
  intro info id hmem
  -- it would be in scope, and nothing is
  cases Code.scopedAll_iff.mp h.wellScoped _ hmem

/-- There is room for the bindings of a result, and for its operands before, if there is room for the
whole result: that is all that the theorems below ask for. -/
theorem SelfContainedAll.hasRoom {result : Lowered} {operands : List Expr} {bindings : List Binding}
    (h : SelfContainedAll allocator operands middle)
    (hmade : Comprises result operands bindings) (hscoped : result.Scoped [])
    (hroom : allocator.HasRoom result.declared.length) :
    allocator.HasRoom (operands.flatMap Expr.declared).length ∧
      middle.HasRoom bindings.length := by
  have hlength : result.declared.length =
      (operands.flatMap Expr.declared).length + bindings.length := by
    rw [(hmade.declared_perm hscoped).length_eq, List.length_append, List.length_map, Nat.add_comm]
  rw [hlength] at hroom
  exact ⟨hroom.mono (Nat.le_add_right _ _), h.handsOut.hasRoom hroom⟩

/-! ## §2 Code that means the same -/

/-- From every memory, code does what a source expression means in its world. -/
def Means (evaluation : Evaluation σ ν ν) (code : Expr) : Prop :=
  ∀ memory : Memory σ ν, evaluation.Gives memory.world (code.eval machine memory).1
    (code.eval machine memory).2.world

/-- The same for several expressions, one after the other. -/
def MeansAll (evaluation : Evaluation σ ν (List ν)) (codes : List Expr) :
    Prop :=
  ∀ memory : Memory σ ν, evaluation.Gives memory.world (evalAll machine codes memory).1
    (evalAll machine codes memory).2.world

section Accesses

variable {machine} {receiver argument : Evaluation σ ν ν} {arguments : Evaluation σ ν (List ν)}

/-- A read of a member means what the member of the receiver does. -/
private theorem Means.readMember {value read : Expr} {symbol : SymbolId} {site : Location}
    (h : Means machine receiver value)
    (hread : (readMember value symbol site).Yields env allocator read rest) :
    Means machine (receiver >>= fun object => member env machine object symbol) read :=
  fun memory => (h memory).bind (readMember_gives machine hread memory).1

/-- A bound that is turned into a position means the position of what it means. -/
private theorem Means.position {bound : Info} {value place : Expr}
    (h : Means machine receiver value) (hbound : BoundPosition env bound value place) :
    Means machine (receiver >>= fun value => position env machine bound value) place := by
  intro memory
  apply (h memory).bind
  unfold Evaluation.position
  cases hbound with
  | counted hint hmethod =>
    rw [if_pos hint]
    exact (gives_library hmethod).bind (gives_act machine _)
  | same hint =>
    rw [if_neg (by simp [hint])]
    exact gives_pure _

/-! ## §3 Accesses -/

/-- An access through an indexer means the element behind the indexer, with the values of its
receiver and its arguments. -/
private theorem Means.indexer {object : Expr} {operands : List Expr} {indexer : SymbolId}
    {shape : CallShape} {info : Info} {result : Expr} (hobject : Means machine receiver object)
    (hoperands : MeansAll machine arguments operands)
    (hself : SelfContainedAll allocator (object :: operands) middle)
    (helement : IndexerElement env object indexer operands shape info .read middle (.value result)
      rest) (hscoped : result.Scoped []) (hroom : allocator.HasRoom result.declared.length) :
    Means machine (do
      let object ← receiver
      let values ← arguments
      element env machine object indexer shape values) result := by
  intro memory
  apply (hobject memory).bind
  apply (hoperands _).bind
  obtain ⟨bindings, hmade, -⟩ := helement.madeOf
  have hoperandsRoom := (hself.hasRoom hmade.toComprises hscoped hroom).1
  exact helement.gives machine (fun id hid => hself.lt_next hoperandsRoom hid)
    hself.bareTempsUnstored
    (fun bindings hmade => (hself.hasRoom hmade.toComprises hscoped hroom).2) memory

private theorem Means.dynamic {object : Expr} {operands : List Expr} {names : List (Option String)}
    {refKinds : List RefKind} {info : Info} (hobject : Means machine receiver object)
    (hoperands : MeansAll machine arguments operands) :
    Means machine (do
      let object ← receiver
      let values ← arguments
      act machine (.dynamicElement object values names refKinds))
      (dynamicElement object operands names refKinds info) :=
  fun memory => (hobject memory).bind ((hoperands _).bind (gives_act machine _))

/-- There is room for all that an access by position binds, in the order in which it does: the
bindings of the receiver, two of the pattern, those of the position, the offset, and those of the
element. -/
private theorem index_hasRoom {value position : Expr} {length : SymbolId} {site : Location}
    {first second third fourth : Allocator} {object size offset : Binding} {element : Lowered}
    {bindings : List Binding} (hvalue : SelfContained allocator (.value value) first)
    (hmeasured : Measured env value length site (receiverHolding env.types value) first
      object size second)
    (hposition : SelfContained second (.value position) third)
    (hoffset : Offset env position size.reference site third offset fourth)
    (hmade : Comprises element [object.reference, offset.reference] bindings)
    (hscoped : (runAhead [object, size, offset] element).Scoped [])
    (hroom : allocator.HasRoom (runAhead [object, size, offset] element).declared.length) :
    allocator.HasRoom value.declared.length ∧ first.HasRoom 2 ∧
      second.HasRoom position.declared.length ∧ third.HasRoom 1 ∧
        fourth.HasRoom bindings.length := by
  have hlength : (runAhead [object, size, offset] element).declared.length =
      value.declared.length + (2 + (position.declared.length + (1 + bindings.length))) := by
    have hperm := (index_comprises hmeasured hoffset hmade).declared_perm hscoped
    apply hperm.length_eq.trans
    simp only [List.flatMap_cons, List.flatMap_nil, List.length_append, List.length_map,
      List.length_cons, List.length_nil]
    omega
  rw [hlength] at hroom
  -- each step starts where the one before it stopped handing out
  have hfirst := hvalue.handsOut.hasRoom hroom
  have hsecond := hmeasured.madeOf.1.hasRoom hfirst
  have hthird := hposition.handsOut.hasRoom hsecond
  exact ⟨hroom.mono (Nat.le_add_right _ _), hfirst.mono (Nat.le_add_right _ _),
    hsecond.mono (Nat.le_add_right _ _), hthird.mono (Nat.le_add_right _ _),
    hoffset.madeOf.1.hasRoom hthird⟩

/-- What an access by position binds stays in its temporaries while the position is evaluated, and
until the element is. The evaluation of the source has the same values in hand all the time. -/
theorem Means.index {value position : Expr} {length : SymbolId} {intIndexer? : Option SymbolId}
    {info : Info} {first second third fourth : Allocator} {object size offset : Binding}
    {result : Expr} (hobject : Means machine receiver value)
    (hargument : Means machine argument position)
    (hmeasured : Measured env value length info.location (receiverHolding env.types value) first
      object size second)
    (hposition : SelfContained second (.value position) third)
    (hoffset : Offset env position size.reference info.location third offset fourth)
    (helement : ElementAt env object.reference offset.reference intIndexer? info .read fourth
      (.value result) rest)
    (hmeasuredRoom : first.HasRoom 2) (hpositionRoom : second.HasRoom position.declared.length)
    (hoffsetRoom : third.HasRoom 1)
    (hroom : ∀ bindings, MadeOf (.value result) [object.reference, offset.reference] bindings
      fourth rest → fourth.HasRoom bindings.length) :
    Means machine (do
      let object ← receiver
      let size ← member env machine object length
      let place ← argument
      let offset ← Evaluation.offset env machine place size
      elementAt env machine intIndexer? object offset)
      (Code.sequence [object, size, offset] result) := by
  obtain ⟨hmeasuredOut, -⟩ := hmeasured.madeOf
  obtain ⟨hoffsetOut, -, -⟩ := hoffset.madeOf
  have hold : ∀ id ∈ [object.temp.id, size.temp.id], id < second.next :=
    fun id hid => hmeasuredOut.lt_next hmeasuredRoom hid
  have hobjectOld : object.temp.id < third.next :=
    hposition.handsOut.lt_next_of_lt hpositionRoom (hold _ (.head _))
  have hne : object.temp.id ≠ offset.temp.id := fun heq =>
    hoffsetOut.not_mem_of_lt hoffsetRoom hobjectOld (heq ▸ .head _)
  intro memory
  -- the memory behind the length, then the position, then the memory behind the offset
  let measured := (evalAll machine [object.store, size.store] memory).2
  let place := position.eval machine measured
  let ready := (offset.store.eval machine measured).2
  -- receiver and length, as the source evaluates them
  obtain ⟨hmember, hbound⟩ := hmeasured.gives machine hmeasuredRoom memory
  have hplace : argument.Gives measured.world place.1 place.2.world := hargument measured
  have hkept : ∀ id ∈ [object.temp.id, size.temp.id], place.2.temps id = measured.temps id :=
    fun id hid => hposition.temps_eval machine hpositionRoom (hold id hid) measured
  have hstored : (Evaluation.offset env machine place.1 (place.2.temps size.temp.id)).Gives
      place.2.world (ready.temps offset.temp.id) ready.world :=
    (hoffset.gives machine measured).1
  have hobjectReady : ready.temps object.temp.id = (value.eval machine memory).1 :=
    ((hoffset.gives machine measured).2 _ hne).trans ((hkept _ (.head _)).trans hbound)
  have hread := helement.gives machine (hoffsetOut.lt_next_of_lt hoffsetRoom hobjectOld)
    (hoffsetOut.lt_next hoffsetRoom (.head _)) hroom ready
  -- both temporaries still hold what was bound to them
  rw [hkept _ (.tail _ (.head _))] at hstored
  rw [hobjectReady] at hread
  rw [Code.eval_sequence]
  exact (hobject memory).bind (hmember.bind (hplace.bind (hstored.bind hread)))

/-- There is room for all that an access by range binds, in the order in which it does. -/
private theorem range_hasRoom {value bounds result : Expr} {length : SymbolId} {site : Location}
    {first second third : Allocator} {object size range start stop : Binding}
    (hvalue : SelfContained allocator (.value value) first)
    (hmeasured : Measured env value length site .copy first object size second)
    (hbounds : SelfContained second (.value bounds) third)
    (hcomprises : Comprises (.value result) [value, bounds] [object, size, range, start, stop])
    (hscoped : result.Scoped []) (hroom : allocator.HasRoom result.declared.length) :
    allocator.HasRoom value.declared.length ∧ first.HasRoom 2 ∧
      second.HasRoom bounds.declared.length ∧ third.HasRoom 3 := by
  have hscoped' : (Lowered.value result).Scoped [] := hscoped
  have hlength : result.declared.length =
      value.declared.length + (2 + (bounds.declared.length + 3)) := by
    apply (hcomprises.declared_perm hscoped').length_eq.trans
    simp only [List.flatMap_cons, List.flatMap_nil, List.length_append, List.length_map,
      List.length_cons, List.length_nil]
    omega
  rw [hlength] at hroom
  -- as before, each step starts where the one before it stopped
  have hfirst := hvalue.handsOut.hasRoom hroom
  have hsecond := hmeasured.madeOf.1.hasRoom hfirst
  exact ⟨hroom.mono (Nat.le_add_right _ _), hfirst.mono (Nat.le_add_right _ _),
    hsecond.mono (Nat.le_add_right _ _), hbounds.handsOut.hasRoom hsecond⟩

/-- What an access by range binds stays in its temporaries while the range is evaluated, and until
the slice is cut out. -/
theorem Means.range {value bounds : Expr} {length slice : SymbolId} {info : Info}
    {first second third : Allocator} {object size range start stop : Binding}
    (hobject : Means machine receiver value) (hargument : Means machine argument bounds)
    (hmeasured : Measured env value length info.location .copy first object size second)
    (hbounds : SelfContained second (.value bounds) third)
    (hbounded : Bounded env bounds size.reference info.location third range start stop rest)
    (hmeasuredRoom : first.HasRoom 2) (hboundsRoom : second.HasRoom bounds.declared.length)
    (hroom : third.HasRoom 3) :
    Means machine (do
      let object ← receiver
      let size ← member env machine object length
      let range ← argument
      let start ← Evaluation.rangeEnd env machine range .rangeGetStart size
      let stop ← Evaluation.rangeEnd env machine range .rangeGetEnd size
      act machine (.call (some object) slice [start, machine.binary .sub stop start]))
      (Code.sequence [object, size, range, start, stop]
        (sliceBetween env object start stop slice info)) := by
  obtain ⟨hmeasuredOut, -⟩ := hmeasured.madeOf
  have hold : ∀ id ∈ [object.temp.id, size.temp.id], id < second.next :=
    fun id hid => hmeasuredOut.lt_next hmeasuredRoom hid
  have hold' : ∀ id ∈ [object.temp.id, size.temp.id], id < third.next :=
    fun id hid => hbounds.handsOut.lt_next_of_lt hboundsRoom (hold id hid)
  intro memory
  -- the memory behind the length, then the range, then the memory behind its ends
  let measured := (evalAll machine [object.store, size.store] memory).2
  let limits := bounds.eval machine measured
  let ready := (evalAll machine [range.store, start.store, stop.store] measured).2
  obtain ⟨hmember, hbound⟩ := hmeasured.gives machine hmeasuredRoom memory
  have hlimits : argument.Gives measured.world limits.1 limits.2.world := hargument measured
  have hkept : ∀ id ∈ [object.temp.id, size.temp.id], limits.2.temps id = measured.temps id :=
    fun id hid => hbounds.temps_eval machine hboundsRoom (hold id hid) measured
  obtain ⟨⟨started, hstart, hstop⟩, hready⟩ :=
    hbounded.gives machine hroom (hold' _ (.tail _ (.head _))) measured
  rw [hkept _ (.tail _ (.head _))] at hstart hstop
  -- the object is still what it was when it was bound
  have hobjectReady : ready.temps object.temp.id = (value.eval machine memory).1 :=
    (hready _ (hold' _ (.head _))).trans ((hkept _ (.head _)).trans hbound)
  have hslice : (act machine (.call (some (value.eval machine memory).1) slice
      [ready.temps start.temp.id,
        machine.binary .sub (ready.temps stop.temp.id) (ready.temps start.temp.id)])).Gives
      ready.world ((sliceBetween env object start stop slice info).eval machine ready).1
      ((sliceBetween env object start stop slice info).eval machine ready).2.world := by
    rw [← hobjectReady]
    exact gives_act machine _
  rw [Code.eval_sequence]
  exact (hobject memory).bind
    (hmember.bind (hlimits.bind (hstart.bind (hstop.bind hslice))))

end Accesses

/-! ## §4 Expressions and accesses -/

section Induction

/-- Room for two operands, one after the other. -/
private theorem SelfContained.split_room {expr : Expr}
    (h : SelfContained allocator (.value expr) middle)
    {whole declared : List TempId} (hroom : allocator.HasRoom whole.length)
    (hdeclared : whole = expr.declared ++ declared) :
    allocator.HasRoom expr.declared.length ∧ middle.HasRoom declared.length := by
  rw [hdeclared, List.length_append] at hroom
  exact ⟨hroom.mono (Nat.le_add_right _ _), h.handsOut.hasRoom hroom⟩

mutual

/-- The code of a lowered expression means what the expression does. Room for the whole code is
split among its operands, which are lowered one after the other. -/
theorem Source.Expr.lower_means (hliterals : env.builder = .literals) (expr : Source.Expr)
    {allocator rest : Allocator} {lowered : Code.Expr}
    (h : expr.lower.Yields env allocator lowered rest)
    (hroom : allocator.HasRoom lowered.declared.length) :
    Means machine (expr.eval env machine) lowered := by
  cases expr with
  | literal info value =>
    obtain ⟨rfl, rfl⟩ := yields_pure_iff.mp h
    intro memory
    exact gives_pure _
  | var info symbol =>
    obtain ⟨rfl, rfl⟩ := yields_pure_iff.mp h
    intro memory
    exact gives_inspect _
  | self info =>
    obtain ⟨rfl, rfl⟩ := yields_pure_iff.mp h
    intro memory
    exact gives_pure _
  | field info object field =>
    obtain ⟨value, hobject, rfl⟩ := Source.Expr.field_yields h
    rw [Source.Expr.eval]
    have hvalue := object.lower_means hliterals hobject (hroom.mono (by simp))
    intro memory
    exact (hvalue memory).bind (gives_inspect _)
  | property info object property =>
    obtain ⟨value, _, hobject, hread⟩ := Source.Expr.property_yields h
    rw [Expr.declared, gather_readMember Code.overlooksComputed_declared hread] at hroom
    rw [Source.Expr.eval]
    exact (object.lower_means hliterals hobject hroom).readMember hread
  | indexedProperty => exact absurd h not_yields_fail
  | call info receiver method arguments =>
    obtain ⟨value, middle, values, _, hreceiver, harguments, -, rfl⟩ :=
      Source.Expr.call_yields h
    -- the arguments start from the allocator that the receiver leaves
    obtain ⟨hroom, hroom'⟩ :=
      (receiver.lower_selfContained hliterals hreceiver).split_room hroom
        (Code.Expr.gather_call ..)
    have hvalue := receiver.lower_means hliterals hreceiver hroom
    have hvalues := lowerAll_means hliterals arguments harguments hroom'
    rw [Source.Expr.eval]
    intro memory
    exact (hvalue memory).bind ((hvalues _).bind (gives_act machine _))
  | staticCall info method arguments =>
    obtain ⟨values, _, harguments, -, rfl⟩ := Source.Expr.staticCall_yields h
    have hvalues := lowerAll_means hliterals arguments harguments
      (hroom.mono (by simp))
    rw [Source.Expr.eval]
    intro memory
    exact (hvalues memory).bind (gives_act machine _)
  | fromEnd info operand =>
    obtain ⟨constructor, value, hconstructor, hoperand, rfl⟩ := positionFromEnd_yields h
    have hvalue := operand.lower_means hliterals hoperand
      (hroom.mono (by simp))
    rw [Source.Expr.eval]
    intro memory
    exact (hvalue memory).bind ((gives_library hconstructor).bind (gives_act machine _))
  | rangeAll info =>
    obtain ⟨_, hmethod, rfl, rfl⟩ := fullRange_yields h
    rw [Source.Expr.eval]
    intro memory
    exact (gives_library hmethod).bind (gives_act machine _)
  | rangeFrom info bound | rangeUpTo info bound =>
    obtain ⟨_, value, place, hmethod, hvalue, hbound, rfl⟩ := halfOpenRange_yields h
    -- turning the bound into a position declares nothing
    have hroom' : allocator.HasRoom place.declared.length := hroom.mono (by simp)
    rw [Code.Expr.declared, hbound.gather_eq Code.overlooksComputed_declared] at hroom'
    have hposition := (bound.lower_means hliterals hvalue hroom').position hbound
    rw [Source.Expr.eval, ← bind_assoc]
    intro memory
    exact (hposition memory).bind ((gives_library hmethod).bind (gives_act machine _))
  | rangeBetween info start stop =>
    obtain ⟨_, value, _, _, value', _, hconstructor, hvalue, hbound, hvalue', hbound', rfl⟩ :=
      closedRange_yields h
    -- the second bound starts from the allocator that the first one leaves
    have hself := hbound.selfContained (start.lower_selfContained hliterals hvalue)
    obtain ⟨hroom, hroom'⟩ := hself.split_room hroom (by simp; rfl)
    rw [Code.Expr.declared, hbound.gather_eq Code.overlooksComputed_declared] at hroom
    rw [hbound'.gather_eq Code.overlooksComputed_declared] at hroom'
    have hstart := (start.lower_means hliterals hvalue hroom).position hbound
    have hstop := (stop.lower_means hliterals hvalue' hroom').position hbound'
    rw [Source.Expr.eval, ← bind_assoc]
    intro memory
    apply (hstart memory).bind
    rw [← bind_assoc]
    exact (hstop _).bind ((gives_library hconstructor).bind (gives_act machine _))
  | access info node =>
    -- the check at the end of a nested access does not change its code
    exact node.lowerCore_means hliterals
      (Source.Access.lower_yields_iff.mp (Source.Expr.access_yields h)).1 hroom
termination_by structural expr

/-- Operands that are lowered one by one mean what they do from left to right: each leaves the
world to the next one, and no temporary of one is read by another. -/
theorem lowerAll_means (hliterals : env.builder = .literals) (exprs : List Source.Expr)
    {allocator rest : Allocator} {lowered : List Code.Expr}
    (h : (lowerAll exprs).Yields env allocator lowered rest)
    (hroom : allocator.HasRoom (lowered.flatMap Code.Expr.declared).length) :
    MeansAll machine (Source.evalAll env machine exprs) lowered := by
  cases exprs with
  | nil =>
    obtain ⟨rfl, rfl⟩ := yields_pure_iff.mp h
    intro memory
    exact gives_pure _
  | cons expr exprs =>
    obtain ⟨value, middle, values, hvalue, hvalues, rfl⟩ := lowerAll_cons_yields h
    obtain ⟨hroom, hroom'⟩ := (expr.lower_selfContained hliterals hvalue).split_room hroom
      List.flatMap_cons
    have hhead := expr.lower_means hliterals hvalue hroom
    have htail := lowerAll_means hliterals exprs hvalues hroom'
    rw [Source.evalAll]
    intro memory
    exact (hhead memory).bind ((htail _).bind (gives_pure _))
termination_by structural exprs

/-- The code of an access that is read means what the access does. In each case the operands mean
what they do by induction, and the room that there is for all of the code is split among them. -/
theorem Source.Access.lowerCore_means (hliterals : env.builder = .literals) (node : Source.Access)
    {site : Location} {allocator rest : Allocator} {lowered : Code.Expr}
    (h : (node.lowerCore Source.Expr.lower .read site).Yields env allocator (.value lowered) rest)
    (hroom : allocator.HasRoom lowered.declared.length) :
    Means machine (node.eval env machine) lowered := by
  cases node with
  | indexer receiver arguments indexer shape type =>
    obtain ⟨object, first, operands, second, hreceiver, harguments, helement⟩ :=
      Source.Access.indexer_yields hliterals h
    -- the receiver's own code, before any room for it is known
    have hobject : SelfContained allocator (.value object) first ∧
        (allocator.HasRoom object.declared.length →
          Means machine (receiver.evalIndexed env machine) object) := by
      cases receiver with
      | indexedProperty info owner property =>
        obtain ⟨value, middle, hvalue, hread⟩ := readIndexedProperty_yields hreceiver
        refine ⟨(owner.lower_selfContained hliterals hvalue).readMember hread, fun hroom => ?_⟩
        rw [Code.Expr.declared, gather_readMember Code.overlooksComputed_declared hread] at hroom
        exact (owner.lower_means hliterals hvalue hroom).readMember hread
      | _ =>
        exact ⟨Source.Expr.lower_selfContained hliterals _ hreceiver,
          Source.Expr.lower_means hliterals _ hreceiver⟩
    have hself : SelfContainedAll allocator (object :: operands) second :=
      .cons hobject.1 (lowerAll_selfContained hliterals arguments harguments)
    have hscoped := (Source.Access.lowerCore_selfContained hliterals _ h).wellScoped
    obtain ⟨bindings, hmade, -⟩ := helement.madeOf
    obtain ⟨hroom₁, hroom₂⟩ := hobject.1.split_room
      (hself.hasRoom hmade.toComprises hscoped hroom).1 List.flatMap_cons
    rw [Source.Access.eval_indexer]
    exact .indexer (hobject.2 hroom₁) (lowerAll_means hliterals arguments harguments hroom₂) hself
      helement hscoped hroom
  | dynamic receiver arguments candidates names refKinds type =>
    obtain ⟨object, middle, operands, hreceiver, harguments, hlowered⟩ :=
      Source.Access.dynamic_yields h
    have hobject : SelfContained allocator (.value object) middle ∧
        (allocator.HasRoom object.declared.length →
          Means machine (receiver.evalDynamic env machine) object) := by
      cases receiver with
      | indexedProperty info owner property =>
        obtain ⟨value, hvalue, rfl⟩ := fetchIndexedProperty_yields hreceiver
        have hself := owner.lower_selfContained hliterals hvalue
        refine ⟨.of_plain rfl (.single hself), fun hroom => ?_⟩
        have howner := owner.lower_means hliterals hvalue (hroom.mono (by simp))
        intro memory
        exact (howner memory).bind (gives_act machine _)
      | _ =>
        exact ⟨Source.Expr.lower_selfContained hliterals _ hreceiver,
          Source.Expr.lower_means hliterals _ hreceiver⟩
    cases hlowered
    obtain ⟨hroom₁, hroom₂⟩ := hobject.1.split_room hroom (Code.Expr.gather_dynamicElement ..)
    rw [Source.Access.eval_dynamic]
    exact .dynamic (hobject.2 hroom₁) (lowerAll_means hliterals arguments harguments hroom₂)
  | indexPattern receiver length intIndexer? argument type =>
    obtain ⟨value, first, object, size, second, position, third, offset, fourth, element,
      hreceiver, hmeasured, hposition, hoffset, helement, hlowered⟩ :=
      Source.Access.indexPattern_yields hliterals h
    obtain ⟨result, rfl, rfl⟩ := runAhead_eq_value hlowered
    have hself := receiver.lower_selfContained hliterals hreceiver
    have hself' := argument.lower_selfContained hliterals hposition
    -- there is room for every binding on the way, whatever the element binds
    have hrooms : ∀ bindings, MadeOf (.value result) [object.reference, offset.reference] bindings
        fourth rest → _ := fun bindings hmade =>
      index_hasRoom hself hmeasured hself' hoffset hmade.toComprises
        (Source.Access.lowerCore_selfContained hliterals _ h).wellScoped hroom
    obtain ⟨bindings, hmade, -⟩ := helement.madeOf (isStable_reference offset)
    obtain ⟨hvalueRoom, hmeasuredRoom, hpositionRoom, hoffsetRoom, -⟩ := hrooms bindings hmade
    exact .index (receiver.lower_means hliterals hreceiver hvalueRoom)
      (argument.lower_means hliterals hposition hpositionRoom) hmeasured hself' hoffset helement
      hmeasuredRoom hpositionRoom hoffsetRoom
      fun bindings hmade => (hrooms bindings hmade).2.2.2.2
  | rangePattern receiver length slice argument type =>
    obtain ⟨-, result, hresult, hpattern⟩ := Source.Access.rangePattern_yields h
    cases hresult
    obtain ⟨value, first, object, size, second, bounds, third, range, start, stop, hreceiver,
      hmeasured, hbounds, hbounded, rfl⟩ := rangePattern_yields hpattern
    have hself := receiver.lower_selfContained hliterals hreceiver
    have hself' := argument.lower_selfContained hliterals hbounds
    have hscoped := (Source.Access.lowerCore_selfContained hliterals _ h).wellScoped
    obtain ⟨hvalueRoom, hmeasuredRoom, hboundsRoom, hroom⟩ := range_hasRoom hself hmeasured hself'
      (range_comprises slice hmeasured hbounded) hscoped hroom
    exact .range (receiver.lower_means hliterals hreceiver hvalueRoom)
      (argument.lower_means hliterals hbounds hboundsRoom) hmeasured hself' hbounded
      hmeasuredRoom hboundsRoom hroom
termination_by structural node

end

end Induction

/-- Lowering keeps the meaning of every expression: whatever the machine does, and whatever the
temporaries hold before, running the lowered code gives the value of the source expression and
leaves the world that evaluating it leaves, with the same log of actions. The count of temporaries
must not wrap around. -/
theorem Source.Expr.lower_preserves_meaning {σ ν : Type} (machine : Machine σ ν)
    (memory : Memory σ ν) {env : Env} (hliterals : env.builder = .literals) (expr : Source.Expr)
    {allocator rest : Allocator} {lowered : Code.Expr}
    (h : expr.lower.Yields env allocator lowered rest)
    (hroom : allocator.HasRoom lowered.declared.length) :
    (expr.eval env machine).run memory.world =
      some ((lowered.eval machine memory).1, (lowered.eval machine memory).2.world) :=
  expr.lower_means machine hliterals h hroom memory

/-- An access inside an access, both of them with arguments that change places: three calls of `f`
and two of the getter are made, and the last one gives the number of those before it. -/
theorem Source.Expr.lower_preserves_meaning_of_nested_access :
    let memory : Memory Nat Nat := ⟨⟨0, []⟩, fun _ => 0⟩
    let inner : Source.Expr := .access Sample.info (Sample.swapped Sample.call Sample.call [])
    let expr : Source.Expr := .access Sample.info (Sample.swapped inner Sample.call [])
    ∃ lowered rest, expr.lower.Yields Sample.env {} lowered rest ∧
      ({} : Allocator).HasRoom lowered.declared.length ∧
        (lowered.eval .numbering memory).1 = 4 ∧
          (expr.eval Sample.env .numbering).run memory.world =
            some ((lowered.eval .numbering memory).1,
              (lowered.eval .numbering memory).2.world) := by
  intro memory inner expr
  have hrun : expr.lower.Yields Sample.env {} _ _ := ⟨_, rfl⟩
  exact ⟨_, _, hrun, by decide, rfl,
    expr.lower_preserves_meaning .numbering memory rfl hrun (by decide)⟩

end Subscript
