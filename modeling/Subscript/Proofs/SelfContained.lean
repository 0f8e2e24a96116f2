import Subscript.Proofs.Accounting

/-!
# Lowered code is self-contained

Lowering gives well-scoped code that reads no temporaries from outside, and declares exactly the
temporaries that are handed out on the way. Operands are lowered to such code by induction; what an
access adds to them is well-scoped wherever its operands are.

## Architecture

- §1 receivers and arguments that are bound
- §2 elements
- §3 patterns
- §4 the induction over expressions and accesses
-/

namespace Subscript

open Code (Allocator Binding Expr Holding Lowered ScopedAll ScopedBindings scopeBehind)
open Source (Mode)

variable {scope : List TempId} {allocator rest : Allocator}

namespace Lowering

/-! ## §1 Bound receivers and arguments -/

section Bound

variable {types : TypeTable} {shape : CallShape} {params : List Param}
  {arguments reads placed : List Expr} {receiver read argument : Expr} {bindings : List Binding}
  {site : Location} {placement : List Nat}

private theorem scoped_reference (binding : Binding) (h : binding.temp.id ∈ scope) :
    binding.reference.Scoped scope := h

/-- Code that is well-scoped stays so behind bindings. -/
private theorem scoped_behind {expr : Expr} (bindings : List Binding) (h : expr.Scoped scope) :
    expr.Scoped (scopeBehind scope (bindings.map (·.temp))) :=
  Expr.Scoped.mono (fun _ hid => Code.mem_scopeBehind.mpr (.inr hid)) expr h

private theorem scopedAll_behind (bindings : List Binding) {exprs : List Expr}
    (h : ScopedAll scope exprs) : ScopedAll (scopeBehind scope (bindings.map (·.temp))) exprs :=
  ScopedAll.mono (fun _ hid => Code.mem_scopeBehind.mpr (.inr hid)) exprs h

/-- What is bound for a receiver is well-scoped where the receiver is, and what is read in its
place behind it. -/
private theorem Settled.scoped
    (h : Settled types shape params arguments receiver allocator read bindings rest)
    (hreceiver : receiver.Scoped scope) :
    Binding.AllScoped scope bindings ∧
      read.Scoped (scopeBehind scope (bindings.map (·.temp))) := by
  cases h with
  | stays => exact ⟨trivial, hreceiver⟩
  | bound =>
    exact ⟨Code.Binding.allScoped_bind_cons.mpr ⟨hreceiver, trivial⟩,
      scoped_reference _ (by simp)⟩

/-- Bound arguments are well-scoped where the arguments are, and what is read in their place
behind them. -/
private theorem Spilled.scoped {position : Nat}
    (h : Spilled shape position allocator arguments reads bindings rest)
    (harguments : ScopedAll scope arguments) :
    Binding.AllScoped scope bindings ∧
      ScopedAll (scopeBehind scope (bindings.map (·.temp))) reads := by
  induction h generalizing scope with
  | nil => exact ⟨trivial, trivial⟩
  | stable _ _ ih =>
    obtain ⟨hbindings, hreads⟩ := ih harguments.2
    exact ⟨hbindings, scoped_behind _ harguments.1, hreads⟩
  | bound _ _ ih =>
    -- the later arguments do not know the new temporary, but may stand behind its store
    obtain ⟨hbindings, hreads⟩ := ih (ScopedAll.mono (List.subset_cons_self _ _) _ harguments.2)
    refine ⟨Code.Binding.allScoped_bind_cons.mpr ⟨harguments.1, hbindings⟩, ?_⟩
    rw [List.map_cons, Code.scopeBehind_cons]
    exact ⟨scoped_reference _ (Code.mem_scopeBehind.mpr (.inr (List.mem_cons_self ..))), hreads⟩

private theorem ReadFrom.scoped
    (h : ReadFrom shape placement allocator arguments reads bindings rest)
    (harguments : ScopedAll scope arguments) :
    Binding.AllScoped scope bindings ∧
      ScopedAll (scopeBehind scope (bindings.map (·.temp))) reads := by
  cases h with
  | bound _ hspilled => exact hspilled.scoped harguments
  | direct => exact ⟨trivial, harguments⟩

private theorem Argument.scoped {param : Param} {collects : Bool}
    (h : Argument types site param collects placed argument) (hplaced : ScopedAll scope placed) :
    argument.Scoped scope := by
  cases h with
  | collected => exact hplaced
  | written => exact hplaced.1
  | empty => trivial
  | default => trivial

/-- The arguments of all parameters are well-scoped where what is placed at them is. -/
private theorem Arguments.scoped {collecting? : Option Nat} {position : Nat}
    (h : Arguments types site collecting? placement reads position params arguments)
    (hreads : ScopedAll scope reads) : ScopedAll scope arguments := by
  induction h with
  | nil => trivial
  | cons hargument _ ih =>
    refine ⟨hargument.scoped (Code.scopedAll_iff.mpr fun read hread => ?_), ih⟩
    exact Code.scopedAll_iff.mp hreads read (mem_of_mem_placedAt hread)

end Bound

/-! ## §2 Elements -/

section Elements

variable {env : Env} {receiver : Expr} {property : Property} {arguments : List Expr}
  {shape : CallShape} {info : Info} {mode : Mode}

/-- The call of a getter is well-scoped: its bindings are, one behind the other, and receiver and
arguments are read behind all of them. -/
theorem GetterCall.scoped {result : Expr}
    (h : GetterCall env receiver property arguments shape info allocator result rest)
    (hreceiver : receiver.Scoped scope) (harguments : ScopedAll scope arguments) :
    result.Scoped scope := by
  cases h with
  | @mk _ _ read ahead _ _ _ _ normalized _ _ hsettled hnormal =>
    obtain ⟨hahead, hread⟩ := hsettled.scoped hreceiver
    obtain ⟨hbindings, hreads⟩ := hnormal.readFrom.scoped (scopedAll_behind ahead harguments)
    refine Code.scoped_sequence_iff.mpr ⟨hahead.append hbindings, ?_⟩
    -- the call sees the temporary of the receiver and those of the arguments
    have hscope : scopeBehind scope ((ahead ++ normalized.bindings).map (·.temp)) =
        scopeBehind (scopeBehind scope (ahead.map (·.temp)))
          (normalized.bindings.map (·.temp)) := by
      simp [scopeBehind]
    rw [hscope]
    exact ⟨scoped_behind _ hread, hnormal.arguments.scoped hreads⟩

theorem IndexerElement.scoped {indexer : SymbolId} {result : Lowered}
    (h : IndexerElement env receiver indexer arguments shape info mode allocator result rest)
    (hreceiver : receiver.Scoped scope) (harguments : ScopedAll scope arguments) :
    result.Scoped scope := by
  cases h with
  | place => exact ⟨rfl, trivial, hreceiver, harguments⟩
  | value _ _ hcall => exact hcall.scoped hreceiver harguments

theorem ElementAt.scoped {object offset : Expr} {intIndexer? : Option SymbolId}
    {result : Lowered} (h : ElementAt env object offset intIndexer? info mode allocator result rest)
    (hobject : object.Scoped scope) (hoffset : offset.Scoped scope) : result.Scoped scope := by
  cases h with
  | indexer _ helement => exact helement.scoped hobject ⟨hoffset, trivial⟩
  | array =>
    cases mode with
    | read => exact ⟨hobject, hoffset⟩
    | write => exact ⟨rfl, trivial, hobject, hoffset, trivial⟩

end Elements

/-! ## §3 Patterns -/

section Patterns

variable {env : Env} {value position : Expr} {length : SymbolId} {site : Location}
  {holding : Holding} {object size offset : Binding}

private theorem scoped_readMember {member : SymbolId} {read : Expr}
    (h : (readMember value member site).Yields env allocator read rest)
    (hvalue : value.Scoped scope) : read.Scoped scope := by
  obtain ⟨-, ⟨property, getter, byRef, -, -, -, rfl⟩ | ⟨field, -, rfl⟩⟩ :=
    readMember_yields_iff.mp h
  · exact ⟨hvalue, trivial⟩
  · exact hvalue

/-- A receiver is bound where it is well-scoped, and its length is read behind it. -/
private theorem Measured.scoped
    (h : Measured env value length site holding allocator object size rest)
    (hvalue : value.Scoped scope) : Binding.AllScoped scope [object, size] := by
  cases h with
  | mk hlength =>
    refine Code.Binding.allScoped_bind_cons.mpr ⟨hvalue, ?_⟩
    refine Code.Binding.allScoped_bind_cons.mpr ⟨?_, trivial⟩
    exact scoped_readMember hlength (scoped_reference _ (List.mem_cons_self ..))

private theorem Offset.scoped {read : Expr}
    (h : Offset env position read site allocator offset rest)
    (hposition : position.Scoped scope) (hread : read.Scoped scope) :
    Binding.AllScoped scope [offset] := by
  cases h with
  | mk =>
    exact Code.Binding.allScoped_bind_cons.mpr ⟨⟨hposition, hread, trivial⟩, trivial⟩

/-- Running bindings ahead of an access lets it read their temporaries. -/
theorem scoped_runAhead {bindings : List Binding} {lowered : Lowered}
    (hbindings : Binding.AllScoped scope bindings)
    (hlowered : lowered.Scoped (scopeBehind scope (bindings.map (·.temp)))) :
    (runAhead bindings lowered).Scoped scope := by
  cases lowered with
  | value expr => exact Code.scoped_sequence_iff.mpr ⟨hbindings, hlowered⟩
  | target assignable =>
    obtain ⟨hlength, hstores, hplace⟩ := hlowered
    refine ⟨by simp [hlength], hbindings.append_of hstores, ?_⟩
    -- the place is read behind both the new bindings and those of the target
    have hscope : scopeBehind scope (bindings.map (·.temp) ++ assignable.temps) =
        scopeBehind (scopeBehind scope (bindings.map (·.temp))) assignable.temps := by
      simp [scopeBehind]
    exact hscope ▸ hplace

/-- An access by position is well-scoped where its receiver and its position are. -/
private theorem scoped_index {intIndexer? : Option SymbolId} {info : Info} {mode : Mode}
    {first second third fourth : Allocator} {element : Lowered}
    (hmeasured : Measured env value length info.location holding first object size second)
    (hoffset : Offset env position size.reference info.location third offset fourth)
    (helement : ElementAt env object.reference offset.reference intIndexer? info mode fourth
      element rest) (hvalue : value.Scoped scope) (hposition : position.Scoped scope) :
    (runAhead [object, size, offset] element).Scoped scope := by
  refine scoped_runAhead ?_ (helement.scoped (scoped_reference _ (by simp [scopeBehind]))
    (scoped_reference _ (by simp [scopeBehind])))
  have hoffsetBound : Binding.AllScoped (scopeBehind scope ([object, size].map (·.temp)))
      [offset] :=
    hoffset.scoped (scoped_behind _ hposition) (scoped_reference _ (by simp [scopeBehind]))
  exact (hmeasured.scoped hvalue).append hoffsetBound

/-- Each end of a range reads the range and the length, which are bound ahead of it. So the three
bindings are in scope one after the other. -/
private theorem Bounded.scoped {bounds length : Expr} {range start stop : Binding}
    (h : Bounded env bounds length site allocator range start stop rest)
    (hbounds : bounds.Scoped scope) (hlength : length.Scoped scope) :
    Binding.AllScoped scope [range, start, stop] := by
  cases h with
  | mk _ hstart _ hstop =>
    refine Code.Binding.allScoped_bind_cons.mpr ⟨hbounds, ?_⟩
    -- an end is in scope wherever the range and the length are
    have hends : ∀ {inner : List TempId} {read : SymbolId} {before after : Allocator}
        {bound : Binding}, scope ⊆ inner → allocator.next ∈ inner →
        Offset env (.call ⟨env.types.indexType, site⟩ (allocator.bind bounds .copy).1.reference
          read [] false) length site before bound after → Binding.AllScoped inner [bound] := by
      intro inner read before after bound hsub hrange hend
      exact hend.scoped ⟨scoped_reference _ hrange, trivial⟩ (Expr.Scoped.mono hsub _ hlength)
    refine Binding.AllScoped.append (hends (List.subset_cons_self _ _) (.head _) hstart)
      (hends ?_ ?_ hstop)
    · intro id hid
      simp [scopeBehind, hid]
    · simp [scopeBehind]

/-- An access by range is well-scoped where its receiver and its range are. -/
private theorem scoped_range (slice : SymbolId) {info : Info} {bounds : Expr}
    {first second third : Allocator} {range start stop : Binding}
    (hmeasured : Measured env value length info.location holding first object size second)
    (hbounded : Bounded env bounds size.reference info.location third range start stop rest)
    (hvalue : value.Scoped scope) (hbounds : bounds.Scoped scope) :
    (Code.sequence [object, size, range, start, stop]
      (sliceBetween env object start stop slice info)).Scoped scope := by
  have hends : Binding.AllScoped (scopeBehind scope ([object, size].map (·.temp)))
      [range, start, stop] :=
    hbounded.scoped (scoped_behind _ hbounds) (scoped_reference _ (by simp [scopeBehind]))
  refine Code.scoped_sequence_iff.mpr ⟨(hmeasured.scoped hvalue).append hends, ?_⟩
  refine ⟨?_, ?_, ⟨?_, ?_⟩, trivial⟩
  all_goals exact scoped_reference _ (by simp [scopeBehind])

end Patterns

end Lowering

/-! ## §4 Expressions and accesses -/

open Lowering

/-- A lowered access reads only temporaries it declares itself, and all of those; it declares
exactly those handed out while it was made, named by the stem of that time. -/
structure SelfContained (allocator : Allocator) (lowered : Lowered) (rest : Allocator) :
    Prop where
  wellScoped : lowered.Scoped []
  handsOut : allocator.HandsOut lowered.declared rest
  named : ∀ temp ∈ lowered.temps, temp.NamedBy allocator.stem
  read : ∀ id ∈ lowered.declared, id ∈ lowered.reads

/-- The same for several expressions, one after the other. -/
structure SelfContainedAll (allocator : Allocator) (exprs : List Expr) (rest : Allocator) :
    Prop where
  wellScoped : ScopedAll [] exprs
  handsOut : allocator.HandsOut (exprs.flatMap Expr.declared) rest
  named : ∀ temp ∈ exprs.flatMap Expr.temps, temp.NamedBy allocator.stem
  read : ∀ id ∈ exprs.flatMap Expr.declared, id ∈ exprs.flatMap Expr.reads

section Steps

variable {env : Env} {middle : Allocator}

theorem SelfContainedAll.nil (allocator : Allocator) : SelfContainedAll allocator
    [] allocator :=
  ⟨trivial, .nil allocator, by simp, by simp⟩

/-- An operand that was lowered before others goes along with them. -/
theorem SelfContainedAll.cons {expr : Expr} {exprs : List Expr}
    (h : SelfContained allocator (.value expr) middle) (h' : SelfContainedAll middle exprs rest) :
    SelfContainedAll allocator (expr :: exprs) rest := by
  refine ⟨⟨h.wellScoped, h'.wellScoped⟩, h.handsOut.append h'.handsOut, ?_, ?_⟩
  · intro temp htemp
    rcases List.mem_append.mp htemp with htemp | htemp
    · exact h.named temp htemp
    · exact h.handsOut.stem_eq ▸ h'.named temp htemp
  · intro id hid
    apply List.mem_append.mpr
    exact (List.mem_append.mp hid).imp (h.read id) (h'.read id)

theorem SelfContainedAll.single {expr : Expr} (h : SelfContained allocator (.value expr) rest) :
    SelfContainedAll allocator [expr] rest :=
  .cons h (.nil rest)

/-- What is made of self-contained operands and new bindings is self-contained. -/
theorem SelfContained.of_madeOf {result : Lowered} {operands : List Expr}
    {bindings : List Binding} (hoperands : SelfContainedAll allocator operands middle)
    (hmade : MadeOf result operands bindings middle rest)
    (hscoped : result.Scoped []) : SelfContained allocator result rest := by
  refine ⟨hscoped, (hoperands.handsOut.append hmade.handsOut).of_perm ?_,
    hmade.toComprises.named hscoped (hoperands.handsOut.stem_eq ▸ hmade.named) hoperands.named,
    hmade.read hscoped hoperands.read⟩
  exact (hmade.declared_perm hscoped).trans List.perm_append_comm

/-- Plain nodes add no temporaries, so what their operands say of themselves is all there is to
say. -/
theorem SelfContained.of_plain {expr : Expr} (hplain : expr.isPlain = true)
    (h : SelfContainedAll allocator expr.operands rest) :
    SelfContained allocator (.value expr) rest := by
  refine ⟨(Expr.scoped_iff_of_isPlain hplain).mpr h.wellScoped, ?_, ?_, ?_⟩
  · rw [Lowered.declared, Expr.declared, Code.ofBindings_declared.gather_of_isPlain hplain]
    exact h.handsOut
  · rw [Lowered.temps, Expr.temps, Code.ofBindings_temps.gather_of_isPlain hplain]
    exact h.named
  · rw [Lowered.declared, Expr.declared, Code.ofBindings_declared.gather_of_isPlain hplain,
      Lowered.reads, Expr.reads_of_isPlain hplain]
    exact h.read

private theorem SelfContained.literal (allocator : Allocator) (info : Info) (value : Literal) :
    SelfContained allocator (.value (.literal info value)) allocator :=
  .of_plain rfl (.nil allocator)

/-- Two operands, the second lowered at any time after the first. -/
theorem SelfContained.pair {left right : Expr} {later last : Allocator}
    (h : SelfContained allocator (.value left) middle)
    (h' : SelfContained later (.value right) last) (hstem : later.stem = allocator.stem) :
    (∀ temp ∈ [left, right].flatMap Expr.temps, temp.NamedBy allocator.stem) ∧
      ∀ id ∈ [left, right].flatMap Expr.declared, id ∈ [left, right].flatMap Expr.reads := by
  simp only [List.flatMap_cons, List.flatMap_nil, List.append_nil, List.mem_append]
  refine ⟨?_, fun id => Or.imp (h.read id) (h'.read id)⟩
  rintro temp (htemp | htemp)
  · exact h.named temp htemp
  · exact hstem ▸ h'.named temp htemp

/-- An access by position is self-contained, if its receiver and its position are. Identifiers
come from five steps in a row, and all of them are declared in front of the element. -/
theorem SelfContained.index {value position : Expr} {length : SymbolId}
    {intIndexer? : Option SymbolId} {info : Info} {mode : Mode}
    {first second third fourth : Allocator} {object size offset : Binding} {element : Lowered}
    (hvalue : SelfContained allocator (.value value) first)
    (hmeasured : Measured env value length info.location (receiverHolding env.types value) first
      object size second)
    (hposition : SelfContained second (.value position) third)
    (hoffset : Offset env position size.reference info.location third offset fourth)
    (helement : ElementAt env object.reference offset.reference intIndexer? info mode fourth
      element rest) :
    SelfContained allocator (runAhead [object, size, offset] element) rest := by
  have hscoped : (runAhead [object, size, offset] element).Scoped [] :=
    scoped_index hmeasured hoffset helement hvalue.wellScoped hposition.wellScoped
  obtain ⟨bindings, hbindings, hnamed, -, hcomprises⟩ := index_madeOf hmeasured hoffset helement
  obtain ⟨hmeasuredOut, hmeasuredNamed, -⟩ := hmeasured.madeOf
  obtain ⟨hoffsetOut, hoffsetNamed, -⟩ := hoffset.madeOf
  -- none of the steps changes the stem
  have hfirst := hvalue.handsOut.stem_eq
  have hsecond := hmeasuredOut.stem_eq.trans hfirst
  have hthird := hposition.handsOut.stem_eq.trans hsecond
  have hfourth := hoffsetOut.stem_eq.trans hthird
  rw [hfirst] at hmeasuredNamed
  rw [hthird] at hoffsetNamed
  rw [hfourth] at hnamed
  obtain ⟨hoperandsNamed, hread⟩ := hvalue.pair hposition hsecond
  refine ⟨hscoped, ?_, hcomprises.named hscoped (hmeasuredNamed.append (.cons hoffsetNamed hnamed))
    hoperandsNamed, hcomprises.read hscoped hread⟩
  -- temporaries are handed out in the order of the steps, and listed in the order of the result
  have hhandsOut := hvalue.handsOut.append (hmeasuredOut.append
    (hposition.handsOut.append (hoffsetOut.append hbindings)))
  apply hhandsOut.of_perm
  apply (hcomprises.declared_perm hscoped).trans
  apply List.perm_iff_count.mpr
  intro id
  simp only [Lowered.declared, Expr.declared, List.map_cons, List.flatMap_cons, List.flatMap_nil,
    List.count_append, List.count_cons, List.count_nil]
  omega

/-- An access by range is self-contained, if its receiver and its range are, by the same count of
identifiers; here all five bindings stand in one sequence. -/
theorem SelfContained.range (slice : SymbolId) {value bounds : Expr} {length : SymbolId}
    {info : Info} {first second third : Allocator} {object size range start stop : Binding}
    (hvalue : SelfContained allocator (.value value) first)
    (hmeasured : Measured env value length info.location .copy first object size second)
    (hbounds : SelfContained second (.value bounds) third)
    (hbounded : Bounded env bounds size.reference info.location third range start stop rest) :
    SelfContained allocator (.value (Code.sequence [object, size, range, start, stop]
      (sliceBetween env object start stop slice info))) rest := by
  have hscoped := scoped_range slice hmeasured hbounded hvalue.wellScoped hbounds.wellScoped
  have hcomprises := range_comprises slice hmeasured hbounded
  -- again none of the steps changes the stem
  obtain ⟨hmeasuredOut, hmeasuredNamed, -⟩ := hmeasured.madeOf
  obtain ⟨hboundedOut, hboundedNamed, -⟩ := hbounded.madeOf
  have hfirst := hvalue.handsOut.stem_eq
  have hsecond := hmeasuredOut.stem_eq.trans hfirst
  rw [hfirst] at hmeasuredNamed
  rw [hbounds.handsOut.stem_eq, hsecond] at hboundedNamed
  obtain ⟨hoperandsNamed, hread⟩ := hvalue.pair hbounds hsecond
  refine ⟨hscoped, ?_, hcomprises.named hscoped (hmeasuredNamed.append hboundedNamed)
    hoperandsNamed, hcomprises.read hscoped hread⟩
  have hhandsOut := hvalue.handsOut.append (hmeasuredOut.append
    (hbounds.handsOut.append hboundedOut))
  apply hhandsOut.of_perm
  apply (hcomprises.declared_perm hscoped).trans
  -- the same identifiers, in another order
  apply List.perm_iff_count.mpr
  intro id
  simp only [Lowered.declared, Expr.declared, List.map_cons, List.map_nil, List.flatMap_cons,
    List.flatMap_nil, List.count_append, List.count_cons, List.count_nil]
  omega

end Steps

section Induction

variable {env : Env}

/-- A member of a self-contained object is self-contained. -/
theorem SelfContained.readMember {object read : Expr} {member : SymbolId} {site : Location}
    {middle : Allocator} (hobject : SelfContained allocator (.value object) middle)
    (h : (readMember object member site).Yields env middle read rest) :
    SelfContained allocator (.value read) rest := by
  obtain ⟨rfl, ⟨property, getter, byRef, -, -, -, rfl⟩ | ⟨field, -, rfl⟩⟩ :=
    readMember_yields_iff.mp h
  · exact .of_plain rfl (.single hobject)
  · exact .of_plain rfl (.single hobject)

/-- A bound that is self-contained stays so as a position. -/
theorem Lowering.BoundPosition.selfContained {bound : Info} {value position : Expr}
    (h : BoundPosition env bound value position)
    (hvalue : SelfContained allocator (.value value) rest) :
    SelfContained allocator (.value position) rest := by
  cases h with
  | counted => exact .of_plain rfl (.single hvalue)
  | same => exact hvalue

mutual

/-- A lowered expression is self-contained: it may stand anywhere, its temporaries are those that
were handed out for it, and they are named by the stem in force. -/
theorem Source.Expr.lower_selfContained (hliterals : env.builder = .literals)
    (expr : Source.Expr) {allocator rest : Allocator} {lowered : Expr}
    (h : expr.lower.Yields env allocator lowered rest) :
    SelfContained allocator (.value lowered) rest := by
  cases expr with
  | literal info value =>
    obtain ⟨rfl, rfl⟩ := yields_pure_iff.mp h
    exact .literal allocator info value
  | var info symbol =>
    obtain ⟨rfl, rfl⟩ := yields_pure_iff.mp h
    exact .of_plain rfl (.nil allocator)
  | self info =>
    obtain ⟨rfl, rfl⟩ := yields_pure_iff.mp h
    exact .of_plain rfl (.nil allocator)
  | field info object field =>
    obtain ⟨value, hobject, rfl⟩ := Source.Expr.field_yields h
    exact .of_plain rfl (.single (object.lower_selfContained hliterals hobject))
  | property info object property =>
    obtain ⟨value, middle, hobject, hread⟩ := Source.Expr.property_yields h
    exact (object.lower_selfContained hliterals hobject).readMember hread
  | indexedProperty info object property => exact absurd h not_yields_fail
  | call info receiver method arguments =>
    obtain ⟨value, middle, values, _, hreceiver, harguments, -, rfl⟩ :=
      Source.Expr.call_yields h
    exact .of_plain rfl (.cons (receiver.lower_selfContained hliterals hreceiver)
      (lowerAll_selfContained hliterals arguments harguments))
  | staticCall info method arguments =>
    obtain ⟨values, _, harguments, -, rfl⟩ := Source.Expr.staticCall_yields h
    exact .of_plain rfl (lowerAll_selfContained hliterals arguments harguments)
  | fromEnd info operand =>
    obtain ⟨constructor, value, -, hvalue, rfl⟩ := positionFromEnd_yields h
    exact .of_plain rfl (.cons (operand.lower_selfContained hliterals hvalue)
      (.single (.literal rest _ _)))
  | rangeAll info =>
    obtain ⟨_, -, rfl, rfl⟩ := fullRange_yields h
    exact .of_plain rfl (.nil allocator)
  | rangeFrom info bound | rangeUpTo info bound =>
    obtain ⟨_, value, position, -, hvalue, hbound, rfl⟩ := halfOpenRange_yields h
    have hposition := hbound.selfContained (bound.lower_selfContained hliterals hvalue)
    exact .of_plain rfl (.single hposition)
  | rangeBetween info start stop =>
    obtain ⟨_, value, _, _, value', _, -, hvalue, hbound, hvalue', hbound', rfl⟩ :=
      closedRange_yields h
    have hstart := hbound.selfContained (start.lower_selfContained hliterals hvalue)
    have hstop := hbound'.selfContained (stop.lower_selfContained hliterals hvalue')
    exact .of_plain rfl (.cons hstart (.single hstop))
  | access info node =>
    exact node.lowerCore_selfContained hliterals
      (Source.Access.lower_yields_iff.mp (Source.Expr.access_yields h)).1
termination_by structural expr

/-- Operands that are lowered one by one are self-contained one after the other. -/
theorem lowerAll_selfContained (hliterals : env.builder = .literals) (exprs : List Source.Expr)
    {allocator rest : Allocator} {lowered : List Expr}
    (h : (lowerAll exprs).Yields env allocator lowered rest) :
    SelfContainedAll allocator lowered rest := by
  cases exprs with
  | nil =>
    obtain ⟨rfl, rfl⟩ := yields_pure_iff.mp h
    exact .nil allocator
  | cons expr exprs =>
    obtain ⟨value, _, values, hvalue, hvalues, rfl⟩ := lowerAll_cons_yields h
    exact .cons (expr.lower_selfContained hliterals hvalue)
      (lowerAll_selfContained hliterals exprs hvalues)
termination_by structural exprs

/-- An access lowered by itself is self-contained, before it is checked: it is in scope, it
declares what the allocator handed out for it, and its operands are self-contained by induction.
-/
theorem Source.Access.lowerCore_selfContained (hliterals : env.builder = .literals)
    (node : Source.Access) {mode : Mode} {site : Location} {allocator rest : Allocator}
    {lowered : Lowered}
    (h : (node.lowerCore Source.Expr.lower mode site).Yields env allocator lowered rest) :
    SelfContained allocator lowered rest := by
  cases node with
  | indexer receiver arguments indexer shape type =>
    obtain ⟨object, first, operands, second, hreceiver, harguments, helement⟩ :=
      Source.Access.indexer_yields hliterals h
    -- an indexed property is read here and nowhere else; it is no expression by itself
    have hobject : SelfContained allocator (.value object) first := by
      cases receiver with
      | indexedProperty info owner property =>
        obtain ⟨value, middle, hvalue, hread⟩ := readIndexedProperty_yields hreceiver
        exact (owner.lower_selfContained hliterals hvalue).readMember hread
      | _ => exact Source.Expr.lower_selfContained hliterals _ hreceiver
    have hoperands := lowerAll_selfContained hliterals arguments harguments
    obtain ⟨bindings, hmade, -⟩ := helement.madeOf
    exact .of_madeOf (.cons hobject hoperands) hmade
      (helement.scoped hobject.wellScoped hoperands.wellScoped)
  | dynamic receiver arguments candidates names refKinds type =>
    obtain ⟨object, middle, operands, hreceiver, harguments, rfl⟩ :=
      Source.Access.dynamic_yields h
    have hobject : SelfContained allocator (.value object) middle := by
      cases receiver with
      | indexedProperty info owner property =>
        obtain ⟨value, hvalue, rfl⟩ := fetchIndexedProperty_yields hreceiver
        exact .of_plain rfl (.single (owner.lower_selfContained hliterals hvalue))
      | _ => exact Source.Expr.lower_selfContained hliterals _ hreceiver
    have hoperands := lowerAll_selfContained hliterals arguments harguments
    have hscoped : (dynamicLowered object operands names refKinds ⟨type, site⟩ mode).Scoped [] := by
      cases mode with
      | read => exact ⟨hobject.wellScoped, hoperands.wellScoped⟩
      | write => exact ⟨rfl, trivial, hobject.wellScoped, hoperands.wellScoped⟩
    exact .of_madeOf (.cons hobject hoperands)
      ⟨dynamicLowered_comprises object operands names refKinds _ mode, .nil rest, .nil⟩ hscoped
  | indexPattern receiver length intIndexer? argument type =>
    obtain ⟨value, first, object, size, second, position, third, offset, fourth, element,
      hreceiver, hmeasured, hposition, hoffset, helement, rfl⟩ :=
      Source.Access.indexPattern_yields hliterals h
    exact .index (receiver.lower_selfContained hliterals hreceiver) hmeasured
      (argument.lower_selfContained hliterals hposition) hoffset helement
  | rangePattern receiver length slice argument type =>
    obtain ⟨rfl, value, rfl, hpattern⟩ := Source.Access.rangePattern_yields h
    obtain ⟨object, first, objectBinding, size, second, bounds, third, range, start, stop,
      hreceiver, hmeasured, hargument, hbounded, rfl⟩ := rangePattern_yields hpattern
    exact .range slice (receiver.lower_selfContained hliterals hreceiver) hmeasured
      (argument.lower_selfContained hliterals hargument) hbounded
termination_by structural node

end

/-- A lowered access is self-contained. -/
theorem Source.Access.lower_selfContained (hliterals : env.builder = .literals)
    (node : Source.Access) {mode : Mode} {site : Location} {allocator rest : Allocator}
    {lowered : Lowered} (h : (node.lower mode site).Yields env allocator lowered rest) :
    SelfContained allocator lowered rest :=
  node.lowerCore_selfContained hliterals (Source.Access.lower_yields_iff.mp h).1

end Induction

end Subscript
