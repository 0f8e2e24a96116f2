import Subscript.Proofs.Accesses
import Subscript.Proofs.Scoped

/-!
# What lowered code is made of

Lowering an access adds bindings to the code of its operands and nothing else that declares a
temporary. So whatever only sequences contribute is found in the result exactly where it is found
in the operands, and once more for each binding. Two contributions matter: the temporaries that are
declared, and those that should hold storage but cannot; only a bound argument adds to the latter.

## Architecture

- §1 lowered accesses
- §2 bound receivers and bound arguments
- §3 calls of a getter and elements
- §4 patterns
-/

namespace Subscript

open Code (Allocator Binding Expr Holding Lowered OfBindings Target)
open Source (Mode)

variable {α : Type} {own : Expr → List α} {each : Binding → List α}

/-! ## §1 Lowered accesses -/

namespace Code

theorem OfBindings.overlooks (hown : OfBindings own each) : Lowering.Overlooks own where
  computed expr h := by
    apply hown.other
    cases expr with
    | sequence => cases h
    | _ => rfl
  temp _ _ := hown.other _ rfl
  store _ _ _ := hown.other _ rfl

/-- Plain expressions contribute nothing themselves, the object and variables included. -/
theorem OfBindings.gather_of_isPlain (hown : OfBindings own each) {expr : Expr}
    (h : expr.isPlain = true) : expr.gather own = expr.operands.flatMap (Expr.gather own) := by
  have hsequence : expr.isSequence = false := by
    cases expr with
    | sequence => cases h
    | _ => rfl
  rw [Expr.gather_of_isPlain own h, hown.other expr hsequence, List.nil_append]

/-- Declarations are no matter of computed expressions. -/
theorem overlooksComputed_declared : Lowering.OverlooksComputed Expr.ownDeclared :=
  ofBindings_declared.overlooks.toOverlooksComputed

/-- Neither is what temporaries are bound to. -/
theorem overlooksComputed_misbound : Lowering.OverlooksComputed Expr.ownMisbound :=
  ofBindings_misbound.overlooks.toOverlooksComputed

/-- What the bindings of a lowered access and everything inside it contribute. -/
def Lowered.gather (own : Expr → List α) (each : Binding → List α) : Lowered → List α
  | .value expr => expr.gather own
  | .target assignable =>
    (List.zipWith Binding.mk assignable.temps assignable.stores).flatMap each ++
      (assignable.stores.flatMap (Expr.gather own) ++
        assignable.place.operands.flatMap (Expr.gather own))

theorem Lowered.misbound_eq_gather (lowered : Lowered) :
    lowered.misbound = lowered.gather Expr.ownMisbound Binding.misbound := by
  cases lowered <;> rfl

/-- The declared temporaries of an access whose bindings are complete. -/
theorem Lowered.Scoped.declared_eq_gather {scope : List TempId} {lowered : Lowered}
    (h : lowered.Scoped scope) :
    lowered.declared = lowered.gather Expr.ownDeclared fun binding => [binding.temp.id] := by
  cases lowered with
  | value expr => rfl
  | target assignable =>
    obtain ⟨temps, stores, place, info⟩ := assignable
    obtain ⟨bindings, rfl, rfl⟩ := exists_bindings h.1
    simp only [Lowered.declared, Target.declared, Lowered.gather, zipWith_mk]
    rw [List.map_map, List.map_eq_flatMap]
    rfl

/-- The temporaries of an access whose bindings are complete. -/
theorem Lowered.Scoped.temps_eq_gather {scope : List TempId} {lowered : Lowered}
    (h : lowered.Scoped scope) :
    lowered.temps = lowered.gather Expr.ownTemps fun binding => [binding.temp] := by
  cases lowered with
  | value expr => rfl
  | target assignable =>
    obtain ⟨temps, stores, place, info⟩ := assignable
    obtain ⟨bindings, rfl, rfl⟩ := exists_bindings h.1
    simp only [Lowered.temps, Target.allTemps, Lowered.gather, zipWith_mk]
    rw [List.map_eq_flatMap]

theorem Lowered.reads_eq_gather (lowered : Lowered) :
    lowered.reads = lowered.gather Expr.ownReads fun _ => [] := by
  cases lowered with
  | value expr => rfl
  | target assignable => simp [Lowered.reads, Target.reads, Lowered.gather]

/-- Running bindings ahead of an access adds what they contribute, whether it is a value or a
target. -/
theorem Lowered.gather_runAhead (hown : SumsBindings own each) (bindings : List Binding)
    (lowered : Lowered) :
    ((Lowering.runAhead bindings lowered).gather own each).Perm
      (bindings.flatMap each ++
        ((bindings.map (·.store)).flatMap (Expr.gather own) ++ lowered.gather own each)) := by
  cases lowered with
  | value expr =>
    rw [Lowering.runAhead, Lowered.gather, gather_sequence_of_bindings hown]
    rfl
  | target assignable =>
    simp only [Lowering.runAhead, Lowered.gather]
    -- the bindings of the target itself come behind those that run ahead
    rw [List.zipWith_append (by simp), zipWith_mk, List.flatMap_append, List.flatMap_append]
    simp only [List.append_assoc]
    exact (List.perm_append_comm_assoc _ _ _).append_left _

theorem Lowered.mem_reads_runAhead {bindings : List Binding} {lowered : Lowered}
    {id : TempId} :
    id ∈ (Lowering.runAhead bindings lowered).reads ↔
      id ∈ (bindings.map (·.store)).flatMap Expr.reads ∨ id ∈ lowered.reads := by
  have hperm := Lowered.gather_runAhead sumsBindings_reads bindings lowered
  have hnone : bindings.flatMap (fun _ => ([] : List TempId)) = [] := by simp
  rw [hnone, List.nil_append] at hperm
  rw [Lowered.reads_eq_gather, hperm.mem_iff, List.mem_append, lowered.reads_eq_gather]

end Code

namespace Lowering

/-! ## §2 Bound receivers and bound arguments -/

section Bound

variable {shape : CallShape} {params : List Param} {arguments reads : List Expr}
  {receiver read : Expr} {bindings : List Binding} {types : TypeTable}
  {allocator rest : Allocator}

/-- What is contributed by a receiver moves to its store, and its temporary is read instead. -/
private theorem Settled.gather_eq (hown : OverlooksComputed own)
    (h : Settled types shape params arguments receiver allocator read bindings rest) :
    read.gather own ++ (bindings.map (·.store)).flatMap (Expr.gather own) =
      bindings.flatMap (fun binding => binding.reference.gather own) ++ receiver.gather own := by
  cases h with
  | stays => simp
  | bound => simp [Allocator.store_bind, hown.store]

private theorem Settled.handsOut
    (h : Settled types shape params arguments receiver allocator read bindings rest) :
    allocator.HandsOut (bindings.map (·.temp.id)) rest := by
  cases h with
  | stays => exact .nil allocator
  | bound => exact .of_bind rfl

private theorem Settled.named
    (h : Settled types shape params arguments receiver allocator read bindings rest) :
    Binding.AllNamed allocator.stem bindings := by
  cases h with
  | stays => exact .nil
  | bound => exact .cons (allocator.namedBy_bind _ _) .nil

/-- A receiver is bound by its storage only if it has one. -/
private theorem misbound_bind_receiver (types : TypeTable) (receiver : Expr)
    (allocator : Allocator) :
    (allocator.bind receiver (receiverHolding types receiver)).1.misbound = [] := by
  rw [Binding.misbound_bind, receiverHolding]
  by_cases haddressable : receiver.isAddressable = true
  · simp [haddressable]
  · simp [haddressable]

/-- A receiver is never bound amiss: how it is bound depends on whether it has storage. -/
theorem Settled.misbound
    (h : Settled types shape params arguments receiver allocator read bindings rest) :
    bindings.flatMap Binding.misbound = [] := by
  cases h with
  | stays => rfl
  | bound => simp [misbound_bind_receiver]

/-- Some argument from a position on is bound by storage that it does not have. -/
def BoundAmiss (shape : CallShape) (position : Nat) (arguments : List Expr) : Prop :=
  ∃ index argument, arguments[index]? = some argument ∧ argument.isStable = false ∧
    (shape.refKind (position + index)).isByRef = true ∧ argument.isAddressable = false

private theorem boundAmiss_cons_iff {position : Nat} {argument : Expr} :
    BoundAmiss shape position (argument :: arguments) ↔
      (argument.isStable = false ∧ (shape.refKind position).isByRef = true ∧
        argument.isAddressable = false) ∨ BoundAmiss shape (position + 1) arguments := by
  -- the index into the whole list counts the head, the position moves on past it
  constructor
  · rintro ⟨index, found, hfound, hrest⟩
    cases index with
    | zero =>
      obtain rfl : argument = found := by simpa using hfound
      exact .inl hrest
    | succ index =>
      rw [Nat.add_comm index 1, ← Nat.add_assoc] at hrest
      exact .inr ⟨index, found, by simpa using hfound, hrest⟩
  · rintro (hhead | ⟨index, found, hfound, hrest⟩)
    · exact ⟨0, argument, rfl, hhead⟩
    · rw [Nat.add_assoc, Nat.add_comm 1 index] at hrest
      exact ⟨index + 1, found, by simpa using hfound, hrest⟩

/-- Something is bound amiss among the arguments exactly if an argument that is shared is bound
and has no storage. -/
private theorem Spilled.misbound_ne_nil_iff {position : Nat}
    (h : Spilled shape position allocator arguments reads bindings rest) :
    bindings.flatMap Binding.misbound ≠ [] ↔ BoundAmiss shape position arguments := by
  induction h with
  | nil => simp [BoundAmiss]
  | stable hstable _ ih => simp [boundAmiss_cons_iff, ih, hstable]
  | @bound position _ _ argument _ _ _ hstable _ ih =>
    rw [List.flatMap_cons, ne_eq, List.append_eq_nil_iff, not_and_or, boundAmiss_cons_iff,
      Binding.misbound_bind]
    exact or_congr (by simp [hstable, argumentHolding_eq_storage_iff]) ih

/-- Arguments are bound although one of them, shared with its parameter, has no storage. -/
def Misspills (shape : CallShape) (placement : List Nat) (arguments : List Expr) : Prop :=
  spillsFor placement arguments = true ∧ BoundAmiss shape 0 arguments

/-- The same of arguments that are bound only if they have to be. -/
theorem ReadFrom.misbound_ne_nil_iff {placement : List Nat}
    (h : ReadFrom shape placement allocator arguments reads bindings rest) :
    bindings.flatMap Binding.misbound ≠ [] ↔ Misspills shape placement arguments := by
  cases h with
  | bound hspills hspilled => rw [hspilled.misbound_ne_nil_iff, Misspills, and_iff_right hspills]
  | direct hspills => simp [Misspills, hspills]

end Bound

/-! ## §3 Calls of a getter and elements -/

/-- A result is made of some operands and of bindings that were added to them; the temporaries of
all bindings are read. -/
structure Comprises (result : Lowered) (operands : List Expr) (bindings : List Binding) :
    Prop where
  gather_perm : ∀ {α : Type} {own : Expr → List α} {each : Binding → List α}, Overlooks own →
    Code.SumsBindings own each → (result.gather own each).Perm
      (bindings.flatMap each ++ operands.flatMap (Expr.gather own))
  reads : ∀ id, id ∈ bindings.map (·.temp.id) ∨ id ∈ operands.flatMap Expr.reads →
    id ∈ result.reads

/-- The bindings added to the operands are those made between two allocators. -/
structure MadeOf (result : Lowered) (operands : List Expr) (bindings : List Binding)
    (allocator rest : Allocator) : Prop extends Comprises result operands bindings where
  handsOut : allocator.HandsOut (bindings.map (·.temp.id)) rest
  named : Binding.AllNamed allocator.stem bindings

section Comprises

variable {result : Lowered} {operands : List Expr} {bindings : List Binding}

/-- Whatever only sequences contribute is found among the bindings and the operands. -/
theorem Comprises.gather (h : Comprises result operands bindings) (hown : OfBindings own each) :
    (result.gather own each).Perm
      (bindings.flatMap each ++ operands.flatMap (Expr.gather own)) :=
  h.gather_perm hown.overlooks hown.toSumsBindings

/-- An expression that computes something is made of its operands. -/
private theorem Comprises.of_computed {expr : Expr} (h : expr.isComputed = true) :
    Comprises (.value expr) expr.operands [] := by
  refine ⟨fun hown _ => .of_eq (hown.toOverlooksComputed.gather_computed h), ?_⟩
  intro id hid
  rw [Lowered.reads, Expr.reads, overlooksComputed_reads.gather_computed h]
  exact hid.resolve_left List.not_mem_nil

/-- A target without bindings is made of the operands of its place. -/
theorem Comprises.of_place (place : Code.Place) (info : Info) :
    Comprises (.target { place := place, info := info }) place.operands [] :=
  ⟨fun _ _ => .of_eq (by simp [Lowered.gather]), fun _ hid => hid.resolve_left List.not_mem_nil⟩

/-- The temporaries of a result are those of the bindings and those of the operands, each as
often. -/
theorem Comprises.declared_perm (h : Comprises result operands bindings) {scope : List TempId}
    (hscoped : result.Scoped scope) :
    result.declared.Perm
      (bindings.map (·.temp.id) ++ operands.flatMap Expr.declared) := by
  rw [hscoped.declared_eq_gather, List.map_eq_flatMap]
  exact h.gather Code.ofBindings_declared

/-- A result is named like its bindings and its operands. -/
theorem Comprises.named (h : Comprises result operands bindings) {scope : List TempId}
    (hscoped : result.Scoped scope) {stem : String} (hbindings : Binding.AllNamed stem bindings)
    (hoperands : ∀ temp ∈ operands.flatMap Expr.temps, temp.NamedBy stem) :
    ∀ temp ∈ result.temps, temp.NamedBy stem := by
  intro temp htemp
  rw [hscoped.temps_eq_gather, (h.gather Code.ofBindings_temps).mem_iff, List.mem_append,
    ← List.map_eq_flatMap] at htemp
  rcases htemp with htemp | htemp
  · obtain ⟨binding, hbinding, rfl⟩ := List.mem_map.mp htemp
    exact hbindings binding hbinding
  · exact hoperands temp htemp

/-- A result reads what it declares if its operands do. -/
theorem Comprises.read (h : Comprises result operands bindings) {scope : List TempId}
    (hscoped : result.Scoped scope)
    (hoperands : ∀ id ∈ operands.flatMap Expr.declared, id ∈ operands.flatMap Expr.reads) :
    ∀ id ∈ result.declared, id ∈ result.reads := by
  intro id hid
  apply h.reads
  rw [(h.declared_perm hscoped).mem_iff, List.mem_append] at hid
  exact hid.imp_right (hoperands id)

private theorem Comprises.nodup_operands (h : Comprises result operands bindings)
    {scope : List TempId} (hscoped : result.Scoped scope) (hnodup : result.declared.Nodup) :
    (operands.flatMap Expr.declared).Nodup :=
  (List.nodup_append.mp ((h.declared_perm hscoped).nodup_iff.mp hnodup)).2.1

/-- No temporary of a result is declared twice, so none is in an operand or in those behind it. -/
theorem Comprises.nodup_cons {operand : Expr}
    (h : Comprises result (operand :: operands) bindings) {scope : List TempId}
    (hscoped : result.Scoped scope) (hnodup : result.declared.Nodup) :
    operand.declared.Nodup ∧ (operands.flatMap Expr.declared).Nodup := by
  have hoperands := h.nodup_operands hscoped hnodup
  rw [List.flatMap_cons] at hoperands
  exact ⟨(List.nodup_append.mp hoperands).1, (List.nodup_append.mp hoperands).2.1⟩

theorem Comprises.nodup_pair {left right : Expr} (h : Comprises result [left, right] bindings)
    {scope : List TempId} (hscoped : result.Scoped scope) (hnodup : result.declared.Nodup) :
    left.declared.Nodup ∧ right.declared.Nodup := by
  have hoperands := h.nodup_cons hscoped hnodup
  rwa [List.flatMap_singleton] at hoperands

/-- What is bound amiss in a result is bound amiss among the bindings or in an operand. -/
theorem Comprises.misbound_eq_nil_iff (h : Comprises result operands bindings) :
    result.misbound = [] ↔
      bindings.flatMap Binding.misbound = [] ∧ operands.flatMap Expr.misbound = [] := by
  have hperm := h.gather Code.ofBindings_misbound
  rw [← List.append_eq_nil_iff, result.misbound_eq_gather, ← List.length_eq_zero_iff,
    hperm.length_eq, List.length_eq_zero_iff]

/-- Something is bound amiss in a result exactly if it is in the first operand, in another one, or
among the bindings. -/
theorem Comprises.misbound_ne_nil_iff {operand : Expr}
    (h : Comprises result (operand :: operands) bindings) :
    result.misbound ≠ [] ↔ operand.misbound ≠ [] ∨ operands.flatMap Expr.misbound ≠ [] ∨
      bindings.flatMap Binding.misbound ≠ [] := by
  simp only [ne_eq, h.misbound_eq_nil_iff, List.flatMap_cons, List.append_eq_nil_iff, not_and_or]
  rw [or_comm, or_assoc]

theorem Comprises.misbound_ne_nil_of_pair {left right : Expr}
    (h : Comprises result [left, right] bindings)
    (hamiss : left.misbound ≠ [] ∨ right.misbound ≠ []) : result.misbound ≠ [] := by
  apply h.misbound_ne_nil_iff.mpr
  rw [List.flatMap_singleton]
  exact hamiss.imp_right .inl

end Comprises

/-- The access through an indexer binds an argument by storage that it does not have: the getter is
called, and the order of its arguments changes noticeably. -/
def IndexerMisspills (env : Env) (indexer : SymbolId) (arguments : List Expr) (shape : CallShape)
    (mode : Mode) : Prop :=
  ∃ property getter method placement, env.symbols.property? indexer = some property ∧
    (mode.isWrite && !property.returnsByRef) = false ∧
    property.getter? = some getter ∧ env.symbols.method? getter = some method ∧
    shape.placement method.params arguments.length = .ok placement ∧
    Misspills shape placement arguments

section Elements

variable {env : Env} {receiver : Expr} {indexer : SymbolId} {property : Property}
  {arguments : List Expr} {shape : CallShape} {info : Info} {mode : Mode}
  {allocator rest : Allocator}

/-- In a call behind its bindings, receiver and arguments are found again, and every temporary of
the bindings is read once. -/
theorem NormalForm.gather_call (hown : OverlooksComputed own)
    (hsums : Code.SumsBindings own each)
    {params : List Param} {site : Location} {read : Expr} {ahead : List Binding}
    {middle : Allocator} {placement : List Nat} {reads : List Expr} {normalized : Normalized}
    (hnormal : NormalForm env.types arguments shape params site placement reads middle normalized
      rest)
    (hsettled : Settled env.types shape params arguments receiver allocator read ahead middle)
    (info : Info) (getter : SymbolId) (byRef : Bool) :
    ((Lowered.value (Code.sequence (ahead ++ normalized.bindings)
        (.call info read getter normalized.arguments byRef))).gather own each).Perm
      ((ahead ++ normalized.bindings).flatMap each ++
        ((ahead ++ normalized.bindings).flatMap (fun binding => binding.reference.gather own) ++
          (receiver :: arguments).flatMap (Expr.gather own))) := by
  rw [Lowered.gather, Code.gather_sequence_of_bindings hsums, Expr.gather_call,
    hown.computed _ rfl, List.map_append, List.flatMap_append, List.nil_append]
  apply List.Perm.append_left _
  -- receiver and arguments with the stores of their own bindings
  classical
  have hreceiver := hsettled.gather_eq hown
  have harguments := hnormal.gather_perm_append hown
  apply List.perm_iff_count.mpr
  intro item
  have hreceiver := congrArg (List.count item) hreceiver
  have harguments := harguments.count_eq item
  simp only [List.flatMap_append, List.flatMap_cons, List.count_append] at hreceiver harguments ⊢
  omega

/-- A call behind its bindings is made of its receiver, its arguments and the bindings. From this
one fact follow the declarations, the reads and the names of every access through an indexer. -/
theorem NormalForm.madeOf {params : List Param} {site : Location} {getter : SymbolId}
    {read : Expr} {ahead : List Binding} {middle : Allocator} {placement : List Nat}
    {reads : List Expr} {normalized : Normalized} {byRef : Bool}
    (hnormal : NormalForm env.types arguments shape params site placement reads middle normalized
      rest)
    (hsettled : Settled env.types shape params arguments receiver allocator read ahead middle) :
    MadeOf (.value (Code.sequence (ahead ++ normalized.bindings)
        (.call info read getter normalized.arguments byRef)))
      (receiver :: arguments) (ahead ++ normalized.bindings) allocator rest := by
  refine ⟨⟨?_, ?_⟩, ?_, ?_⟩
  · intro α own each hown hsums
    have hperm := hnormal.gather_call hown.toOverlooksComputed hsums hsettled info getter byRef
    rwa [hown.gather_references, List.nil_append] at hperm
  · intro id hid
    have hperm := hnormal.gather_call overlooksComputed_reads Code.sumsBindings_reads hsettled info
      getter byRef
    rw [Lowered.reads_eq_gather, hperm.mem_iff, List.mem_append, List.mem_append,
      flatMap_reads_reference]
    exact .inr hid
  · rw [List.map_append]
    exact hsettled.handsOut.append hnormal.readFrom.handsOut
  · exact hsettled.named.append (hsettled.handsOut.stem_eq ▸ hnormal.readFrom.named)

/-- The call of a getter is made of its receiver and its arguments, and binds something amiss
exactly if an argument that has to be bound is shared without storage. -/
theorem GetterCall.madeOf {result : Expr}
    (h : GetterCall env receiver property arguments shape info allocator result rest) :
    ∃ bindings, MadeOf (.value result) (receiver :: arguments) bindings allocator rest ∧
      (bindings.flatMap Binding.misbound ≠ [] ↔
        ∃ getter method placement, property.getter? = some getter ∧
          env.symbols.method? getter = some method ∧
          shape.placement method.params arguments.length = .ok placement ∧
          Misspills shape placement arguments) := by
  cases h with
  | @mk getter method read ahead middle _ placement reads normalized hgetter hmethod hsettled
      hnormal =>
    refine ⟨ahead ++ normalized.bindings, hnormal.madeOf hsettled, ?_⟩
    rw [List.flatMap_append, hsettled.misbound, List.nil_append,
      hnormal.readFrom.misbound_ne_nil_iff]
    -- getter, method and placement are those that the call was made with
    constructor
    · intro hmisspills
      exact ⟨getter, method, placement, hgetter, hmethod, hnormal.placed, hmisspills⟩
    · rintro ⟨getter', method', placement', hgetter', hmethod', hplaced', hmisspills⟩
      obtain rfl := Option.some.inj (hgetter.symm.trans hgetter')
      obtain rfl := Option.some.inj (hmethod.symm.trans hmethod')
      obtain rfl := Except.ok.inj (hnormal.placed.symm.trans hplaced')
      exact hmisspills

/-- An element behind an indexer is made of its receiver and its arguments. As a place it binds
nothing, and so nothing amiss. -/
theorem IndexerElement.madeOf {result : Lowered}
    (h : IndexerElement env receiver indexer arguments shape info mode allocator result rest) :
    ∃ bindings, MadeOf result (receiver :: arguments) bindings allocator rest ∧
      (bindings.flatMap Binding.misbound ≠ [] ↔
        IndexerMisspills env indexer arguments shape mode) := by
  cases h with
  | @place property hproperty hwrite =>
    -- nothing is bound for a place, so no argument is
    refine ⟨[], ⟨.of_place _ info, .nil allocator, .nil⟩, ?_⟩
    apply iff_of_false (by simp)
    rintro ⟨property', _, _, _, hproperty', hread, -⟩
    obtain rfl := Option.some.inj (hproperty.symm.trans hproperty')
    rw [hwrite] at hread
    cases hread
  | @value property _ _ hproperty hread hcall =>
    obtain ⟨bindings, hmade, hmisbound⟩ := hcall.madeOf
    refine ⟨bindings, hmade, hmisbound.trans ?_⟩
    constructor
    · rintro ⟨getter, method, placement, hgetter, hmethod, hplaced, hmisspills⟩
      exact ⟨property, getter, method, placement, hproperty, hread, hgetter, hmethod, hplaced,
        hmisspills⟩
    · rintro ⟨property', getter, method, placement, hproperty', -, hrest⟩
      obtain rfl := Option.some.inj (hproperty.symm.trans hproperty')
      exact ⟨getter, method, placement, hrest⟩

theorem elementLowered_comprises (array offset : Expr) (info : Info) (mode : Mode) :
    Comprises (elementLowered array offset info mode) [array, offset] [] := by
  cases mode with
  | read =>
    have hcomputed : (Expr.element info array offset).isComputed = true := rfl
    exact .of_computed hcomputed
  | write => exact .of_place (.element array offset) info

/-- An element at a stable offset is never bound amiss. The offset is the only argument there is:
it is read from a temporary, so it is stable and no copy of it is taken. -/
theorem ElementAt.madeOf {object offset : Expr} {intIndexer? : Option SymbolId} {result : Lowered}
    (hstable : offset.isStable = true)
    (h : ElementAt env object offset intIndexer? info mode allocator result rest) :
    ∃ bindings, MadeOf result [object, offset] bindings allocator rest ∧
      bindings.flatMap Binding.misbound = [] := by
  cases h with
  | indexer _ helement =>
    obtain ⟨bindings, hmade, hmisbound⟩ := helement.madeOf
    -- the offset is the only argument, and a stable one is never bound
    refine ⟨bindings, hmade, not_not.mp fun hne => ?_⟩
    obtain ⟨_, _, _, _, -, -, -, -, -, -, index, argument, hargument, hunstable, -⟩ :=
      hmisbound.mp hne
    obtain rfl : offset = argument := by
      cases index with
      | zero => simpa using hargument
      | succ index => simp at hargument
    rw [hstable] at hunstable
    cases hunstable
  | array =>
    exact ⟨[], ⟨elementLowered_comprises object offset info mode, .nil allocator, .nil⟩, rfl⟩

/-- A dynamic access is made of its receiver and its arguments, without bindings of its own. -/
theorem dynamicLowered_comprises (object : Expr) (operands : List Expr)
    (names : List (Option String)) (refKinds : List RefKind) (info : Info) (mode : Mode) :
    Comprises (dynamicLowered object operands names refKinds info mode) (object :: operands)
      [] := by
  cases mode with
  | read =>
    have hcomputed : (dynamicElement object operands names refKinds info).isComputed = true := rfl
    exact .of_computed hcomputed
  | write => exact .of_place (.dynamic object operands names refKinds) info

end Elements

/-! ## §4 Patterns -/

section Patterns

variable {env : Env} {value : Expr} {length : SymbolId} {site : Location} {holding : Holding}
  {allocator rest : Allocator} {object size offset : Binding}

/-- A read of a member contributes what its object does. -/
theorem gather_readMember (hown : OverlooksComputed own) {member : SymbolId} {read : Expr}
    (h : (readMember value member site).Yields env allocator read rest) :
    read.gather own = value.gather own := by
  obtain ⟨-, ⟨property, getter, byRef, -, -, -, rfl⟩ | ⟨field, -, rfl⟩⟩ :=
    readMember_yields_iff.mp h
  · rw [hown.gather_computed rfl]
    simp [Expr.operands]
  · rw [hown.gather_computed rfl]
    simp [Expr.operands]

/-- A position contributes what its bound does: a conversion is a call. -/
theorem BoundPosition.gather_eq (hown : OverlooksComputed own) {bound : Info} {position : Expr}
    (h : BoundPosition env bound value position) : position.gather own = value.gather own := by
  cases h with
  | counted =>
    rw [hown.gather_computed rfl]
    simp [Expr.operands]
  | same => rfl

/-- Binding the receiver of a pattern and its length: two temporaries, neither bound amiss, whose
stores contribute what the receiver does. -/
theorem Measured.madeOf (h : Measured env value length site holding allocator object size rest) :
    allocator.HandsOut [object.temp.id, size.temp.id] rest ∧
      Binding.AllNamed allocator.stem [object, size] ∧
      ∀ {α : Type} {own : Expr → List α}, OverlooksComputed own →
        [object.store, size.store].flatMap (Expr.gather own) =
          value.gather own ++ object.reference.gather own := by
  cases h with
  | mk hlength =>
    refine ⟨(Allocator.HandsOut.of_bind rfl).append (.of_bind rfl),
      .cons (Allocator.namedBy_bind ..) (.cons (Allocator.namedBy_bind ..) .nil), fun hown => ?_⟩
    simp [Allocator.store_bind, hown.store, gather_readMember hown hlength]

/-- Binding an offset: one temporary, which holds a copy. -/
theorem Offset.madeOf {position read : Expr}
    (h : Offset env position read site allocator offset rest) :
    allocator.HandsOut [offset.temp.id] rest ∧ offset.temp.NamedBy allocator.stem ∧
      offset.misbound = [] ∧
      ∀ {α : Type} {own : Expr → List α}, OverlooksComputed own →
        offset.store.gather own = position.gather own ++ read.gather own := by
  cases h with
  | mk =>
    refine ⟨.of_bind rfl, Allocator.namedBy_bind .., rfl, fun hown => ?_⟩
    rw [Allocator.store_bind, Expr.gather_store, hown.store, hown.gather_computed rfl]
    simp [Expr.operands]

/-- Binding a range and its ends: all three are copies, so none is amiss. The range is gathered
once, and the range and the length once more for each of the two ends. -/
theorem Bounded.madeOf {range start stop : Binding}
    (h : Bounded env value size.reference site allocator range start stop rest) :
    allocator.HandsOut [range.temp.id, start.temp.id, stop.temp.id] rest ∧
      Binding.AllNamed allocator.stem [range, start, stop] ∧
      [range, start, stop].flatMap Binding.misbound = [] ∧
      ∀ {α : Type} {own : Expr → List α}, OverlooksComputed own →
        [range.store, start.store, stop.store].flatMap (Expr.gather own) =
          value.gather own ++
            ([range, size].flatMap (fun binding => binding.reference.gather own) ++
              [range, size].flatMap fun binding => binding.reference.gather own) := by
  cases h with
  | mk _ hstart _ hstop =>
    obtain ⟨hstartOut, hstartNamed, hstart, hstartGather⟩ := hstart.madeOf
    obtain ⟨hstopOut, hstopNamed, hstop, hstopGather⟩ := hstop.madeOf
    have hrange : (allocator.bind value .copy).1.misbound = [] := rfl
    rw [hstartOut.stem_eq] at hstopNamed
    refine ⟨(Allocator.HandsOut.of_bind rfl).append (hstartOut.append hstopOut),
      .cons (Allocator.namedBy_bind ..) (.cons hstartNamed (.cons hstopNamed .nil)), ?_, ?_⟩
    · simp only [List.flatMap_cons, List.flatMap_nil, hrange, hstart, hstop, List.append_nil]
    · intro α own hown
      -- the calls for the ends read the range
      have hcall : ∀ info receiver method arguments byRef,
          own (.call info receiver method arguments byRef) = [] :=
        fun _ _ _ _ _ => hown.computed _ rfl
      simp [Allocator.store_bind, hown.store, hstartGather hown, hstopGather hown, hcall]

theorem isStable_reference (binding : Binding) : binding.reference.isStable = true := rfl

/-- The stores of an access by position contribute what receiver and position do, and references
to the object and its length. -/
private theorem gather_index_stores (hown : OverlooksComputed own) {position : Expr}
    {first second third fourth : Allocator}
    (hmeasured : Measured env value length site holding first object size second)
    (hoffset : Offset env position size.reference site third offset fourth) :
    ([object, size, offset].map (·.store)).flatMap (Expr.gather own) =
      value.gather own ++ (object.reference.gather own ++
        (position.gather own ++ size.reference.gather own)) := by
  obtain ⟨-, -, hmeasuredGather⟩ := hmeasured.madeOf
  obtain ⟨-, -, -, hoffsetGather⟩ := hoffset.madeOf
  have hpair := hmeasuredGather hown
  simp only [List.flatMap_cons, List.flatMap_nil, List.append_nil] at hpair
  simp only [List.map_cons, List.map_nil, List.flatMap_cons, List.flatMap_nil, List.append_nil,
    hoffsetGather hown]
  rw [← List.append_assoc, hpair, List.append_assoc]

/-- An access by position is made of its receiver and its position, of three bindings and of those
of the element. -/
theorem index_comprises {position : Expr} {first second third fourth : Allocator}
    {element : Lowered} {bindings : List Binding}
    (hmeasured : Measured env value length site (receiverHolding env.types value) first
      object size second)
    (hoffset : Offset env position size.reference site third offset fourth)
    (hmade : Comprises element [object.reference, offset.reference] bindings) :
    Comprises (runAhead [object, size, offset] element) [value, position]
      (object :: size :: offset :: bindings) := by
  refine ⟨fun {α own each} hown hsums => ?_, ?_⟩
  · refine (Lowered.gather_runAhead hsums _ _).trans ?_
    rw [gather_index_stores hown.toOverlooksComputed hmeasured hoffset]
    -- the element contributes its bindings: its operands only read temporaries
    have helements := hmade.gather_perm hown hsums
    simp only [List.flatMap_cons, List.flatMap_nil, hown.gather_reference, List.append_nil]
      at helements
    simp only [List.flatMap_cons, List.flatMap_nil, hown.gather_reference, List.append_nil,
      List.nil_append, List.append_assoc]
    refine .append_left _ (.append_left _ (.append_left _ ?_))
    rw [← List.append_assoc]
    exact List.perm_append_comm.trans (helements.append_right _)
  · intro id hid
    rw [Lowered.mem_reads_runAhead, gather_index_stores overlooksComputed_reads hmeasured hoffset]
    -- the size is read for the offset, everything else in the element or in the operands
    have helement := hmade.reads id
    have hreads : ∀ binding : Binding, binding.reference.reads = [binding.temp.id] := fun _ => rfl
    simp only [List.map_cons, List.flatMap_cons, List.flatMap_nil, List.append_nil,
      List.mem_cons, List.mem_append, hreads, List.not_mem_nil, or_false] at hid helement ⊢
    tauto

/-- What the element of an access by position binds behind its offset: consecutive temporaries,
named by the stem, none of them amiss. Together with object, length and offset they are all that
the access adds to its receiver and its position. -/
theorem index_madeOf {position : Expr} {intIndexer? : Option SymbolId} {info : Info} {mode : Mode}
    {first second third fourth : Allocator} {element : Lowered}
    (hmeasured : Measured env value length info.location (receiverHolding env.types value) first
      object size second)
    (hoffset : Offset env position size.reference info.location third offset fourth)
    (helement : ElementAt env object.reference offset.reference intIndexer? info mode fourth
      element rest) :
    ∃ bindings, fourth.HandsOut (bindings.map (·.temp.id)) rest ∧
      Binding.AllNamed fourth.stem bindings ∧
      (object :: size :: offset :: bindings).flatMap Binding.misbound = [] ∧
      Comprises (runAhead [object, size, offset] element) [value, position]
        (object :: size :: offset :: bindings) := by
  obtain ⟨bindings, hmade, hmisbound⟩ := helement.madeOf (isStable_reference offset)
  obtain ⟨-, -, hoffsetMisbound, -⟩ := hoffset.madeOf
  have hobject : object.misbound = [] ∧ size.misbound = [] := by
    cases hmeasured with
    | mk => exact ⟨misbound_bind_receiver env.types value first, rfl⟩
  refine ⟨bindings, hmade.handsOut, hmade.named, ?_,
    index_comprises hmeasured hoffset hmade.toComprises⟩
  simp only [List.flatMap_cons, hobject.1, hobject.2, hoffsetMisbound, hmisbound, List.append_nil]

/-- None of the bindings of an access by range is amiss: all of them hold copies. -/
theorem range_misbound {bounds : Expr} {first second third : Allocator} {range start stop : Binding}
    (hmeasured : Measured env value length site .copy first object size second)
    (hbounded : Bounded env bounds size.reference site third range start stop rest) :
    [object, size, range, start, stop].flatMap Binding.misbound = [] := by
  have hobject : object.misbound = [] ∧ size.misbound = [] := by
    cases hmeasured with
    | mk => exact ⟨rfl, rfl⟩
  obtain ⟨-, -, hbounds, -⟩ := hbounded.madeOf
  rw [List.flatMap_cons, List.flatMap_cons, hobject.1, hobject.2, hbounds, List.nil_append,
    List.nil_append]

/-- The stores of an access by range contribute what receiver and range do, and references. -/
private theorem gather_range_stores (hown : OverlooksComputed own) {bounds : Expr}
    {first second third : Allocator} {range start stop : Binding}
    (hmeasured : Measured env value length site holding first object size second)
    (hbounded : Bounded env bounds size.reference site third range start stop rest) :
    ([object, size, range, start, stop].map (·.store)).flatMap (Expr.gather own) =
      (value.gather own ++ object.reference.gather own) ++ (bounds.gather own ++
        ([range, size].flatMap (fun binding => binding.reference.gather own) ++
          [range, size].flatMap fun binding => binding.reference.gather own)) := by
  obtain ⟨-, -, hmeasuredGather⟩ := hmeasured.madeOf
  obtain ⟨-, -, -, hboundedGather⟩ := hbounded.madeOf
  rw [← hmeasuredGather hown, ← hboundedGather hown, ← List.flatMap_append]
  rfl

/-- A slice contributes references only. -/
private theorem gather_sliceBetween (hown : OverlooksComputed own) (slice : SymbolId) (info : Info)
    (start stop : Binding) :
    (sliceBetween env object start stop slice info).gather own =
      [object, start, stop, start].flatMap fun binding => binding.reference.gather own := by
  have hcount (info : Info) (left right : Expr) :
      (Expr.binary info .sub left right).gather own = left.gather own ++ right.gather own := by
    rw [hown.gather_computed rfl]
    simp [Expr.operands]
  rw [sliceBetween, hown.gather_computed rfl]
  simp [Expr.operands, hcount]

/-- An access by range is made of its receiver and its range, and of five bindings: the receiver,
its length, the range and the two ends. -/
theorem range_comprises (slice : SymbolId) {info : Info} {bounds : Expr}
    {first second third : Allocator} {range start stop : Binding}
    (hmeasured : Measured env value length info.location .copy first object size second)
    (hbounded : Bounded env bounds size.reference info.location third range start stop rest) :
    Comprises (.value (Code.sequence [object, size, range, start, stop]
      (sliceBetween env object start stop slice info))) [value, bounds]
      [object, size, range, start, stop] := by
  refine ⟨fun {α own each} hown hsums => .of_eq ?_, ?_⟩
  · have hcomputed := hown.toOverlooksComputed
    -- what is gathered is what the stores hold, as references gather nothing
    rw [Lowered.gather, Code.gather_sequence_of_bindings hsums,
      gather_range_stores hcomputed hmeasured hbounded, gather_sliceBetween hcomputed]
    simp only [hown.gather_reference, List.flatMap_cons, List.flatMap_nil, List.append_nil]
  · intro id hid
    rw [Lowered.reads, Expr.reads, Code.gather_sequence_of_bindings Code.sumsBindings_reads,
      gather_range_stores overlooksComputed_reads hmeasured hbounded,
      gather_sliceBetween overlooksComputed_reads]
    -- a temporary that is read is one of the five or is read in an operand
    have hreads : ∀ binding : Binding, binding.reference.reads = [binding.temp.id] := fun _ => rfl
    simp only [List.map_cons, List.flatMap_cons, List.flatMap_nil, List.append_nil, List.map_nil,
      List.mem_cons, List.mem_append, hreads, List.not_mem_nil, or_false, false_or] at hid ⊢
    tauto

end Patterns

end Lowering

end Subscript
