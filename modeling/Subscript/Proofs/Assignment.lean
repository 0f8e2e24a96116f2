import Mathlib.Data.List.Perm.Subperm
import Subscript.Proofs.SelfContained
import Subscript.Proofs.Validation

/-!
# Accesses to be assigned to

An access that is wanted for an assignment loses nothing of what it is when it is read. Either it
is the very same value, which then denotes storage, or it is a place, and reading that place from
where the lowering stopped completes it to the very same value, down to the numbers of its
temporaries. An assignment that reads an element before it writes it can rely on the place alone.

## Architecture

- §1 `Place.read` and `Restores`
- §2 `Within`, what a lowered access is a part of
- §3 elements, wanted for their value and for an assignment
- §4 accesses
-/

namespace Subscript

open Code (Allocator Binding Expr Lowered OfBindings Place)
open Lowering
open Source (Mode)

/-! ## §1 Reading a place -/

/-- The code that reads the element at a place: the getter is called only now, for the arguments as
they were lowered and spelled. -/
def Code.Place.read (info : Info) : Place → Lowering Expr
  | .indexer receiver symbol _ _ arguments shape => do
    let lowered ← indexerElement receiver symbol arguments shape info .read
    valueOf lowered
  | .dynamic receiver arguments names refKinds =>
    return dynamicElement receiver arguments names refKinds info
  | .element object offset => return .element info object offset

/-- An access that was lowered for an assignment still has the value it has when it is read: it is
that value and denotes storage, or the value is read from its place, behind its bindings. Lowering
it left the allocator `middle`; reading it leaves `rest`. -/
def Code.Lowered.Restores (env : Env) (middle : Allocator) (result : Expr) (rest : Allocator) :
    Lowered → Prop
  | .value expr => expr = result ∧ expr.isAddressable = true ∧ middle = rest
  | .target assignable =>
    ∃ element, (assignable.place.read assignable.info).Yields env middle element rest ∧
      Code.sequenceOf assignable.temps assignable.stores element = .ok result

/-! ## §2 Parts of a lowered access -/

/-- Whatever the bindings of a lowered access and everything inside it contribute, the whole
contributes as well. -/
structure Code.Lowered.Within (part whole : Lowered) : Prop where
  subperm : ∀ {α : Type} {own : Expr → List α} {each : Binding → List α}, OfBindings own each →
    (part.gather own each).Subperm (whole.gather own each)

namespace Code.Lowered.Within

variable {part whole : Lowered}

private theorem refl (lowered : Lowered) : lowered.Within lowered := ⟨fun _ => List.Subperm.refl _⟩

/-- What is made of the same operands contributes no less, if it adds bindings to them. -/
theorem of_comprises {operands : List Expr} {bindings : List Binding}
    (hpart : Comprises part operands []) (hwhole : Comprises whole operands bindings) :
    part.Within whole := by
  refine ⟨fun hown => ?_⟩
  refine (hpart.gather hown).subperm.trans (.trans ?_ (hwhole.gather hown).symm.subperm)
  exact (List.sublist_append_right _ _).subperm

private theorem runAhead (h : part.Within whole) (bindings : List Binding) :
    (Lowering.runAhead bindings part).Within (Lowering.runAhead bindings whole) := by
  refine ⟨fun hown => ?_⟩
  refine (gather_runAhead hown.toSumsBindings bindings part).subperm.trans
    (.trans ?_ (gather_runAhead hown.toSumsBindings bindings whole).symm.subperm)
  exact (List.Subperm.refl _).append ((List.Subperm.refl _).append (h.subperm hown))

/-- A part of a valid access is valid, if it is well-scoped itself. -/
private theorem faults_eq_nil (h : part.Within whole) (hscoped : part.Scoped [])
    (hvalid : whole.faults = []) : part.faults = [] := by
  obtain ⟨hwhole, hnodup, hmisbound⟩ := whole.faults_eq_nil_iff.mp hvalid
  refine part.faults_eq_nil_iff.mpr ⟨hscoped, ?_, ?_⟩
  -- what is declared twice in the part is declared twice in the whole
  · rw [hwhole.declared_eq_gather] at hnodup
    rw [hscoped.declared_eq_gather]
    obtain ⟨declared, hperm, hsublist⟩ := h.subperm Code.ofBindings_declared
    exact hperm.nodup_iff.mp (hnodup.sublist hsublist)
  · rw [whole.misbound_eq_gather] at hmisbound
    rw [part.misbound_eq_gather]
    have hsubperm := h.subperm Code.ofBindings_misbound
    rw [hmisbound] at hsubperm
    exact List.subperm_nil.mp hsubperm

end Code.Lowered.Within

/-! ## §3 Elements -/

namespace Lowering

/-- An element that was lowered for an assignment and adds no bindings of its own. -/
inductive Assignable (env : Env) (middle : Allocator) (result : Expr) (rest : Allocator) :
    Lowered → Prop where
  /-- its value denotes storage -/
  | value (haddressable : result.isAddressable = true) (hrest : middle = rest) :
    Assignable env middle result rest (.value result)
  /-- its place is read for its value -/
  | place {place : Place} {info : Info} (hread : (place.read info).Yields env middle result rest) :
    Assignable env middle result rest (.target { place := place, info := info })

/-- Wanted for an assignment, an element is lowered as well, without losing anything. -/
def Survives (write : Lowered → Allocator → Prop) (env : Env) (result : Expr) (rest : Allocator) :
    Prop :=
  ∃ lowered middle, write lowered middle ∧ Assignable env middle result rest lowered ∧
    lowered.Within (.value result)

section Elements

variable {env : Env} {allocator middle rest : Allocator} {result : Expr}

/-- A sequence denotes storage if its result does. -/
theorem isAddressable_sequence (bindings : List Binding) (result : Expr) :
    (Code.sequence bindings result).isAddressable = result.isAddressable := by
  cases bindings <;> rfl

/-- Bindings run ahead of an element are read ahead of it. -/
private theorem Assignable.restores {lowered : Lowered}
    (h : Assignable env middle result rest lowered) (bindings : List Binding) :
    (runAhead bindings lowered).Restores env middle (Code.sequence bindings result) rest := by
  cases h with
  | value haddressable hrest =>
    refine ⟨rfl, ?_, hrest⟩
    rw [isAddressable_sequence, haddressable]
  | place hread =>
    refine ⟨result, hread, ?_⟩
    rw [List.append_nil, List.append_nil, Code.sequenceOf_map]

@[simp] theorem runAhead_nil (lowered : Lowered) : runAhead [] lowered = lowered := by
  cases lowered <;> rfl

private theorem Assignable.restores_alone {lowered : Lowered}
    (h : Assignable env middle result rest lowered) : lowered.Restores env middle result rest := by
  have hrestores := h.restores []
  rwa [runAhead_nil, Code.sequence_nil] at hrestores

/-- The call of a getter denotes storage if the property returns by reference. -/
private theorem GetterCall.isAddressable {receiver : Expr} {property : Property}
    {arguments : List Expr}
    {shape : CallShape} {info : Info} (hbyRef : property.returnsByRef = true)
    (h : GetterCall env receiver property arguments shape info allocator result rest) :
    result.isAddressable = true := by
  cases h with
  | mk => rw [isAddressable_sequence, Expr.isAddressable, hbyRef, Bool.true_or]

/-- An indexer that returns storage is called in either mode; of any other one, the place keeps all
that the call of the getter needs. -/
theorem IndexerElement.survives (hliterals : env.builder = .literals) {receiver : Expr}
    {indexer : SymbolId} {arguments : List Expr} {shape : CallShape} {info : Info}
    (h : IndexerElement env receiver indexer arguments shape info .read allocator (.value result)
      rest) :
    Survives (IndexerElement env receiver indexer arguments shape info .write allocator) env result
      rest := by
  obtain ⟨bindings, hmade, -⟩ := h.madeOf
  have hread := (indexerElement_yields_iff hliterals).mpr h
  cases h with
  | @value property _ _ hproperty _ hcall =>
    cases hbyRef : property.returnsByRef with
    -- both modes call the getter
    | true =>
      have hcalled : IndexerElement env receiver indexer arguments shape info .write allocator
          (.value result) rest := .value hproperty (by simp [hbyRef]) hcall
      exact ⟨.value result, rest, hcalled, .value (hcall.isAddressable hbyRef) rfl, .refl _⟩
    -- the getter is called only when the place is read, from the allocator it was left with
    | false =>
      have hplace : IndexerElement env receiver indexer arguments shape info .write allocator _
          allocator := .place hproperty (by simp [hbyRef, Mode.isWrite])
      refine ⟨_, allocator, hplace, .place ?_, .of_comprises (.of_place _ _) hmade.toComprises⟩
      exact yields_bind_iff.mpr ⟨_, _, hread, yields_pure_iff.mpr ⟨rfl, rfl⟩⟩

/-- A dynamic access is never called for its element, so its place is read for it. -/
private theorem dynamicLowered_survives (env : Env) (allocator : Allocator) (receiver : Expr)
    (arguments : List Expr) (names : List (Option String)) (refKinds : List RefKind) (info : Info) :
    Assignable env allocator (dynamicElement receiver arguments names refKinds info) allocator
        (dynamicLowered receiver arguments names refKinds info .write) ∧
      (dynamicLowered receiver arguments names refKinds info .write).Within
        (dynamicLowered receiver arguments names refKinds info .read) :=
  ⟨.place (yields_pure_iff.mpr ⟨rfl, rfl⟩),
    .of_comprises (dynamicLowered_comprises _ _ _ _ _ _) (dynamicLowered_comprises _ _ _ _ _ _)⟩

/-- The element at an offset survives, whether it is behind an indexer or of an array. -/
theorem ElementAt.survives (hliterals : env.builder = .literals) {object offset : Expr}
    {intIndexer? : Option SymbolId} {info : Info} {element : Lowered}
    (h : ElementAt env object offset intIndexer? info .read allocator element rest)
    (hresult : element = .value result) :
    Survives (ElementAt env object offset intIndexer? info .write allocator) env result rest := by
  cases h with
  | indexer hindexer helement =>
    subst hresult
    obtain ⟨lowered, middle, hwrite, hassignable, hwithin⟩ := helement.survives hliterals
    exact ⟨lowered, middle, .indexer hindexer hwrite, hassignable, hwithin⟩
  | array hnone harray =>
    cases hresult
    have hcomprises (mode : Mode) : Comprises (elementLowered object offset info mode)
        [object, offset] [] := elementLowered_comprises object offset info mode
    exact ⟨_, allocator, .array hnone harray, .place (yields_pure_iff.mpr ⟨rfl, rfl⟩),
      .of_comprises (hcomprises .write) (hcomprises .read)⟩

/-- An element that is bound to its receiver, its length and its offset survives with them. -/
private theorem accessAt_restores (hliterals : env.builder = .literals) {object size : Binding}
    {position : Expr} {intIndexer? : Option SymbolId} {info : Info}
    (h : (accessAt object size position intIndexer? info .read).Yields env allocator
      (.value result) rest) :
    ∃ lowered middle,
      (accessAt object size position intIndexer? info .write).Yields env allocator lowered middle ∧
        lowered.Restores env middle result rest ∧ lowered.Within (.value result) := by
  obtain ⟨offset, first, element, hoffset, helement, hresult⟩ :=
    (accessAt_yields_iff hliterals).mp h
  obtain ⟨value, hvalue, rfl⟩ := runAhead_eq_value hresult
  obtain ⟨lowered, middle, hwrite, hassignable, hwithin⟩ := helement.survives hliterals hvalue
  refine ⟨runAhead [object, size, offset] lowered, middle, ?_, hassignable.restores _,
    hwithin.runAhead _⟩
  exact (accessAt_yields_iff hliterals).mpr ⟨offset, first, lowered, hoffset, hwrite, rfl⟩

end Elements

end Lowering

/-! ## §4 Accesses -/

/-- Whether the access cuts out a slice, which is never assigned to. -/
def Source.Access.isSlice : Source.Access → Bool
  | .rangePattern _ _ _ _ _ => true
  | _ => false

/-- The operands of an access are lowered the same way, whatever it is wanted for, and so is the
element behind them, up to reading it. -/
private theorem Source.Access.lowerCore_restores {env : Env} (hliterals : env.builder = .literals)
    (node : Source.Access) (hslice : node.isSlice = false) {site : Location}
    {allocator rest : Allocator} {result : Code.Expr}
    (h : (node.lowerCore Source.Expr.lower .read site).Yields env allocator (.value result) rest) :
    ∃ lowered middle,
      (node.lowerCore Source.Expr.lower .write site).Yields env allocator lowered middle ∧
        lowered.Restores env middle result rest ∧ lowered.Within (.value result) := by
  cases node with
  | indexer receiver arguments indexer shape type =>
    -- receiver and arguments are lowered the same way; only the element behind them differs
    simp only [Source.Access.lowerCore, indexerAccess, yields_bind_iff] at h ⊢
    obtain ⟨object, first, hreceiver, operands, second, harguments, helement⟩ := h
    obtain ⟨lowered, middle, hwrite, hassignable, hwithin⟩ :=
      ((indexerElement_yields_iff hliterals).mp helement).survives hliterals
    exact ⟨lowered, middle, ⟨object, first, hreceiver, operands, second, harguments,
      (indexerElement_yields_iff hliterals).mpr hwrite⟩, hassignable.restores_alone, hwithin⟩
  | dynamic receiver arguments candidates names refKinds type =>
    simp only [Source.Access.lowerCore, dynamicAccess_eq, yields_bind_iff, yields_pure_iff] at h ⊢
    obtain ⟨_, first, hannounce, object, second, hreceiver, operands, third, harguments, hresult,
      rfl⟩ := h
    cases hresult
    obtain ⟨hassignable, hwithin⟩ :=
      dynamicLowered_survives env third object operands names refKinds ⟨type, site⟩
    exact ⟨_, third, ⟨(), first, hannounce, object, second, hreceiver, operands, third, harguments,
      rfl, rfl⟩, hassignable.restores_alone, hwithin⟩
  | indexPattern receiver length intIndexer? argument type =>
    simp only [Source.Access.lowerCore, expectArgument, Lowering.indexPattern_eq, yields_bind_iff,
      yields_environment_iff] at h ⊢
    obtain ⟨_, _, ⟨rfl, rfl⟩, h⟩ := h
    split at h
    -- the steps up to the element are those of the access that is read
    · rename_i hkind
      simp only [yields_bind_iff, yields_environment_iff] at h
      obtain ⟨value, first, hreceiver, _, _, ⟨rfl, rfl⟩, measured, second, hmeasured, position,
        third, hposition, haccess⟩ := h
      obtain ⟨lowered, middle, hwrite, hrestores⟩ := accessAt_restores hliterals haccess
      refine ⟨lowered, middle, ⟨env, allocator, ⟨rfl, rfl⟩, ?_⟩, hrestores⟩
      rw [if_pos hkind]
      simp only [yields_bind_iff, yields_environment_iff]
      exact ⟨value, first, hreceiver, _, _, ⟨rfl, rfl⟩, measured, second, hmeasured, position,
        third, hposition, hwrite⟩
    · exact absurd h not_yields_fail
  -- a slice is left out by the hypothesis
  | rangePattern => cases hslice

/-- Whatever access can be read can be assigned to, unless it cuts out a slice, and lowering it for
the assignment loses nothing: reading what it leaves gives the same code. No temporaries need be
left for that, and the check may be on or off. -/
theorem Source.Access.lower_restores {env : Env} (hliterals : env.builder = .literals)
    (node : Source.Access) (hslice : node.isSlice = false) {site : Location}
    {allocator rest : Allocator} {result : Code.Expr}
    (h : (node.lower .read site).Yields env allocator (.value result) rest) :
    ∃ lowered middle, (node.lower .write site).Yields env allocator lowered middle ∧
      lowered.Restores env middle result rest := by
  obtain ⟨hcore, hvalid⟩ := Source.Access.lower_yields_iff.mp h
  obtain ⟨lowered, middle, hwrite, hrestores, hwithin⟩ :=
    node.lowerCore_restores hliterals hslice hcore
  have hscoped := (node.lowerCore_selfContained hliterals hwrite).wellScoped
  refine ⟨lowered, middle, Source.Access.lower_yields_iff.mpr ⟨hwrite, ?_⟩, hrestores⟩
  -- what the check finds in the access to be assigned to, it finds in the one that is read
  intro hchecks
  exact hwithin.faults_eq_nil hscoped (hvalid hchecks)

/-- An indexer without storage, whose arguments change places: read, it binds both of them; for an
assignment it is a place, and reading the place binds them just so. -/
theorem Source.Access.lower_restores_swapped_arguments :
    let node := Sample.swapped Sample.call Sample.call []
    ∃ result rest, (node.lower .read .unknown).Yields Sample.env {} (.value result) rest ∧
      result.declared.length = 2 ∧
      ∃ target middle, (node.lower .write .unknown).Yields Sample.env {} (.target target) middle ∧
        target.declared = [] ∧ (Lowered.target target).Restores Sample.env middle result rest := by
  intro node
  have hread : (node.lower .read .unknown).Yields Sample.env {} (.value _) _ := ⟨_, rfl⟩
  have hwrite : (node.lower .write .unknown).Yields Sample.env {} (.target _) _ := ⟨_, rfl⟩
  obtain ⟨lowered, middle, hlowered, hrestores⟩ := lower_restores rfl node rfl hread
  obtain ⟨rfl, rfl⟩ := hwrite.unique hlowered
  exact ⟨_, _, hread, by decide, _, _, hwrite, by decide, hrestores⟩

end Subscript
