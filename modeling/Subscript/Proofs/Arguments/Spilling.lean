import Subscript.Proofs.Accesses
import Subscript.Proofs.Arguments.Assembly

/-!
# When arguments are bound

Whoever calls a getter has to know ahead of the arguments whether they are going to be bound,
because then the receiver is bound first. The prediction is exact: arguments are bound if some
argument goes to an earlier parameter than one written before it, and some argument has an effect.
What is bound are the arguments that are not stable, one temporary for each, in the written order.

## Architecture

- §1 placements that change the order
- §2 `BoundInOrder`, the bindings of the arguments
- §3 the prediction and what comes of it
-/

namespace Subscript

open Code (Allocator Binding Expr)

/-! ## §1 Changes of order -/

/-- Some entry of a list is smaller than one in front of it. -/
def Inverts (positions : List Nat) : Prop :=
  ∃ before after first second : Nat, before < after ∧ positions[before]? = some first ∧
    positions[after]? = some second ∧ second < first

/-- If two entries stand the wrong way round, then two neighbours do. -/
theorem descends_eq_true_iff (positions : List Nat) :
    descends positions = true ↔ Inverts positions := by
  rw [← Bool.not_eq_false, descends_eq_false_iff, List.pairwise_iff_getElem]
  refine ⟨?_, ?_⟩
  · intro h
    simp only [not_forall, Nat.not_le] at h
    obtain ⟨before, after, hbefore, hafter, hlt, hdescent⟩ := h
    exact ⟨before, after, _, _, hlt, List.getElem?_eq_getElem hbefore,
      List.getElem?_eq_getElem hafter, hdescent⟩
  · rintro ⟨before, after, first, second, hlt, hfirst, hsecond, hdescent⟩ hsorted
    obtain ⟨hbefore, rfl⟩ := List.getElem?_eq_some_iff.mp hfirst
    obtain ⟨hafter, rfl⟩ := List.getElem?_eq_some_iff.mp hsecond
    exact absurd (hsorted before after hbefore hafter hlt) (Nat.not_le_of_lt hdescent)

namespace Lowering

/-! ## §2 Arguments bound in order -/

/-- Arguments bound one after the other: `read` is what is read in place of each. -/
structure BoundInOrder (shape : CallShape) (raw : List Expr) (read : Nat → Expr)
    (allocator : Allocator) (bindings : List Binding) (rest : Allocator) : Prop where
  /-- there is a binding for each argument that is not stable -/
  length : bindings.length = (unstable raw 0).length
  /-- it stores the argument as it is in the next temporary, which holds storage exactly if the
  argument is passed by reference -/
  bound : ∀ index argument position, (unstable raw 0)[index]? = some (argument, position) →
    ∃ binding : Binding, bindings[index]? = some binding ∧
      binding.temp.id = allocator.upcomingAt index ∧
      binding.store = .store argument.info binding.temp.id argument ∧
      (binding.temp.holding = .storage ↔ (shape.refKind position).isByRef = true) ∧
      read position = binding.reference
  /-- a stable argument stays where it is -/
  stable : ∀ position argument, raw[position]? = some argument → argument.isStable = true →
    read position = argument
  /-- nothing else is handed out -/
  handsOut : rest = allocator.advance bindings.length

section Bound

variable {shape : CallShape} {raw : List Expr} {read : Nat → Expr} {allocator rest : Allocator}
  {bindings : List Binding} {argument other : Expr} {position index place : Nat}

/-- An argument that is listed as not stable was written at the position it is listed with. -/
private theorem unstable_getElem? (h : (unstable raw 0)[index]? = some (argument, position)) :
    raw[position]? = some argument ∧ argument.isStable = false := by
  obtain ⟨hmem, hunstable⟩ := List.mem_filter.mp (List.mem_of_getElem? h)
  exact ⟨List.mk_mem_zipIdx_iff_getElem?.mp hmem, by simpa using hunstable⟩

/-- No argument is bound twice. -/
private theorem unstable_getElem?_inj (h : (unstable raw 0)[index]? = some (argument, position))
    (h' : (unstable raw 0)[place]? = some (other, position)) : index = place := by
  have hnodup : (raw.zipIdx.map (·.2)).Nodup := by simp [List.nodup_range']
  have hsublist : ((unstable raw 0).map (·.2)).Sublist (raw.zipIdx.map (·.2)) :=
    List.filter_sublist.map _
  have hposition : ∀ {place : Nat} {other : Expr},
      (unstable raw 0)[place]? = some (other, position) →
        ((unstable raw 0).map (·.2))[place]? = some position := by
    intro place other hother
    rw [List.getElem?_map, hother]
    rfl
  obtain ⟨hlt, -⟩ := List.getElem?_eq_some_iff.mp (hposition h)
  rw [← List.getElem?_inj hlt (hnodup.sublist hsublist), hposition h, hposition h']

/-- What is read at a position is known by the position. -/
theorem read_eq_of_getElem? {count : Nat}
    (h : ((List.range count).map read)[position]? = some other) : read position = other := by
  obtain ⟨hlt, rfl⟩ := List.getElem?_eq_some_iff.mp h
  simp

/-- The bindings are made in the written order, each for an argument that is not stable. Both
lists run over `unstable`, so a binding and its argument are found at the same place. -/
theorem Spilled.boundInOrder
    (h : Spilled shape 0 allocator raw ((List.range raw.length).map read) bindings rest) :
    BoundInOrder shape raw read allocator bindings rest := by
  have hbindings := h.bindings_eq
  refine ⟨?_, ?_, ?_, h.ids.2⟩
  · rw [hbindings, List.length_mapIdx]
  · intro index argument position hunstable
    obtain ⟨hargument, hnot⟩ := unstable_getElem? hunstable
    have hbinding := congrArg (·[index]?) hbindings
    simp only [List.getElem?_mapIdx, hunstable, Option.map_some] at hbinding
    refine ⟨_, hbinding, rfl, rfl, argumentHolding_eq_storage_iff _, ?_⟩
    rcases h.read_getElem? hargument with ⟨hstable, -⟩ | ⟨-, place, binding, hplace, hat, hother⟩
    · rw [hnot] at hstable
      cases hstable
    · -- the temporary that is read is the one that was bound for this very argument
      rw [Nat.zero_add] at hplace
      obtain rfl := unstable_getElem?_inj hunstable hplace
      rw [read_eq_of_getElem? hother, Option.some.inj (hat.symm.trans hbinding)]
  -- a stable argument is read where it stands, so no binding is its own
  · intro position argument hargument hstable
    rcases h.read_getElem? hargument with ⟨-, hother⟩ | ⟨hunstable, -⟩
    · exact read_eq_of_getElem? hother
    · rw [hstable] at hunstable
      cases hunstable

/-- Arguments that have to be bound are bound in the written order. -/
theorem ReadFrom.boundInOrder {placement : List Nat}
    (h : ReadFrom shape placement allocator raw ((List.range raw.length).map read) bindings rest)
    (hspills : spillsFor placement raw = true) :
    BoundInOrder shape raw read allocator bindings rest :=
  (h.of_spillsFor hspills).boundInOrder

/-- Arguments that need not be bound are read themselves, and the allocator is not asked. -/
theorem ReadFrom.unbound {placement : List Nat}
    (h : ReadFrom shape placement allocator raw ((List.range raw.length).map read) bindings rest)
    (hspills : spillsFor placement raw = false) :
    bindings = [] ∧ rest = allocator ∧
      ∀ (position : Nat) (argument : Expr), raw[position]? = some argument →
        read position = argument := by
  obtain ⟨hbindings, hreads, hrest⟩ := h.of_not_spillsFor hspills
  refine ⟨hbindings, hrest, ?_⟩
  intro position argument hargument
  rw [← hreads] at hargument
  exact read_eq_of_getElem? hargument

end Bound

/-! ## §3 The prediction -/

section Prediction

variable {env : Env} {allocator rest : Allocator} {site : Location} {raw : List Expr}
  {shape : CallShape} {params : List Param} {placement : List Nat} {read : Nat → Expr}
  {normalized : Normalized}

/-- The prediction places the arguments as normalizing does, and looks at nothing else. -/
private theorem spillsRequired_of_placement
    (h : shape.placement params raw.length = .ok placement) :
    spillsRequired raw shape params = .ok (spillsFor placement raw) := by
  rw [spillsRequired, h]
  rfl

/-- Nothing but the placement is needed to tell whether arguments are going to be bound. -/
private theorem spillsRequired_eq_error_iff (fault : ArgumentFault) :
    spillsRequired raw shape params = .error fault ↔
      shape.placement params raw.length = .error fault := by
  cases hplacement : shape.placement params raw.length with
  | error other => simp [spillsRequired, hplacement, bind, Except.bind]
  | ok placement => simp [spillsRequired_of_placement hplacement]

/-- Arguments have to be bound exactly if their order changes and one of them may have an effect.
-/
theorem spillsFor_eq_true_iff : spillsFor placement raw = true ↔
    Inverts placement ∧ ∃ argument ∈ raw, argument.isSideEffectFree = false := by
  rw [spillsFor, Bool.and_eq_true, descends_eq_true_iff]
  simp

/-- Something is bound exactly if it has to be: where arguments are to be spilled, one of them has
an effect, and what has an effect is never stable. -/
theorem ReadFrom.needsSequence {reads : List Expr}
    (h : ReadFrom shape placement allocator raw reads normalized.bindings rest) :
    normalized.needsSequence = spillsFor placement raw := by
  cases hspills : spillsFor placement raw with
  | false => rw [Normalized.needsSequence, (h.of_not_spillsFor hspills).1, List.isEmpty_nil,
      Bool.not_true]
  | true =>
    -- what has an effect is not stable
    obtain ⟨-, argument, hmem, heffect⟩ := spillsFor_eq_true_iff.mp hspills
    have hunstable : argument.isStable = false := by
      rw [← Bool.not_eq_true]
      intro hstable
      rw [Expr.isSideEffectFree_of_isStable hstable] at heffect
      cases heffect
    have hbindings := (h.of_spillsFor hspills).bindings_ne_nil ⟨argument, hmem, hunstable⟩
    simpa [Normalized.needsSequence] using hbindings

/-- What became of the arguments of a call that were put in the order of the parameters: `read` is
what is read in place of each. -/
structure SpillsAsPredicted (raw : List Expr) (shape : CallShape) (params : List Param)
    (placement : List Nat) (read : Nat → Expr) (allocator : Allocator) (normalized : Normalized)
    (rest : Allocator) : Prop where
  /-- the placement has the parameter of each argument -/
  placed : shape.placement params raw.length = .ok placement
  /-- it is known ahead whether something is bound -/
  predicted : spillsRequired raw shape params = .ok normalized.needsSequence
  /-- something is bound if an argument goes to an earlier parameter than one written before it,
  and some argument has an effect -/
  needed : normalized.needsSequence = true ↔
    Inverts placement ∧ ∃ argument ∈ raw, argument.isSideEffectFree = false
  /-- then the arguments that are not stable are bound in the written order -/
  bound : normalized.needsSequence = true →
    BoundInOrder shape raw read allocator normalized.bindings rest
  /-- or else nothing is, and the arguments are read themselves -/
  unbound : normalized.needsSequence = false → normalized.bindings = [] ∧ rest = allocator ∧
    ∀ (position : Nat) (argument : Expr), raw[position]? = some argument →
      read position = argument

/-- Whether arguments are going to be bound can be told from their placement, and fails only with
it. Normalizing them binds what was told, and puts what is read in their place at the
parameters. -/
theorem normalize_spills_as_predicted (raw : List Expr) (shape : CallShape)
    (params : List Param) :
    (∀ fault, spillsRequired raw shape params = .error fault ↔
      shape.placement params raw.length = .error fault) ∧
    ∀ env site allocator normalized rest,
      (normalize raw shape params site).Yields env allocator normalized rest →
        ∃ placement read,
          SpillsAsPredicted raw shape params placement read allocator normalized rest ∧
            MadeFrom env shape params site placement read normalized.arguments := by
  refine ⟨spillsRequired_eq_error_iff, ?_⟩
  intro env site allocator normalized rest h
  obtain ⟨events, hrun⟩ := h
  obtain ⟨placement, read, hplaced, hreadFrom, hmade, -⟩ := normalize_run hrun
  have hneeds := hreadFrom.needsSequence
  refine ⟨placement, read, ⟨hplaced, ?_, ?_, ?_, ?_⟩, hmade⟩
  · rw [hneeds, spillsRequired_of_placement hplaced]
  · rw [hneeds, spillsFor_eq_true_iff]
  · intro hneeded
    rw [hneeds] at hneeded
    exact hreadFrom.boundInOrder hneeded
  · intro hneeded
    rw [hneeds] at hneeded
    exact hreadFrom.unbound hneeded

/-- Two calls that are named the other way round, with the receiver between them: the calls are
bound, the second one by its storage. -/
theorem normalize_spills_swapped_calls :
    let info : Info := ⟨.invalid, .unknown⟩
    let raw : List Expr :=
      [.staticCall info ⟨0⟩ [] false, .self info, .staticCall info ⟨1⟩ [] true]
    let shape : CallShape :=
      { names := [some "last", none, some "first"], refKinds := [.byValue, .byValue, .byRef] }
    let params : List Param := [{ name := "first", type := .invalid },
      { name := "middle", type := .invalid }, { name := "last", type := .invalid }]
    let env : Env := { symbols := default, types := default, members := default }
    ∃ normalized rest, (normalize raw shape params .unknown).Yields env {} normalized rest ∧
      normalized.needsSequence = true ∧ ∃ placement read,
        SpillsAsPredicted raw shape params placement read {} normalized rest ∧
          MadeFrom env shape params .unknown placement read normalized.arguments := by
  intro info raw shape params env
  have hyields : (normalize raw shape params .unknown).Yields env {} _ _ := ⟨_, rfl⟩
  exact ⟨_, _, hyields, rfl,
    (normalize_spills_as_predicted raw shape params).2 env .unknown {} _ _ hyields⟩

end Prediction

end Lowering

end Subscript
