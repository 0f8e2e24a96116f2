import Subscript.Proofs.Arguments.NormalForm
import Subscript.Proofs.Evaluation

/-!
# Arguments are evaluated in the written order

A call evaluates its arguments in the order of the parameters, but what it does must be what the
written order does. There are three reasons why it is:

- a placement that descends nowhere keeps the written order, also inside a collected array;
- arguments free of side effects all see the same memory, whichever comes first;
- otherwise what could be noticed is bound ahead, and what stays in place is a constant, the
  current object or a temporary that no argument stores.

## Architecture

- §1 `received`, what the parameters receive of the values of the arguments
- §2 arguments that are read in the order of the parameters
- §3 arguments that are bound ahead
- §4 normal forms
-/

namespace Subscript

open Code (Allocator Binding Expr Machine Memory evalAll)

variable {σ ν : Type*}

/-! ## §1 What parameters receive -/

/-- The value a parameter receives, made of the values of the arguments placed at it; the flag says
that it collects them. -/
def Code.Machine.receive (machine : Machine σ ν) (param : Param) (collects : Bool)
    (placed : List ν) : ν :=
  if collects then
    machine.array placed
  else
    match placed with
    | value :: _ => value
    | [] =>
      if param.isParams then machine.array []
      else (param.default?.map machine.literal).getD machine.nothing

/-- The values that the parameters from `position` on receive. -/
def Code.Machine.receiveFrom (machine : Machine σ ν) (collecting? : Option Nat)
    (placement : List Nat) (values : List ν) (position : Nat) : List Param → List ν
  | [] => []
  | param :: params =>
    machine.receive param (collecting? = some position)
        (Lowering.placedAt position placement values) ::
      machine.receiveFrom collecting? placement values (position + 1) params

/-- The values that parameters receive, made of the values of the arguments in the written
order. -/
def CallShape.received (shape : CallShape) (machine : Machine σ ν) (params : List Param)
    (placement : List Nat) (values : List ν) : List ν :=
  machine.receiveFrom (shape.collecting? params) placement values 0 params

namespace Lowering

variable {machine : Machine σ ν} {types : TypeTable} {site : Location}

/-! ## §2 Arguments read in the order of the parameters -/

/-- The argument of a parameter does what the arguments placed there do. -/
theorem Argument.eval {param : Param} {collects : Bool} {placed : List Expr} {argument : Expr}
    (h : Argument types site param collects placed argument)
    (hone : collects = false → placed.length ≤ 1) (memory : Memory σ ν) :
    argument.eval machine memory =
      (machine.receive param collects (evalAll machine placed memory).1,
        (evalAll machine placed memory).2) := by
  cases h with
  | collected => rfl
  | written argument others =>
    have hothers : others = [] := by simpa using hone rfl
    subst hothers
    rfl
  | empty hparams => simp [Expr.eval, Machine.receive, hparams]
  | default hparams hdefault => simp [Expr.eval, Machine.receive, hparams, hdefault]

section Arguments

variable {collecting? : Option Nat} {placement : List Nat} {reads : List Expr} {position : Nat}
  {params : List Param} {arguments : List Expr}

/-- What was placed at earlier parameters makes no difference to the later ones. -/
private theorem Arguments.skip {passed : List Nat} {skipped : List Expr}
    (hlength : passed.length = skipped.length) (hpassed : ∀ target ∈ passed, target < position)
    (h : Arguments types site collecting? (passed ++ placement) (skipped ++ reads) position params
      arguments) :
    Arguments types site collecting? placement reads position params arguments := by
  induction params generalizing position arguments with
  | nil =>
    cases h
    exact .nil position
  | cons param params ih =>
    cases h with
    | cons hargument hrest =>
      have hnone : position ∉ passed := fun hmem => Nat.lt_irrefl _ (hpassed position hmem)
      rw [placedAt_append hlength, placedAt_eq_nil hnone, List.nil_append] at hargument
      exact .cons hargument (ih (fun target hmem => Nat.lt_succ_of_lt (hpassed target hmem)) hrest)

/-- Values placed at earlier parameters make no difference to what the later ones receive. -/
private theorem receiveFrom_skip {passed : List Nat} {skipped values : List ν}
    (hlength : passed.length = skipped.length) (hpassed : ∀ target ∈ passed, target < position) :
    machine.receiveFrom collecting? (passed ++ placement) (skipped ++ values) position params =
      machine.receiveFrom collecting? placement values position params := by
  induction params generalizing position with
  | nil => rfl
  | cons param params ih =>
    have hnone : position ∉ passed := fun hmem => Nat.lt_irrefl _ (hpassed position hmem)
    rw [Machine.receiveFrom, Machine.receiveFrom, placedAt_append hlength, placedAt_eq_nil hnone,
      List.nil_append, ih fun target hmem => Nat.lt_succ_of_lt (hpassed target hmem)]

/-- Where the placement descends nowhere, the arguments in the order of the parameters are the
written arguments in the written order. They are evaluated one stretch after the other, each
stretch being what is placed at one parameter. -/
theorem Arguments.eval_of_sorted
    (h : Arguments types site collecting? placement reads position params arguments)
    (hlength : placement.length = reads.length) (hsorted : placement.Pairwise (· ≤ ·))
    (hrange : ∀ target ∈ placement, position ≤ target ∧ target < position + params.length)
    (hone : ∀ parameter < position + params.length, collecting? ≠ some parameter →
      placement.count parameter ≤ 1) (memory : Memory σ ν) :
    evalAll machine arguments memory =
      (machine.receiveFrom collecting? placement (evalAll machine reads memory).1 position params,
        (evalAll machine reads memory).2) := by
  induction params generalizing placement reads position arguments memory with
  | nil =>
    cases h
    -- with no parameter left there is no place for an argument
    have hplacement : placement = [] := by
      apply List.eq_nil_iff_forall_not_mem.mpr
      intro target hmem
      obtain ⟨hle, hlt⟩ := hrange target hmem
      exact absurd hlt (Nat.not_lt.mpr hle)
    obtain rfl : reads = [] := List.length_eq_zero_iff.mp (by rw [← hlength, hplacement]; rfl)
    rfl
  | cons param params ih =>
    cases h with
    | @cons _ _ _ argument arguments hargument hrest =>
      -- the arguments of the first parameter come first; the others follow in order
      obtain ⟨first, others, later, rfl, rfl, hlater, hsorted', hbehind⟩ :=
        exists_stretch_of_length hlength hsorted fun target hmem => (hrange target hmem).1
      have hnone : position ∉ later := fun hmem => Nat.not_succ_le_self _ (hbehind position hmem)
      have hone' : decide (collecting? = some position) = false → first.length ≤ 1 := by
        intro hcollecting
        have hcount := hone position (by simp) (of_decide_eq_false hcollecting)
        rw [List.count_append, List.count_replicate_self] at hcount
        exact Nat.le_trans (Nat.le_add_right _ _) hcount
      rw [placedAt_stretch rfl hnone] at hargument
      -- so the other parameters take no notice of them
      have hpassed : ∀ target ∈ List.replicate first.length position, target < position + 1 :=
        fun target hmem => Nat.lt_succ_of_le (Nat.le_of_eq (List.eq_of_mem_replicate hmem))
      have htail := ih (hrest.skip List.length_replicate hpassed) hlater hsorted'
        (fun target hmem => ⟨hbehind target hmem, by
          have hlt := (hrange target (List.mem_append_right _ hmem)).2
          simp only [List.length_cons] at hlt
          omega⟩)
        (fun parameter hparameter hcollecting => by
          have hcount := hone parameter (by simp only [List.length_cons]; omega) hcollecting
          rw [List.count_append] at hcount
          exact Nat.le_trans (Nat.le_add_left _ _) hcount)
        (evalAll machine first memory).2
      have hsize : (evalAll machine first memory).1.length = first.length :=
        Code.length_evalAll machine first memory
      rw [Code.evalAll_cons, hargument.eval hone', htail, Code.evalAll_append, Machine.receiveFrom,
        placedAt_stretch hsize hnone, receiveFrom_skip (by simp) hpassed]

/-- Arguments free of side effects may be evaluated in any order: the values in the order of the
parameters are those that the reads have in their own order, put where the placement says. -/
theorem Arguments.eval_of_isSideEffectFree
    (h : Arguments types site collecting? placement reads position params arguments)
    (hfree : ∀ read ∈ reads, read.isSideEffectFree = true)
    (hone : ∀ parameter < position + params.length, collecting? ≠ some parameter →
      (placedAt parameter placement reads).length ≤ 1) (memory : Memory σ ν) :
    evalAll machine arguments memory =
      (machine.receiveFrom collecting? placement (evalAll machine reads memory).1 position params,
        (evalAll machine reads memory).2) := by
  -- each argument has the value that it has by itself, so only the placement is left
  rw [Code.evalAll_of_isSideEffectFree hfree]
  induction h with
  | nil => rfl
  | @cons position param params argument arguments hargument _ ih =>
    have hplaced : ∀ read ∈ placedAt position placement reads, read.isSideEffectFree = true :=
      fun read hread => hfree read (mem_of_mem_placedAt hread)
    have hone' : decide (collecting? = some position) = false →
        (placedAt position placement reads).length ≤ 1 :=
      fun hcollecting => hone position (by simp) (of_decide_eq_false hcollecting)
    have htail := ih fun parameter hparameter => hone parameter (by simp; omega)
    rw [Code.evalAll_cons, hargument.eval hone', Code.evalAll_of_isSideEffectFree hplaced, htail,
      Machine.receiveFrom, placedAt_map]

end Arguments

/-! ## §3 Arguments bound ahead -/

section Spilled

variable {shape : CallShape} {position : Nat} {allocator rest : Allocator}
  {raw reads : List Expr} {bindings : List Binding}

/-- The bindings store their own temporaries and what the arguments store. -/
theorem Spilled.mem_stored (h : Spilled shape position allocator raw reads bindings rest)
    {id : TempId} (hid : id ∈ (bindings.map (·.store)).flatMap Expr.stored) :
    id ∈ bindings.map (·.temp.id) ∨ id ∈ raw.flatMap Expr.stored := by
  induction h with
  | nil => cases hid
  | stable _ _ ih =>
    rw [List.flatMap_cons, List.mem_append]
    exact (ih hid).imp_right .inr
  | bound _ _ ih =>
    simp only [List.map_cons, List.flatMap_cons, Allocator.store_bind, Expr.gather_store,
      Expr.ownStored, List.mem_append, List.mem_cons, List.not_mem_nil, or_false] at hid ⊢
    rcases hid with (hown | hargument) | hlater
    · exact .inl (.inl hown)
    · exact .inr (.inl hargument)
    · exact (ih hlater).imp .inr .inr

/-- Evaluating a stable expression gives the value it had before, if its temporary is not set. -/
theorem eval_of_isStable {expr : Expr} (h : expr.isStable = true) {memory memory' : Memory σ ν}
    (htemps : ∀ info id, expr = .temp info id → memory'.temps id = memory.temps id) :
    expr.eval machine memory' = ((expr.eval machine memory).1, memory') := by
  cases expr with
  | literal info value => rfl
  | self info => rfl
  | temp info id => exact Prod.ext (htemps info id rfl) rfl
  | _ => simp [Expr.isStable] at h

/-- A temporary that is an argument by itself is stored by none of the arguments. -/
def BareTempsUnstored (raw : List Expr) : Prop :=
  ∀ info id, .temp info id ∈ raw → id ∉ raw.flatMap Expr.stored

/-- Fewer arguments have fewer temporaries that might be set. -/
theorem BareTempsUnstored.of_cons {argument : Expr} (h : BareTempsUnstored (argument :: raw)) :
    BareTempsUnstored raw := by
  intro info id hmem hstored
  apply h info id (List.mem_cons_of_mem _ hmem)
  rw [List.flatMap_cons]
  exact List.mem_append_right _ hstored

/-- A temporary that some argument stores is one that the arguments mention. -/
theorem mem_flatMap_mentioned {id : TempId} (h : id ∈ raw.flatMap Expr.stored) :
    id ∈ raw.flatMap Expr.mentioned := by
  obtain ⟨argument, hargument, hid⟩ := List.mem_flatMap.mp h
  exact List.mem_flatMap.mpr ⟨argument, hargument, Expr.mem_mentioned_of_mem_stored hid⟩

variable (machine) in
/-- Running the bindings does what the arguments do in the written order, and afterwards the
arguments are read with the values that they had. Here `P` holds of the temporaries that the
arguments know, and of none that they are bound to. -/
theorem Spilled.eval {P : TempId → Prop}
    (h : Spilled shape position allocator raw reads bindings rest)
    (hknown : ∀ id ∈ raw.flatMap Expr.mentioned, P id)
    (hfresh : ∀ id ∈ bindings.map (·.temp.id), ¬ P id)
    (hnodup : (bindings.map (·.temp.id)).Nodup) (hbare : BareTempsUnstored raw)
    {memory memory' : Memory σ ν} (hagree : memory'.AgreeOn P memory) :
    (evalAll machine (bindings.map (·.store)) memory').2.AgreeOn P
        (evalAll machine raw memory).2 ∧
      (evalAll machine reads (evalAll machine (bindings.map (·.store)) memory').2).1 =
        (evalAll machine raw memory).1 := by
  induction h generalizing memory memory' with
  | nil => exact ⟨hagree, rfl⟩
  | @stable position allocator rest argument raw reads bindings hstable _ ih =>
    rw [List.flatMap_cons] at hknown
    have hquiet := Expr.isSideEffectFree_of_isStable hstable
    obtain ⟨hleft, hvalues⟩ := ih (fun id hid => hknown id (List.mem_append_right _ hid)) hfresh
      hnodup hbare.of_cons hagree
    -- no argument stores the temporary, so reading it late makes no difference
    have hlate : argument.eval machine (evalAll machine (bindings.map (·.store)) memory').2 =
        ((argument.eval machine memory).1,
          (evalAll machine (bindings.map (·.store)) memory').2) := by
      apply eval_of_isStable hstable
      intro info id hargument
      subst hargument
      have hstored : id ∉ raw.flatMap Expr.stored := fun hmem => hbare info id (by simp) (by
        rw [List.flatMap_cons]
        exact List.mem_append_right _ hmem)
      rw [hleft.temps id (hknown id (by simp)), Code.temps_evalAll machine raw memory hstored]
    simp only [Code.evalAll_cons, hlate, Expr.eval_of_isSideEffectFree hquiet, hvalues]
    exact ⟨hleft, trivial⟩
  | @bound position allocator rest argument raw reads bindings _ hrest ih =>
    rw [List.flatMap_cons] at hknown
    rw [List.map_cons] at hfresh hnodup
    obtain ⟨hnext, hnodup'⟩ := List.nodup_cons.mp hnodup
    have hunknown : ¬ P allocator.next := hfresh allocator.next (.head _)
    -- setting the new temporary goes unnoticed by the arguments behind this one
    obtain ⟨hvalue, hmiddle⟩ := argument.eval_agree machine
      (fun id hid => hknown id (List.mem_append_left _ hid)) hagree
    have hset := hmiddle.store_left hunknown (argument.eval machine memory').1
    obtain ⟨hleft, hvalues⟩ := ih (fun id hid => hknown id (List.mem_append_right _ hid))
      (fun id hid => hfresh id (.tail _ hid)) hnodup' hbare.of_cons hset
    -- later stores set later temporaries, or temporaries that the arguments know
    have hstored : allocator.next ∉ (bindings.map (·.store)).flatMap Expr.stored := by
      intro hmem
      rcases hrest.mem_stored hmem with hlater | hargument
      · exact hnext hlater
      · exact hunknown (hknown _ (List.mem_append_right _ (mem_flatMap_mentioned hargument)))
    have hkept := Code.temps_evalAll machine _
      ((argument.eval machine memory').2.store allocator.next (argument.eval machine memory').1)
      hstored
    rw [Memory.temps_store_self] at hkept
    simp only [List.map_cons, Code.evalAll_cons, Allocator.store_bind, Allocator.reference_bind,
      Expr.eval, hkept.trans hvalue, hvalues]
    exact ⟨hleft, trivial⟩

end Spilled

/-! ## §4 Normal forms -/

section NormalForm

variable {shape : CallShape} {params : List Param} {placement : List Nat} {raw reads : List Expr}
  {allocator rest : Allocator} {normalized : Normalized}

/-- Either the placement keeps the written order or no order can be noticed: what is read in place
of bound arguments is stable. -/
private theorem ReadFrom.descends_or_isSideEffectFree {bindings : List Binding}
    (h : ReadFrom shape placement allocator raw reads bindings rest) :
    descends placement = false ∨ ∀ read ∈ reads, read.isSideEffectFree = true := by
  cases h with
  | bound _ hspilled =>
    right
    intro read hmem
    exact Expr.isSideEffectFree_of_isStable (hspilled.isStable_reads read hmem)
  | direct hspills =>
    exact (Bool.and_eq_false_iff.mp hspills).imp_right fun hfree => by simpa using hfree

/-- The arguments of a normal form do what is read in place of the written ones, and the parameters
receive its values. -/
theorem NormalForm.eval_arguments
    (h : NormalForm types raw shape params site placement reads allocator normalized rest)
    (memory : Memory σ ν) :
    evalAll machine normalized.arguments memory =
      (shape.received machine params placement (evalAll machine reads memory).1,
        (evalAll machine reads memory).2) := by
  have hone : ∀ parameter < 0 + params.length, shape.collecting? params ≠ some parameter →
      (placedAt parameter placement reads).length ≤ 1 :=
    fun parameter hparameter hcollecting =>
      h.length_placedAt_le_one (by simpa using hparameter) hcollecting
  have hrange : ∀ target ∈ placement, 0 ≤ target ∧ target < 0 + params.length :=
    fun target hmem =>
      ⟨Nat.zero_le _, by simpa using (CallShape.placement_ok h.placed).2 target hmem⟩
  rcases h.readFrom.descends_or_isSideEffectFree with hsorted | hfree
  -- nothing changes places, or nobody can tell
  · refine h.arguments.eval_of_sorted h.length_placement
      ((descends_eq_false_iff placement).mp hsorted) hrange (fun parameter hlt hcollecting => ?_)
      memory
    rw [← length_placedAt h.length_placement]
    exact hone parameter hlt hcollecting
  · exact h.arguments.eval_of_isSideEffectFree hfree hone memory

variable (machine) in
/-- Running the bindings of a normal form does what the arguments do in the written order, and then
they are read with the values they had. -/
theorem ReadFrom.eval {bindings : List Binding}
    (h : ReadFrom shape placement allocator raw reads bindings rest)
    (hknown : ∀ id ∈ raw.flatMap Expr.mentioned, id < allocator.next)
    (hroom : allocator.HasRoom bindings.length) (hbare : BareTempsUnstored raw)
    (memory : Memory σ ν) :
    (evalAll machine reads (evalAll machine (bindings.map (·.store)) memory).2).1 =
        (evalAll machine raw memory).1 ∧
      (evalAll machine reads (evalAll machine (bindings.map (·.store)) memory).2).2.AgreeOn
        (· ∉ bindings.map (·.temp.id)) (evalAll machine raw memory).2 := by
  cases h with
  | direct => exact ⟨rfl, .refl _ _⟩
  | bound _ hspilled =>
    have hroom' : allocator.HasRoom (bindings.map (·.temp.id)).length := by simpa using hroom
    -- the arguments know only temporaries that were handed out before
    have hold : ∀ id ∈ raw.flatMap Expr.mentioned, id ∉ bindings.map (·.temp.id) := by
      intro id hid hmem
      exact absurd (hknown id hid) (Nat.not_lt.mpr (hspilled.handsOut.bounds hroom' hmem).1)
    obtain ⟨hleft, hvalues⟩ := hspilled.eval machine hold
      (fun id hid hnot => hnot hid) (hspilled.handsOut.nodup hroom') hbare (.refl _ memory)
    refine ⟨hvalues, ?_⟩
    rw [Code.evalAll_of_isSideEffectFree fun read hmem =>
      Expr.isSideEffectFree_of_isStable (hspilled.isStable_reads read hmem)]
    exact hleft

end NormalForm

/-- A call with normalized arguments does what evaluating the arguments in the written order does:
running the bindings and then the arguments leaves the same world, the same values of all
temporaries but those of the bindings, and every parameter receives the values that the arguments
placed at it have in the written order. -/
theorem normalize_keeps_written_order (machine : Machine σ ν) (memory : Memory σ ν) {env : Env}
    {allocator rest : Allocator} {raw : List Expr} {shape : CallShape} {params : List Param}
    {normalized : Normalized} (hliterals : env.builder = .literals)
    (hnormalize : (normalize raw shape params site).Yields env allocator normalized rest)
    (hknown : ∀ argument ∈ raw, ∀ id ∈ argument.mentioned, id < allocator.next)
    (hroom : allocator.HasRoom normalized.bindings.length) (hbare : BareTempsUnstored raw) :
    ∃ placement, shape.placement params raw.length = .ok placement ∧
      let written := evalAll machine raw memory
      let ahead := (evalAll machine (normalized.bindings.map (·.store)) memory).2
      let called := evalAll machine normalized.arguments ahead
      called.1 = shape.received machine params placement written.1 ∧
        called.2.AgreeOn (· ∉ normalized.bindings.map (·.temp.id)) written.2 := by
  obtain ⟨placement, reads, hnormal⟩ := (normalize_yields_iff hliterals).mp hnormalize
  have hknown' : ∀ id ∈ raw.flatMap Expr.mentioned, id < allocator.next := by
    intro id hid
    obtain ⟨argument, hargument, hid⟩ := List.mem_flatMap.mp hid
    exact hknown argument hargument id hid
  obtain ⟨hvalues, hleft⟩ := hnormal.readFrom.eval machine hknown' hroom hbare memory
  refine ⟨placement, hnormal.placed, ?_, ?_⟩
  · rw [hnormal.eval_arguments, hvalues]
  · rw [hnormal.eval_arguments]
    exact hleft

/-- Two calls whose arguments change places: the parameters receive `1` and `0`, though the first
argument runs first. -/
theorem normalize_keeps_order_of_swapped_calls :
    let info : Info := ⟨.invalid, .unknown⟩
    let raw : List Expr := [.staticCall info ⟨0⟩ [] false, .staticCall info ⟨1⟩ [] false]
    let shape : CallShape := { placement? := some [1, 0] }
    let params : List Param :=
      [{ name := "p", type := .invalid }, { name := "q", type := .invalid }]
    let env : Env := { symbols := default, types := default, members := default }
    let memory : Memory Nat Nat := ⟨⟨0, []⟩, fun _ => 0⟩
    ∃ normalized rest,
      (normalize raw shape params .unknown).Yields env {} normalized rest ∧
      (∀ argument ∈ raw, ∀ id ∈ argument.mentioned, id < ({} : Allocator).next) ∧
      ({} : Allocator).HasRoom normalized.bindings.length ∧ BareTempsUnstored raw ∧
      ∃ placement, shape.placement params raw.length = .ok placement ∧
        let written := evalAll .numbering raw memory
        let ahead := (evalAll .numbering (normalized.bindings.map (·.store)) memory).2
        let called := evalAll .numbering normalized.arguments ahead
        called.1 = shape.received .numbering params placement written.1 ∧
          called.2.AgreeOn (· ∉ normalized.bindings.map (·.temp.id)) written.2 := by
  intro info raw shape params env memory
  have hliterals : env.builder = .literals := rfl
  have hrun : (normalize raw shape params .unknown).Yields env {} _ _ := ⟨_, rfl⟩
  have hknown : ∀ argument ∈ raw, ∀ id ∈ argument.mentioned, id < ({} : Allocator).next := by
    simp [raw]
  have hbare : BareTempsUnstored raw := by
    intro info id hmem
    simp [raw] at hmem
  exact ⟨_, _, hrun, hknown, by decide, hbare,
    normalize_keeps_written_order .numbering memory hliterals hrun hknown (by decide) hbare⟩

end Lowering

end Subscript
