import Subscript.Proofs.Allocation
import Subscript.Proofs.Arguments.Taking
import Subscript.Proofs.Parts
import Subscript.Proofs.Yields

/-!
# The normal form of an argument list

A call gets one argument for each parameter: an argument that was written for it, an array of those
it collects, or its default. What it gets is read either from the written arguments themselves or,
if they were bound ahead, from their temporaries.

## Architecture

- §1 `Spilled`, the written arguments beside what is read in their place
- §2 `Argument` and `Arguments`, what the parameters get
- §3 what `normalize` yields
- §4 nothing is lost and nothing is added
-/

namespace Subscript.Lowering

open Code (Allocator Binding Expr Holding)

/-! ## §1 Bound arguments -/

/-- Written arguments from a position on, what is read in their place, and the bindings made for
them: a stable argument stays, any other one is bound to the next temporary. -/
inductive Spilled (shape : CallShape) :
    Nat → Allocator → List Expr → List Expr → List Binding → Allocator → Prop where
  /-- nothing is left -/
  | nil (position : Nat) (allocator : Allocator) :
    Spilled shape position allocator [] [] [] allocator
  /-- a stable argument is read where it is needed -/
  | stable {position : Nat} {allocator rest : Allocator} {argument : Expr}
    {arguments reads : List Expr} {bindings : List Binding}
    (hstable : argument.isStable = true)
    (hrest : Spilled shape (position + 1) allocator arguments reads bindings rest) :
    Spilled shape position allocator (argument :: arguments) (argument :: reads) bindings rest
  /-- any other argument is read from its temporary -/
  | bound {position : Nat} {allocator rest : Allocator} {argument : Expr}
    {arguments reads : List Expr} {bindings : List Binding}
    (hstable : argument.isStable = false)
    (hrest : Spilled shape (position + 1)
      (allocator.bind argument (argumentHolding (shape.refKind position))).2
      arguments reads bindings rest) :
    Spilled shape position allocator (argument :: arguments)
      ((allocator.bind argument (argumentHolding (shape.refKind position))).1.reference :: reads)
      ((allocator.bind argument (argumentHolding (shape.refKind position))).1 :: bindings) rest

/-- A temporary holds storage exactly if the parameter shares its argument. -/
theorem argumentHolding_eq_storage_iff (refKind : RefKind) :
    argumentHolding refKind = .storage ↔ refKind.isByRef = true := by
  cases refKind <;> decide

/-- The first argument is bound, then the others. -/
theorem run_spill_bound {argument : Expr} (hstable : argument.isStable = false)
    (shape : CallShape) (position : Nat) (arguments : List Expr) (allocator : Allocator) :
    (spill shape position (argument :: arguments)).run allocator =
      let bound := allocator.bind argument (argumentHolding (shape.refKind position))
      let others := (spill shape (position + 1) arguments).run bound.2
      ((bound.1.reference :: others.1.1, bound.1 :: others.1.2), others.2) := by
  rw [spill, hstable]
  rfl

/-- A stable first argument stays, and the others are bound. -/
theorem run_spill_stable {argument : Expr} (hstable : argument.isStable = true)
    (shape : CallShape) (position : Nat) (arguments : List Expr) (allocator : Allocator) :
    (spill shape position (argument :: arguments)).run allocator =
      let others := (spill shape (position + 1) arguments).run allocator
      ((argument :: others.1.1, others.1.2), others.2) := by
  rw [spill, if_pos hstable]
  rfl

/-- The relation `Spilled` describes every run: it has a case for each kind of argument. -/
private theorem spilled_spill (shape : CallShape) (position : Nat) (allocator : Allocator)
    (arguments : List Expr) :
    Spilled shape position allocator arguments
      ((spill shape position arguments).run allocator).1.1
      ((spill shape position arguments).run allocator).1.2
      ((spill shape position arguments).run allocator).2 := by
  induction arguments generalizing position allocator with
  | nil => exact .nil position allocator
  | cons argument arguments ih =>
    cases hstable : argument.isStable with
    | true =>
      rw [run_spill_stable hstable]
      exact .stable hstable (ih (position + 1) allocator)
    | false =>
      rw [run_spill_bound hstable]
      exact .bound hstable (ih (position + 1) _)

/-- `Spilled` is what `spill` does, and nothing else. Its rules follow the arguments, so later
proofs are inductions over it and do not see the allocator monad. -/
theorem spilled_iff {shape : CallShape} {position : Nat} {allocator rest : Allocator}
    {arguments reads : List Expr} {bindings : List Binding} :
    Spilled shape position allocator arguments reads bindings rest ↔
      (spill shape position arguments).run allocator = ((reads, bindings), rest) := by
  constructor
  · intro h
    induction h with
    | nil => rfl
    | stable hstable _ ih =>
      rw [run_spill_stable hstable]
      dsimp only
      rw [ih]
    | bound hstable _ ih =>
      rw [run_spill_bound hstable]
      dsimp only
      rw [ih]
  · intro hrun
    -- a run has one outcome, and the relation holds of that one
    have hspilled := spilled_spill shape position allocator arguments
    rwa [hrun] at hspilled

section Spilled

variable {shape : CallShape} {position : Nat} {allocator rest : Allocator}
  {arguments reads : List Expr} {bindings : List Binding}

/-- Something is read in place of each argument. -/
theorem Spilled.length_reads
    (h : Spilled shape position allocator arguments reads bindings rest) :
    reads.length = arguments.length := by
  induction h with
  | nil => rfl
  | stable _ _ ih => simp [ih]
  | bound _ _ ih => simp [ih]

/-- The temporaries of bound arguments are the next ones, in the written order. -/
theorem Spilled.ids (h : Spilled shape position allocator arguments reads bindings rest) :
    bindings.map (·.temp.id) = allocator.upcoming bindings.length ∧
      rest = allocator.advance bindings.length := by
  induction h with
  | nil position allocator => simp [Allocator.upcoming]
  | stable _ _ ih => exact ih
  | @bound position allocator rest argument arguments reads bindings _ _ ih =>
    obtain ⟨hids, hrest⟩ := ih
    -- the later ones start one identifier further on
    rw [Allocator.bind_snd] at hids hrest
    rw [List.length_cons, Nat.add_comm]
    refine ⟨?_, ?_⟩
    · rw [List.map_cons, hids, Allocator.upcoming_add]
      simp [Allocator.upcoming, Allocator.bind, Allocator.fresh]
    · rw [hrest, Allocator.advance_advance]

/-- Binding arguments hands out a temporary for each binding, and no others. -/
theorem Spilled.handsOut (h : Spilled shape position allocator arguments reads bindings rest) :
    allocator.HandsOut (bindings.map (·.temp.id)) rest := by
  obtain ⟨hids, rfl⟩ := h.ids
  rw [hids]
  exact Allocator.HandsOut.upcoming allocator bindings.length

/-- Bound arguments are named by the stem in force. -/
theorem Spilled.named (h : Spilled shape position allocator arguments reads bindings rest) :
    Binding.AllNamed allocator.stem bindings := by
  induction h with
  | nil => exact .nil
  | stable _ _ ih => exact ih
  -- binding an argument leaves the stem alone
  | bound _ _ ih => exact .cons (Allocator.namedBy_bind ..) ih

/-- What is read in place of bound arguments is stable. -/
theorem Spilled.isStable_reads
    (h : Spilled shape position allocator arguments reads bindings rest) :
    ∀ read ∈ reads, read.isStable = true := by
  induction h with
  | nil => simp
  | stable hstable _ ih => simpa [hstable] using ih
  | bound _ _ ih => simpa [Allocator.reference_bind, Expr.isStable] using ih

/-- An argument that is not stable is bound, so there is a binding as soon as there is such an
argument. -/
theorem Spilled.bindings_ne_nil
    (h : Spilled shape position allocator arguments reads bindings rest)
    (hunstable : ∃ argument ∈ arguments, argument.isStable = false) : bindings ≠ [] := by
  induction h with
  | nil => simp at hunstable
  | stable hstable _ ih =>
    apply ih
    obtain ⟨argument, hmem, hargument⟩ := hunstable
    rcases List.mem_cons.mp hmem with rfl | hmem
    · rw [hstable] at hargument
      cases hargument
    · exact ⟨argument, hmem, hargument⟩
  | bound => exact List.cons_ne_nil _ _

end Spilled

/-! ## §2 What the parameters get -/

/-- What a parameter gets, made of the arguments placed at it; the flag says that it collects
them. -/
inductive Argument (types : TypeTable) (site : Location) (param : Param) :
    Bool → List Expr → Expr → Prop where
  /-- an array of the collected arguments -/
  | collected (placed : List Expr) :
    Argument types site param true placed (.array ⟨param.type, site⟩ placed)
  /-- the argument that was written for it -/
  | written (argument : Expr) (others : List Expr) :
    Argument types site param false (argument :: others) argument
  /-- an empty array, if it could collect arguments -/
  | empty (hparams : param.isParams = true) :
    Argument types site param false [] (.array ⟨param.type, site⟩ [])
  /-- its default -/
  | default {value : Literal} (hparams : param.isParams = false)
    (hdefault : param.default? = some value) :
    Argument types site param false []
      (.literal ⟨if param.type.isValid then param.type else types.objectType, site⟩ value)

/-- What the parameters from a position on get. -/
inductive Arguments (types : TypeTable) (site : Location) (collecting? : Option Nat)
    (placement : List Nat) (reads : List Expr) : Nat → List Param → List Expr → Prop where
  /-- no parameter is left -/
  | nil (position : Nat) : Arguments types site collecting? placement reads position [] []
  /-- a parameter gets its argument, and so do those behind it -/
  | cons {position : Nat} {param : Param} {params : List Param} {argument : Expr}
    {arguments : List Expr}
    (hargument : Argument types site param (decide (collecting? = some position))
      (placedAt position placement reads) argument)
    (hrest : Arguments types site collecting? placement reads (position + 1) params arguments) :
    Arguments types site collecting? placement reads position (param :: params)
      (argument :: arguments)

section Yields

variable {env : Env} {allocator rest : Allocator} {site : Location}

/-- What a parameter collects becomes an array at the place of the access. -/
theorem collect_yields_iff (hliterals : env.builder = .literals) {param : Param}
    {elements : List Expr} {array : Expr} :
    (collect param elements site).Yields env allocator array rest ↔
      array = .array ⟨param.type, site⟩ elements ∧ allocator = rest := by
  simp only [collect, yields_bind_iff, yields_report_iff, yields_environment_iff, yields_pure_iff]
  constructor
  · rintro ⟨_, _, rfl, _, _, ⟨rfl, rfl⟩, rfl, rfl⟩
    rw [hliterals]
    exact ⟨rfl, rfl⟩
  · rintro ⟨rfl, rfl⟩
    refine ⟨(), allocator, rfl, env, allocator, ⟨rfl, rfl⟩, ?_, rfl⟩
    rw [hliterals]
    rfl

/-- A default becomes a constant of the type of its parameter, or of the common reference type if
the parameter has none; a parameter without a default is refused. -/
theorem takeDefault_yields_iff (hliterals : env.builder = .literals) {param : Param}
    {argument : Expr} :
    (takeDefault param site).Yields env allocator argument rest ↔
      (∃ value, param.default? = some value ∧ argument =
        .literal ⟨if param.type.isValid then param.type else env.types.objectType, site⟩ value) ∧
        allocator = rest := by
  simp only [takeDefault, yields_bind_iff, yields_report_iff, yields_environment_iff,
    yields_ofExcept_iff]
  constructor
  · rintro ⟨_, _, rfl, _, _, ⟨rfl, rfl⟩, hargument, rfl⟩
    -- the default builder asks for nothing but the default itself
    rw [hliterals] at hargument
    simp only [ArgumentBuilder.literals] at hargument
    split at hargument
    · rename_i value hvalue
      cases hargument
      exact ⟨⟨value, hvalue, rfl⟩, rfl⟩
    · cases hargument
  · rintro ⟨⟨value, hvalue, rfl⟩, rfl⟩
    refine ⟨(), allocator, rfl, env, allocator, ⟨rfl, rfl⟩, ?_, rfl⟩
    rw [hliterals]
    simp only [ArgumentBuilder.literals, hvalue]

/-- What a parameter gets is decided without a temporary: `Argument` lists the four ways in which
it can come by an argument. -/
theorem argumentFor_yields_iff (hliterals : env.builder = .literals) {param : Param}
    {collects : Bool} {placed : List Expr} {argument : Expr} :
    (argumentFor param collects placed site).Yields env allocator argument rest ↔
      Argument env.types site param collects placed argument ∧ allocator = rest := by
  unfold argumentFor
  constructor
  · intro h
    split at h
    -- the parameter collects what is placed at it
    · rename_i hcollects
      obtain ⟨rfl, rfl⟩ := (collect_yields_iff hliterals).mp h
      exact ⟨hcollects ▸ .collected placed, rfl⟩
    · rename_i hcollects
      obtain rfl : collects = false := Bool.not_eq_true _ ▸ hcollects
      split at h
      -- something was written for the parameter
      · rename_i first others
        obtain ⟨rfl, rfl⟩ := yields_pure_iff.mp h
        exact ⟨.written first others, rfl⟩
      · split at h
        -- nothing was: it collects nothing, or takes its default
        · rename_i hparams
          obtain ⟨rfl, rfl⟩ := (collect_yields_iff hliterals).mp h
          exact ⟨.empty hparams, rfl⟩
        · rename_i hparams
          obtain ⟨⟨value, hvalue, rfl⟩, rfl⟩ := (takeDefault_yields_iff hliterals).mp h
          exact ⟨.default (Bool.not_eq_true _ ▸ hparams) hvalue, rfl⟩
  · rintro ⟨h, rfl⟩
    cases h with
    | collected => exact (collect_yields_iff hliterals).mpr ⟨rfl, rfl⟩
    | written argument others => exact yields_pure_iff.mpr ⟨rfl, rfl⟩
    | empty hparams => simpa [hparams] using (collect_yields_iff hliterals).mpr ⟨rfl, rfl⟩
    | default hparams hdefault =>
      simpa [hparams] using (takeDefault_yields_iff hliterals).mpr ⟨⟨_, hdefault, rfl⟩, rfl⟩

/-- The parameters get their arguments one after the other, and none of them costs a temporary:
defaults are constants for the default builder, and what is collected has been read already. -/
theorem argumentsFrom_yields_iff (hliterals : env.builder = .literals)
    {collecting? : Option Nat}
    {placement : List Nat} {reads : List Expr} {position : Nat} {params : List Param}
    {arguments : List Expr} :
    (argumentsFrom collecting? placement reads site position params).Yields env allocator
        arguments rest ↔
      Arguments env.types site collecting? placement reads position params arguments ∧
        allocator = rest := by
  constructor
  · intro h
    -- the position counts up along with the parameters
    induction params generalizing position allocator arguments with
    | nil =>
      obtain ⟨rfl, rfl⟩ := yields_pure_iff.mp h
      exact ⟨.nil position, rfl⟩
    | cons param params ih =>
      simp only [argumentsFrom, yields_bind_iff, yields_pure_iff] at h
      obtain ⟨argument, _, hhead, later, _, htail, rfl, rfl⟩ := h
      obtain ⟨hargument, rfl⟩ := (argumentFor_yields_iff hliterals).mp hhead
      obtain ⟨hlater, rfl⟩ := ih htail
      exact ⟨.cons hargument hlater, rfl⟩
  · rintro ⟨h, rfl⟩
    induction h with
    | nil => exact yields_pure_iff.mpr ⟨rfl, rfl⟩
    | cons hargument _ ih =>
      simp only [argumentsFrom, yields_bind_iff, yields_pure_iff]
      exact ⟨_, allocator, (argumentFor_yields_iff hliterals).mpr ⟨hargument, rfl⟩, _, allocator,
        ih, rfl, rfl⟩

/-! ## §3 What `normalize` yields -/

/-- What is read in place of the written arguments: their temporaries, if evaluating them in the
order of the parameters could be noticed, or else the arguments themselves. -/
inductive ReadFrom (shape : CallShape) (placement : List Nat) (allocator : Allocator)
    (arguments : List Expr) : List Expr → List Binding → Allocator → Prop where
  /-- the arguments are bound ahead of the call -/
  | bound {reads : List Expr} {bindings : List Binding} {rest : Allocator}
    (hspills : spillsFor placement arguments = true)
    (hspilled : Spilled shape 0 allocator arguments reads bindings rest) :
    ReadFrom shape placement allocator arguments reads bindings rest
  /-- the arguments stay where they are -/
  | direct (hspills : spillsFor placement arguments = false) :
    ReadFrom shape placement allocator arguments arguments [] allocator

section ReadFrom

variable {shape : CallShape} {placement : List Nat} {arguments reads : List Expr}
  {bindings : List Binding}

/-- Binding arguments asks for nothing. -/
theorem ReadFrom.exists (shape : CallShape) (placement : List Nat) (allocator : Allocator)
    (arguments : List Expr) :
    ∃ reads bindings rest, ReadFrom shape placement allocator arguments reads bindings rest := by
  cases hspills : spillsFor placement arguments with
  | true => exact ⟨_, _, _, .bound hspills (spilled_spill shape 0 allocator arguments)⟩
  | false => exact ⟨_, _, _, .direct hspills⟩

/-- Arguments that have to be bound are bound. -/
theorem ReadFrom.of_spillsFor
    (h : ReadFrom shape placement allocator arguments reads bindings rest)
    (hspills : spillsFor placement arguments = true) :
    Spilled shape 0 allocator arguments reads bindings rest := by
  cases h with
  | bound _ hspilled => exact hspilled
  | direct hspills' =>
    rw [hspills] at hspills'
    cases hspills'

/-- Arguments that need not be bound stay where they are. -/
theorem ReadFrom.of_not_spillsFor
    (h : ReadFrom shape placement allocator arguments reads bindings rest)
    (hspills : spillsFor placement arguments = false) :
    bindings = [] ∧ reads = arguments ∧ rest = allocator := by
  cases h with
  | bound hspills' =>
    rw [hspills] at hspills'
    cases hspills'
  | direct => exact ⟨rfl, rfl, rfl⟩

/-- Whether or not arguments are bound, something is read in place of each. -/
theorem ReadFrom.length_reads
    (h : ReadFrom shape placement allocator arguments reads bindings rest) :
    reads.length = arguments.length := by
  cases h with
  | bound _ hspilled => exact hspilled.length_reads
  | direct => rfl

end ReadFrom

/-- The normal form of an argument list: a placement that binds no parameter twice, and for each
parameter an argument made of what is read in place of the written ones. -/
structure NormalForm (types : TypeTable) (arguments : List Expr) (shape : CallShape)
    (params : List Param) (site : Location) (placement : List Nat) (reads : List Expr)
    (allocator : Allocator) (normalized : Normalized) (rest : Allocator) : Prop where
  placed : shape.placement params arguments.length = .ok placement
  unbound : shape.overbound? params placement = none
  readFrom : ReadFrom shape placement allocator arguments reads normalized.bindings rest
  arguments : Arguments types site (shape.collecting? params) placement reads 0 params
    normalized.arguments

/-- What is read in place of the arguments, and from which bindings, is what `ReadFrom` says. Its
two rules are the two branches, so that later proofs see `ReadFrom` and no branch. -/
theorem spillIf_yields_iff {arguments reads : List Expr} {shape : CallShape}
    {placement : List Nat} {bindings : List Binding} :
    (spillIf (spillsFor placement arguments) shape arguments).Yields env allocator
        (reads, bindings) rest ↔
      ReadFrom shape placement allocator arguments reads bindings rest := by
  unfold spillIf
  -- the arguments are bound exactly if `spillsFor` says that they must be
  cases hspills : spillsFor placement arguments with
  | true =>
    simp only [if_true, yields_bind_iff, yields_report_iff, yields_withAllocator_iff]
    constructor
    · rintro ⟨_, _, rfl, hrun⟩
      exact .bound hspills (spilled_iff.mpr hrun)
    · intro h
      exact ⟨(), allocator, rfl, spilled_iff.mp (h.of_spillsFor hspills)⟩
  | false =>
    simp only [Bool.false_eq_true, if_false, yields_pure_iff]
    constructor
    · rintro ⟨hpair, rfl⟩
      cases hpair
      exact .direct hspills
    · intro h
      obtain ⟨rfl, rfl, rfl⟩ := h.of_not_spillsFor hspills
      exact ⟨rfl, rfl⟩

/-- Steps that agree on everything a first step can yield may take each other's place. -/
private theorem bind_congr_of_yields {α β : Type} {first : Lowering α} {next next' : α → Lowering β}
    (h : ∀ env allocator value rest, first.Yields env allocator value rest →
      next value = next' value) : first >>= next = first >>= next' := by
  funext env allocator
  show (first >>= next).run env allocator = (first >>= next').run env allocator
  rcases hrun : first.run env allocator with ⟨_ | value, rest, events⟩
  · rw [run_bind_error hrun, run_bind_error hrun]
  · rw [run_bind_ok hrun, run_bind_ok hrun, h env allocator value rest ⟨events, hrun⟩]

/-- Normalizing needs no supply: once the placement is checked, every parameter gets what is
placed at it. The supply only guards against taking an argument twice, and that never happens. -/
theorem normalize_eq (arguments : List Expr) (shape : CallShape) (params : List Param)
    (site : Location) :
    normalize arguments shape params site = (do
      let placement ← ofPlacement (shape.placement params arguments.length)
      match shape.overbound? params placement with
      | some fault => fail fault.violation
      | none => do
        let (reads, bindings) ← spillIf (spillsFor placement arguments) shape arguments
        let arguments ← argumentsFrom (shape.collecting? params) placement reads site 0 params
        return ⟨arguments, bindings⟩) := by
  apply bind_congr_of_yields
  intro _ _ placement _ hplacement
  obtain ⟨hplaced, -⟩ := yields_ofPlacement_iff.mp hplacement
  -- a parameter that is bound again ends both sides in the same way
  cases hunbound : shape.overbound? params placement with
  | some fault => rfl
  | none =>
    apply bind_congr_of_yields
    rintro _ _ ⟨reads, bindings⟩ _ hspill
    have hlength : reads.length = placement.length := by
      rw [(spillIf_yields_iff.mp hspill).length_reads, (CallShape.placement_ok hplaced).1]
    -- at most one argument is placed at a parameter that collects nothing
    have hone : ∀ parameter < 0 + params.length, shape.collecting? params ≠ some parameter →
        placement.count parameter ≤ 1 := by
      intro parameter hparameter
      rw [Nat.zero_add] at hparameter
      exact CallShape.overbound?_eq_none_iff.mp hunbound parameter hparameter
    obtain ⟨read, hreads⟩ := exists_read reads
    rw [hlength] at hreads
    -- in the beginning all arguments are there to be taken
    have hstocked : Stocked placement read 0 (reads.map some) := by
      intro argument target htarget _
      have hargument := (List.getElem?_eq_some_iff.mp htarget).1
      rw [hreads, List.map_map, List.getElem?_map, List.getElem?_range hargument]
      rfl
    show takeArguments _ _ _ _ _ _ >>= _ = _
    rw [takeArguments_eq hone hstocked, ← hreads]

/-- `NormalForm` is what `normalize` yields, and nothing else. The steps are a placement, the test
for parameters bound twice, the bindings and the arguments; each has its own `_yields_iff`. -/
theorem normalize_yields_iff (hliterals : env.builder = .literals) {arguments : List Expr}
    {shape : CallShape} {params : List Param} {normalized : Normalized} :
    (normalize arguments shape params site).Yields env allocator normalized rest ↔
      ∃ placement reads, NormalForm env.types arguments shape params site placement reads
        allocator normalized rest := by
  simp only [normalize_eq, yields_bind_iff, yields_ofPlacement_iff]
  constructor
  · rintro ⟨placement, _, ⟨hplacement, rfl⟩, h⟩
    split at h
    -- a parameter that is bound twice ends the run
    · exact absurd h not_yields_fail
    · rename_i hunbound
      simp only [yields_bind_iff, yields_pure_iff] at h
      obtain ⟨⟨reads, bindings⟩, middle, hspill, called, _, hfrom, rfl, rfl⟩ := h
      obtain ⟨hcalled, rfl⟩ := (argumentsFrom_yields_iff hliterals).mp hfrom
      exact ⟨placement, reads, hplacement, hunbound, spillIf_yields_iff.mp hspill, hcalled⟩
  · rintro ⟨placement, reads, hplacement, hunbound, hreads, hcalled⟩
    refine ⟨placement, allocator, ⟨hplacement, rfl⟩, ?_⟩
    rw [hunbound]
    simp only [yields_bind_iff, yields_pure_iff]
    exact ⟨(reads, normalized.bindings), rest, spillIf_yields_iff.mpr hreads, normalized.arguments,
      rest, (argumentsFrom_yields_iff hliterals).mpr ⟨hcalled, rfl⟩, rfl, rfl⟩

end Yields

/-! ## §4 Nothing is lost and nothing is added -/

/-- What is gathered takes no notice of the nodes that lowering puts around what is read:
expressions that compute something, and stores. -/
structure OverlooksComputed {α : Type} (own : Expr → List α) : Prop where
  computed : ∀ expr : Expr, expr.isComputed = true → own expr = []
  store : ∀ info id value, own (.store info id value) = []

/-- What is gathered takes no notice of reads of temporaries either. -/
structure Overlooks {α : Type} (own : Expr → List α) : Prop extends OverlooksComputed own where
  temp : ∀ info id, own (.temp info id) = []

/-- Reads are no matter of computed expressions: only a temporary itself is a read. -/
theorem overlooksComputed_reads : OverlooksComputed Expr.ownReads where
  computed expr h := by
    cases expr with
    | temp => cases h
    | _ => rfl
  store _ _ _ := rfl

/-- References read the temporaries of their bindings. -/
theorem flatMap_reads_reference (bindings : List Binding) :
    bindings.flatMap (fun binding => binding.reference.reads) = bindings.map (·.temp.id) := by
  rw [List.map_eq_flatMap]
  rfl

/-- What takes no notice of computed expressions finds in one of them what it finds in the
operands. -/
theorem OverlooksComputed.gather_computed {α : Type} {own : Expr → List α}
    (hown : OverlooksComputed own) {expr : Expr} (h : expr.isComputed = true) :
    expr.gather own = expr.operands.flatMap (Expr.gather own) := by
  rw [Expr.gather_of_isPlain own (Expr.isPlain_of_isComputed h), hown.computed expr h,
    List.nil_append]

/-- A reference contributes nothing by itself. -/
theorem Overlooks.gather_reference {α : Type} {own : Expr → List α} (hown : Overlooks own)
    (binding : Binding) : binding.reference.gather own = [] := by
  rw [Binding.reference, Code.Temp.reference, Expr.gather_temp, hown.temp]

/-- References contribute nothing by themselves. -/
theorem Overlooks.gather_references {α : Type} {own : Expr → List α} (hown : Overlooks own)
    (bindings : List Binding) :
    bindings.flatMap (fun binding => binding.reference.gather own) = [] :=
  List.flatMap_eq_nil_iff.mpr fun binding _ => hown.gather_reference binding

section Gather

variable {α : Type} {own : Expr → List α} {shape : CallShape} {params : List Param}
  {site : Location} {types : TypeTable} {placement : List Nat} {reads : List Expr}

/-- The argument of a parameter contributes what was placed there, and nothing else, as long as no
argument is dropped for being one too many. -/
theorem Argument.gather (hown : OverlooksComputed own) {param : Param} {collects : Bool}
    {placed : List Expr} {argument : Expr} (hone : collects = false → placed.length ≤ 1)
    (h : Argument types site param collects placed argument) :
    argument.gather own = placed.flatMap (Expr.gather own) := by
  cases h with
  | collected => exact hown.gather_computed rfl
  | written argument others =>
    have hothers : others = [] := by
      have hlength := hone rfl
      simpa using hlength
    simp [hothers]
  | empty => exact hown.gather_computed rfl
  | default => exact hown.gather_computed rfl

/-- The arguments contribute what was placed at their parameters, one parameter after the other.
-/
theorem Arguments.gather (hown : OverlooksComputed own) {collecting? : Option Nat}
    {position : Nat} {arguments : List Expr}
    (hone : ∀ parameter < position + params.length, collecting? ≠ some parameter →
      (placedAt parameter placement reads).length ≤ 1)
    (h : Arguments types site collecting? placement reads position params arguments) :
    arguments.flatMap (Expr.gather own) = (List.range' position params.length).flatMap
      fun parameter => (placedAt parameter placement reads).flatMap (Expr.gather own) := by
  induction h with
  | nil => rfl
  | @cons position param params argument arguments hargument _ ih =>
    have htail := ih fun parameter hparameter => hone parameter (by simp; omega)
    have hhead := hargument.gather hown fun hcollects =>
      hone position (by simp) (of_decide_eq_false hcollects)
    rw [List.flatMap_cons, hhead, htail, List.length_cons, List.range'_succ, List.flatMap_cons]

/-- What bound arguments contribute moves to the stores, and their temporaries are read instead. -/
private theorem Spilled.gather_perm (hown : OverlooksComputed own) {position : Nat}
    {allocator rest : Allocator} {arguments : List Expr} {bindings : List Binding}
    (h : Spilled shape position allocator arguments reads bindings rest) :
    (reads.flatMap (Expr.gather own) ++
      (bindings.map (·.store)).flatMap (Expr.gather own)).Perm
        (bindings.flatMap (fun binding => binding.reference.gather own) ++
          arguments.flatMap (Expr.gather own)) := by
  induction h with
  | nil => exact .nil
  | stable _ _ ih =>
    simp only [List.flatMap_cons, List.append_assoc]
    exact (ih.append_left _).trans (List.perm_append_comm_assoc _ _ _)
  | bound _ _ ih =>
    simp only [List.map_cons, List.flatMap_cons, Allocator.store_bind, Expr.gather_store,
      hown.store, List.nil_append, List.append_assoc]
    apply List.Perm.append_left _
    -- the argument moves from the front to the store of its temporary
    apply (List.perm_append_comm_assoc _ _ _).trans
    exact (ih.append_left _).trans (List.perm_append_comm_assoc _ _ _)

variable {arguments : List Expr} {allocator rest : Allocator} {normalized : Normalized}

/-- Whether or not arguments are bound, a temporary is handed out for each binding. -/
theorem ReadFrom.handsOut {bindings : List Binding}
    (h : ReadFrom shape placement allocator arguments reads bindings rest) :
    allocator.HandsOut (bindings.map (·.temp.id)) rest := by
  cases h with
  | bound _ hspilled => exact hspilled.handsOut
  | direct => exact .nil allocator

/-- Whether or not arguments are bound, the bindings are named by the stem in force. -/
theorem ReadFrom.named {bindings : List Binding}
    (h : ReadFrom shape placement allocator arguments reads bindings rest) :
    Binding.AllNamed allocator.stem bindings := by
  cases h with
  | bound _ hspilled => exact hspilled.named
  | direct => exact .nil

/-- What is read and what is stored contribute together what the written arguments do, and each
binding is read once. -/
private theorem ReadFrom.gather_perm (hown : OverlooksComputed own) {bindings : List Binding}
    (h : ReadFrom shape placement allocator arguments reads bindings rest) :
    (reads.flatMap (Expr.gather own) ++
      (bindings.map (·.store)).flatMap (Expr.gather own)).Perm
        (bindings.flatMap (fun binding => binding.reference.gather own) ++
          arguments.flatMap (Expr.gather own)) := by
  cases h with
  | bound _ hspilled => exact hspilled.gather_perm hown
  | direct => simp

/-- A normal form places everything that is read. -/
theorem NormalForm.length_placement
    (h : NormalForm types arguments shape params site placement reads allocator normalized rest) :
    placement.length = reads.length := by
  rw [h.readFrom.length_reads]
  exact (CallShape.placement_ok h.placed).1

/-- A parameter that does not collect its arguments gets one of them at most. -/
theorem NormalForm.length_placedAt_le_one
    (h : NormalForm types arguments shape params site placement reads allocator normalized rest)
    {parameter : Nat} (hparameter : parameter < params.length)
    (hcollecting : shape.collecting? params ≠ some parameter) :
    (placedAt parameter placement reads).length ≤ 1 := by
  rw [length_placedAt h.length_placement]
  exact CallShape.overbound?_eq_none_iff.mp h.unbound _ hparameter hcollecting

/-- Whatever takes no notice of the nodes that a normal form adds finds in the bindings and the
arguments what it finds in the written arguments, and every bound temporary read once. -/
theorem NormalForm.gather_perm_append (hown : OverlooksComputed own)
    (h : NormalForm types arguments shape params site placement reads allocator normalized rest) :
    (normalized.arguments.flatMap (Expr.gather own) ++
      (normalized.bindings.map (·.store)).flatMap (Expr.gather own)).Perm
        (normalized.bindings.flatMap (fun binding => binding.reference.gather own) ++
          arguments.flatMap (Expr.gather own)) := by
  -- first the parameters in their order, then what is read in place of the written arguments
  have hplaced : (normalized.arguments.flatMap (Expr.gather own)).Perm
      (reads.flatMap (Expr.gather own)) := by
    rw [h.arguments.gather hown fun parameter hparameter hcollecting =>
        h.length_placedAt_le_one (by simpa using hparameter) hcollecting,
      ← List.range_eq_range', ← List.flatMap_assoc]
    have hperm := flatMap_placedAt_perm h.length_placement (CallShape.placement_ok h.placed).2
    exact hperm.flatMap_right _
  exact (hplaced.append_right _).trans (h.readFrom.gather_perm hown)

end Gather

end Subscript.Lowering
