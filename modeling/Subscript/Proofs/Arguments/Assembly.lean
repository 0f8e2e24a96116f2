import Subscript.Proofs.Arguments.NormalForm

/-!
# How the arguments of a call are put together

For each parameter in turn a call takes what was written for it, or has the builder make up what
was not written. This holds whatever the builder is: which arguments it is asked for, in which
order and for which parameters depends on the placement alone. Every written argument ends up at
one parameter, and none is ever looked for in vain.

## Architecture

- §1 `ArgumentBuilder.argument`, what a parameter gets, and what is reported about it
- §2 the arguments of all parameters
- §3 what is read in place of arguments that are bound
- §4 `MadeFrom`, a call whose arguments are in place
- §5 faults of an argument list
- §6 every argument is placed once
-/

namespace Subscript

open Code (Allocator Binding Expr)

/-! ## §1 The argument of a parameter -/

/-- What a parameter gets, made of what is read in place of the arguments placed there; the flag
says that it collects them. -/
def ArgumentBuilder.argument (builder : ArgumentBuilder) (types : TypeTable) (site : Location)
    (param : Param) (collects : Bool) (placed : List Expr) : Except Violation Expr :=
  if collects then
    .ok (builder.paramsArray param placed site)
  else
    match placed with
    | read :: _ => .ok read
    | [] =>
      if param.isParams then .ok (builder.paramsArray param [] site)
      else builder.defaultValue param types site

section Argument

variable (builder : ArgumentBuilder) (types : TypeTable) (site : Location) (param : Param)

private theorem ArgumentBuilder.argument_true (placed : List Expr) :
    builder.argument types site param true placed = .ok (builder.paramsArray param placed site) :=
  rfl

private theorem ArgumentBuilder.argument_cons (read : Expr) (others : List Expr) :
    builder.argument types site param false (read :: others) = .ok read := rfl

private theorem ArgumentBuilder.argument_nil :
    builder.argument types site param false [] =
      if param.isParams then .ok (builder.paramsArray param [] site)
      else builder.defaultValue param types site := rfl

end Argument

/-- What is reported when a parameter gets its argument: the call of the builder, if there is one.
A parameter that so many arguments are placed at needs the builder to collect them, or if there are
none. -/
def Param.builderCall? (param : Param) (collects : Bool) (count : Nat) (site : Location) :
    Option Event :=
  if collects then
    some (.packed param.name count site)
  else if 0 < count then
    none
  else
    some (if param.isParams then .packed param.name 0 site else .defaulted param.name site)

namespace Lowering

variable {env : Env} {allocator rest : Allocator} {site : Location} {violation : Violation}

/-- What a parameter gets is up to the builder, for any builder, and its call is all that is
announced. -/
theorem run_argumentFor (param : Param) (collects : Bool) (placed : List Expr)
    (site : Location) (env : Env) (allocator : Allocator) :
    (argumentFor param collects placed site).run env allocator =
      ⟨env.builder.argument env.types site param collects placed, allocator,
        (param.builderCall? collects placed.length site).toList⟩ := by
  unfold argumentFor ArgumentBuilder.argument Param.builderCall?
  cases collects with
  | true => rfl
  | false =>
    cases placed with
    | cons read others => rfl
    | nil =>
      cases hparams : param.isParams with
      | true => rfl
      | false =>
        -- the default may be refused, but then it was asked for all the same
        have hreport : (report (.defaulted param.name site)).run env allocator =
            ⟨.ok (), allocator, [.defaulted param.name site]⟩ := rfl
        have henvironment : environment.run env allocator = ⟨.ok env, allocator, []⟩ := rfl
        show (takeDefault param site).run env allocator = _
        rw [takeDefault, run_bind_ok hreport, run_bind_ok henvironment]
        cases env.builder.defaultValue param env.types site <;> rfl

/-! ## §2 The arguments of all parameters -/

section ArgumentsFrom

variable {collecting? : Option Nat} {placement : List Nat} {reads : List Expr} {position : Nat}
  {params : List Param} {arguments : List Expr} {events : List Event}

/-- Each parameter gets its argument, and the builder is called for the parameters in their
order. -/
theorem argumentsFrom_run
    (h : (argumentsFrom collecting? placement reads site position params).run env allocator =
      ⟨.ok arguments, rest, events⟩) :
    rest = allocator ∧
      List.Forall₂ (fun param argument => env.builder.argument env.types site param.1
        (collecting? = some param.2) (placedAt param.2 placement reads) = .ok argument)
        (params.zipIdx position) arguments ∧
      events = (params.zipIdx position).filterMap fun param =>
        param.1.builderCall? (collecting? = some param.2)
          (placedAt param.2 placement reads).length site := by
  induction params generalizing position arguments events with
  | nil =>
    cases h
    exact ⟨rfl, .nil, rfl⟩
  | cons param params ih =>
    obtain ⟨argument, middle, earlier, later, hargument, hlater, rfl⟩ := run_bind_eq_ok_iff.mp h
    obtain ⟨others, last, between, ending, hothers, hdone, rfl⟩ := run_bind_eq_ok_iff.mp hlater
    cases hdone
    rw [run_argumentFor] at hargument
    -- a single argument costs no temporary, and at most one event is reported for it
    obtain ⟨houtcome, rfl, rfl⟩ := Run.mk.inj hargument
    obtain ⟨rfl, hforall, rfl⟩ := ih hothers
    refine ⟨rfl, .cons houtcome hforall, ?_⟩
    rw [List.zipIdx_cons, List.filterMap_cons, List.append_nil]
    cases param.builderCall? _ _ site <;> rfl

/-- Nothing but a default that is refused stops the arguments from being put together. A parameter
that has an argument takes it, and one that collects makes an array, whatever there is to collect.
-/
theorem argumentsFrom_fails
    (h : (argumentsFrom collecting? placement reads site position params).Fails env allocator
      violation) : ∃ param ∈ params, env.builder.defaultValue param env.types site =
        .error violation := by
  induction params generalizing position allocator with
  | nil => exact absurd h not_fails_pure
  | cons param params ih =>
    simp only [argumentsFrom, fails_bind_iff, not_fails_pure, and_false, exists_false,
      or_false] at h
    -- either this parameter stops the run or one behind it does
    rcases h with hargument | ⟨_, _, -, hothers⟩
    · refine ⟨param, List.mem_cons_self .., ?_⟩
      simp only [Fails, run_argumentFor, ArgumentBuilder.argument] at hargument
      split at hargument
      · cases hargument
      · split at hargument
        · cases hargument
        · split at hargument
          · cases hargument
          · exact hargument
    · obtain ⟨other, hother, hdefault⟩ := ih hothers
      exact ⟨other, List.mem_cons_of_mem _ hother, hdefault⟩

end ArgumentsFrom

/-! ## §3 Arguments that are bound -/

/-- The arguments that are not stable, each with its position, in the written order. -/
def unstable (arguments : List Expr) (position : Nat) : List (Expr × Nat) :=
  (arguments.zipIdx position).filter fun argument => !argument.1.isStable

/-- What is read in place of the argument at a position: the argument itself, or the temporary that
was bound to it. The bindings are those of the arguments that are not stable, one for each. -/
inductive ReadAs (arguments : List Expr) (bindings : List Binding) (position : Nat) :
    Expr → Prop where
  /-- the argument stays where it is -/
  | itself {argument : Expr} (hargument : arguments[position]? = some argument) :
    ReadAs arguments bindings position argument
  /-- the argument was stored ahead -/
  | stored {argument : Expr} {index : Nat} {binding : Binding}
    (hargument : (unstable arguments 0)[index]? = some (argument, position))
    (hbinding : bindings[index]? = some binding)
    (hstore : binding.store = .store argument.info binding.temp.id argument) :
    ReadAs arguments bindings position binding.reference

section Spilled

variable {shape : CallShape} {position : Nat} {raw reads : List Expr} {bindings : List Binding}

/-- A stable argument is passed over. -/
private theorem unstable_cons_of_stable {argument : Expr} (h : argument.isStable = true) :
    unstable (argument :: raw) position = unstable raw (position + 1) := by
  simp [unstable, h]

/-- An argument that is not stable is listed with its position. -/
private theorem unstable_cons_of_not_stable {argument : Expr} (h : argument.isStable = false) :
    unstable (argument :: raw) position = (argument, position) :: unstable raw (position + 1) := by
  simp [unstable, h]

/-- The arguments that are not stable are bound one after the other, each as its own position
says. -/
theorem Spilled.bindings_eq (h : Spilled shape position allocator raw reads bindings rest) :
    bindings = (unstable raw position).mapIdx fun index argument =>
      ((allocator.advance index).bind argument.1
        (argumentHolding (shape.refKind argument.2))).1 := by
  induction h with
  | nil => rfl
  | stable hstable _ ih => rw [unstable_cons_of_stable hstable, ih]
  | @bound position allocator rest argument raw reads bindings hstable _ ih =>
    rw [unstable_cons_of_not_stable hstable, List.mapIdx_cons, Allocator.advance_zero, ih]
    -- the later arguments are bound behind this one
    simp only [Allocator.bind_snd, Allocator.advance_advance, Nat.add_comm 1]

/-- A stable argument is read itself, any other one from its temporary. The temporary is found by
the place of the argument among the unstable ones, which is the place of its binding, too. -/
theorem Spilled.read_getElem? (h : Spilled shape position allocator raw reads bindings rest)
    {index : Nat} {argument : Expr} (hargument : raw[index]? = some argument) :
    (argument.isStable = true ∧ reads[index]? = some argument) ∨
      argument.isStable = false ∧ ∃ (place : Nat) (binding : Binding),
        (unstable raw position)[place]? = some (argument, position + index) ∧
          bindings[place]? = some binding ∧ reads[index]? = some binding.reference := by
  induction h generalizing index with
  | nil => cases hargument
  -- a stable head is passed over on both sides, so places stay as they are
  | @stable position allocator rest first raw reads bindings hstable _ ih =>
    rw [unstable_cons_of_stable hstable]
    cases index with
    | zero =>
      cases hargument
      exact .inl ⟨hstable, rfl⟩
    | succ index =>
      rw [Nat.add_comm index, ← Nat.add_assoc, Nat.add_comm 1 index]
      exact ih hargument
  -- a head that is bound moves every later place on by one
  | @bound position allocator rest first raw reads bindings hstable _ ih =>
    rw [unstable_cons_of_not_stable hstable]
    cases index with
    | zero =>
      cases hargument
      exact .inr ⟨hstable, 0, _, rfl, rfl, rfl⟩
    | succ index =>
      rcases ih hargument with ⟨hstable', hread⟩ |
        ⟨hstable', place, binding, hplace, hbinding, hread⟩
      · exact .inl ⟨hstable', hread⟩
      · rw [Nat.add_assoc, Nat.add_comm 1] at hplace
        exact .inr ⟨hstable', place + 1, binding, hplace, hbinding, hread⟩

/-- Every argument is read itself or from the temporary that was bound to it. If nothing is
spilled all of them are read themselves; else the unstable ones are read from temporaries. -/
theorem ReadFrom.readAs {placement : List Nat}
    (h : ReadFrom shape placement allocator raw reads bindings rest) {argument : Nat} {read : Expr}
    (hread : reads[argument]? = some read) : ReadAs raw bindings argument read := by
  cases h with
  | direct => exact .itself hread
  | bound _ hspilled =>
    have hlt : argument < raw.length := by
      rw [← hspilled.length_reads]
      exact (List.getElem?_eq_some_iff.mp hread).1
    have hraw := List.getElem?_eq_getElem hlt
    rcases hspilled.read_getElem? hraw with ⟨-, hread'⟩ |
      ⟨-, place, binding, hplace, hbinding, hread'⟩
    · obtain rfl := Option.some.inj (hread.symm.trans hread')
      exact .itself hraw
    · obtain rfl := Option.some.inj (hread.symm.trans hread')
      rw [Nat.zero_add] at hplace
      refine .stored hplace hbinding ?_
      -- the binding is the one that was made for this argument
      rw [hspilled.bindings_eq, List.getElem?_mapIdx, hplace] at hbinding
      obtain rfl := Option.some.inj hbinding
      rfl

end Spilled

/-! ## §4 Arguments in place -/

end Lowering

open Lowering

/-- The arguments of a call at a place, made of the written ones: a placement has the parameter of
each written argument, and `read` is what is read in its place. -/
structure MadeFrom (env : Env) (shape : CallShape) (params : List Param) (site : Location)
    (placement : List Nat) (read : Nat → Expr) (arguments : List Expr) : Prop where
  /-- there is one argument for each parameter -/
  length : arguments.length = params.length
  /-- a parameter that collects gets an array of everything placed there, in the written order -/
  collected : ∀ position param, params[position]? = some param →
    shape.collecting? params = some position → arguments[position]? =
      some (env.builder.paramsArray param ((slot position placement).map read) site)
  /-- any other one gets what is placed there, if there is something, and then it is one thing -/
  written : ∀ position argument, shape.collecting? params ≠ some position →
    placement[argument]? = some position →
      slot position placement = [argument] ∧ arguments[position]? = some (read argument)
  /-- with nothing placed there, it gets an empty array if it could collect arguments -/
  empty : ∀ position param, params[position]? = some param →
    shape.collecting? params ≠ some position → position ∉ placement → param.isParams = true →
      arguments[position]? = some (env.builder.paramsArray param [] site)
  /-- or else its default -/
  default : ∀ position param, params[position]? = some param →
    shape.collecting? params ≠ some position → position ∉ placement → param.isParams = false →
      ∃ value, env.builder.defaultValue param env.types site = .ok value ∧
        arguments[position]? = some value

section MadeFrom

variable {env : Env} {shape : CallShape} {params : List Param} {site : Location}
  {placement : List Nat} {read : Nat → Expr} {arguments : List Expr}

/-- An argument placed at a parameter that gets one at most is all that is placed there. -/
private theorem slot_eq_singleton {position argument : Nat} (hone : placement.count position ≤ 1)
    (hargument : placement[argument]? = some position) : slot position placement = [argument] := by
  have hmem : argument ∈ slot position placement := mem_slot_iff.mpr hargument
  rw [← length_slot] at hone
  cases hslot : slot position placement with
  | nil =>
    rw [hslot] at hmem
    cases hmem
  | cons first others =>
    rw [hslot] at hmem hone
    obtain rfl : others = [] := by simpa using hone
    obtain rfl : argument = first := by simpa using hmem
    rfl

private theorem slot_eq_nil {position : Nat} (h : position ∉ placement) :
    slot position placement = [] :=
  placedAt_eq_nil h

/-- A parameter gets what the builder makes of everything placed at it. -/
private theorem exists_argument_of_forall₂
    (h : List.Forall₂ (fun param argument => env.builder.argument env.types site param.1
      (shape.collecting? params = some param.2) ((slot param.2 placement).map read) = .ok argument)
      params.zipIdx arguments) {position : Nat} {param : Param}
    (hparam : params[position]? = some param) :
    ∃ argument, env.builder.argument env.types site param
        (shape.collecting? params = some position) ((slot position placement).map read) =
          .ok argument ∧ arguments[position]? = some argument := by
  obtain ⟨hlt, rfl⟩ := List.getElem?_eq_some_iff.mp hparam
  have hlt' : position < params.zipIdx.length := by simpa using hlt
  have hlt'' : position < arguments.length := h.length_eq ▸ hlt'
  have hget := h.get hlt' hlt''
  simp only [List.get_eq_getElem, List.getElem_zipIdx, Nat.zero_add] at hget
  exact ⟨_, hget, List.getElem?_eq_getElem hlt''⟩

/-- Arguments that the builder makes of the slots, one parameter after the other, make up the
call: what is written for a parameter, what is collected for it, or what the builder fills in. -/
theorem madeFrom_of_forall₂ (hunbound : shape.overbound? params placement = none)
    (hrange : ∀ target ∈ placement, target < params.length)
    (h : List.Forall₂ (fun param argument => env.builder.argument env.types site param.1
      (shape.collecting? params = some param.2) ((slot param.2 placement).map read) = .ok argument)
      params.zipIdx arguments) : MadeFrom env shape params site placement read arguments := by
  refine ⟨by rw [← h.length_eq, List.length_zipIdx], ?_, ?_, ?_, ?_⟩
  -- the parameter that collects gets an array of its slot
  · intro position param hparam hcollecting
    obtain ⟨argument, hgets, hargument⟩ := exists_argument_of_forall₂ h hparam
    rw [decide_eq_true hcollecting, ArgumentBuilder.argument_true] at hgets
    rw [hargument, ← Except.ok.inj hgets]
  -- a written argument is alone in the slot of its parameter
  · intro position argument hcollecting htarget
    have hlt : position < params.length := hrange position (List.mem_of_getElem? htarget)
    have hslot := slot_eq_singleton
      (CallShape.overbound?_eq_none_iff.mp hunbound position hlt hcollecting) htarget
    obtain ⟨value, hgets, hargument⟩ :=
      exists_argument_of_forall₂ h (List.getElem?_eq_getElem hlt)
    rw [decide_eq_false hcollecting, hslot, List.map_singleton,
      ArgumentBuilder.argument_cons] at hgets
    exact ⟨hslot, by rw [hargument, ← Except.ok.inj hgets]⟩
  -- nothing was written for a parameter that could collect
  · intro position param hparam hcollecting hnone hparams
    obtain ⟨argument, hgets, hargument⟩ := exists_argument_of_forall₂ h hparam
    rw [decide_eq_false hcollecting, slot_eq_nil hnone, List.map_nil,
      ArgumentBuilder.argument_nil, if_pos hparams] at hgets
    rw [hargument, ← Except.ok.inj hgets]
  -- nothing was written for an ordinary parameter
  · intro position param hparam hcollecting hnone hparams
    obtain ⟨argument, hgets, hargument⟩ := exists_argument_of_forall₂ h hparam
    rw [decide_eq_false hcollecting, slot_eq_nil hnone, List.map_nil,
      ArgumentBuilder.argument_nil, if_neg (by simp [hparams])] at hgets
    exact ⟨argument, hgets, hargument⟩

end MadeFrom

/-! ## §5 Faults of an argument list -/

section Faults

/-- A text ends as its last piece does. -/
private theorem getLast?_toList_append (text ending : String) (h : ending.toList ≠ []) :
    (text ++ ending).toList.getLast? = ending.toList.getLast? := by
  rw [String.toList_append, List.getLast?_append_of_ne_nil _ h]

/-- The reason that names a second use is told from all others by its last letter: texts that end
in words do not end in this one, and the others end in a number. -/
private theorem ArgumentFault.reason_ne_takenAgain {fault : ArgumentFault}
    (h : ∀ argument, fault ≠ .takenAgain argument) (argument : Nat) :
    fault.reason ≠ (ArgumentFault.takenAgain argument).reason := by
  intro hreason
  have hend : fault.reason.toList.getLast? = some 'e' := by
    rw [hreason]
    exact getLast?_toList_append _ " consumed twice" (by simp)
  have hother : ∀ {text ending : String}, fault.reason = text ++ ending → ending.toList ≠ [] →
      ending.toList.getLast? = some 'e' := by
    intro text ending hreason hne
    rw [← getLast?_toList_append text ending hne, ← hreason, hend]
  cases fault with
  | takenAgain other => exact h other rfl
  | notCollecting => exact absurd hend (by decide)
  | placementRange parameter parameters =>
    -- a number ends with a digit
    have hdigits : (toString parameters).toList = Nat.toDigits 10 parameters := by simp
    have hlast := hother rfl (by simp)
    rw [hdigits] at hlast
    have hdigit : 'e'.isDigit = true :=
      Nat.isDigit_of_mem_toDigits (by decide) (Nat.le_refl 10) (List.mem_of_getLast? hlast)
    exact absurd hdigit (by decide)
  | _ => exact absurd (hother rfl (by simp)) (by simp)

variable {shape : CallShape} {params : List Param} {count argument : Nat}

/-- A known placement is refused for its length or its range. -/
private theorem CallShape.checkPlacement_ne_takenAgain (placement : List Nat) :
    checkPlacement params count placement ≠ .error (.takenAgain argument) := by
  unfold checkPlacement
  split
  · simp
  · split <;> simp

/-- Expanded form is refused for the lack of a parameter that collects. -/
private theorem CallShape.collector?_ne_takenAgain :
    shape.collector? params ≠ .error (.takenAgain argument) := by
  unfold collector?
  split
  · split
    · split <;> simp
    · simp
  · simp

/-- An argument is refused for its name or its position. -/
private theorem CallShape.parameterOf_ne_takenAgain (collector? : Option Nat) (position : Nat) :
    shape.parameterOf params collector? count position ≠ .error (.takenAgain argument) := by
  unfold parameterOf
  split
  · split <;> simp
  · split
    · simp
    · split <;> simp

/-- Placing the arguments takes none of them, so whatever goes wrong there has another reason. The
checks are gone through in the order in which they are made. -/
theorem CallShape.placement_ne_takenAgain :
    shape.placement params count ≠ .error (.takenAgain argument) := by
  intro h
  unfold CallShape.placement at h
  simp only [bind, Except.bind] at h
  split at h
  · cases h
  · split at h
    · cases h
    -- the counts agree, so the shape's own placement is checked or one is looked for
    · split at h
      · exact checkPlacement_ne_takenAgain _ h
      · split at h
        · rename_i hcollector
          cases h
          exact collector?_ne_takenAgain hcollector
        · obtain ⟨position, -, hposition⟩ := mapM_error h
          exact parameterOf_ne_takenAgain _ position hposition

/-- A parameter that is bound again is a fault of its own. -/
private theorem CallShape.overbound?_ne_takenAgain {placement : List Nat} :
    shape.overbound? params placement ≠ some (.takenAgain argument) := by
  intro h
  obtain ⟨⟨param, position⟩, -, hfault⟩ := List.exists_of_findSome?_eq_some h
  simp at hfault

end Faults

/-! ## §6 Every argument is placed once -/

namespace Lowering

section Normalize

variable {env : Env} {allocator rest : Allocator} {site : Location} {raw : List Expr}
  {shape : CallShape} {params : List Param} {normalized : Normalized} {events : List Event}
  {violation : Violation}

/-- Binding arguments is announced once, ahead of the bindings; nothing is said if none is bound.
-/
private theorem spillIf_run {needed : Bool} {pair : List Expr × List Binding}
    (h : (spillIf needed shape raw).run env allocator = ⟨.ok pair, rest, events⟩) :
    events = if needed then [.spilling raw.length] else [] := by
  cases needed with
  | true =>
    cases h
    rfl
  | false =>
    cases h
    rfl

/-- Arguments that are put in the order of the parameters: they are placed, bound if need be, and
handed to the parameters. -/
theorem normalize_run
    (h : (normalize raw shape params site).run env allocator = ⟨.ok normalized, rest, events⟩) :
    ∃ placement read, shape.placement params raw.length = .ok placement ∧
      ReadFrom shape placement allocator raw ((List.range raw.length).map read)
        normalized.bindings rest ∧
      MadeFrom env shape params site placement read normalized.arguments ∧
      events = (if spillsFor placement raw then [.spilling raw.length] else []) ++
        params.zipIdx.filterMap fun param => param.1.builderCall?
          (shape.collecting? params = some param.2) (placement.count param.2) site := by
  rw [normalize_eq] at h
  obtain ⟨placement, first, earlier, later, hplacement, hlater, rfl⟩ := run_bind_eq_ok_iff.mp h
  obtain ⟨hplaced, rfl⟩ := yields_ofPlacement_iff.mp ⟨earlier, hplacement⟩
  -- placing the arguments announces nothing
  have hquiet : earlier = [] := by
    rw [hplaced] at hplacement
    cases hplacement
    rfl
  split at hlater
  · exact absurd ⟨later, hlater⟩ not_yields_fail
  · rename_i hunbound
    obtain ⟨⟨reads, bindings⟩, second, spilling, making, hspill, hmaking, rfl⟩ :=
      run_bind_eq_ok_iff.mp hlater
    obtain ⟨arguments, third, calls, ending, harguments, hdone, rfl⟩ :=
      run_bind_eq_ok_iff.mp hmaking
    cases hdone
    obtain ⟨rfl, hforall, rfl⟩ := argumentsFrom_run harguments
    have hreadFrom := spillIf_yields_iff.mp ⟨spilling, hspill⟩
    obtain ⟨hlength, hrange⟩ := CallShape.placement_ok hplaced
    obtain ⟨read, hreads⟩ := exists_read reads
    rw [hreadFrom.length_reads] at hreads
    -- what is placed at a parameter, by the positions of its slot
    have hplacedAt : ∀ parameter,
        placedAt parameter placement reads = (slot parameter placement).map read := by
      intro parameter
      rw [map_slot, hlength, ← hreads]
    simp only [hplacedAt, List.length_map, length_slot] at hforall ⊢
    refine ⟨placement, read, hplaced, hreads ▸ hreadFrom,
      madeFrom_of_forall₂ hunbound hrange hforall, ?_⟩
    rw [hquiet, spillIf_run hspill, List.nil_append, List.append_nil]

/-- An argument list that cannot be put in order does not fit, a parameter is bound twice, or a
default is refused. The three cases are the three steps of `normalize` that can fail. -/
theorem normalize_fails (h : (normalize raw shape params site).Fails env allocator violation) :
    (∃ fault, shape.placement params raw.length = .error fault ∧ fault.violation = violation) ∨
      (∃ placement fault, shape.overbound? params placement = some fault ∧
        fault.violation = violation) ∨
      ∃ param ∈ params, env.builder.defaultValue param env.types site = .error violation := by
  rw [normalize_eq] at h
  simp only [fails_bind_iff, fails_ofPlacement_iff] at h
  rcases h with hplacement | ⟨placement, _, -, h⟩
  · exact .inl hplacement
  · right
    split at h
    · rename_i fault hoverbound
      exact .inl ⟨placement, fault, hoverbound, fails_fail_iff.mp h⟩
    · right
      simp only [fails_bind_iff, not_fails_pure, and_false, exists_false, or_false] at h
      rcases h with hspill | ⟨⟨reads, bindings⟩, middle, -, harguments⟩
      -- binding arguments is no such step
      · unfold spillIf at hspill
        split at hspill <;> simp at hspill
      · exact argumentsFrom_fails harguments

/-- The slots of the parameters share the arguments out among them. -/
private theorem flatMap_slot_perm {placement : List Nat} {count : Nat}
    (hlength : placement.length = count) (hrange : ∀ target ∈ placement, target < params.length) :
    ((List.range params.length).flatMap (slot · placement)).Perm (List.range count) := by
  subst hlength
  exact flatMap_placedAt_perm List.length_range.symm hrange

end Normalize

/-- Arguments that were put in the order of the parameters, and what was reported meanwhile. -/
structure Assembled (env : Env) (raw : List Expr) (shape : CallShape) (params : List Param)
    (site : Location) (placement : List Nat) (read : Nat → Expr) (normalized : Normalized)
    (events : List Event) : Prop where
  /-- the placement has the parameter of each argument -/
  placed : shape.placement params raw.length = .ok placement
  /-- each argument is read itself or from its temporary -/
  readAs : ∀ argument < raw.length, ReadAs raw normalized.bindings argument (read argument)
  /-- the parameters get what is read in place of the arguments placed at them -/
  madeFrom : MadeFrom env shape params site placement read normalized.arguments
  /-- a slot lists the arguments placed at its parameter, in the written order -/
  slots : ∀ parameter, (slot parameter placement).Pairwise (· < ·) ∧
    ∀ argument, argument ∈ slot parameter placement ↔ placement[argument]? = some parameter
  /-- over all parameters, every argument is used once -/
  once : ((List.range params.length).flatMap (slot · placement)).Perm (List.range raw.length)
  /-- the builder was called for the parameters that need it, in their order -/
  builderCalls : events = (if spillsFor placement raw then [.spilling raw.length] else []) ++
    params.zipIdx.filterMap fun param => param.1.builderCall?
      (shape.collecting? params = some param.2) (placement.count param.2) site

/-- Every argument is placed at one parameter. A call has one argument for each parameter: what is
read in place of the argument written for it, or an array of what is read in place of all that it
collects, or what the builder fills in. No argument is ever found to be taken already: if the list
cannot be put in order, the reason is another one, or the builder's own. -/
theorem normalize_places_each_argument_once (raw : List Expr) (shape : CallShape)
    (params : List Param) (site : Location) (env : Env) (allocator : Allocator) :
    (∀ normalized rest events,
      (normalize raw shape params site).run env allocator = ⟨.ok normalized, rest, events⟩ →
        ∃ placement read, Assembled env raw shape params site placement read normalized events) ∧
    ∀ violation, (normalize raw shape params site).Fails env allocator violation →
      (∀ argument, violation ≠ (ArgumentFault.takenAgain argument).violation) ∨
        ∃ param ∈ params, env.builder.defaultValue param env.types site = .error violation := by
  refine ⟨?_, ?_⟩
  · intro normalized rest events h
    obtain ⟨placement, read, hplaced, hreadFrom, hmade, hevents⟩ := normalize_run h
    obtain ⟨hlength, hrange⟩ := CallShape.placement_ok hplaced
    refine ⟨placement, read, hplaced, ?_, hmade, fun _ => ⟨pairwise_slot, fun _ => mem_slot_iff⟩,
      flatMap_slot_perm hlength hrange, hevents⟩
    -- what is read at the place of an argument is that argument or its temporary
    intro argument hargument
    apply hreadFrom.readAs
    rw [List.getElem?_map, List.getElem?_range hargument]
    rfl
  · intro violation h
    -- faults are told apart by their reasons, which is all that a violation keeps
    have hother : ∀ {fault : ArgumentFault}, (∀ argument, fault ≠ .takenAgain argument) →
        ∀ argument, fault.violation ≠ (ArgumentFault.takenAgain argument).violation :=
      fun hfault argument heq =>
        ArgumentFault.reason_ne_takenAgain hfault argument (Violation.malformedArguments.inj heq)
    rcases normalize_fails h with ⟨fault, hplacement, rfl⟩ | ⟨placement, fault, hunbound, rfl⟩ |
      hdefault
    · left
      apply hother
      rintro argument rfl
      exact CallShape.placement_ne_takenAgain hplacement
    · left
      apply hother
      rintro argument rfl
      exact CallShape.overbound?_ne_takenAgain hunbound
    · exact .inr hdefault

/-- Three calls, the second placed ahead of the others, which are collected; the first parameter
takes its default. With too few parameters the same arguments cannot be put in order. -/
theorem normalize_places_collected_calls :
    let info : Info := ⟨.invalid, .unknown⟩
    let raw : List Expr :=
      [.staticCall info ⟨0⟩ [] false, .staticCall info ⟨1⟩ [] false, .staticCall info ⟨2⟩ [] false]
    let shape : CallShape := { placement? := some [2, 1, 2], isExpanded := true }
    let params : List Param := [{ name := "p", type := .invalid, default? := some (.int 7) },
      { name := "q", type := .invalid }, { name := "others", type := .invalid, isParams := true }]
    let env : Env := { symbols := default, types := default, members := default }
    (∃ normalized rest events placement read,
      (normalize raw shape params .unknown).run env {} = ⟨.ok normalized, rest, events⟩ ∧
        Assembled env raw shape params .unknown placement read normalized events) ∧
      ∃ violation, (normalize raw shape [] .unknown).Fails env {} violation ∧
        ((∀ argument, violation ≠ (ArgumentFault.takenAgain argument).violation) ∨
          ∃ param ∈ ([] : List Param),
            env.builder.defaultValue param env.types .unknown = .error violation) := by
  intro info raw shape params env
  have hrun : (normalize raw shape params .unknown).run env {} = ⟨.ok _, _, _⟩ := rfl
  have hfails : (normalize raw shape [] .unknown).Fails env {} _ := rfl
  obtain ⟨placement, read, hassembled⟩ :=
    (normalize_places_each_argument_once raw shape params .unknown env {}).1 _ _ _ hrun
  exact ⟨⟨_, _, _, placement, read, hrun, hassembled⟩,
    _, hfails, (normalize_places_each_argument_once raw shape [] .unknown env {}).2 _ hfails⟩

end Lowering

end Subscript
