import Subscript.Proofs.Arguments.Assembly

/-!
# Which parameter collects arguments

In expanded form trailing arguments are collected into an array for the last parameter. Where the
placement is searched for, the search does not start unless that parameter can collect. So every
ordinary parameter gets what was written for it or its default, and never an array that was made up
for it. A placement that is already known is taken as it is: nobody looks at the last parameter any
more, and an ordinary one is handed an array of its arguments.

## Architecture

- §1 `Uncollected`, what a parameter gets that collects nothing
- §2 argument lists in expanded form
-/

namespace Subscript

open Code (Allocator Binding Expr)
open Lowering

/-! ## §1 Parameters that collect nothing -/

/-- What a parameter gets that collects nothing: what is read in place of an argument that was
written, or the parameter's default. -/
inductive Param.Uncollected (env : Env) (raw : List Expr) (bindings : List Binding)
    (site : Location) (param : Param) : Expr → Prop where
  /-- an argument that was written, or the temporary bound to it -/
  | written {argument : Nat} {read : Expr} (hread : ReadAs raw bindings argument read) :
    Uncollected env raw bindings site param read
  /-- the default -/
  | default {value : Expr}
    (hdefault : env.builder.defaultValue param env.types site = .ok value) :
    Uncollected env raw bindings site param value

/-- The last of some parameters can collect arguments. -/
def Param.LastCollects (params : List Param) : Prop :=
  ∃ last, params.getLast? = some last ∧ last.isParams = true

section Collecting

variable {env : Env} {raw : List Expr} {shape : CallShape} {params : List Param}
  {site : Location} {allocator rest : Allocator} {normalized : Normalized}

/-- Nothing is collected for an ordinary parameter unless it is the one that collects. -/
private theorem MadeFrom.uncollected {placement : List Nat} {read : Nat → Expr}
    {bindings : List Binding} {arguments : List Expr} {position : Nat} {param : Param}
    (h : MadeFrom env shape params site placement read arguments)
    (hreads : ∀ argument < placement.length, ReadAs raw bindings argument (read argument))
    (hparam : params[position]? = some param) (hordinary : param.isParams = false)
    (hcollecting : shape.collecting? params ≠ some position) :
    ∃ argument, arguments[position]? = some argument ∧
      param.Uncollected env raw bindings site argument := by
  by_cases hplaced : position ∈ placement
  · obtain ⟨argument, hargument⟩ := List.mem_iff_getElem?.mp hplaced
    have hlt := (List.getElem?_eq_some_iff.mp hargument).1
    exact ⟨read argument, (h.written position argument hcollecting hargument).2,
      .written (hreads argument hlt)⟩
  · obtain ⟨value, hdefault, hvalue⟩ :=
      h.default position param hparam hcollecting hplaced hordinary
    exact ⟨value, hvalue, .default hdefault⟩

/-- The parameter that collects is the last one. -/
private theorem CallShape.Collects.isParams (hlast : Param.LastCollects params) {position : Nat}
    {param : Param} (hcollects : shape.Collects params position)
    (hparam : params[position]? = some param) : param.isParams = true := by
  obtain ⟨last, hgetLast, hparams⟩ := hlast
  rw [List.getLast?_eq_getElem?, ← hcollects.2, Nat.add_sub_cancel, hparam] at hgetLast
  obtain rfl := Option.some.inj hgetLast
  exact hparams

/-! ## §2 Expanded form -/

namespace Lowering

/-- A list without parameters has a placement in expanded form only if it is known, and empty. -/
private theorem placement_of_no_params (hexpanded : shape.isExpanded = true) {placement : List Nat}
    (hplaces : shape.Places [] raw.length placement) :
    shape.placement? = some [] ∧ raw = [] := by
  cases hknown : shape.placement? with
  | none =>
    obtain ⟨last, hlast, -⟩ := hplaces.expanded hknown hexpanded
    cases hlast
  | some known =>
    obtain ⟨rfl, hrange⟩ := hplaces.known known hknown
    obtain rfl : placement = [] :=
      List.eq_nil_iff_forall_not_mem.mpr fun parameter hmem =>
        Nat.not_lt_zero parameter (hrange parameter hmem)
    exact ⟨rfl, List.eq_nil_of_length_eq_zero hplaces.length.symm⟩

/-- In expanded form, a list that is put in order without a placement being known ends in a
parameter that can collect, and every ordinary parameter gets what was written for it or its
default. Parameters can be missing altogether only if it is known that there is nothing to place. -/
theorem normalize_collects_only_for_collectors (hexpanded : shape.isExpanded = true)
    (h : (normalize raw shape params site).Yields env allocator normalized rest) :
    (params = [] → shape.placement? = some [] ∧ raw = []) ∧
      (shape.placement? = none → Param.LastCollects params) ∧
      (Param.LastCollects params → ∀ (position : Nat) (param : Param),
        params[position]? = some param → param.isParams = false →
          ∃ argument, normalized.arguments[position]? = some argument ∧
            param.Uncollected env raw normalized.bindings site argument) := by
  obtain ⟨events, hrun⟩ := h
  obtain ⟨placement, read, hplaced, hreadFrom, hmade, -⟩ := normalize_run hrun
  have hplaces := CallShape.placement_eq_ok_iff.mp hplaced
  refine ⟨?_, fun hnone => hplaces.expanded hnone hexpanded, ?_⟩
  · rintro rfl
    exact placement_of_no_params hexpanded hplaces
  · intro hlast position param hparam hordinary
    -- if something is collected here, then by a parameter that is made for it
    have hcollecting : shape.collecting? params ≠ some position := by
      intro hcollecting
      have hcollects := CallShape.collecting?_eq_some_iff.mp hcollecting
      rw [hcollects.isParams hlast hparam] at hordinary
      cases hordinary
    have hreads : ∀ argument < placement.length,
        ReadAs raw normalized.bindings argument (read argument) := by
      intro argument hargument
      rw [hplaces.length] at hargument
      apply hreadFrom.readAs
      rw [List.getElem?_map, List.getElem?_range hargument]
      rfl
    exact hmade.uncollected hreads hparam hordinary hcollecting

/-- Two calls, the second collected: the first parameter gets the first call as it was written,
although the argument list is expanded. -/
theorem normalize_collects_second_call :
    let info : Info := ⟨.invalid, .unknown⟩
    let raw : List Expr := [.staticCall info ⟨0⟩ [] false, .staticCall info ⟨1⟩ [] false]
    let shape : CallShape := { isExpanded := true }
    let first : Param := { name := "p", type := .invalid }
    let params : List Param := [first, { name := "others", type := .invalid, isParams := true }]
    let env : Env := { symbols := default, types := default, members := default }
    ∃ normalized rest argument,
      (normalize raw shape params .unknown).Yields env {} normalized rest ∧
        Param.LastCollects params ∧ normalized.arguments[0]? = some argument ∧
        first.Uncollected env raw normalized.bindings .unknown argument := by
  intro info raw shape first params env
  have hyields : (normalize raw shape params .unknown).Yields env {} _ _ := ⟨_, rfl⟩
  have hexpanded : shape.isExpanded = true := rfl
  obtain ⟨-, hlast, hordinary⟩ := normalize_collects_only_for_collectors hexpanded hyields
  obtain ⟨argument, hargument, huncollected⟩ := hordinary (hlast rfl) 0 first rfl rfl
  exact ⟨_, _, argument, hyields, hlast rfl, hargument, huncollected⟩

/-- If it is known where the only argument goes, it is put into an array for an ordinary parameter.
The same list is refused if its placement has to be searched for. -/
theorem normalize_collects_for_ordinary_parameter :
    let raw : List Expr := [.literal ⟨.invalid, .unknown⟩ (.int 1)]
    let shape : CallShape := { isExpanded := true, placement? := some [0] }
    let params : List Param := [{ name := "x", type := .invalid }]
    let env : Env := { symbols := default, types := default, members := default }
    (∃ normalized rest, (normalize raw shape params .unknown).Yields env {} normalized rest ∧
      normalized.arguments = [.array ⟨.invalid, .unknown⟩ raw]) ∧
      raw ≠ [] ∧ ¬ Param.LastCollects params ∧
      (normalize raw { shape with placement? := none } params .unknown).Fails env {}
        ArgumentFault.notCollecting.violation := by
  intro raw shape params env
  refine ⟨⟨_, _, ⟨_, rfl⟩, rfl⟩, by simp [raw], ?_, rfl⟩
  intro hlast
  obtain ⟨last, hgetLast, hparams⟩ := hlast
  obtain rfl := Option.some.inj hgetLast
  cases hparams

end Lowering

end Collecting

end Subscript
