import Subscript.Proofs.Acceptance
import Subscript.Proofs.Arguments.Assembly

/-!
# Argument lists that fit

An argument list fits a parameter list if every argument has a parameter, if only the last parameter
gets several arguments, and that in expanded form, and if whatever gets none collects arguments or
has a default. Exactly those lists can be put in the order of the parameters; any other one is
reported as malformed.

## Architecture

- §1 `CallShape.Fits`
- §2 what is reported of a list that does not fit
- §3 lists that fit are put in order, and no others are
-/

namespace Subscript

open Code (Allocator Expr)

/-! ## §1 Lists that fit -/

namespace CallShape

/-- An argument list of so many arguments fits a parameter list. -/
def Fits (shape : CallShape) (params : List Param) (count : Nat) : Prop :=
  ∃ placement, shape.Places params count placement ∧
    ∀ parameter param, params[parameter]? = some param → ¬ shape.Collects params parameter →
      placement.count parameter ≤ 1 ∧
        (parameter ∉ placement → param.isParams = false → param.default? ≠ none)

variable {shape : CallShape} {params : List Param} {count : Nat}

/-- A parameter is served exactly if it collects, or else is not left without an argument. -/
private theorem serves_iff {placement : List Nat} {parameter : Nat} {param : Param} :
    shape.Serves params placement parameter param ↔
      (¬ shape.Collects params parameter → parameter ∉ placement → param.isParams = false →
        param.default? ≠ none) := by
  rw [Serves, collecting?_eq_some_iff, Param.isOptional, ← Bool.not_eq_true,
    ← Option.isSome_iff_ne_none]
  tauto

/-- What the search for a placement and the checks behind it accept is what fits. The placement is
the same on both sides, for the search finds the one that `Places` describes. -/
private theorem accepts_iff_fits : shape.Accepts params count ↔ shape.Fits params count := by
  unfold Accepts Fits
  simp only [placement_eq_ok_iff, serves_iff, ne_eq, collecting?_eq_some_iff]
  apply exists_congr
  intro placement
  apply and_congr_right
  intro hplaces
  refine ⟨?_, ?_⟩
  -- both sides say it of each parameter that collects nothing, in another order
  · intro ⟨hone, hserves⟩ parameter param hparam hcollects
    have hlt := (List.getElem?_eq_some_iff.mp hparam).1
    exact ⟨hone parameter hlt hcollects, hserves parameter param hparam hcollects⟩
  · intro hfits
    refine ⟨?_, ?_⟩
    · intro parameter hlt hcollects
      exact (hfits parameter _ (List.getElem?_eq_getElem hlt) hcollects).1
    · intro parameter param hparam hcollects
      exact (hfits parameter param hparam hcollects).2

end CallShape

/-! ## §2 Lists that do not fit -/

namespace Lowering

section Fitting

variable {env : Env} {allocator : Allocator} {site : Location} {raw : List Expr}
  {shape : CallShape} {params : List Param} {violation : Violation}

/-- The only default that is refused is the one that a parameter does not have. -/
private theorem defaultValue_literals_error {param : Param} {types : TypeTable}
    (h : ArgumentBuilder.literals.defaultValue param types site = .error violation) :
    violation = (ArgumentFault.missing param.name).violation := by
  simp only [ArgumentBuilder.literals] at h
  split at h
  · cases h
  · exact (Except.error.inj h).symm

/-- Whatever is wrong with an argument list is reported as a malformed list. -/
private theorem normalize_fails_malformed (hliterals : env.builder = .literals)
    (h : (normalize raw shape params site).Fails env allocator violation) :
    ∃ fault : ArgumentFault, violation = fault.violation := by
  rcases normalize_fails h with ⟨fault, -, rfl⟩ | ⟨-, fault, -, rfl⟩ | ⟨param, -, hdefault⟩
  · exact ⟨fault, rfl⟩
  · exact ⟨fault, rfl⟩
  · rw [hliterals] at hdefault
    exact ⟨_, defaultValue_literals_error hdefault⟩

/-- A lowering that does not return ends with a violation. -/
private theorem exists_fails_of_not_returns {α : Type} {lowering : Lowering α}
    (h : ¬ lowering.Returns env allocator) :
    ∃ violation, lowering.Fails env allocator violation := by
  rcases hrun : lowering.run env allocator with ⟨violation | result, rest, events⟩
  · exact ⟨violation, congrArg Run.outcome hrun⟩
  · exact absurd ⟨result, rest, events, hrun⟩ h

/-! ## §3 Fitting is what it takes -/

/-- An argument list is put in the order of the parameters exactly if it fits. If it does not, the
list is reported as malformed, and for no other reason; a required parameter without an argument
is one case of it. -/
theorem normalize_accepts_iff_fits (hliterals : env.builder = .literals) (raw : List Expr)
    (shape : CallShape) (params : List Param) (site : Location) (allocator : Allocator) :
    ((∃ normalized rest, (normalize raw shape params site).Yields env allocator normalized rest) ↔
        shape.Fits params raw.length) ∧
      (¬ shape.Fits params raw.length → ∃ reason,
        (normalize raw shape params site).Fails env allocator (.malformedArguments reason)) := by
  have hreturns : (normalize raw shape params site).Returns env allocator ↔
      shape.Fits params raw.length :=
    (normalize_returnsIff hliterals raw shape params site allocator).trans
      CallShape.accepts_iff_fits
  refine ⟨hreturns, ?_⟩
  intro hfits
  obtain ⟨violation, hfails⟩ := exists_fails_of_not_returns (mt hreturns.mp hfits)
  obtain ⟨fault, rfl⟩ := normalize_fails_malformed hliterals hfails
  exact ⟨fault.reason, hfails⟩

/-- Two named arguments and two that are collected fit, but the same list does not without the
expanded form. -/
theorem normalize_accepts_collected_names :
    let raw : List Expr := List.replicate 4 (.self ⟨.invalid, .unknown⟩)
    let shape : CallShape := { names := [some "q", some "p", none, none] }
    let params : List Param := [{ name := "p", type := .invalid },
      { name := "q", type := .invalid }, { name := "others", type := .invalid, isParams := true }]
    let env : Env := { symbols := default, types := default, members := default }
    CallShape.Fits { shape with isExpanded := true } params raw.length ∧
      ¬ shape.Fits params raw.length ∧ ∃ reason,
        (normalize raw shape params .unknown).Fails env {} (.malformedArguments reason) := by
  intro raw shape params env
  have hliterals : env.builder = .literals := rfl
  have hexpanded := normalize_accepts_iff_fits hliterals raw { shape with isExpanded := true }
    params .unknown {}
  have hplain := normalize_accepts_iff_fits hliterals raw shape params .unknown {}
  have hfits : ¬ shape.Fits params raw.length := by
    intro h
    obtain ⟨_, _, _, hrun⟩ := hplain.1.mpr h
    have herror : ((normalize raw shape params .unknown).run env {}).outcome = .error _ := rfl
    rw [hrun] at herror
    cases herror
  exact ⟨hexpanded.1.mp ⟨_, _, _, rfl⟩, hfits, hplain.2 hfits⟩

end Fitting

end Lowering

end Subscript
