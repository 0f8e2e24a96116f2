import Subscript.Proofs.Arguments.Placing

/-!
# Arguments are taken once

Parameter by parameter, a call takes what is read in place of its arguments, and what was taken is
gone. Still nothing is ever missed: every argument belongs to one parameter, so whatever is placed
at a parameter is in supply when its turn comes. The arguments of the parameters can therefore be
told without a supply.

## Architecture

- §1 `slot`, the arguments placed at a parameter
- §2 what taking leaves in supply
- §3 `argumentsFrom`, the arguments of the parameters without a supply
-/

namespace Subscript.Lowering

open Code (Expr)

/-! ## §1 Slots -/

section Slot

variable {parameter argument : Nat} {placement : List Nat}

/-- What is placed at a parameter, read off the positions of the arguments placed there. -/
theorem map_slot {α : Type*} (read : Nat → α) :
    (slot parameter placement).map read =
      placedAt parameter placement ((List.range placement.length).map read) := by
  rw [slot, placedAt_map]

/-- A slot has as many arguments as the placement sends to its parameter. -/
theorem length_slot : (slot parameter placement).length = placement.count parameter :=
  length_placedAt List.length_range.symm

/-- An argument is in the slot of the parameter that it is placed at, and in no other one. -/
theorem mem_slot_iff : argument ∈ slot parameter placement ↔
    placement[argument]? = some parameter := by
  rw [slot, mem_placedAt_iff]
  refine ⟨?_, ?_⟩
  · rintro ⟨position, htarget, hargument⟩
    rw [List.getElem?_range (List.getElem?_eq_some_iff.mp htarget).1] at hargument
    exact Option.some.inj hargument ▸ htarget
  · intro htarget
    exact ⟨argument, htarget, List.getElem?_range (List.getElem?_eq_some_iff.mp htarget).1⟩

/-- A slot lists its arguments in the written order. -/
theorem pairwise_slot : (slot parameter placement).Pairwise (· < ·) :=
  List.pairwise_lt_range.sublist (placedAt_sublist _)

/-- A slot has no argument twice. -/
private theorem nodup_slot : (slot parameter placement).Nodup :=
  pairwise_slot.imp Nat.ne_of_lt

end Slot

/-! ## §2 Taking -/

/-- An argument that is in supply can be taken, and is gone afterwards. -/
private theorem take_of_getElem? {argument : Nat} {supply : Supply} {read : Expr}
    (h : supply[argument]? = some (some read)) :
    take argument supply = .ok (read, supply.set argument none) := by
  simp [take, h]

/-- Different arguments in supply can all be taken, and nothing else goes with them. -/
private theorem takeAll_of_nodup {arguments : List Nat} (hnodup : arguments.Nodup)
    {read : Nat → Expr} {supply : Supply}
    (hsupply : ∀ argument ∈ arguments, supply[argument]? = some (some (read argument))) :
    ∃ rest, takeAll arguments supply = .ok (arguments.map read, rest) ∧
      ∀ other, other ∉ arguments → rest[other]? = supply[other]? := by
  induction arguments generalizing supply with
  | nil => exact ⟨supply, rfl, fun _ _ => rfl⟩
  | cons argument arguments ih =>
    obtain ⟨hfirst, hnodup'⟩ := List.nodup_cons.mp hnodup
    -- taking the first argument leaves the others where they are
    have hkept : ∀ other, other ≠ argument →
        (supply.set argument none)[other]? = supply[other]? :=
      fun other hne => List.getElem?_set_ne (Ne.symm hne)
    have hsupply' : ∀ other ∈ arguments,
        (supply.set argument none)[other]? = some (some (read other)) := by
      intro other hother
      rw [hkept other (fun heq => hfirst (heq ▸ hother))]
      exact hsupply other (List.mem_cons_of_mem _ hother)
    obtain ⟨rest, htaken, hrest⟩ := ih hnodup' hsupply'
    refine ⟨rest, ?_, ?_⟩
    · rw [takeAll, take_of_getElem? (hsupply argument (List.mem_cons_self ..))]
      show (takeAll arguments _).bind _ = _
      rw [htaken]
      rfl
    · intro other hother
      rw [List.mem_cons, not_or] at hother
      rw [hrest other hother.2, hkept other hother.1]

/-- What is read in place of arguments, as a function of their positions. -/
theorem exists_read (reads : List Expr) :
    ∃ read : Nat → Expr, reads = (List.range reads.length).map read := by
  refine ⟨fun argument => reads[argument]?.getD (.self ⟨.invalid, .unknown⟩), ?_⟩
  apply List.ext_getElem?
  intro argument
  by_cases hargument : argument < reads.length
  · simp [List.getElem?_range hargument, List.getElem?_eq_getElem hargument]
  · simp [Nat.le_of_not_lt hargument]

/-! ## §3 Arguments without a supply -/

/-- The arguments of the parameters from `position` on, made of what is placed at them. -/
def argumentsFrom (collecting? : Option Nat) (placement : List Nat) (reads : List Expr)
    (site : Location) (position : Nat) : List Param → Lowering (List Expr)
  | [] => pure []
  | param :: params => do
    let argument ← argumentFor param (collecting? = some position)
      (placedAt position placement reads) site
    let arguments ← argumentsFrom collecting? placement reads site (position + 1) params
    return argument :: arguments

/-- The arguments of the parameters from `position` on are in supply. -/
def Stocked (placement : List Nat) (read : Nat → Expr) (position : Nat) (supply : Supply) : Prop :=
  ∀ argument target, placement[argument]? = some target → position ≤ target →
    supply[argument]? = some (some (read argument))

/-- Nothing is taken twice: each parameter finds what is placed at it in supply. The parameters
before it have taken what was placed at them, and no argument is placed at two. -/
theorem takeArguments_eq {collecting? : Option Nat} {placement : List Nat} {read : Nat → Expr}
    {site : Location} {position : Nat} {params : List Param} {supply : Supply}
    (hone : ∀ parameter < position + params.length, collecting? ≠ some parameter →
      placement.count parameter ≤ 1) (hstocked : Stocked placement read position supply) :
    takeArguments collecting? placement site position params supply =
      argumentsFrom collecting? placement ((List.range placement.length).map read) site position
        params := by
  induction params generalizing position supply with
  | nil => rfl
  | cons param params ih =>
    -- a parameter that collects nothing takes one argument, and has no more
    have hplaced : (if collecting? = some position then slot position placement
        else (slot position placement).take 1) = slot position placement := by
      split
      · rfl
      · rename_i hcollecting
        apply List.take_of_length_le
        rw [length_slot]
        exact hone position (by simp) hcollecting
    obtain ⟨rest, htaken, hrest⟩ := takeAll_of_nodup nodup_slot fun argument hargument =>
      hstocked argument position (mem_slot_iff.mp hargument) (Nat.le_refl position)
    -- what belongs to the later parameters was not taken here
    have hstocked' : Stocked placement read (position + 1) rest := by
      intro argument target htarget hle
      have hother : argument ∉ slot position placement := by
        rw [mem_slot_iff, htarget]
        intro heq
        have htarget' := Option.some.inj heq
        omega
      rw [hrest argument hother]
      exact hstocked argument target htarget (Nat.le_of_succ_le hle)
    have hone' : ∀ parameter < position + 1 + params.length, collecting? ≠ some parameter →
        placement.count parameter ≤ 1 := by
      intro parameter hparameter
      apply hone
      rw [List.length_cons]
      omega
    simp only [takeArguments, argumentsFrom, decide_eq_true_eq, hplaced, htaken, ofPlacement,
      pure_bind, ih hone' hstocked', map_slot]

end Subscript.Lowering
