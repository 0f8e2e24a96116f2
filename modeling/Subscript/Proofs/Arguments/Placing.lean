import Mathlib.Data.List.Basic
import Mathlib.Data.List.Forall2
import Mathlib.Data.List.Perm.Basic
import Subscript.Lowering.Arguments

/-!
# Where arguments are placed

Where the arguments of a call go is said here without the search that finds it, and the search is
exact. A placement covers the arguments and stays inside the parameter list, and parameters that
collect nothing get one argument at most. So the arguments placed at the parameters, taken together,
are the written arguments again; where the placement descends nowhere they even come in the written
order.

## Architecture

- §1 `Places`, where the arguments of a call go
- §2 the placement that is found
- §3 `placedAt`, element by element
- §4 every argument is placed once
- §5 placements that keep the order
-/

namespace Subscript

/-! ## §1 Where arguments go -/

namespace CallShape

/-- In expanded form the last parameter collects what is placed there. -/
def Collects (shape : CallShape) (params : List Param) (parameter : Nat) : Prop :=
  shape.isExpanded = true ∧ parameter + 1 = params.length

/-- The parameter that an argument goes to, where no placement is known. -/
inductive GoesTo (shape : CallShape) (params : List Param) (argument : Nat) : Nat → Prop where
  /-- a named argument goes to the first parameter of its name -/
  | named {name : String} {parameter : Nat} (hname : shape.names[argument]? = some (some name))
    (hfound : (params[parameter]?).map (·.name) = some name)
    (hfirst : ∀ earlier < parameter, (params[earlier]?).map (·.name) ≠ some name) :
    GoesTo shape params argument parameter
  /-- any other argument goes to the parameter at its own position -/
  | own (hname : ∀ name, shape.names[argument]? ≠ some (some name))
    (hposition : argument < params.length) :
    GoesTo shape params argument argument
  /-- or it is collected, from the position of the collecting parameter on -/
  | collected {parameter : Nat} (hname : ∀ name, shape.names[argument]? ≠ some (some name))
    (hcollects : shape.Collects params parameter) (hfrom : parameter ≤ argument) :
    GoesTo shape params argument parameter

/-- A placement gives each of so many arguments its parameter. -/
structure Places (shape : CallShape) (params : List Param) (count : Nat)
    (placement : List Nat) : Prop where
  /-- either no argument is named, or there is a name or none for each -/
  names : shape.names = [] ∨ shape.names.length = count
  /-- either all arguments are copied, or it is given for each how it is passed -/
  refKinds : shape.refKinds = [] ∨ shape.refKinds.length = count
  /-- each argument has an entry -/
  length : placement.length = count
  /-- a placement that is already known is the one, as long as it stays in the parameter list -/
  known : ∀ known, shape.placement? = some known →
    placement = known ∧ ∀ parameter ∈ known, parameter < params.length
  /-- or else the last parameter has to be able to collect arguments in expanded form -/
  expanded : shape.placement? = none → shape.isExpanded = true →
    ∃ last, params.getLast? = some last ∧ last.isParams = true
  /-- and the entries tell where the arguments go -/
  goesTo : shape.placement? = none → ∀ argument parameter : Nat,
    placement[argument]? = some parameter → shape.GoesTo params argument parameter

variable {shape : CallShape} {params : List Param} {count argument parameter : Nat}
  {placement : List Nat}

/-- The parameter that is taken for the collecting one is the last one, in expanded form. -/
theorem collecting?_eq_some_iff :
    shape.collecting? params = some parameter ↔ shape.Collects params parameter := by
  unfold collecting? Collects
  cases shape.isExpanded with
  | false => simp
  | true =>
    cases hlength : params.length with
    | zero => simp
    | succ last => simp [eq_comm]

/-- A parameter that collects is one of the list. -/
private theorem Collects.lt_length (h : shape.Collects params parameter) :
    parameter < params.length := by
  have hlast := h.2
  omega

/-- Wherever an argument goes, there is a parameter. -/
private theorem GoesTo.lt_length (h : shape.GoesTo params argument parameter) :
    parameter < params.length := by
  cases h with
  | named hname hfound =>
    obtain ⟨param, hparam, -⟩ := Option.map_eq_some_iff.mp hfound
    exact (List.getElem?_eq_some_iff.mp hparam).1
  | own hname hposition => exact hposition
  | collected hname hcollects => exact hcollects.lt_length

/-! ## §2 The placement that is found -/

/-- A placement that is known is accepted as it is: one entry for each argument, and a parameter
for each entry. -/
theorem checkPlacement_eq_ok_iff {known : List Nat} :
    checkPlacement params count known = .ok placement ↔ known.length = count ∧
      known = placement ∧ ∀ parameter ∈ known, parameter < params.length := by
  unfold checkPlacement
  split
  · rename_i hlength
    simp [hlength]
  · rename_i hlength
    rw [Decidable.not_not] at hlength
    split
    · rename_i parameter hfound
      -- an entry was found that names no parameter
      have hrange := List.find?_some hfound
      have hmem := List.mem_of_find?_eq_some hfound
      refine iff_of_false (by simp) ?_
      intro h
      exact absurd (h.2.2 parameter hmem) (Nat.not_lt_of_le (by simpa using hrange))
    · rename_i hnone
      have hrange : ∀ parameter ∈ known, parameter < params.length := by
        simpa using hnone
      rw [Except.ok.injEq, and_iff_right hlength, and_iff_left hrange]

/-- In expanded form the last parameter has to be one that can collect; otherwise nothing is
asked. -/
theorem collector?_eq_ok_iff {collector? : Option Nat} :
    shape.collector? params = .ok collector? ↔
      (shape.isExpanded = true → ∃ last, params.getLast? = some last ∧ last.isParams = true) ∧
        shape.collecting? params = collector? := by
  unfold CallShape.collector? CallShape.collecting?
  cases shape.isExpanded with
  | false => simp
  | true =>
    rcases List.eq_nil_or_concat params with rfl | ⟨others, last, rfl⟩
    · simp
    · cases hparams : last.isParams with
      | false => simp [hparams]
      | true => simp [hparams]

/-- The search for a name finds the first parameter that bears it, even if later ones bear it too.
-/
private theorem findIdx?_name_eq_some_iff {name : String} :
    params.findIdx? (·.name = name) = some parameter ↔
      (params[parameter]?).map (·.name) = some name ∧
        ∀ earlier < parameter, (params[earlier]?).map (·.name) ≠ some name := by
  rw [List.findIdx?_eq_some_iff_getElem]
  refine ⟨?_, ?_⟩
  · rintro ⟨hlt, hname, hfirst⟩
    refine ⟨by simpa [hlt] using hname, ?_⟩
    intro earlier hearlier
    have hother := hfirst earlier hearlier
    simpa [Nat.lt_trans hearlier hlt] using hother
  -- a name at a position says that there is a parameter at all
  · rintro ⟨hfound, hfirst⟩
    obtain ⟨param, hparam, rfl⟩ := Option.map_eq_some_iff.mp hfound
    obtain ⟨hlt, rfl⟩ := List.getElem?_eq_some_iff.mp hparam
    refine ⟨hlt, by simp, ?_⟩
    intro earlier hearlier
    have hother := hfirst earlier hearlier
    simpa [Nat.lt_trans hearlier hlt] using hother

/-- A named argument goes where the search for its name ends. -/
private theorem goesTo_iff_of_named {name : String} (hname : shape.name? argument = some name) :
    shape.GoesTo params argument parameter ↔
      params.findIdx? (·.name = name) = some parameter := by
  rw [findIdx?_name_eq_some_iff]
  rw [name?_eq_some_iff] at hname
  refine ⟨?_, fun h => .named hname h.1 h.2⟩
  intro h
  cases h with
  | named hname' hfound hfirst =>
    obtain rfl := Option.some.inj (Option.some.inj (hname.symm.trans hname'))
    exact ⟨hfound, hfirst⟩
  | own hname' => exact absurd hname (hname' name)
  | collected hname' => exact absurd hname (hname' name)

/-- An argument without a name goes to the parameter at its own position, or to the one that
collects the arguments from there on. -/
private theorem goesTo_iff_of_unnamed (hname : shape.name? argument = none) :
    shape.GoesTo params argument parameter ↔
      parameter = argument ∧ argument < params.length ∨
        shape.Collects params parameter ∧ parameter ≤ argument := by
  rw [name?_eq_none_iff] at hname
  refine ⟨?_, ?_⟩
  · intro h
    cases h with
    | named hname' => exact absurd hname' (hname _)
    | own _ hposition => exact .inl ⟨rfl, hposition⟩
    | collected _ hcollects hfrom => exact .inr ⟨hcollects, hfrom⟩
  · rintro (⟨rfl, hposition⟩ | ⟨hcollects, hfrom⟩)
    · exact .own hname hposition
    · exact .collected hname hcollects hfrom

/-- What is found for an argument is where it goes. The judgment `GoesTo` is independent of the
search, so this is where the search is shown to be right. -/
theorem parameterOf_eq_ok_iff :
    shape.parameterOf params (shape.collecting? params) count argument = .ok parameter ↔
      shape.GoesTo params argument parameter := by
  unfold parameterOf
  -- only a named argument is searched for by name; the position of any other one decides
  cases hname : shape.name? argument with
  | some name =>
    rw [goesTo_iff_of_named hname]
    dsimp only
    cases params.findIdx? (·.name = name) <;> simp
  | none =>
    rw [goesTo_iff_of_unnamed hname]
    dsimp only
    split
    · rename_i collector hfilter
      obtain ⟨hcollector, hfrom⟩ := Option.filter_eq_some_iff.mp hfilter
      have hcollects := collecting?_eq_some_iff.mp hcollector
      rw [decide_eq_true_iff] at hfrom
      rw [Except.ok.injEq]
      refine ⟨?_, ?_⟩
      · rintro rfl
        exact .inr ⟨hcollects, hfrom⟩
      · -- at its own position the argument could only be the collecting parameter's first one
        have hlast := hcollects.2
        rintro (⟨rfl, hposition⟩ | ⟨hcollects', -⟩)
        · omega
        · have hlast' := hcollects'.2
          omega
    · rename_i hfilter
      have hbefore : ¬ (shape.Collects params parameter ∧ parameter ≤ argument) := by
        rintro ⟨hcollects, hfrom⟩
        rw [collecting?_eq_some_iff.mpr hcollects] at hfilter
        exact absurd hfrom (by simpa using hfilter)
      rw [or_iff_left hbefore]
      split
      -- nothing collects the argument, so its own position is all that is left
      · rename_i hposition
        rw [Except.ok.injEq, and_iff_left hposition, eq_comm]
      · rename_i hposition
        simp [hposition]

/-- Finding something for each is finding it one by one. -/
private theorem mapM_eq_ok_iff {α β ε : Type} {f : α → Except ε β} {xs : List α} {ys : List β} :
    xs.mapM f = .ok ys ↔ List.Forall₂ (fun x y => f x = .ok y) xs ys := by
  induction xs generalizing ys with
  | nil => cases ys <;> simp [pure, Except.pure]
  | cons x xs ih =>
    rw [List.mapM_cons]
    cases hx : f x with
    | error fault => cases ys <;> simp [bind, Except.bind, hx]
    | ok y =>
      cases hxs : xs.mapM f with
      | error fault => cases ys <;> simp [bind, Except.bind, ← ih, hxs, hx]
      | ok rest => cases ys <;> simp [bind, Except.bind, pure, Except.pure, ← ih, hxs, hx]

/-- The search for the entries ends with the first one that is not found. -/
theorem mapM_error {α β ε : Type} {f : α → Except ε β} {xs : List α} {fault : ε}
    (h : xs.mapM f = .error fault) : ∃ x ∈ xs, f x = .error fault := by
  induction xs with
  | nil => cases h
  | cons x xs ih =>
    rw [List.mapM_cons] at h
    cases hx : f x with
    | error cause =>
      rw [hx] at h
      cases h
      exact ⟨x, List.mem_cons_self .., hx⟩
    | ok y =>
      cases hxs : xs.mapM f with
      | error cause =>
        rw [hx, hxs] at h
        cases h
        obtain ⟨x', hx', hcause⟩ := ih hxs
        exact ⟨x', List.mem_cons_of_mem _ hx', hcause⟩
      | ok rest =>
        rw [hx, hxs] at h
        cases h

/-- Going through the arguments one by one finds where each of them goes. -/
private theorem mapM_parameterOf_eq_ok_iff :
    (List.range count).mapM (shape.parameterOf params (shape.collecting? params) count) =
        .ok placement ↔
      placement.length = count ∧ ∀ argument parameter : Nat,
        placement[argument]? = some parameter → shape.GoesTo params argument parameter := by
  simp only [mapM_eq_ok_iff, parameterOf_eq_ok_iff, List.forall₂_iff_get, List.length_range,
    List.get_eq_getElem, List.getElem_range]
  refine ⟨?_, ?_⟩
  · rintro ⟨rfl, hgoes⟩
    refine ⟨rfl, ?_⟩
    intro argument parameter hparameter
    obtain ⟨hlt, rfl⟩ := List.getElem?_eq_some_iff.mp hparameter
    exact hgoes argument hlt hlt
  · rintro ⟨rfl, hgoes⟩
    exact ⟨rfl, fun argument _ hlt => hgoes argument _ (List.getElem?_eq_getElem hlt)⟩

/-- The numbers of names and of ref kinds are checked ahead of everything else. What is left is a
placement that was known before, or the search for one. -/
private theorem placement_eq_ok_iff_checked :
    shape.placement params count = .ok placement ↔
      (shape.names = [] ∨ shape.names.length = count) ∧
        (shape.refKinds = [] ∨ shape.refKinds.length = count) ∧
          (match shape.placement? with
            | some known => checkPlacement params count known
            | none => (shape.collector? params).bind fun collector? =>
              (List.range count).mapM (shape.parameterOf params collector? count)) =
                .ok placement := by
  unfold CallShape.placement
  simp only [bind, Except.bind]
  split
  · rename_i hnames
    -- with a wrong number of names neither side holds
    have hbad : ¬ (shape.names = [] ∨ shape.names.length = count) := not_or.mpr hnames
    simp [hbad]
  · rename_i hnames
    have hnames' : shape.names = [] ∨ shape.names.length = count := by tauto
    rw [and_iff_right hnames']
    split
    · rename_i hrefKinds
      have hbad : ¬ (shape.refKinds = [] ∨ shape.refKinds.length = count) := not_or.mpr hrefKinds
      simp [hbad]
    · rename_i hrefKinds
      have hrefKinds' : shape.refKinds = [] ∨ shape.refKinds.length = count := by tauto
      exact (and_iff_right hrefKinds').symm

/-- Where there is a placement it is found, and nothing else is. `Places` says of a whole list
what `GoesTo` says of one argument, together with what is checked of the list itself. -/
theorem placement_eq_ok_iff :
    shape.placement params count = .ok placement ↔ shape.Places params count placement := by
  rw [placement_eq_ok_iff_checked]
  refine ⟨?_, ?_⟩
  · rintro ⟨hnames, hrefKinds, hfound⟩
    cases hplacement : shape.placement? with
    | some known =>
      rw [hplacement] at hfound
      -- a known placement is the one that is found, so there is no other to speak of
      obtain ⟨hlength, rfl, hrange⟩ := checkPlacement_eq_ok_iff.mp hfound
      refine ⟨hnames, hrefKinds, hlength, ?_, by simp [hplacement], by simp [hplacement]⟩
      intro other hother
      obtain rfl := Option.some.inj (hplacement.symm.trans hother)
      exact ⟨rfl, hrange⟩
    | none =>
      rw [hplacement] at hfound
      cases hcollector : shape.collector? params with
      | error fault =>
        rw [hcollector] at hfound
        cases hfound
      | ok collector =>
        rw [hcollector] at hfound
        -- without a known placement the entries are searched for one by one
        obtain ⟨hexpanded, rfl⟩ := collector?_eq_ok_iff.mp hcollector
        obtain ⟨hlength, hgoes⟩ := mapM_parameterOf_eq_ok_iff.mp hfound
        exact ⟨hnames, hrefKinds, hlength, by simp [hplacement], fun _ => hexpanded,
          fun _ => hgoes⟩
  · intro h
    refine ⟨h.names, h.refKinds, ?_⟩
    cases hplacement : shape.placement? with
    | some known =>
      obtain ⟨rfl, hrange⟩ := h.known known hplacement
      exact checkPlacement_eq_ok_iff.mpr ⟨h.length, rfl, hrange⟩
    | none =>
      rw [collector?_eq_ok_iff.mpr ⟨h.expanded hplacement, rfl⟩]
      exact mapM_parameterOf_eq_ok_iff.mpr ⟨h.length, h.goesTo hplacement⟩

/-- A placement has an entry for each argument, and each entry is a parameter. -/
theorem placement_ok (h : shape.placement params count = .ok placement) :
    placement.length = count ∧ ∀ parameter ∈ placement, parameter < params.length := by
  have hplaces := placement_eq_ok_iff.mp h
  refine ⟨hplaces.length, ?_⟩
  intro parameter hmem
  cases hplacement : shape.placement? with
  | some known =>
    obtain ⟨rfl, hrange⟩ := hplaces.known known hplacement
    exact hrange parameter hmem
  | none =>
    obtain ⟨argument, hargument⟩ := List.getElem?_of_mem hmem
    exact (hplaces.goesTo hplacement argument parameter hargument).lt_length

/-- No parameter is bound again exactly if those that collect nothing get one argument at most.
The code looks for an offender; here the property is said of every parameter. -/
theorem overbound?_eq_none_iff :
    shape.overbound? params placement = none ↔ ∀ parameter < params.length,
      shape.collecting? params ≠ some parameter → placement.count parameter ≤ 1 := by
  unfold overbound?
  rw [List.findSome?_eq_none_iff]
  constructor
  · intro hnone parameter hparameter hcollecting
    -- the search for a parameter that is bound again passed over this one
    have hpassed := hnone (params[parameter], parameter)
      (List.mem_zipIdx_iff_getElem?.mpr (List.getElem?_eq_getElem hparameter))
    by_contra hcount
    simp [hcollecting, Nat.lt_of_not_le hcount] at hpassed
  · rintro honce ⟨param, parameter⟩ hmem
    obtain ⟨hparameter, -⟩ := List.getElem?_eq_some_iff.mp (List.mem_zipIdx_iff_getElem?.mp hmem)
    apply if_neg
    rintro ⟨hcount, hcollecting⟩
    exact absurd (honce parameter hparameter hcollecting) (Nat.not_le_of_lt hcount)

end CallShape

/-! ## §3 What is placed at a parameter -/

namespace Lowering

open Code (Expr)

section PlacedAt

variable {α β : Type*} {parameter : Nat}

@[simp] private theorem placedAt_nil_right (placement : List Nat) :
    placedAt parameter placement ([] : List α) = [] := by
  simp [placedAt]

/-- The first argument is placed at its parameter, in front of what the others place there. -/
theorem placedAt_cons (target : Nat) (placement : List Nat) (item : α) (written : List α) :
    placedAt parameter (target :: placement) (item :: written) =
      (if target = parameter then [item] else []) ++ placedAt parameter placement written := by
  by_cases h : target = parameter
  · simp [placedAt, h]
  · simp [placedAt, h]

/-- Placing is done by position, whatever is placed. -/
theorem placedAt_map (f : α → β) (placement : List Nat) (written : List α) :
    placedAt parameter placement (written.map f) =
      (placedAt parameter placement written).map f := by
  induction placement generalizing written with
  | nil => rfl
  | cons target placement ih =>
    cases written with
    | nil => simp
    | cons item written =>
      rw [List.map_cons, placedAt_cons, placedAt_cons, ih, List.map_append]
      split <;> rfl

/-- An item is placed at a parameter from the position at which it was written. -/
theorem mem_placedAt_iff {placement : List Nat} {written : List α} {item : α} :
    item ∈ placedAt parameter placement written ↔
      ∃ position : Nat,
        placement[position]? = some parameter ∧ written[position]? = some item := by
  simp only [placedAt, List.mem_filterMap, Option.ite_none_right_eq_some, Option.some.injEq]
  refine ⟨?_, ?_⟩
  · rintro ⟨⟨target, other⟩, hpair, rfl, rfl⟩
    obtain ⟨position, hposition⟩ := List.getElem?_of_mem hpair
    exact ⟨position, List.getElem?_zip_eq_some.mp hposition⟩
  · rintro ⟨position, htarget, hitem⟩
    refine ⟨(parameter, item), ?_, rfl, rfl⟩
    exact List.mem_of_getElem? (List.getElem?_zip_eq_some.mpr ⟨htarget, hitem⟩)

/-- What is placed at a parameter stays in the written order. -/
theorem placedAt_sublist {placement : List Nat} (written : List α) :
    (placedAt parameter placement written).Sublist written := by
  induction placement generalizing written with
  | nil => exact List.nil_sublist written
  | cons target placement ih =>
    cases written with
    | nil => simp
    | cons item written =>
      rw [placedAt_cons]
      split
      · exact (ih written).cons_cons item
      · exact (ih written).cons item

/-- What is placed at a parameter was written. -/
theorem mem_of_mem_placedAt {placement : List Nat} {written : List α} {item : α}
    (h : item ∈ placedAt parameter placement written) : item ∈ written :=
  (placedAt_sublist written).mem h

/-- At a parameter there are as many arguments as the placement sends to it. -/
theorem length_placedAt {placement : List Nat} {written : List α}
    (h : placement.length = written.length) :
    (placedAt parameter placement written).length = placement.count parameter := by
  induction placement generalizing written with
  | nil => rfl
  | cons target placement ih =>
    cases written with
    | nil => cases h
    | cons item written =>
      have hlength : placement.length = written.length := Nat.succ.inj h
      rw [placedAt_cons, List.length_append, ih hlength, List.count_cons]
      by_cases ht : target = parameter
      · simp [ht, Nat.add_comm]
      · simp [ht]

/-- Two stretches of arguments are placed one after the other. -/
theorem placedAt_append {placement placement' : List Nat} {written written' : List α}
    (h : placement.length = written.length) :
    placedAt parameter (placement ++ placement') (written ++ written') =
      placedAt parameter placement written ++ placedAt parameter placement' written' := by
  simp only [placedAt, List.zip_append h, List.filterMap_append]

/-- Nothing is placed at a parameter to which no argument goes. -/
theorem placedAt_eq_nil {placement : List Nat} {written : List α}
    (h : parameter ∉ placement) : placedAt parameter placement written = [] := by
  apply List.filterMap_eq_nil_iff.mpr
  rintro ⟨target, item⟩ hpair
  have hne : target ≠ parameter := fun heq => h (heq ▸ (List.of_mem_zip hpair).1)
  simp [hne]

/-- Arguments that all go to one parameter are placed there in the order in which they were
written. -/
private theorem placedAt_replicate (written : List α) :
    placedAt parameter (List.replicate written.length parameter) written = written := by
  induction written with
  | nil => rfl
  | cons item written ih =>
    rw [List.length_cons, List.replicate_succ, placedAt_cons, ih]
    simp

/-- A first stretch is what is placed at its parameter, if nothing else is. -/
theorem placedAt_stretch {first others : List α} {later : List Nat} {size : Nat}
    (hsize : first.length = size) (hlater : parameter ∉ later) :
    placedAt parameter (List.replicate size parameter ++ later) (first ++ others) = first := by
  subst hsize
  rw [placedAt_append List.length_replicate, placedAt_replicate, placedAt_eq_nil hlater,
    List.append_nil]

/-! ## §4 Every argument is placed once -/

/-- Among different parameters an argument finds its own exactly once. -/
private theorem flatMap_ite_eq_singleton {parameters : List Nat} (hnodup : parameters.Nodup)
    {target : Nat} (hmem : target ∈ parameters) (item : α) :
    (parameters.flatMap fun parameter => if target = parameter then [item] else []) = [item] := by
  induction parameters with
  | nil => cases hmem
  | cons first parameters ih =>
    obtain ⟨hfirst, hnodup⟩ := List.nodup_cons.mp hnodup
    rw [List.flatMap_cons]
    by_cases h : target = first
    · subst h
      -- the parameters behind it are others
      have hrest : (parameters.flatMap fun parameter =>
          if target = parameter then [item] else []) = [] := by
        apply List.flatMap_eq_nil_iff.mpr
        intro other hother
        apply if_neg
        rintro rfl
        exact hfirst hother
      rw [if_pos rfl, hrest, List.append_nil]
    · rw [if_neg h, List.nil_append]
      exact ih hnodup ((List.mem_cons.mp hmem).resolve_left h)

/-- The arguments placed at the parameters are the written arguments, in another order. None is
lost and none is placed twice, whatever the placement is. -/
theorem flatMap_placedAt_perm {placement : List Nat} {written : List α} {size : Nat}
    (hlength : placement.length = written.length) (hrange : ∀ target ∈ placement, target < size) :
    ((List.range size).flatMap fun target => placedAt target placement written).Perm written := by
  induction placement generalizing written with
  | nil =>
    have hnil : written = [] := List.length_eq_zero_iff.mp hlength.symm
    simp [hnil]
  | cons target placement ih =>
    cases written with
    | nil => cases hlength
    | cons item written =>
      have htail := ih (Nat.succ.inj hlength) fun other hother => hrange other (by simp [hother])
      simp only [placedAt_cons]
      -- the head goes to one parameter; wherever that stands, it can be listed first
      apply (List.flatMap_append_perm _ _ _).symm.trans
      rw [flatMap_ite_eq_singleton List.nodup_range (List.mem_range.mpr (hrange target (by simp)))]
      exact htail.cons item

/-! ## §5 Placements that keep the order -/

/-- A placement that descends nowhere puts a first stretch of the arguments at the first parameter
and the others behind it. -/
private theorem exists_stretch {placement : List Nat} (hsorted : placement.Pairwise (· ≤ ·))
    {position : Nat} (hfrom : ∀ target ∈ placement, position ≤ target) :
    ∃ size later, placement = List.replicate size position ++ later ∧
      later.Pairwise (· ≤ ·) ∧ ∀ target ∈ later, position + 1 ≤ target := by
  induction placement with
  | nil => exact ⟨0, [], rfl, .nil, by simp⟩
  | cons target placement ih =>
    obtain ⟨hle, hsorted'⟩ := List.pairwise_cons.mp hsorted
    by_cases h : target = position
    -- the stretch becomes longer by one
    · subst h
      obtain ⟨size, later, rfl, hlater, hbehind⟩ :=
        ih hsorted' fun other hother => hfrom other (by simp [hother])
      exact ⟨size + 1, later, by simp [List.replicate_succ], hlater, hbehind⟩
    -- the stretch is empty, because everything else lies behind `target`
    · have hlt : position < target :=
        Nat.lt_of_le_of_ne (hfrom target (by simp)) (Ne.symm h)
      refine ⟨0, target :: placement, rfl, hsorted, ?_⟩
      intro other hother
      rcases List.mem_cons.mp hother with rfl | hother
      · exact hlt
      · exact Nat.le_trans hlt (hle other hother)

/-- The same for the arguments themselves: those of the first parameter come first. -/
theorem exists_stretch_of_length {placement : List Nat} {written : List α}
    (hlength : placement.length = written.length) (hsorted : placement.Pairwise (· ≤ ·))
    {position : Nat} (hfrom : ∀ target ∈ placement, position ≤ target) :
    ∃ first others later, placement = List.replicate first.length position ++ later ∧
      written = first ++ others ∧ later.length = others.length ∧
        later.Pairwise (· ≤ ·) ∧ ∀ target ∈ later, position + 1 ≤ target := by
  obtain ⟨size, later, rfl, hlater, hbehind⟩ := exists_stretch hsorted hfrom
  rw [List.length_append, List.length_replicate] at hlength
  have hsize : (written.take size).length = size := by
    rw [List.length_take]
    omega
  refine ⟨written.take size, written.drop size, later, by rw [hsize],
    (List.take_append_drop size written).symm, ?_, hlater, hbehind⟩
  rw [List.length_drop]
  omega

end PlacedAt

end Lowering

end Subscript
