import Mathlib.Data.List.Forall2
import Subscript.Proofs.Validation

/-!
# Where temporaries may stand

Code keeps the rules of scoping if every sequence initializes what it declares, every store stands
at the position of its temporary, every temporary is read where a sequence around it lets it be
read, and nothing is declared twice. These rules speak about one expression and the frames around
it at a time, and not about the order in which code is walked. The scope check accepts exactly the
code that keeps them.

## Architecture

- §1 `Frame` and `Expr.Contains`, an expression inside another and the frames between them
- §2 `Expr.Fits`, the rules for one expression, and `Lowered.WellScoped`
- §3 the rules along the structure of code
- §4 bindings that keep the rules
- §5 what the check accepts
-/

namespace Subscript.Code

/-! ## §1 Frames -/

/-- Where an expression stands in the code directly around it. -/
inductive Frame where
  /-- an operand -/
  | operand
  /-- the store at a position, beside the temporary at that position -/
  | store (temps : List Temp) (position : Nat)
  /-- behind the stores of all temporaries -/
  | behind (temps : List Temp)

/-- The temporaries that may be read because of a frame: those whose stores have run. -/
def Frame.visible : Frame → List TempId
  | .operand => []
  | .store temps position => (temps.take position).map (·.id)
  | .behind temps => temps.map (·.id)

/-- Stores beside their temporaries and the expressions behind them, in their frames. -/
def framed (temps : List Temp) (stores rest : List Expr) : List (Frame × Expr) :=
  stores.mapIdx (fun position store => (Frame.store temps position, store)) ++
    rest.map fun expr => (Frame.behind temps, expr)

/-- What holds of all framed expressions holds of the stores, each at its position, and of what
stands behind them. -/
private theorem forall_mem_framed {temps : List Temp} {stores rest : List Expr}
    {P : Frame × Expr → Prop} :
    (∀ child ∈ framed temps stores rest, P child) ↔
      (∀ (position : Nat) (store : Expr), stores[position]? = some store →
        P (.store temps position, store)) ∧
      ∀ expr ∈ rest, P (.behind temps, expr) := by
  rw [framed, List.forall_mem_append, List.forall_mem_map]
  apply and_congr_left'
  constructor
  · intro h position store hstore
    obtain ⟨hlt, rfl⟩ := List.getElem?_eq_some_iff.mp hstore
    exact h _ (List.mem_mapIdx.mpr ⟨position, hlt, rfl⟩)
  · intro h child hchild
    obtain ⟨position, hlt, rfl⟩ := List.mem_mapIdx.mp hchild
    exact h position _ (List.getElem?_eq_getElem hlt)

namespace Expr

/-- The expressions directly inside an expression, in their frames. -/
def children : Expr → List (Frame × Expr)
  | .store _ _ value => [(.operand, value)]
  | .sequence _ temps stores result => framed temps stores [result]
  | expr => expr.operands.map fun operand => (.operand, operand)

private theorem children_of_isPlain {expr : Expr} (h : expr.isPlain = true) :
    expr.children = expr.operands.map fun operand => (.operand, operand) := by
  cases expr with
  | store | sequence => cases h
  | _ => rfl

/-- An expression stands inside another one, with some frames between them, the outermost first. -/
inductive Contains : Expr → List Frame → Expr → Prop
  /-- the expression itself -/
  | refl (expr : Expr) : Contains expr [] expr
  /-- an expression inside one that stands directly inside -/
  | child {expr inner other : Expr} {frame : Frame} {trail : List Frame}
      (hchild : (frame, inner) ∈ expr.children) (hinner : Contains inner trail other) :
      Contains expr (frame :: trail) other

end Expr

/-- An expression stands inside a lowered access, with some frames around it. The stores of a
target are the outermost ones, and its place stands behind them. -/
inductive Lowered.Contains : Lowered → List Frame → Expr → Prop
  /-- inside a value -/
  | value {expr other : Expr} {trail : List Frame} (hinner : expr.Contains trail other) :
      Contains (.value expr) trail other
  /-- inside a store or the place of a target -/
  | target {assignable : Target} {inner other : Expr} {frame : Frame} {trail : List Frame}
      (hchild : (frame, inner) ∈
        framed assignable.temps assignable.stores assignable.place.operands)
      (hinner : inner.Contains trail other) : Contains (.target assignable) (frame :: trail) other

/-! ## §2 The rules of scoping -/

/-- A store initializes a temporary, with storage if that is what the temporary holds. -/
def Temp.BoundBy (temp : Temp) (store : Expr) : Prop :=
  ∃ info value, store = .store info temp.id value ∧
    (temp.holding = .storage → value.isAddressable = true)

/-- The innermost of some frames belongs to a store. -/
def EndsInStore (trail : List Frame) : Prop :=
  ∃ temps position, trail.getLast? = some (.store temps position)

/-- What the rules of scoping ask of an expression in some frames. -/
def Expr.Fits (trail : List Frame) : Expr → Prop
  -- every sequence declares temporaries, each initialized by the store at its position
  | .sequence _ temps stores _ => temps ≠ [] ∧ List.Forall₂ Temp.BoundBy temps stores
  -- there are no other stores
  | .store _ _ _ => EndsInStore trail
  -- a temporary is read behind its store, inside the sequence that declares it
  | .temp _ id => ∃ frame ∈ trail, id ∈ frame.visible
  | _ => True

/-- The temporaries that a lowered access itself declares are bound. -/
def Lowered.BindsOwn : Lowered → Prop
  | .value _ => True
  | .target assignable => List.Forall₂ Temp.BoundBy assignable.temps assignable.stores

/-- A lowered access that keeps the rules of scoping. -/
structure Lowered.WellScoped (lowered : Lowered) : Prop where
  /-- everything inside stands where it may -/
  fits : ∀ trail inner, lowered.Contains trail inner → inner.Fits trail
  /-- the temporaries of a target are bound -/
  bindsOwn : lowered.BindsOwn
  /-- nothing is declared twice, wherever the declarations are -/
  declaresOnce : lowered.declared.Nodup

/-! ## §3 The rules along the structure of code -/

/-- Everything inside an expression fits into the frames around it. -/
def Expr.AllFit (around : List Frame) (expr : Expr) : Prop :=
  ∀ trail inner, expr.Contains trail inner → inner.Fits (around ++ trail)

/-- What fits is an expression that fits itself and whose parts do, each in one more frame. With
this rule the check, which recurses into the parts, meets a judgment about all positions at once.
-/
theorem Expr.allFit_iff {around : List Frame} {expr : Expr} :
    expr.AllFit around ↔ expr.Fits around ∧
      ∀ child ∈ expr.children, child.2.AllFit (around ++ [child.1]) := by
  constructor
  · intro h
    refine ⟨?_, ?_⟩
    -- the expression is at the empty trail in itself
    · have hself := h [] expr (.refl expr)
      rwa [List.append_nil] at hself
    -- and a part of a part is at a longer one
    · intro child hchild trail other hother
      have hinner := h (child.1 :: trail) other (.child hchild hother)
      rwa [List.append_assoc]
  · rintro ⟨hself, hchildren⟩ trail other hother
    cases hother with
    | refl => rwa [List.append_nil]
    | @child _ inner _ frame trail hchild hinner =>
      have hfits := hchildren (frame, inner) hchild trail other hinner
      rwa [List.append_assoc] at hfits

/-- The temporaries that some frames let be read. -/
def visibleIn (trail : List Frame) : List TempId := trail.flatMap Frame.visible

theorem mem_visibleIn {trail : List Frame} {id : TempId} :
    id ∈ visibleIn trail ↔ ∃ frame ∈ trail, id ∈ frame.visible :=
  List.mem_flatMap

@[simp] private theorem visibleIn_operand (trail : List Frame) :
    visibleIn (trail ++ [.operand]) = visibleIn trail := by
  simp [visibleIn, Frame.visible]

private theorem endsInStore_append_singleton {trail : List Frame} {frame : Frame} :
    EndsInStore (trail ++ [frame]) ↔ ∃ temps position, frame = .store temps position := by
  simp [EndsInStore]

/-- Scoped code in some frames. A store is scoped at the position of a temporary. -/
def Expr.ScopedIn (trail : List Frame) : Expr → Prop
  | .store _ _ value => EndsInStore trail ∧ value.Scoped (visibleIn trail)
  | expr => expr.Scoped (visibleIn trail)

/-- Away from the positions of stores, code is scoped in some frames if it is in the temporaries
that they let be read. -/
private theorem Expr.scopedIn_iff {trail : List Frame} (htrail : ¬ EndsInStore trail)
    (expr : Expr) :
    expr.ScopedIn trail ↔ expr.Scoped (visibleIn trail) := by
  cases expr with
  | store => exact iff_of_false (fun h => htrail h.1) id
  | _ => rfl

private theorem Expr.scopedIn_operand_iff {trail : List Frame} (expr : Expr) :
    expr.ScopedIn (trail ++ [.operand]) ↔ expr.Scoped (visibleIn trail) := by
  rw [Expr.scopedIn_iff, visibleIn_operand]
  rw [endsInStore_append_singleton]
  rintro ⟨_, _, heq⟩
  cases heq

/-- A plain expression has no rule to keep by itself. -/
private theorem Expr.fits_of_isPlain {trail : List Frame} {expr : Expr} (h : expr.isPlain = true) :
    expr.Fits trail := by
  cases expr with
  | temp | store | sequence => cases h
  | _ => trivial

private theorem Expr.scopedIn_of_isPlain {trail : List Frame} {expr : Expr}
    (h : expr.isPlain = true) :
    expr.ScopedIn trail ↔ expr.Scoped (visibleIn trail) := by
  cases expr with
  | store => cases h
  | _ => rfl

/-- A plain expression binds nothing amiss by itself. -/
private theorem Expr.misbound_of_isPlain {expr : Expr} (h : expr.isPlain = true) :
    expr.misbound = expr.operands.flatMap Expr.misbound := by
  have hown : expr.ownMisbound = [] := by
    cases expr with
    | sequence => cases h
    | _ => rfl
  rw [Expr.misbound, Expr.gather_of_isPlain _ h, hown, List.nil_append]

private theorem Expr.scoped_congr {scope scope' : List TempId} (h : ∀ id, id ∈ scope ↔ id ∈ scope')
    (expr : Expr) : expr.Scoped scope ↔ expr.Scoped scope' :=
  ⟨Expr.Scoped.mono (fun id => (h id).mp) expr, Expr.Scoped.mono (fun id => (h id).mpr) expr⟩

/-! ## §4 Bindings -/

/-- A store binds a temporary rightly exactly if it stores that one and storage is bound to
storage. -/
private theorem Temp.boundBy_store_iff {temp : Temp} {info : Info} {id : TempId} {value : Expr} :
    temp.BoundBy (.store info id value) ↔
      id = temp.id ∧ Binding.misbound ⟨temp, .store info id value⟩ = [] := by
  have hmisbound : Binding.misbound ⟨temp, .store info id value⟩ = [] ↔
      (temp.holding = .storage → value.isAddressable = true) := by
    simp [Binding.misbound]
  rw [hmisbound]
  constructor
  · rintro ⟨_, _, heq, hstorage⟩
    cases heq
    exact ⟨rfl, hstorage⟩
  · rintro ⟨rfl, hstorage⟩
    exact ⟨info, value, rfl, hstorage⟩

/-- A store whose initializer reads temporaries of a scope and those that it declares itself. -/
def Expr.StoresIn (scope : List TempId) : Expr → Prop
  | .store _ _ value => value.Scoped scope
  | _ => False

/-- What holds of the expressions at all positions holds of the head and of those behind it. -/
private theorem forall_position_cons {P : Nat → Expr → Prop} {expr : Expr} {exprs : List Expr} :
    (∀ position other, (expr :: exprs)[position]? = some other → P position other) ↔
      P 0 expr ∧ ∀ position other, exprs[position]? = some other → P (position + 1) other := by
  constructor
  · intro h
    exact ⟨h 0 expr rfl, fun position other hother => h (position + 1) other hother⟩
  · rintro ⟨hhead, hlater⟩ position other hother
    cases position with
    | zero => exact Option.some.inj hother ▸ hhead
    | succ position => exact hlater position other hother

/-- Bindings keep the rules if every temporary is bound and every initializer reads what is in
front of it. -/
theorem scopedBindings_iff {scope : List TempId} {temps : List Temp} {stores : List Expr} :
    (temps.length = stores.length ∧ ScopedBindings scope temps stores) ∧
        (List.zipWith Binding.mk temps stores).flatMap Binding.misbound = [] ↔
      List.Forall₂ Temp.BoundBy temps stores ∧
        ∀ (position : Nat) (store : Expr), stores[position]? = some store →
          store.StoresIn (scopeBehind scope (temps.take position)) := by
  -- along both lists, the temporary of the head joins the scope of what is behind it
  induction stores generalizing scope temps with
  | nil => cases temps <;> simp [ScopedBindings]
  | cons store stores ih =>
    cases temps with
    | nil => simp
    | cons temp temps =>
      rw [forall_position_cons, List.forall₂_cons]
      simp only [List.take_succ_cons, List.take_zero, scopeBehind_cons, scopeBehind_nil]
      cases store with
      | store info id value =>
        have hrest := @ih (temp.id :: scope) temps
        rw [Temp.boundBy_store_iff, List.zipWith_cons_cons, List.flatMap_cons,
          List.append_eq_nil_iff, List.length_cons, List.length_cons, Nat.add_right_cancel_iff,
          ScopedBindings, Expr.StoresIn]
        tauto
      | _ => exact iff_of_false (fun h => h.1.2) fun h => h.2.1

/-! ## §5 Accepted code -/

section Frames

variable {around : List Frame} {temps : List Temp} {stores rest : List Expr}

/-- One more frame lets see what its temporaries add to the scope. -/
private theorem mem_visibleIn_append_singleton {frame : Frame} {id : TempId}
    (hvisible : frame.visible = temps.map (·.id)) :
    id ∈ visibleIn (around ++ [frame]) ↔ id ∈ scopeBehind (visibleIn around) temps := by
  simp only [visibleIn, List.flatMap_append, List.flatMap_singleton, hvisible, List.mem_append,
    mem_scopeBehind]
  exact or_comm

private theorem scopedIn_behind_iff (expr : Expr) :
    expr.ScopedIn (around ++ [.behind temps]) ↔
      expr.Scoped (scopeBehind (visibleIn around) temps) := by
  rw [Expr.scopedIn_iff, Expr.scoped_congr fun _ => mem_visibleIn_append_singleton rfl]
  rw [endsInStore_append_singleton]
  rintro ⟨_, _, heq⟩
  cases heq

/-- At the position of a temporary its store is scoped if the initializer is. -/
private theorem scopedIn_store_iff {position : Nat} {temp : Temp} {store : Expr}
    (hbound : temp.BoundBy store) :
    store.ScopedIn (around ++ [.store temps position]) ↔
      store.StoresIn (scopeBehind (visibleIn around) (temps.take position)) := by
  obtain ⟨info, value, rfl, -⟩ := hbound
  have hends : EndsInStore (around ++ [.store temps position]) :=
    endsInStore_append_singleton.mpr ⟨temps, position, rfl⟩
  have hvisible : (Frame.store temps position).visible = (temps.take position).map (·.id) := rfl
  rw [Expr.ScopedIn, and_iff_right hends,
    Expr.scoped_congr fun _ => mem_visibleIn_append_singleton hvisible]
  rfl

private theorem forall₂_boundBy_getElem? (hbound : List.Forall₂ Temp.BoundBy temps stores)
    {position : Nat} {store : Expr} (hstore : stores[position]? = some store) :
    ∃ temp : Temp, temp.BoundBy store := by
  obtain ⟨hlt, rfl⟩ := List.getElem?_eq_some_iff.mp hstore
  exact ⟨_, hbound.get (hbound.length_eq ▸ hlt) hlt⟩

/-- Stores and what stands behind them keep the rules in their frames if they do as bindings. -/
private theorem framed_scopedIn_iff :
    (List.Forall₂ Temp.BoundBy temps stores ∧
        ∀ child ∈ framed temps stores rest, child.2.ScopedIn (around ++ [child.1])) ↔
      ((temps.length = stores.length ∧ ScopedBindings (visibleIn around) temps stores) ∧
        (List.zipWith Binding.mk temps stores).flatMap Binding.misbound = []) ∧
      ScopedAll (scopeBehind (visibleIn around) temps) rest := by
  rw [scopedBindings_iff, and_assoc, scopedAll_iff, forall_mem_framed]
  apply and_congr_right
  intro hbound
  apply and_congr
  · apply forall₃_congr
    intro position store hstore
    obtain ⟨temp, htemp⟩ := forall₂_boundBy_getElem? hbound hstore
    exact scopedIn_store_iff htemp
  · apply forall₂_congr
    intro expr _
    exact scopedIn_behind_iff expr

private theorem forall_mem_framed_misbound :
    (∀ child ∈ framed temps stores rest, child.2.misbound = []) ↔
      stores.flatMap Expr.misbound ++ rest.flatMap Expr.misbound = [] := by
  rw [forall_mem_framed, List.append_eq_nil_iff, List.flatMap_eq_nil_iff, List.flatMap_eq_nil_iff]
  apply and_congr_left'
  constructor
  · intro h store hstore
    obtain ⟨position, hposition⟩ := List.mem_iff_getElem?.mp hstore
    exact h position store hposition
  · intro h position store hstore
    exact h store (List.mem_of_getElem? hstore)

/-- Bindings with what stands behind them fit if they are scoped and bind no temporary amiss,
provided that this is so of each expression among them. -/
theorem framed_allFit_iff
    (hchildren : ∀ child ∈ framed temps stores rest, ∀ trail : List Frame,
      child.2.AllFit trail ↔ child.2.ScopedIn trail ∧ child.2.misbound = []) :
    (List.Forall₂ Temp.BoundBy temps stores ∧
        ∀ child ∈ framed temps stores rest, child.2.AllFit (around ++ [child.1])) ↔
      (temps.length = stores.length ∧ ScopedBindings (visibleIn around) temps stores ∧
        ScopedAll (scopeBehind (visibleIn around) temps) rest) ∧
      (List.zipWith Binding.mk temps stores).flatMap Binding.misbound ++
        (stores.flatMap Expr.misbound ++ rest.flatMap Expr.misbound) = [] := by
  have hparts : (∀ child ∈ framed temps stores rest, child.2.AllFit (around ++ [child.1])) ↔
      (∀ child ∈ framed temps stores rest, child.2.ScopedIn (around ++ [child.1])) ∧
        ∀ child ∈ framed temps stores rest, child.2.misbound = [] := by
    rw [← forall₂_and]
    exact forall₂_congr fun child hchild => hchildren child hchild _
  rw [hparts, ← and_assoc, framed_scopedIn_iff, forall_mem_framed_misbound]
  simp only [List.append_eq_nil_iff]
  tauto

end Frames

/-- Everything in an expression fits if the expression is scoped and binds no temporary amiss. The
left side speaks of every part in its frames, the right side is what the check computes. -/
theorem Expr.allFit_iff_scopedIn (expr : Expr) : ∀ around : List Frame,
    expr.AllFit around ↔ expr.ScopedIn around ∧ expr.misbound = [] := by
  -- the expressions directly inside stand in one more frame than the expression itself
  induction expr using Expr.inductionOnOperands with
  | plain expr hplain ih =>
    intro around
    rw [Expr.allFit_iff, and_iff_right (Expr.fits_of_isPlain hplain),
      Expr.children_of_isPlain hplain, Expr.scopedIn_of_isPlain hplain,
      Expr.scoped_iff_of_isPlain hplain, scopedAll_iff, Expr.misbound_of_isPlain hplain,
      List.flatMap_eq_nil_iff, ← forall₂_and, List.forall_mem_map]
    -- each operand stands in one more frame, which hides nothing
    apply forall₂_congr
    intro operand hoperand
    rw [ih operand hoperand, Expr.scopedIn_operand_iff]
  | temp info id =>
    intro around
    have hfits : (Expr.temp info id).Fits around ↔ id ∈ visibleIn around := mem_visibleIn.symm
    rw [Expr.allFit_iff, hfits]
    simp [Expr.children, Expr.operands, Expr.ScopedIn, Expr.Scoped]
  | store info id value ih =>
    intro around
    have hmisbound : (Expr.store info id value).misbound = value.misbound := by simp
    rw [Expr.allFit_iff, Expr.children, List.forall_mem_singleton, ih,
      Expr.scopedIn_operand_iff, hmisbound]
    exact and_assoc.symm
  | sequence info temps stores result ihstores ihresult =>
    intro around
    have hmisbound : (Expr.sequence info temps stores result).misbound =
        (List.zipWith Binding.mk temps stores).flatMap Binding.misbound ++
          (stores.flatMap Expr.misbound ++ [result].flatMap Expr.misbound) := by
      simp
    have hframed := @framed_allFit_iff around temps stores [result] <| forall_mem_framed.mpr
      ⟨fun _ store hstore => ihstores store (List.mem_of_getElem? hstore),
        List.forall_mem_singleton.mpr ihresult⟩
    rw [Expr.allFit_iff, Expr.children, Expr.Fits, and_assoc, hframed, hmisbound, ← and_assoc]
    apply and_congr_left'
    simp only [Expr.ScopedIn, Expr.Scoped, ScopedAll, and_true]
    exact and_assoc.symm

private theorem Lowered.wellScoped_value_iff {expr : Expr} :
    (Lowered.value expr).WellScoped ↔ expr.AllFit [] ∧ expr.declared.Nodup := by
  constructor
  · rintro ⟨hfits, -, hnodup⟩
    exact ⟨fun trail inner hinner => hfits trail inner (.value hinner), hnodup⟩
  · rintro ⟨hfits, hnodup⟩
    refine ⟨?_, trivial, hnodup⟩
    rintro trail inner ⟨hinner⟩
    exact hfits trail inner hinner

/-- A target keeps the rules if its bindings and its place do, each in its frame. -/
private theorem Lowered.wellScoped_target_iff {target : Target} :
    (Lowered.target target).WellScoped ↔
      (List.Forall₂ Temp.BoundBy target.temps target.stores ∧
        ∀ child ∈ framed target.temps target.stores target.place.operands,
          child.2.AllFit ([] ++ [child.1])) ∧ target.declared.Nodup := by
  constructor
  · rintro ⟨hfits, hbinds, hnodup⟩
    refine ⟨⟨hbinds, ?_⟩, hnodup⟩
    intro child hchild trail inner hinner
    exact hfits (child.1 :: trail) inner (.target hchild hinner)
  · rintro ⟨⟨hbinds, hfits⟩, hnodup⟩
    refine ⟨?_, hbinds, hnodup⟩
    intro trail inner hcontains
    cases hcontains with
    | @target _ expr _ frame trail hchild hinner =>
      exact hfits (frame, expr) hchild trail inner hinner

/-- The check accepts exactly the code that keeps the rules of scoping. The check walks over the
code with a scope that it changes on the way; the rules speak of every expression and of the
frames around it. -/
theorem Lowered.faults_eq_nil_iff_wellScoped :
    (∀ expr : Expr, expr.faults = [] ↔ (Lowered.value expr).WellScoped) ∧
      ∀ target : Target, (Lowered.target target).faults = [] ↔
        (Lowered.target target).WellScoped := by
  refine ⟨fun expr => ?_, fun target => ?_⟩
  · have htop : ¬ EndsInStore [] := by simp [EndsInStore]
    rw [← Lowered.faults_value, Lowered.faults_eq_nil_iff, Lowered.wellScoped_value_iff,
      Expr.allFit_iff_scopedIn, Expr.scopedIn_iff htop]
    simp only [Lowered.Scoped, Lowered.declared, Lowered.misbound, visibleIn, List.flatMap_nil]
    tauto
  -- stores and operands of a target stand in frames of their own
  · rw [Lowered.faults_eq_nil_iff, Lowered.wellScoped_target_iff,
      framed_allFit_iff fun child _ => child.2.allFit_iff_scopedIn]
    simp only [Lowered.Scoped, Target.Scoped, Lowered.declared, Lowered.misbound, Target.misbound,
      visibleIn, List.flatMap_nil]
    tauto

end Subscript.Code
