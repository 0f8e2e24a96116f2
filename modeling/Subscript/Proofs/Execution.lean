import Subscript.Proofs.Evaluation
import Subscript.Proofs.Validation

/-!
# Running validated code

A run fails when it reads a temporary that has no value. Temporaries live in one map for the whole
run, or only in the sequence that declares them and are discarded when it ends; a run of the first
kind that succeeds does what evaluation does. Code that the scope check accepts never fails,
whatever the machine does, writes each temporary that it declares exactly once, and does the same
under both disciplines: no temporary is declared twice and every one is read inside its sequence, so
nobody can tell whether the others have been discarded.

## Architecture

- §1 `Cells`, the temporaries that have a value, and what runs do with them
- §2 `Expr.run` and `Target.run`
- §3 `Follows`, runs that do what evaluation says
- §4 `InStep`, runs under both disciplines that stay together
- §5 well-scoped code runs in step
- §6 validated code runs safely
-/

namespace Subscript.Code

universe u

variable {σ ν α β : Type u}

/-! ## §1 Cells -/

/-- How long temporaries keep their values. -/
inductive Discipline where
  /-- in one map, to the end of the run -/
  | flat
  /-- to the end of the sequence that declares them -/
  | block

/-- A world, the values of the temporaries that have one, and the temporaries written so far. -/
structure Cells (σ ν : Type u) where
  /-- the world -/
  world : World σ ν
  /-- the values of temporaries -/
  values : TempId → Option ν
  /-- every write so far, in order -/
  written : List TempId

/-- No temporary has a value, and nothing has happened. -/
def Cells.start (state : σ) : Cells σ ν := ⟨⟨state, []⟩, fun _ => none, []⟩

namespace Cells

/-- Give a temporary a value. -/
def store (cells : Cells σ ν) (id : TempId) (value : ν) : Cells σ ν :=
  { cells with
    values := fun other => if other = id then some value else cells.values other
    written := cells.written ++ [id] }

/-- Take the values of temporaries away. -/
def clear (cells : Cells σ ν) (ids : List TempId) : Cells σ ν :=
  { cells with values := fun id => if ids.contains id then none else cells.values id }

/-- Give temporaries the values back that they had before. -/
def restore (cells before : Cells σ ν) (ids : List TempId) : Cells σ ν :=
  { cells with values := fun id =>
    if ids.contains id then before.values id else cells.values id }

theorem values_clear (cells : Cells σ ν) {ids : List TempId} {id : TempId} (h : id ∉ ids) :
    (cells.clear ids).values id = cells.values id :=
  if_neg (mt List.contains_iff_mem.mp h)

theorem values_restore (cells before : Cells σ ν) {ids : List TempId} {id : TempId}
    (h : id ∉ ids) : (cells.restore before ids).values id = cells.values id :=
  if_neg (mt List.contains_iff_mem.mp h)

end Cells

/-- A run, which may fail. -/
abbrev Run (σ ν α : Type u) := StateT (Cells σ ν) Option α

namespace Run

/-- Do something to the world. -/
def act (step : World σ ν → α × World σ ν) : Run σ ν α := fun cells =>
  some ((step cells.world).1, { cells with world := (step cells.world).2 })

/-- The value of a temporary; there is no run without one. -/
def read (id : TempId) : Run σ ν ν := fun cells =>
  (cells.values id).map fun value => (value, cells)

/-- Give a temporary a value. -/
def write (id : TempId) (value : ν) : Run σ ν PUnit := fun cells =>
  some (.unit, cells.store id value)

/-- Run the inside of a block, in which its own temporaries have no value at first; behind it they
have the values that they had in front of it. -/
def block (ids : List TempId) (inside : Run σ ν α) : Run σ ν α := fun cells =>
  (inside (cells.clear ids)).map fun result => (result.1, result.2.restore cells ids)

end Run

/-- Run the inside of a block under a discipline. -/
def Discipline.around (discipline : Discipline) (ids : List TempId) (inside : Run σ ν α) :
    Run σ ν α :=
  match discipline with
  | .flat => inside
  | .block => Run.block ids inside

/-! ## §2 Runs -/

section Runs

variable (machine : Machine σ ν) (discipline : Discipline)

mutual

/-- Run an expression for its value. -/
def Expr.run : Expr → Run σ ν ν
  | .literal _ value => pure (machine.literal value)
  | .var _ symbol => Run.act fun world => (machine.var symbol world.state, world)
  | .temp _ id => Run.read id
  | .self _ => pure machine.self
  | .field _ object field => do
    let object ← object.run
    Run.act fun world => (machine.field object field world.state, world)
  | .element _ object index => do
    let object ← object.run
    let index ← index.run
    Run.act (machine.perform (.element object index))
  | .call _ receiver method arguments _ => do
    let receiver ← receiver.run
    let arguments ← runAll arguments
    Run.act (machine.perform (.call (some receiver) method arguments))
  | .staticCall _ method arguments _ => do
    let arguments ← runAll arguments
    Run.act (machine.perform (.call none method arguments))
  | .construct _ constructor arguments => do
    let arguments ← runAll arguments
    Run.act (machine.perform (.construct constructor arguments))
  | .binary _ op left right => do
    let left ← left.run
    let right ← right.run
    pure (machine.binary op left right)
  | .array _ elements => do
    let elements ← runAll elements
    pure (machine.array elements)
  | .store _ id value => do
    let value ← value.run
    Run.write id value
    pure machine.nothing
  | .sequence _ temps stores result =>
    discipline.around (temps.map (·.id)) do
      let _ ← runAll stores
      result.run
  | .dynamicMember _ receiver name indexable => do
    let receiver ← receiver.run
    Run.act (machine.perform (.dynamicMember receiver name indexable))
  | .dynamicElement _ receiver arguments names refKinds => do
    let receiver ← receiver.run
    let arguments ← runAll arguments
    Run.act (machine.perform (.dynamicElement receiver arguments names refKinds))
termination_by structural expr => expr

/-- Run expressions from left to right. -/
def runAll : List Expr → Run σ ν (List ν)
  | [] => pure []
  | expr :: exprs => do
    let value ← expr.run
    let values ← runAll exprs
    pure (value :: values)
termination_by structural exprs => exprs

end

/-- Run the stores of a target, then its receiver and its arguments. -/
def Target.run (target : Target) : Run σ ν (List ν) :=
  discipline.around (target.temps.map (·.id)) do
    let _ ← runAll machine discipline target.stores
    runAll machine discipline target.place.operands

end Runs

/-! ## §3 Runs and evaluation -/

/-- Cells say about the world and about temporaries what a memory says, as far as they know. -/
structure Cells.Within (cells : Cells σ ν) (memory : Memory σ ν) : Prop where
  world : cells.world = memory.world
  values : ∀ id value, cells.values id = some value → memory.temps id = value

/-- Whenever a run succeeds, it does what an evaluation does. -/
def Follows (run : Run σ ν α) (eval : Memory σ ν → α × Memory σ ν) : Prop :=
  ∀ cells memory result rest, cells.Within memory → run cells = some (result, rest) →
    (eval memory).1 = result ∧ rest.Within (eval memory).2

section Follows

theorem Follows.pure (value : α) :
    Follows (Pure.pure value : Run σ ν α) fun memory => (value, memory) := by
  intro cells memory result rest hwithin heq
  obtain ⟨rfl, rfl⟩ := Prod.mk.inj (Option.some.inj heq)
  exact ⟨rfl, hwithin⟩

/-- Runs in a row follow evaluations in a row. -/
theorem Follows.bind {first : Run σ ν α} {next : α → Run σ ν β}
    {eval : Memory σ ν → α × Memory σ ν} {eval' : α → Memory σ ν → β × Memory σ ν}
    (h : Follows first eval) (h' : ∀ value, Follows (next value) (eval' value)) :
    Follows (first >>= next) fun memory => eval' (eval memory).1 (eval memory).2 := by
  intro cells memory result rest hwithin heq
  obtain ⟨⟨value, middle⟩, hfirst, hnext⟩ := Option.bind_eq_some_iff.mp heq
  obtain ⟨rfl, hmiddle⟩ := h cells memory value middle hwithin hfirst
  exact h' _ middle _ result rest hmiddle hnext

theorem Follows.act (step : World σ ν → ν × World σ ν) :
    Follows (Run.act step) (Memory.act · step) := by
  intro cells memory result rest hwithin heq
  obtain ⟨rfl, rfl⟩ := Prod.mk.inj (Option.some.inj heq)
  simp only [Memory.act, hwithin.world]
  exact ⟨trivial, rfl, hwithin.values⟩

theorem Follows.read (id : TempId) :
    Follows (Run.read id : Run σ ν ν) fun memory => (memory.temps id, memory) := by
  intro cells memory result rest hwithin heq
  obtain ⟨value, hvalue, hpair⟩ := Option.map_eq_some_iff.mp heq
  obtain ⟨rfl, rfl⟩ := Prod.mk.inj hpair
  exact ⟨hwithin.values id value hvalue, hwithin⟩

/-- A write follows a store; the log of writes is no part of the memory. -/
theorem Follows.write (id : TempId) (value : ν) :
    Follows (Run.write id value : Run σ ν PUnit) fun memory => (.unit, memory.store id value) := by
  intro cells memory result rest hwithin heq
  obtain ⟨rfl, rfl⟩ := Prod.mk.inj (Option.some.inj heq)
  refine ⟨rfl, hwithin.world, ?_⟩
  intro other found hfound
  by_cases hother : other = id
  · subst hother
    rw [Memory.temps_store_self]
    simpa [Cells.store] using hfound
  · rw [Memory.temps_store_of_ne _ _ hother]
    apply hwithin.values other found
    simpa [Cells.store, hother] using hfound

section Flat

variable (machine : Machine σ ν)

mutual

/-- Running an expression with all temporaries in one map is evaluating it. So what is said of
runs below is said of the evaluation that the other results speak of. -/
theorem Expr.run_follows (expr : Expr) :
    Follows (expr.run machine .flat) (expr.eval machine) := by
  cases expr with
  | literal info value => exact .pure _
  | var info symbol => exact .act _
  | temp info id => exact .read id
  | self info => exact .pure _
  | field info object field => exact object.run_follows.bind fun _ => .act _
  | element info object index =>
    exact object.run_follows.bind fun _ => index.run_follows.bind fun _ => .act _
  | call info receiver method arguments byRef =>
    exact receiver.run_follows.bind fun _ => (runAll_follows arguments).bind fun _ => .act _
  | staticCall info method arguments byRef =>
    exact (runAll_follows arguments).bind fun _ => .act _
  | construct info constructor arguments =>
    exact (runAll_follows arguments).bind fun _ => .act _
  | binary info op left right =>
    exact left.run_follows.bind fun _ => right.run_follows.bind fun _ => .pure _
  | array info elements => exact (runAll_follows elements).bind fun _ => .pure _
  | store info id value =>
    exact value.run_follows.bind fun _ => (Follows.write id _).bind fun _ => .pure _
  | sequence info temps stores result =>
    exact (runAll_follows stores).bind fun _ => result.run_follows
  | dynamicMember info receiver name indexable =>
    exact receiver.run_follows.bind fun _ => .act _
  | dynamicElement info receiver arguments names refKinds =>
    exact receiver.run_follows.bind fun _ => (runAll_follows arguments).bind fun _ => .act _
termination_by structural expr

/-- Running expressions one by one is evaluating them one by one. -/
theorem runAll_follows (exprs : List Expr) :
    Follows (runAll machine .flat exprs) (evalAll machine exprs) := by
  cases exprs with
  | nil => exact .pure _
  | cons expr exprs =>
    exact expr.run_follows.bind fun _ => (runAll_follows exprs).bind fun _ => .pure _
termination_by structural exprs

end

end Flat

end Follows

/-! ## §4 Runs in step -/

/-- Two states of cells with the same world and the same writes, in which the temporaries of a
scope have the same values. -/
structure Cells.Agree (scope : List TempId) (flat block : Cells σ ν) : Prop where
  world : flat.world = block.world
  written : flat.written = block.written
  values : ∀ id ∈ scope, ∃ value, flat.values id = some value ∧ block.values id = some value

/-- From cells that agree on a scope, runs under both disciplines succeed with the same result and
leave cells that agree on another scope. They write the given temporaries. -/
def InStep (scope writes scope' : List TempId) (run : Discipline → Run σ ν α) : Prop :=
  ∀ flat block : Cells σ ν, flat.Agree scope block → ∃ result flat' block',
    run .flat flat = some (result, flat') ∧ run .block block = some (result, block') ∧
      flat'.Agree scope' block' ∧ ∃ new, flat'.written = flat.written ++ new ∧ new.Perm writes

section InStep

variable {scope scope' scope'' writes writes' : List TempId}

theorem InStep.pure (value : α) :
    InStep scope [] scope fun _ => (Pure.pure value : Run σ ν α) := by
  intro flat block hagree
  exact ⟨value, flat, block, rfl, rfl, hagree, [], (List.append_nil _).symm, .refl _⟩

/-- Runs in step may follow each other: the second finds the scope that the first one leaves. -/
theorem InStep.bind {first : Discipline → Run σ ν α} {next : Discipline → α → Run σ ν β}
    (h : InStep scope writes scope' first)
    (h' : ∀ value, InStep scope' writes' scope'' fun discipline => next discipline value) :
    InStep scope (writes ++ writes') scope'' fun discipline =>
      first discipline >>= next discipline := by
  intro flat block hagree
  -- both disciplines come to the same value, so they go on with the same run
  obtain ⟨value, flat₁, block₁, hflat, hblock, hagree₁, new, hnew, hperm⟩ := h flat block hagree
  obtain ⟨result, flat₂, block₂, hflat', hblock', hagree₂, new', hnew', hperm'⟩ :=
    h' value flat₁ block₁ hagree₁
  refine ⟨result, flat₂, block₂, ?_, ?_, hagree₂, new ++ new', ?_, hperm.append hperm'⟩
  · show (first .flat flat >>= fun result => next .flat result.1 result.2) = _
    rw [hflat]
    exact hflat'
  · show (first .block block >>= fun result => next .block result.1 result.2) = _
    rw [hblock]
    exact hblock'
  · rw [hnew', hnew, List.append_assoc]

theorem InStep.congr {run : Discipline → Run σ ν α} (h : InStep scope writes scope' run)
    (hperm : writes.Perm writes') : InStep scope writes' scope' run := by
  intro flat block hagree
  obtain ⟨result, flat', block', hflat, hblock, hagree', new, hnew, hperm'⟩ := h flat block hagree
  exact ⟨result, flat', block', hflat, hblock, hagree', new, hnew, hperm'.trans hperm⟩

/-- What is done to the world does not depend on the temporaries. -/
theorem InStep.act (step : World σ ν → α × World σ ν) :
    InStep scope [] scope fun _ => Run.act step := by
  intro flat block hagree
  refine ⟨(step flat.world).1, { flat with world := (step flat.world).2 },
    { block with world := (step flat.world).2 }, rfl, ?_, ?_, [], ?_, .refl _⟩
  · show some (_, _) = _
    rw [hagree.world]
  · exact ⟨rfl, hagree.written, hagree.values⟩
  · exact (List.append_nil _).symm

/-- A temporary of the scope has been written under both disciplines, with the same value. -/
theorem InStep.read {id : TempId} (hid : id ∈ scope) :
    InStep (σ := σ) (ν := ν) scope [] scope fun _ => Run.read id := by
  intro flat block hagree
  obtain ⟨value, hflat, hblock⟩ := hagree.values id hid
  refine ⟨value, flat, block, ?_, ?_, hagree, [], (List.append_nil _).symm, .refl _⟩
  · show (flat.values id).map _ = _
    rw [hflat]
    rfl
  · show (block.values id).map _ = _
    rw [hblock]
    rfl

/-- A temporary that is written joins the scope. -/
theorem InStep.write (id : TempId) (value : ν) :
    InStep (σ := σ) scope [id] (id :: scope) fun _ => Run.write id value := by
  intro flat block hagree
  refine ⟨.unit, flat.store id value, block.store id value, rfl, rfl, ⟨hagree.world, ?_, ?_⟩,
    [id], rfl, .refl _⟩
  · show flat.written ++ [id] = block.written ++ [id]
    rw [hagree.written]
  · intro other hother
    by_cases heq : other = id
    · exact ⟨value, if_pos heq, if_pos heq⟩
    · obtain ⟨kept, hflat, hblock⟩ := hagree.values other (List.mem_of_ne_of_mem heq hother)
      exact ⟨kept, (if_neg heq).trans hflat, (if_neg heq).trans hblock⟩

/-- Temporaries of a block that are not in the scope around it can be discarded behind it. The
flat run keeps them, the block run gives them back as they were, and nothing in scope sees the
difference. -/
theorem InStep.around {ids : List TempId} {inside : Discipline → Run σ ν α}
    (h : InStep scope writes scope' inside) (hsub : scope ⊆ scope')
    (hdisjoint : ids.Disjoint scope) :
    InStep scope writes scope fun discipline => discipline.around ids (inside discipline) := by
  intro flat block hagree
  have hout : ∀ id ∈ scope, id ∉ ids := fun id hid hids => hdisjoint hids hid
  -- inside, the temporaries of the scope still have their values
  have hentered : flat.Agree scope (block.clear ids) := by
    refine ⟨hagree.world, hagree.written, ?_⟩
    intro id hid
    rw [block.values_clear (hout id hid)]
    exact hagree.values id hid
  obtain ⟨result, flat', block', hflat, hblock, hagree', hnew⟩ := h flat _ hentered
  refine ⟨result, flat', block'.restore block ids, hflat, ?_,
    ⟨hagree'.world, hagree'.written, ?_⟩, hnew⟩
  · show (inside .block (block.clear ids)).map _ = _
    rw [hblock]
    rfl
  -- behind the block, too: what is discarded is none of the scope
  · intro id hid
    rw [block'.values_restore block (hout id hid)]
    exact hagree'.values id (hsub hid)

end InStep

/-! ## §5 Well-scoped code -/

/-- Temporaries that are declared once each, none of them in a scope. -/
structure Apart (scope declared : List TempId) : Prop where
  nodup : declared.Nodup
  disjoint : declared.Disjoint scope

section Apart

variable {scope declared declared' : List TempId}

theorem Apart.left (h : Apart scope (declared ++ declared')) : Apart scope declared :=
  ⟨(List.nodup_append'.mp h.nodup).1, (List.disjoint_append_left.mp h.disjoint).1⟩

theorem Apart.right (h : Apart scope (declared ++ declared')) : Apart scope declared' :=
  ⟨(List.nodup_append'.mp h.nodup).2.1, (List.disjoint_append_left.mp h.disjoint).2⟩

/-- Temporaries that join the scope stay apart from the others. -/
theorem Apart.behind {temps : List Temp} (h : Apart scope (temps.map (·.id) ++ declared)) :
    Apart (scopeBehind scope temps) declared := by
  refine ⟨h.right.nodup, ?_⟩
  intro id hid hscope
  rcases mem_scopeBehind.mp hscope with hown | hscope
  · exact (List.nodup_append'.mp h.nodup).2.2 hown hid
  · exact h.right.disjoint hid hscope

private theorem Apart.cons {id : TempId} (h : Apart scope (id :: declared)) :
    Apart (id :: scope) declared := by
  refine ⟨(List.nodup_cons.mp h.nodup).2, ?_⟩
  intro other hother hscope
  rcases List.mem_cons.mp hscope with rfl | hscope
  · exact (List.nodup_cons.mp h.nodup).1 hother
  · exact h.disjoint (List.mem_cons_of_mem _ hother) hscope

private theorem Apart.perm (h : Apart scope declared) (hperm : declared.Perm declared') :
    Apart scope declared' :=
  ⟨hperm.nodup_iff.mp h.nodup, fun _ hid => h.disjoint (hperm.mem_iff.mpr hid)⟩

end Apart

/-- The temporaries of a list of bindings in the order in which they are written: the initializer
runs first, then its temporary is written, and the others follow. -/
private theorem declared_store_cons_perm (info : Info) (temp : Temp) (value : Expr)
    (temps : List Temp) (stores : List Expr) :
    ((temp :: temps).map (·.id) ++
        (Expr.store info temp.id value :: stores).flatMap Expr.declared).Perm
      (value.declared ++ (temp.id :: (temps.map (·.id) ++ stores.flatMap Expr.declared))) := by
  simp only [List.map_cons, List.flatMap_cons, Expr.gather_store, Expr.ownDeclared,
    List.nil_append, List.cons_append]
  apply List.Perm.trans _ List.perm_middle.symm
  apply List.Perm.cons
  exact List.perm_append_comm_assoc _ _ _

section Scoped

variable (machine : Machine σ ν)

mutual

/-- Well-scoped code runs in step and writes what it declares. The declared temporaries have to be
apart from the scope and from each other, or a block would discard a value that is still read. -/
theorem Expr.run_inStep (scope : List TempId) (expr : Expr) (hscoped : expr.Scoped scope)
    (hapart : Apart scope expr.declared) :
    InStep scope expr.declared scope fun discipline => expr.run machine discipline := by
  cases expr with
  | literal info value => exact (InStep.pure _).congr (by simp)
  | var info symbol => exact (InStep.act _).congr (by simp)
  -- a temporary of the scope has a value
  | temp info id => exact (InStep.read hscoped).congr (by simp)
  | self info => exact (InStep.pure _).congr (by simp)
  | field info object field =>
    have hobject := object.run_inStep scope hscoped (by simpa using hapart)
    exact (hobject.bind fun _ => .act _).congr (by simp)
  | element info object index =>
    simp only [Expr.gather_element, Expr.ownDeclared, List.nil_append] at hapart ⊢
    have hobject := object.run_inStep scope hscoped.1 hapart.left
    have hindex := index.run_inStep scope hscoped.2 hapart.right
    exact (hobject.bind fun _ => hindex.bind fun _ => .act _).congr (by simp)
  | call info receiver method arguments byRef =>
    simp only [Expr.gather_call, Expr.ownDeclared, List.nil_append] at hapart ⊢
    have hreceiver := receiver.run_inStep scope hscoped.1 hapart.left
    have harguments := runAll_inStep scope arguments hscoped.2 hapart.right
    exact (hreceiver.bind fun _ => harguments.bind fun _ => .act _).congr (by simp)
  | staticCall info method arguments byRef =>
    have harguments := runAll_inStep scope arguments hscoped (by simpa using hapart)
    exact (harguments.bind fun _ => .act _).congr (by simp)
  | construct info constructor arguments =>
    have harguments := runAll_inStep scope arguments hscoped (by simpa using hapart)
    exact (harguments.bind fun _ => .act _).congr (by simp)
  | binary info op left right =>
    simp only [Expr.gather_binary, Expr.ownDeclared, List.nil_append] at hapart ⊢
    have hleft := left.run_inStep scope hscoped.1 hapart.left
    have hright := right.run_inStep scope hscoped.2 hapart.right
    exact (hleft.bind fun _ => hright.bind fun _ => .pure _).congr (by simp)
  | array info elements =>
    have helements := runAll_inStep scope elements hscoped (by simpa using hapart)
    exact (helements.bind fun _ => .pure _).congr (by simp)
  -- stores stand in sequences only
  | store info temp value => exact hscoped.elim
  | sequence info temps stores result =>
    obtain ⟨⟨-, hlength⟩, hstores, hresult⟩ := hscoped
    simp only [Expr.gather_sequence, Expr.ownDeclared] at hapart ⊢
    have hbehind := result.run_inStep _ hresult hapart.behind.right
    rw [← List.append_assoc] at hapart ⊢
    have hbindings := runAll_stores_inStep scope temps stores hlength hstores hapart.left
    -- the scope around the sequence is part of the one behind its stores
    exact (hbindings.bind fun _ => hbehind).around
      (fun id hid => mem_scopeBehind.mpr (.inr hid)) hapart.left.left.disjoint
  | dynamicMember info receiver name indexable =>
    have hreceiver := receiver.run_inStep scope hscoped (by simpa using hapart)
    exact (hreceiver.bind fun _ => .act _).congr (by simp)
  | dynamicElement info receiver arguments names refKinds =>
    simp only [Expr.gather_dynamicElement, Expr.ownDeclared, List.nil_append] at hapart ⊢
    have hreceiver := receiver.run_inStep scope hscoped.1 hapart.left
    have harguments := runAll_inStep scope arguments hscoped.2 hapart.right
    exact (hreceiver.bind fun _ => harguments.bind fun _ => .act _).congr (by simp)
termination_by structural expr

/-- Expressions in a row run in step, each in the same scope. -/
theorem runAll_inStep (scope : List TempId) (exprs : List Expr)
    (hscoped : ScopedAll scope exprs) (hapart : Apart scope (exprs.flatMap Expr.declared)) :
    InStep scope (exprs.flatMap Expr.declared) scope fun discipline =>
      runAll machine discipline exprs := by
  cases exprs with
  | nil => exact .pure _
  | cons expr exprs =>
    rw [List.flatMap_cons] at hapart ⊢
    have hhead := expr.run_inStep scope hscoped.1 hapart.left
    have htail := runAll_inStep scope exprs hscoped.2 hapart.right
    exact (hhead.bind fun _ => htail.bind fun _ => .pure _).congr (by simp)
termination_by structural exprs

/-- Stores run in step, and their temporaries join the scope. Each store finds the temporaries in
front of its own. -/
theorem runAll_stores_inStep (scope : List TempId) (temps : List Temp) (stores : List Expr)
    (hlength : temps.length = stores.length) (hscoped : ScopedBindings scope temps stores)
    (hapart : Apart scope (temps.map (·.id) ++ stores.flatMap Expr.declared)) :
    InStep scope (temps.map (·.id) ++ stores.flatMap Expr.declared) (scopeBehind scope temps)
      fun discipline => runAll machine discipline stores := by
  cases stores with
  | nil =>
    obtain rfl := List.length_eq_zero_iff.mp hlength
    exact .pure _
  | cons store stores =>
    cases temps with
    | nil => cases hlength
    | cons temp temps =>
      cases store with
      | store info id value =>
        obtain ⟨⟨hvalue, rfl⟩, hrest⟩ := hscoped
        -- the temporary of the store is written behind what its value declares
        have hperm := declared_store_cons_perm info temp value temps stores
        have hapart' := hapart.perm hperm
        have hhead := value.run_inStep scope hvalue hapart'.left
        have htail := runAll_stores_inStep (temp.id :: scope) temps stores
          (Nat.succ.inj hlength) hrest hapart'.right.cons
        rw [scopeBehind_cons]
        have hstore : InStep scope (value.declared ++ ([temp.id] ++ [])) (temp.id :: scope)
            fun discipline => (Expr.store info temp.id value).run machine discipline :=
          hhead.bind fun stored => (InStep.write temp.id stored).bind fun _ => .pure _
        exact (hstore.bind fun _ => htail.bind fun _ => .pure _).congr
          (.trans (by simp) hperm.symm)
      | _ => exact hscoped.elim
termination_by structural stores

end

end Scoped

/-! ## §6 Validated code -/

/-- From any state and without values of temporaries, a run succeeds, writes each of some
temporaries exactly once, and gives the same value, state and log whether temporaries live in one
map or in their sequences. -/
def RunsSafely (run : Discipline → Run σ ν α) (declared : List TempId) : Prop :=
  ∀ state : σ, ∃ result flat block, run .flat (.start state) = some (result, flat) ∧
    run .block (.start state) = some (result, block) ∧ flat.world = block.world ∧
      flat.written.Nodup ∧ flat.written.Perm declared

/-- Code that runs in step from nothing runs safely, and under either discipline alike. -/
theorem InStep.runsSafely {declared scope : List TempId} {run : Discipline → Run σ ν α}
    (h : InStep [] declared scope run) (hnodup : declared.Nodup) : RunsSafely run declared := by
  intro state
  have hstart : (Cells.start (ν := ν) state).Agree [] (.start state) := ⟨rfl, rfl, by simp⟩
  obtain ⟨result, flat, block, hflat, hblock, hagree, new, hnew, hperm⟩ := h _ _ hstart
  have hwritten : flat.written = new := hnew
  rw [← hwritten] at hperm
  exact ⟨result, flat, block, hflat, hblock, hagree.world, hperm.nodup_iff.mpr hnodup, hperm⟩

/-- Code that the scope check accepts runs safely on every machine: with temporaries that stay and
with temporaries that are discarded behind their sequence, it reads no temporary before its store,
and both runs end alike. -/
theorem Lowered.runsSafely_of_faults_eq_nil (machine : Machine σ ν) :
    (∀ expr : Expr, expr.faults = [] → RunsSafely (expr.run machine ·) expr.declared) ∧
      ∀ target : Target, (Lowered.target target).faults = [] →
        RunsSafely (target.run machine ·) target.declared := by
  refine ⟨fun expr hfaults => ?_, fun target hfaults => ?_⟩
  · obtain ⟨hscoped, hnodup, -⟩ := (Lowered.value expr).faults_eq_nil_iff.mp hfaults
    have hapart : Apart [] expr.declared := ⟨hnodup, List.disjoint_nil_right _⟩
    exact (expr.run_inStep machine [] hscoped hapart).runsSafely hnodup
  · obtain ⟨⟨hlength, hstores, hplace⟩, hnodup, -⟩ :=
      (Lowered.target target).faults_eq_nil_iff.mp hfaults
    have hnodup : target.declared.Nodup := hnodup
    rw [Target.declared] at hnodup ⊢
    have hapart : Apart [] _ := ⟨hnodup, List.disjoint_nil_right _⟩
    have hbehind := runAll_inStep machine _ _ hplace hapart.behind.right
    rw [← List.append_assoc] at hapart hnodup ⊢
    have hbindings := runAll_stores_inStep machine [] _ _ hlength hstores hapart.left
    -- the place runs behind the stores, inside the block of the target
    have hrun := (hbindings.bind fun _ => hbehind).around (List.nil_subset _)
      hapart.left.left.disjoint
    exact hrun.runsSafely hnodup

/-- A sequence inside the store of another one, and a target with a store of its own. The check
accepts both, and both run safely where numbers stand for objects. -/
theorem Lowered.runsSafely_of_nested_sequence :
    let info : Info := ⟨.invalid, .unknown⟩
    let temp (id : TempId) : Temp := ⟨id, "_tmp", .invalid, .copy⟩
    let store (id : TempId) (value : Expr) : Expr := .store info id value
    let call : Expr := .staticCall info ⟨2⟩ [] false
    let sum : Expr := .sequence info [temp ⟨1⟩] [store ⟨1⟩ call]
      (.binary info .add (.temp info ⟨1⟩) (.temp info ⟨1⟩))
    let nested : Expr := .sequence info [temp ⟨0⟩] [store ⟨0⟩ sum]
      (.element info (.self info) (.temp info ⟨0⟩))
    let target : Target :=
      ⟨[temp ⟨0⟩], [store ⟨0⟩ sum], .element (.self info) (.temp info ⟨0⟩), info⟩
    (nested.faults = [] ∧ RunsSafely (nested.run .numbering ·) [⟨0⟩, ⟨1⟩]) ∧
      (Lowered.target target).faults = [] ∧
        RunsSafely (target.run .numbering ·) [⟨0⟩, ⟨1⟩] := by
  intro info temp store call sum nested target
  have hnested : nested.faults = [] := rfl
  have htarget : (Lowered.target target).faults = [] := rfl
  exact ⟨⟨hnested, (Lowered.runsSafely_of_faults_eq_nil .numbering).1 nested hnested⟩,
    htarget, (Lowered.runsSafely_of_faults_eq_nil .numbering).2 target htarget⟩

end Subscript.Code
