import Mathlib.Tactic.TypeStar
import Subscript.Proofs.Parts

/-!
# What code does

Running code changes a world and fills temporaries. A machine says what constants, variables and
fields are worth and what a call, a construction or an element read does; each of these leaves an
action with its operands in the log of the world, so two runs that end in the same world did the
same things in the same order. Operands are evaluated from left to right, and a temporary keeps the
value that its initializer had when its store ran.

## Architecture

- §1 `Machine`, `World` and `Memory`
- §2 `Expr.eval` and `evalAll`, and what plain expressions do
- §3 evaluation depends on the temporaries that code mentions and changes those that it stores
- §4 expressions free of side effects, which leave the memory alone
-/

namespace Subscript.Code

/-! ## §1 Machines -/

/-- Something that running code does to the world, with the values it is applied to. -/
inductive Action (ν : Type*) where
  /-- a method runs, with or without a receiver -/
  | call (receiver? : Option ν) (method : SymbolId) (arguments : List ν)
  /-- an object is made -/
  | construct (constructor : SymbolId) (arguments : List ν)
  /-- an element of a built-in array is read -/
  | element (array index : ν)
  /-- a member is looked up by name -/
  | dynamicMember (receiver : ν) (name : String) (indexable : Bool)
  /-- an element is looked up at run time -/
  | dynamicElement (receiver : ν) (arguments : List ν) (names : List (Option String))
      (refKinds : List RefKind)

/-- An interpretation over states `σ` and values `ν`: reading a variable or a field depends on the
state alone, the current object is always the same, and an action may do anything to the state. -/
structure Machine (σ ν : Type*) where
  /-- the value of a constant -/
  literal : Literal → ν
  /-- the object whose method runs -/
  self : ν
  /-- what a store evaluates to -/
  nothing : ν
  /-- the value of a variable in a state -/
  var : SymbolId → σ → ν
  /-- the value of a field of an object in a state -/
  field : ν → SymbolId → σ → ν
  /-- the result of an arithmetic operation -/
  binary : BinaryOp → ν → ν → ν
  /-- an array of given elements -/
  array : List ν → ν
  /-- the result of an action and the state it leaves -/
  act : Action ν → σ → ν × σ

/-- Every action gives the number of actions before it, which is also the state. -/
def Machine.numbering : Machine Nat Nat where
  literal _ := 0
  self := 0
  nothing := 0
  var _ count := count
  field _ _ count := count
  binary _ left _ := left
  array values := values.length
  act _ count := (count, count + 1)

/-- A state and everything that was done to it. -/
@[ext] structure World (σ ν : Type*) where
  /-- the state -/
  state : σ
  /-- the actions so far, in order -/
  log : List (Action ν)

/-- A world and the values of the temporaries. -/
@[ext] structure Memory (σ ν : Type*) where
  /-- the world -/
  world : World σ ν
  /-- the value of each temporary -/
  temps : TempId → ν

variable {σ ν : Type*}

/-- Do something to a world, and log it. -/
def Machine.perform (machine : Machine σ ν) (action : Action ν) (world : World σ ν) :
    ν × World σ ν :=
  ((machine.act action world.state).1,
    ⟨(machine.act action world.state).2, world.log ++ [action]⟩)

namespace Memory

/-- Do something to the world of a memory. -/
def perform (machine : Machine σ ν) (action : Action ν) (memory : Memory σ ν) :
    ν × Memory σ ν :=
  ((machine.perform action memory.world).1,
    { memory with world := (machine.perform action memory.world).2 })

/-- Do anything to the world of a memory. -/
def act (memory : Memory σ ν) (step : World σ ν → ν × World σ ν) : ν × Memory σ ν :=
  ((step memory.world).1, { memory with world := (step memory.world).2 })

/-- Set a temporary. -/
def store (memory : Memory σ ν) (id : TempId) (value : ν) : Memory σ ν :=
  { memory with temps := fun other => if other = id then value else memory.temps other }

@[simp] theorem world_perform (machine : Machine σ ν) (action : Action ν)
    (memory : Memory σ ν) :
    (memory.perform machine action).2.world = (machine.perform action memory.world).2 := rfl

@[simp] theorem fst_perform (machine : Machine σ ν) (action : Action ν) (memory : Memory σ ν) :
    (memory.perform machine action).1 = (machine.perform action memory.world).1 := rfl

@[simp] theorem world_store (memory : Memory σ ν) (id : TempId) (value : ν) :
    (memory.store id value).world = memory.world := rfl

@[simp] theorem temps_store_self (memory : Memory σ ν) (id : TempId) (value : ν) :
    (memory.store id value).temps id = value := by
  simp [store]

/-- Setting a temporary leaves the others alone. -/
theorem temps_store_of_ne (memory : Memory σ ν) {id other : TempId} (value : ν)
    (h : other ≠ id) : (memory.store id value).temps other = memory.temps other := by
  simp [store, h]

/-- Two memories have the same world and the same values of the temporaries with a property. -/
structure AgreeOn (P : TempId → Prop) (memory memory' : Memory σ ν) : Prop where
  world : memory.world = memory'.world
  temps : ∀ id, P id → memory.temps id = memory'.temps id

variable {P : TempId → Prop} {memory memory' : Memory σ ν}

/-- A memory agrees with itself about everything. -/
theorem AgreeOn.refl (P : TempId → Prop) (memory : Memory σ ν) : memory.AgreeOn P memory :=
  ⟨rfl, fun _ _ => rfl⟩

/-- An action sees the world only, so it does the same in memories that agree, and leaves them
agreeing. -/
private theorem AgreeOn.act (h : memory.AgreeOn P memory') (step : World σ ν → ν × World σ ν) :
    (memory.act step).1 = (memory'.act step).1 ∧
      (memory.act step).2.AgreeOn P (memory'.act step).2 := by
  simp only [Memory.act, h.world]
  exact ⟨trivial, rfl, h.temps⟩

/-- Setting the same temporary to the same value keeps two memories in agreement. -/
private theorem AgreeOn.store (h : memory.AgreeOn P memory') (id : TempId) (value : ν) :
    (memory.store id value).AgreeOn P (memory'.store id value) := by
  refine ⟨h.world, fun other hother => ?_⟩
  by_cases hid : other = id
  · simp [hid]
  · rw [temps_store_of_ne _ _ hid, temps_store_of_ne _ _ hid, h.temps other hother]

/-- Setting a temporary without the property goes unnoticed. -/
theorem AgreeOn.store_left (h : memory.AgreeOn P memory') {id : TempId} (hid : ¬ P id)
    (value : ν) : (memory.store id value).AgreeOn P memory' := by
  refine ⟨h.world, fun other hother => ?_⟩
  have hne : other ≠ id := fun heq => hid (heq ▸ hother)
  rw [temps_store_of_ne _ _ hne, h.temps other hother]

end Memory

/-! ## §2 Evaluation -/

variable (machine : Machine σ ν)

mutual

/-- The value of an expression, and the memory it leaves. -/
def Expr.eval : Expr → Memory σ ν → ν × Memory σ ν
  | .literal _ value, memory => (machine.literal value, memory)
  | .var _ symbol, memory => (machine.var symbol memory.world.state, memory)
  | .temp _ id, memory => (memory.temps id, memory)
  | .self _, memory => (machine.self, memory)
  | .field _ object field, memory =>
    let object := object.eval memory
    (machine.field object.1 field object.2.world.state, object.2)
  | .element _ object index, memory =>
    let object := object.eval memory
    let index := index.eval object.2
    index.2.perform machine (.element object.1 index.1)
  | .call _ receiver method arguments _, memory =>
    let receiver := receiver.eval memory
    let arguments := evalAll arguments receiver.2
    arguments.2.perform machine (.call (some receiver.1) method arguments.1)
  | .staticCall _ method arguments _, memory =>
    let arguments := evalAll arguments memory
    arguments.2.perform machine (.call none method arguments.1)
  | .construct _ constructor arguments, memory =>
    let arguments := evalAll arguments memory
    arguments.2.perform machine (.construct constructor arguments.1)
  | .binary _ op left right, memory =>
    let left := left.eval memory
    let right := right.eval left.2
    (machine.binary op left.1 right.1, right.2)
  | .array _ elements, memory =>
    let elements := evalAll elements memory
    (machine.array elements.1, elements.2)
  | .store _ id value, memory =>
    let value := value.eval memory
    (machine.nothing, value.2.store id value.1)
  -- the values of the stores are dropped, what they store is not
  | .sequence _ _ stores result, memory => result.eval (evalAll stores memory).2
  | .dynamicMember _ receiver name indexable, memory =>
    let receiver := receiver.eval memory
    receiver.2.perform machine (.dynamicMember receiver.1 name indexable)
  | .dynamicElement _ receiver arguments names refKinds, memory =>
    let receiver := receiver.eval memory
    let arguments := evalAll arguments receiver.2
    arguments.2.perform machine (.dynamicElement receiver.1 arguments.1 names refKinds)
termination_by structural expr => expr

/-- The values of expressions that are evaluated from left to right. -/
def evalAll : List Expr → Memory σ ν → List ν × Memory σ ν
  | [], memory => ([], memory)
  | expr :: exprs, memory =>
    let value := expr.eval memory
    let values := evalAll exprs value.2
    (value.1 :: values.1, values.2)
termination_by structural exprs => exprs

end

@[simp] theorem evalAll_nil (memory : Memory σ ν) : evalAll machine [] memory = ([], memory) := rfl

@[simp] theorem evalAll_cons (expr : Expr) (exprs : List Expr) (memory : Memory σ ν) :
    evalAll machine (expr :: exprs) memory =
      ((expr.eval machine memory).1 :: (evalAll machine exprs (expr.eval machine memory).2).1,
        (evalAll machine exprs (expr.eval machine memory).2).2) := rfl

/-- Expressions are evaluated from left to right, so the front of a list is done before the rest.
-/
theorem evalAll_append (exprs exprs' : List Expr) (memory : Memory σ ν) :
    evalAll machine (exprs ++ exprs') memory =
      ((evalAll machine exprs memory).1 ++
          (evalAll machine exprs' (evalAll machine exprs memory).2).1,
        (evalAll machine exprs' (evalAll machine exprs memory).2).2) := by
  -- the rest starts from the memory that the head leaves
  induction exprs generalizing memory with
  | nil => rfl
  | cons expr exprs ih => simp [ih]

/-- Each expression gives one value. -/
@[simp] theorem length_evalAll (exprs : List Expr) (memory : Memory σ ν) :
    (evalAll machine exprs memory).1.length = exprs.length := by
  induction exprs generalizing memory with
  | nil => rfl
  | cons expr exprs ih => simp [ih]

/-- A sequence made of bindings runs their stores and then its result, also without bindings,
where it is the result itself. -/
theorem eval_sequence (bindings : List Binding) (result : Expr) (memory : Memory σ ν) :
    (sequence bindings result).eval machine memory =
      result.eval machine (evalAll machine (bindings.map (·.store)) memory).2 := by
  cases bindings with
  | nil => rfl
  | cons binding bindings => rfl

/-- What a plain expression makes of the values of its operands. -/
def Expr.apply : Expr → List ν → World σ ν → ν × World σ ν
  | .literal _ value, _, world => (machine.literal value, world)
  | .var _ symbol, _, world => (machine.var symbol world.state, world)
  | .self _, _, world => (machine.self, world)
  | .field _ _ member, [object], world => (machine.field object member world.state, world)
  | .element _ _ _, [object, index], world => machine.perform (.element object index) world
  | .call _ _ method _ _, receiver :: arguments, world =>
    machine.perform (.call (some receiver) method arguments) world
  | .staticCall _ method _ _, arguments, world =>
    machine.perform (.call none method arguments) world
  | .construct _ constructor _, arguments, world =>
    machine.perform (.construct constructor arguments) world
  | .binary _ op _ _, [left, right], world => (machine.binary op left right, world)
  | .array _ _, elements, world => (machine.array elements, world)
  | .dynamicMember _ _ name indexable, [receiver], world =>
    machine.perform (.dynamicMember receiver name indexable) world
  | .dynamicElement _ _ _ names refKinds, receiver :: arguments, world =>
    machine.perform (.dynamicElement receiver arguments names refKinds) world
  -- there are no other plain expressions, and no other numbers of operands
  | _, _, world => (machine.nothing, world)

/-- A plain expression evaluates its operands and acts on the world; it leaves the temporaries as
the operands did. -/
private theorem Expr.eval_of_isPlain {expr : Expr} (h : expr.isPlain = true) (memory : Memory σ ν) :
    expr.eval machine memory = (evalAll machine expr.operands memory).2.act
      (expr.apply machine (evalAll machine expr.operands memory).1) := by
  cases expr with
  | temp | store | sequence => cases h
  | _ => rfl

/-! ## §3 The temporaries that matter -/

section Kept

variable {id : TempId}

/-- Expressions that each leave a temporary alone do so one after the other. -/
private theorem temps_evalAll_of {exprs : List Expr}
    (heach : ∀ expr ∈ exprs, ∀ memory : Memory σ ν, id ∉ expr.stored →
      (expr.eval machine memory).2.temps id = memory.temps id)
    (memory : Memory σ ν) (h : id ∉ exprs.flatMap Expr.stored) :
    (evalAll machine exprs memory).2.temps id = memory.temps id := by
  induction exprs generalizing memory with
  | nil => rfl
  | cons expr exprs ih =>
    rw [List.forall_mem_cons] at heach
    rw [List.flatMap_cons, List.mem_append, not_or] at h
    rw [evalAll_cons, ih heach.2 _ h.2, heach.1 memory h.1]

/-- Code changes no temporary but those that it stores. This is the frame of every statement about
memory below: what is stored elsewhere keeps its value. -/
theorem Expr.temps_eval (expr : Expr) (memory : Memory σ ν) (h : id ∉ expr.stored) :
    (expr.eval machine memory).2.temps id = memory.temps id := by
  induction expr using Expr.inductionOnOperands generalizing memory with
  | plain expr hplain ih =>
    rw [Expr.stored, Expr.gather_of_isPlain _ hplain, List.mem_append, not_or] at h
    rw [Expr.eval_of_isPlain machine hplain]
    -- what is done at the end acts on the world only
    exact temps_evalAll_of machine ih memory h.2
  | temp info temp => rfl
  | store info temp value ih =>
    simp only [Expr.gather_store, Expr.ownStored, List.cons_append, List.nil_append,
      List.mem_cons, not_or] at h
    simp only [Expr.eval]
    -- `id` is neither the temporary that is set here nor one that is set for the value
    rw [Memory.temps_store_of_ne _ _ h.1, ih memory h.2]
  | sequence info temps stores result ihstores ihresult =>
    simp only [Expr.gather_sequence, Expr.ownStored, List.nil_append, List.mem_append,
      not_or] at h
    simp only [Expr.eval]
    rw [ihresult _ h.2, temps_evalAll_of machine ihstores memory h.1]

/-- Expressions in a row change no temporary but those that some of them store. -/
theorem temps_evalAll (exprs : List Expr) (memory : Memory σ ν)
    (h : id ∉ exprs.flatMap Expr.stored) :
    (evalAll machine exprs memory).2.temps id = memory.temps id :=
  temps_evalAll_of machine (fun expr _ => expr.temps_eval machine) memory h

end Kept

section Agree

variable {P : TempId → Prop} {memory memory' : Memory σ ν}

/-- Expressions that each do the same in memories that agree do so one after the other. -/
private theorem evalAll_agree_of {exprs : List Expr}
    (heach : ∀ expr ∈ exprs, ∀ {memory memory' : Memory σ ν}, (∀ id ∈ expr.mentioned, P id) →
      memory.AgreeOn P memory' → (expr.eval machine memory).1 = (expr.eval machine memory').1 ∧
        (expr.eval machine memory).2.AgreeOn P (expr.eval machine memory').2)
    (h : ∀ id ∈ exprs.flatMap Expr.mentioned, P id) (hagree : memory.AgreeOn P memory') :
    (evalAll machine exprs memory).1 = (evalAll machine exprs memory').1 ∧
      (evalAll machine exprs memory).2.AgreeOn P (evalAll machine exprs memory').2 := by
  induction exprs generalizing memory memory' with
  | nil => exact ⟨rfl, hagree⟩
  | cons expr exprs ih =>
    rw [List.forall_mem_cons] at heach
    rw [List.flatMap_cons, List.forall_mem_append] at h
    obtain ⟨hvalue, hmiddle⟩ := heach.1 h.1 hagree
    obtain ⟨hvalues, hleft⟩ := ih heach.2 h.2 hmiddle
    simp only [evalAll_cons, hvalue, hvalues]
    exact ⟨trivial, hleft⟩

/-- Code whose temporaries all have a property does the same in memories that agree on them.
Values that are left over in other temporaries cannot be observed. -/
theorem Expr.eval_agree (expr : Expr) (h : ∀ id ∈ expr.mentioned, P id)
    (hagree : memory.AgreeOn P memory') :
    (expr.eval machine memory).1 = (expr.eval machine memory').1 ∧
      (expr.eval machine memory).2.AgreeOn P (expr.eval machine memory').2 := by
  induction expr using Expr.inductionOnOperands generalizing memory memory' with
  | plain expr hplain ih =>
    rw [Expr.mentioned, Expr.gather_of_isPlain _ hplain, List.forall_mem_append] at h
    obtain ⟨hvalues, hleft⟩ := evalAll_agree_of machine ih h.2 hagree
    rw [Expr.eval_of_isPlain machine hplain, Expr.eval_of_isPlain machine hplain, hvalues]
    exact hleft.act _
  | temp info temp => exact ⟨hagree.temps temp (h temp (by simp)), hagree⟩
  | store info temp value ih =>
    obtain ⟨hvalue, hleft⟩ := ih (fun id hid => h id (by simp [hid])) hagree
    simp only [Expr.eval, hvalue]
    -- both memories set the temporary, to the same value
    exact ⟨trivial, hleft.store temp _⟩
  | sequence info temps stores result ihstores ihresult =>
    -- only the memories that the stores leave count, not their values
    obtain ⟨-, hmiddle⟩ := evalAll_agree_of machine ihstores
      (fun id hid => h id (by simp [-List.mem_flatMap, hid])) hagree
    exact ihresult (fun id hid => h id (by simp [hid])) hmiddle

/-- The same for expressions in a row, all of whose temporaries have the property. -/
theorem evalAll_agree (exprs : List Expr) (h : ∀ id ∈ exprs.flatMap Expr.mentioned, P id)
    (hagree : memory.AgreeOn P memory') :
    (evalAll machine exprs memory).1 = (evalAll machine exprs memory').1 ∧
      (evalAll machine exprs memory).2.AgreeOn P (evalAll machine exprs memory').2 :=
  evalAll_agree_of machine (fun expr _ => expr.eval_agree machine) h hagree

end Agree

/-! ## §4 Expressions free of side effects -/

variable {machine}

/-- Evaluating an expression free of side effects leaves the memory as it is. -/
theorem Expr.eval_of_isSideEffectFree {expr : Expr} (h : expr.isSideEffectFree = true)
    (memory : Memory σ ν) : (expr.eval machine memory).2 = memory := by
  cases expr with
  | literal info value => rfl
  | var info symbol => rfl
  | temp info temp => rfl
  | self info => rfl
  | field info object field =>
    have hobject : object.isSideEffectFree = true := by simpa [isSideEffectFree] using h
    exact eval_of_isSideEffectFree hobject memory
  -- everything else acts on the world, stores a temporary or has operands that may
  | _ => simp [isSideEffectFree] at h

/-- Each of several expressions free of side effects has the value that it has by itself, so it
does not matter which of them is evaluated first. -/
theorem evalAll_of_isSideEffectFree {exprs : List Expr}
    (h : ∀ expr ∈ exprs, expr.isSideEffectFree = true) (memory : Memory σ ν) :
    evalAll machine exprs memory =
      (exprs.map fun expr => (expr.eval machine memory).1, memory) := by
  induction exprs with
  | nil => rfl
  | cons expr exprs ih =>
    -- the head leaves the memory as it is, so the rest starts where the whole does
    rw [evalAll_cons, Expr.eval_of_isSideEffectFree (h expr (by simp)),
      ih fun other hother => h other (by simp [hother])]
    rfl

end Subscript.Code
