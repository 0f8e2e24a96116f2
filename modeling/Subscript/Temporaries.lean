import Subscript.Code

/-!
# Temporaries and sequences

Whatever has to be evaluated exactly once is bound to a fresh temporary: binding a value gives the
temporary together with the store that initializes it. Bindings are collected in evaluation order
and wrapped around a result in the end; with no bindings the result stays as it is.

## Architecture

- §1 `Allocator`, the source of fresh temporaries of one method body
- §2 `Binding`, a temporary with its store
- §3 sequences built from bindings, and from lists that still have to be paired
-/

namespace Subscript.Code

/-! ## §1 Fresh temporaries -/

/-- Hands out temporaries numbered from zero on, named by a stem and their number. -/
structure Allocator where
  /-- the temporary handed out next -/
  next : TempId := .first
  /-- what the names of temporaries start with -/
  stem : String := "_tmp"
  deriving DecidableEq, Repr

namespace Allocator

/-- A temporary that was not handed out before. -/
def fresh (allocator : Allocator) (type : TypeId) (holding : Holding) : Temp × Allocator :=
  (⟨allocator.next, allocator.stem ++ toString allocator.next.raw.toNat, type, holding⟩,
    { allocator with next := allocator.next.next })

/-- Name later temporaries by another stem; the numbers go on. -/
def withStem (allocator : Allocator) (stem : String) : Allocator := { allocator with stem := stem }

/-- Number of temporaries handed out so far. -/
def allocated (allocator : Allocator) : UInt32 := allocator.next.raw

end Allocator

/-! ## §2 Bindings -/

/-- A temporary and the store that initializes it. -/
structure Binding where
  /-- the temporary -/
  temp : Temp
  /-- its store -/
  store : Expr

/-- Bind a value to a fresh temporary of the value's type; the store stands at the value's place. -/
def Allocator.bind (allocator : Allocator) (value : Expr) (holding : Holding) :
    Binding × Allocator :=
  let (temp, rest) := allocator.fresh value.type holding
  (⟨temp, .store ⟨temp.type, value.location⟩ temp.id value⟩, rest)

/-- The expression that reads a bound temporary at the place where it was stored. -/
def Binding.reference (binding : Binding) : Expr :=
  binding.temp.reference binding.store.location

theorem Allocator.store_bind (allocator : Allocator) (value : Expr) (holding : Holding) :
    (allocator.bind value holding).1.store = .store value.info allocator.next value := rfl

theorem Allocator.reference_bind (allocator : Allocator) (value : Expr) (holding : Holding) :
    (allocator.bind value holding).1.reference = .temp value.info allocator.next := rfl

/-! ## §3 Sequences -/

/-- The expression that runs the stores of some bindings and then gives the result. The sequence
has the type and the place of its result; without bindings there is no sequence. -/
def sequence (bindings : List Binding) (result : Expr) : Expr :=
  match bindings with
  | [] => result
  | _ :: _ => .sequence result.info (bindings.map (·.temp)) (bindings.map (·.store)) result

@[simp] theorem sequence_nil (result : Expr) : sequence [] result = result := rfl

@[simp] theorem info_sequence (bindings : List Binding) (result : Expr) :
    (sequence bindings result).info = result.info := by
  cases bindings <;> rfl

/-- A list of temporaries and a list of stores that cannot be paired. -/
inductive PairingFault where
  /-- while making a sequence of them -/
  | sequencing
  /-- while adding them to other bindings -/
  | appending
  deriving DecidableEq, Repr

/-- The sentence that reports lists which cannot be paired; adding says nothing. -/
def PairingFault.message : PairingFault → String
  | .sequencing => "every sequenced temporary needs exactly one store"
  | .appending => ""

/-- Pair temporaries with the stores at their positions, if there are as many of both. -/
def pair? (temps : List Temp) (stores : List Expr) : Option (List Binding) :=
  if temps.length = stores.length then some (List.zipWith Binding.mk temps stores) else none

/-- The sequence of temporaries and stores that are given apart. -/
def sequenceOf (temps : List Temp) (stores : List Expr) (result : Expr) :
    Except PairingFault Expr :=
  match pair? temps stores with
  | some bindings => .ok (sequence bindings result)
  | none => .error .sequencing

/-- Add bindings whose temporaries and stores are given apart. -/
def appendOf (bindings : List Binding) (temps : List Temp) (stores : List Expr) :
    Except PairingFault (List Binding) :=
  match pair? temps stores with
  | some more => .ok (bindings ++ more)
  | none => .error .appending

theorem pair?_map (bindings : List Binding) :
    pair? (bindings.map (·.temp)) (bindings.map (·.store)) = some bindings := by
  induction bindings with
  | nil => rfl
  | cons binding bindings ih => simp_all [pair?]

/-- Taking bindings apart and sequencing the two lists is the same as sequencing the bindings. -/
theorem sequenceOf_map (bindings : List Binding) (result : Expr) :
    sequenceOf (bindings.map (·.temp)) (bindings.map (·.store)) result =
      .ok (sequence bindings result) := by
  simp [sequenceOf, pair?_map]

end Subscript.Code
