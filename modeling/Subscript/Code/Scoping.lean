import Subscript.Code

/-!
# Scoping of temporaries

In well-scoped code every temporary is declared once, initialized by the store at its own position
and read only after that store, inside the sequence that declares it. The check walks code in
evaluation order and lists every fault it meets.

## Architecture

- §1 `Fault`, what can be wrong, and its sentence
- §2 `Audit`, what the check has met so far
- §3 `Expr.check` and the check of a list of bindings
- §4 `Expr.faults` and `Lowered.faults`
-/

namespace Subscript.Code

/-! ## §1 Faults -/

/-- A kind of fault. -/
inductive FaultKind where
  /-- a temporary is read outside its scope or before its store -/
  | useBeforeDefine
  /-- a temporary is declared again -/
  | multipleDefinitions
  /-- a store initializes no temporary of the sequence around it -/
  | storeToUndeclared
  /-- a temporary is declared without the store that initializes it -/
  | unstoredTemp
  /-- a temporary that holds storage is bound to something that is none -/
  | invalidRefBinding
  /-- a sequence declares nothing and stores nothing -/
  | emptySequence
  deriving DecidableEq, Repr

/-- A fault, with the temporary it is about where there is one. -/
structure Fault where
  /-- what is wrong -/
  kind : FaultKind
  /-- the temporary concerned -/
  temp? : Option TempId
  deriving DecidableEq, Repr

/-- A fault's complaint about some subject. -/
def Fault.about (subject : String) : FaultKind → String
  | .useBeforeDefine => subject ++ " used before its store"
  | .multipleDefinitions => subject ++ " declared more than once"
  | .storeToUndeclared => subject ++ " stored outside its declaring sequence"
  | .unstoredTemp => subject ++ " declared without a matching store"
  | .invalidRefBinding => subject ++ " bound by reference to a non-location"
  | .emptySequence => "empty sequence was not elided"

/-- The sentence that reports a fault. -/
def Fault.message (fault : Fault) : String :=
  Fault.about ((fault.temp?.map Id.text).getD "temporary") fault.kind

/-- The report of several faults. -/
def Fault.report (faults : List Fault) : String := "; ".intercalate (faults.map Fault.message)

/-! ## §2 The state of a check -/

/-- What a check has met so far. -/
structure Audit where
  /-- every temporary declared up to here, wherever it is -/
  declared : List TempId := []
  /-- the faults in the order in which they were met -/
  faults : List Fault := []

namespace Audit

/-- Note a fault. -/
def note (kind : FaultKind) (temp? : Option TempId) : StateM Audit Unit :=
  modify fun audit => { audit with faults := audit.faults ++ [⟨kind, temp?⟩] }

/-- Note a declaration; a second one of the same temporary is a fault. -/
def declare (id : TempId) : StateM Audit Unit := do
  if id ∈ (← get).declared then
    note .multipleDefinitions (some id)
  else
    modify fun audit => { audit with declared := id :: audit.declared }

/-- Note the temporaries of a list as declared without a store. -/
def noteUnstored : List Temp → StateM Audit Unit
  | [] => pure ()
  | temp :: temps => do
    note .unstoredTemp (some temp.id)
    noteUnstored temps

end Audit

/-! ## §3 The check -/

mutual

/-- Check an expression in which the temporaries of `scope` may be read. -/
def Expr.check (scope : List TempId) : Expr → StateM Audit Unit
  | .literal _ _ | .var _ _ | .self _ => pure ()
  | .temp _ temp => if temp ∈ scope then pure () else Audit.note .useBeforeDefine (some temp)
  | .field _ object _ => object.check scope
  | .element _ object index => do
    object.check scope
    index.check scope
  | .call _ receiver _ arguments _ => do
    receiver.check scope
    checkAll scope arguments
  | .staticCall _ _ arguments _ => checkAll scope arguments
  | .construct _ _ arguments => checkAll scope arguments
  | .binary _ _ left right => do
    left.check scope
    right.check scope
  | .array _ elements => checkAll scope elements
  | .store _ temp value => do
    value.check scope
    Audit.note .storeToUndeclared (some temp)
  | .sequence _ temps stores result => do
    if temps.isEmpty && stores.isEmpty then Audit.note .emptySequence none
    Audit.noteUnstored (temps.drop stores.length)
    -- the temporaries of the sequence end with its result
    let inner ← checkBindings scope temps stores
    result.check inner
  | .dynamicMember _ receiver _ _ => receiver.check scope
  | .dynamicElement _ receiver arguments _ _ => do
    receiver.check scope
    checkAll scope arguments
termination_by structural expr => expr

/-- Check expressions from left to right. -/
def checkAll (scope : List TempId) : List Expr → StateM Audit Unit
  | [] => pure ()
  | expr :: exprs => do
    expr.check scope
    checkAll scope exprs
termination_by structural exprs => exprs

/-- Check stores against the temporaries at their positions. An initializer sees the temporaries
before its own; the answer is the scope behind the last store. -/
def checkBindings (scope : List TempId) :
    List Temp → List Expr → StateM Audit (List TempId)
  | _, [] => pure scope
  -- more stores than temporaries
  | [], .store _ stored value :: stores => do
    value.check scope
    Audit.note .storeToUndeclared (some stored)
    checkBindings scope [] stores
  | [], store :: stores => do
    store.check scope
    Audit.note .unstoredTemp none
    checkBindings scope [] stores
  -- a store at the position of a temporary, which it should initialize
  | temp :: temps, .store _ stored value :: stores => do
    -- the initializer does not see the temporary itself
    value.check scope
    if stored = temp.id then
      if temp.holding = .storage && !value.isAddressable then
        Audit.note .invalidRefBinding (some temp.id)
    else
      Audit.note .storeToUndeclared (some stored)
      Audit.note .unstoredTemp (some temp.id)
    Audit.declare temp.id
    checkBindings (temp.id :: scope) temps stores
  -- something else at the position of a temporary
  | temp :: temps, store :: stores => do
    store.check scope
    Audit.note .unstoredTemp (some temp.id)
    Audit.declare temp.id
    checkBindings (temp.id :: scope) temps stores
termination_by structural _ stores => stores

end

/-- Check a place whose temporaries in `scope` are initialized. -/
def Place.check (scope : List TempId) : Place → StateM Audit Unit
  | .indexer receiver _ _ _ arguments _ => do
    receiver.check scope
    checkAll scope arguments
  | .dynamic receiver arguments _ _ => do
    receiver.check scope
    checkAll scope arguments
  | .element object index => do
    object.check scope
    index.check scope

/-- Check a target: its bindings are the outermost ones, and the place sees all of them. -/
def Target.check (target : Target) : StateM Audit Unit := do
  Audit.noteUnstored (target.temps.drop target.stores.length)
  let scope ← checkBindings [] target.temps target.stores
  target.place.check scope

/-- Check a lowered access. -/
def Lowered.check : Lowered → StateM Audit Unit
  | .value expr => expr.check []
  | .target assignable => assignable.check

/-! ## §4 Lists of faults -/

/-- The faults of an expression that stands by itself, in evaluation order. -/
def Expr.faults (expr : Expr) : List Fault := ((expr.check []).run {}).2.faults

/-- The faults of a lowered access, in evaluation order. -/
def Lowered.faults (lowered : Lowered) : List Fault := (lowered.check.run {}).2.faults

@[simp] theorem Lowered.faults_value (expr : Expr) : (Lowered.value expr).faults = expr.faults :=
  rfl

end Subscript.Code
