import Subscript.Proofs.SelfContained

/-!
# Types of temporaries

Types are written down wherever a temporary is declared, stored or read, and again on every
sequence around a result. Lowering writes down the same type each time: whoever reads or stores a
temporary does so at the type of its declaration, and a sequence stands for its result.

## Architecture

- §1 `Typing`, and code that keeps to one
- §2 bindings, sequences and lowered accesses
- §3 receivers and arguments that are bound
- §4 elements and patterns
- §5 the induction over expressions and accesses
- §6 the types in lowered accesses
-/

namespace Subscript

namespace Code

/-! ## §1 Typings -/

/-- Which types temporaries have. -/
abbrev Typing := TempId → TypeId → Prop

/-- Every temporary of a list has the type that it is declared with. -/
def Typing.Admits (typing : Typing) (temps : List Temp) : Prop :=
  ∀ temp ∈ temps, typing temp.id temp.type

variable {typing : Typing}

@[simp] theorem Typing.admits_nil : typing.Admits [] := List.forall_mem_nil _

@[simp] theorem Typing.admits_cons {temp : Temp} {temps : List Temp} :
    typing.Admits (temp :: temps) ↔ typing temp.id temp.type ∧ typing.Admits temps :=
  List.forall_mem_cons

@[simp] theorem Typing.admits_append {temps temps' : List Temp} :
    typing.Admits (temps ++ temps') ↔ typing.Admits temps ∧ typing.Admits temps' :=
  List.forall_mem_append

theorem Typing.admits_flatMap {exprs : List Expr} :
    typing.Admits (exprs.flatMap Expr.temps) ↔ ∀ expr ∈ exprs, typing.Admits expr.temps :=
  List.forall_mem_flatMap

/-- What an expression itself says about types: a temporary is read at a type that it has, it is
stored at such a type together with a value of such a type, and a sequence has the type and the
place of its result. -/
def Expr.KeepsTo (typing : Typing) : Expr → Prop
  | .temp info id => typing id info.type
  | .store info id value => typing id info.type ∧ typing id value.type
  | .sequence info _ _ result => info = result.info
  | _ => True

/-- An expression of which every part keeps to a typing. -/
def Expr.Typed (typing : Typing) (expr : Expr) : Prop := ∀ part ∈ expr.parts, part.KeepsTo typing

/-- Several such expressions. -/
def TypedAll (typing : Typing) (exprs : List Expr) : Prop :=
  ∀ part ∈ partsAll exprs, part.KeepsTo typing

/-- A list of expressions is typed if each of them is: a typing is not changed on the way. -/
theorem typedAll_iff {exprs : List Expr} :
    TypedAll typing exprs ↔ ∀ expr ∈ exprs, expr.Typed typing := by
  rw [TypedAll, partsAll_eq_flatMap, List.forall_mem_flatMap]
  rfl

@[simp] theorem typedAll_nil : TypedAll typing [] := List.forall_mem_nil _

@[simp] theorem typedAll_cons {expr : Expr} {exprs : List Expr} :
    TypedAll typing (expr :: exprs) ↔ expr.Typed typing ∧ TypedAll typing exprs :=
  List.forall_mem_append

@[simp] theorem typedAll_append {exprs exprs' : List Expr} :
    TypedAll typing (exprs ++ exprs') ↔ TypedAll typing exprs ∧ TypedAll typing exprs' := by
  rw [typedAll_iff, List.forall_mem_append, ← typedAll_iff, ← typedAll_iff]

theorem typedAll_singleton {expr : Expr} : TypedAll typing [expr] ↔ expr.Typed typing := by
  simp

private theorem typedAll_pair {left right : Expr} :
    TypedAll typing [left, right] ↔ left.Typed typing ∧ right.Typed typing := by
  simp

/-- Plain expressions say nothing about temporaries themselves, so they are typed if their
operands are. -/
theorem typed_iff_of_isPlain {expr : Expr} (h : expr.isPlain = true) :
    expr.Typed typing ↔ TypedAll typing expr.operands := by
  have hown : expr.KeepsTo typing := by
    cases expr with
    | temp | store | sequence => cases h
    | _ => trivial
  rw [Expr.Typed, Expr.parts_of_isPlain h, List.forall_mem_cons, and_iff_right hown]
  rfl

/-! ## §2 Bindings, sequences and lowered accesses -/

/-- A value is bound at its own type. -/
theorem Allocator.typed_store_bind {allocator : Allocator} {value : Expr} {holding : Holding}
    (htype : typing allocator.next value.type) (hvalue : value.Typed typing) :
    (allocator.bind value holding).1.store.Typed typing := by
  rw [Allocator.store_bind, Expr.Typed, Expr.parts, List.forall_mem_cons]
  exact ⟨⟨htype, htype⟩, hvalue⟩

/-- A binding is read at the type of its temporary. -/
theorem Binding.typed_reference {binding : Binding}
    (htype : typing binding.temp.id binding.temp.type) : binding.reference.Typed typing := by
  rw [Binding.reference, Temp.reference, Expr.Typed, Expr.parts, List.forall_mem_singleton]
  exact htype

/-- A sequence of bindings has the type and the place of its result by construction, so only its
parts have to be typed. -/
theorem typed_sequence {bindings : List Binding} {result : Expr}
    (hstores : TypedAll typing (bindings.map (·.store))) (hresult : result.Typed typing) :
    (sequence bindings result).Typed typing := by
  cases bindings with
  | nil => exact hresult
  | cons binding bindings =>
    rw [sequence, Expr.Typed, Expr.parts, List.forall_mem_cons, List.forall_mem_append]
    exact ⟨rfl, hstores, hresult⟩

namespace Lowered

/-- Every expression in a lowered access: of a target, those of its stores and of its place. -/
def parts : Lowered → List Expr
  | .value expr => expr.parts
  | .target assignable => partsAll assignable.stores ++ partsAll assignable.place.operands

/-- The type and the place of the value or of the element. -/
def info : Lowered → Info
  | .value expr => expr.info
  | .target assignable => assignable.info

/-- A lowered access of which every part keeps to a typing. -/
def Typed (typing : Typing) (lowered : Lowered) : Prop :=
  ∀ part ∈ lowered.parts, part.KeepsTo typing

/-- A target is typed if its stores and the operands of its place are. -/
theorem typed_target_iff {target : Target} :
    (Lowered.target target).Typed typing ↔
      TypedAll typing target.stores ∧ TypedAll typing target.place.operands :=
  List.forall_mem_append

/-- The temporaries of the bindings in a lowered access. -/
abbrev bound (lowered : Lowered) : List Temp :=
  lowered.gather Expr.ownTemps fun binding => [binding.temp]

/-- A lowered access declares a temporary, and at a type only. -/
def Declares (lowered : Lowered) : Typing := fun id type =>
  id ∈ lowered.declared ∧ ∀ temp ∈ lowered.temps, temp.id = id → temp.type = type

/-- What is declared only once is declared at one type. So the declarations themselves are a
typing, and this is the typing that the final statement speaks of. -/
theorem admits_temps {lowered : Lowered} (hnodup : lowered.declared.Nodup) :
    Typing.Admits lowered.Declares lowered.temps := by
  rw [lowered.declared_eq_map_temps] at hnodup
  intro temp htemp
  refine ⟨?_, ?_⟩
  · rw [lowered.declared_eq_map_temps]
    exact List.mem_map_of_mem htemp
  · intro other hother hid
    rw [List.inj_on_of_nodup_map hnodup hother htemp hid]

end Lowered

end Code

open Code (Allocator Binding Expr Holding Lowered TypedAll Typing typedAll_append typedAll_cons
  typedAll_iff typedAll_nil typedAll_pair typedAll_singleton
  typed_iff_of_isPlain)
open Source (Mode)

variable {typing : Typing} {allocator rest : Allocator}

namespace Lowering

/-- A typing admits what an access binds exactly if it admits the new bindings and what the
operands bind. -/
private theorem Comprises.admits_iff {result : Lowered} {operands : List Expr}
    {bindings : List Binding} (h : Comprises result operands bindings) :
    typing.Admits result.bound ↔
      typing.Admits (bindings.map (·.temp)) ∧
        ∀ operand ∈ operands, typing.Admits operand.temps := by
  have hperm := h.gather Code.ofBindings_temps
  rw [← List.map_eq_flatMap] at hperm
  rw [Typing.Admits, Lowered.bound]
  simp only [hperm.mem_iff]
  rw [List.forall_mem_append, List.forall_mem_flatMap]
  rfl

/-- Running bindings ahead of an access leaves it typed. -/
private theorem typed_runAhead {bindings : List Binding} {lowered : Lowered}
    (hstores : TypedAll typing (bindings.map (·.store))) (hlowered : lowered.Typed typing) :
    (runAhead bindings lowered).Typed typing := by
  cases lowered with
  | value expr => exact Code.typed_sequence hstores hlowered
  | target assignable =>
    obtain ⟨hown, hplace⟩ := Lowered.typed_target_iff.mp hlowered
    exact Lowered.typed_target_iff.mpr ⟨Code.typedAll_append.mpr ⟨hstores, hown⟩, hplace⟩

/-- A plain expression is typed if its operands are. -/
private theorem typed_of_isPlain {expr : Expr} (h : expr.isPlain = true)
    (hadmits : typing.Admits expr.temps)
    (hoperands : typing.Admits (expr.operands.flatMap Expr.temps) →
      TypedAll typing expr.operands) : expr.Typed typing := by
  rw [Expr.temps, Code.ofBindings_temps.gather_of_isPlain h] at hadmits
  exact (typed_iff_of_isPlain h).mpr (hoperands hadmits)

/-! ## §3 Bound receivers and arguments -/

section Bound

variable {types : TypeTable} {shape : CallShape} {params : List Param}
  {arguments reads placed : List Expr} {receiver read argument : Expr} {bindings : List Binding}
  {site : Location} {placement : List Nat}

private theorem Settled.typed
    (h : Settled types shape params arguments receiver allocator read bindings rest)
    (hadmits : typing.Admits (bindings.map (·.temp))) (hreceiver : receiver.Typed typing) :
    TypedAll typing (bindings.map (·.store)) ∧ read.Typed typing := by
  cases h with
  | stays => exact ⟨typedAll_nil, hreceiver⟩
  | bound =>
    rw [List.map_singleton, Typing.admits_cons] at hadmits
    refine ⟨?_, Binding.typed_reference hadmits.1⟩
    exact typedAll_singleton.mpr (Allocator.typed_store_bind hadmits.1 hreceiver)

/-- Arguments are bound at their types, and read at them: a stable argument is read as it is, any
other one from a temporary whose type is that of the argument. -/
private theorem Spilled.typed {position : Nat}
    (h : Spilled shape position allocator arguments reads bindings rest)
    (hadmits : typing.Admits (bindings.map (·.temp))) (harguments : TypedAll typing arguments) :
    TypedAll typing (bindings.map (·.store)) ∧ TypedAll typing reads := by
  induction h with
  | nil => exact ⟨typedAll_nil, typedAll_nil⟩
  | stable _ _ ih =>
    rw [typedAll_cons] at harguments ⊢
    obtain ⟨hstores, hreads⟩ := ih hadmits harguments.2
    exact ⟨hstores, harguments.1, hreads⟩
  | bound _ _ ih =>
    rw [typedAll_cons] at harguments
    -- the first temporary belongs to this argument, the others to those behind it
    rw [List.map_cons, Typing.admits_cons] at hadmits
    obtain ⟨hstores, hreads⟩ := ih hadmits.2 harguments.2
    rw [List.map_cons, typedAll_cons, typedAll_cons]
    exact ⟨⟨Allocator.typed_store_bind hadmits.1 harguments.1, hstores⟩,
      Binding.typed_reference hadmits.1, hreads⟩

private theorem ReadFrom.typed
    (h : ReadFrom shape placement allocator arguments reads bindings rest)
    (hadmits : typing.Admits (bindings.map (·.temp))) (harguments : TypedAll typing arguments) :
    TypedAll typing (bindings.map (·.store)) ∧ TypedAll typing reads := by
  cases h with
  | bound _ hspilled => exact hspilled.typed hadmits harguments
  | direct => exact ⟨typedAll_nil, harguments⟩

private theorem Argument.typed {param : Param} {collects : Bool}
    (h : Argument types site param collects placed argument) (hplaced : TypedAll typing placed) :
    argument.Typed typing := by
  cases h with
  | collected => exact (typed_iff_of_isPlain rfl).mpr hplaced
  | written => exact (typedAll_cons.mp hplaced).1
  | empty => exact (typed_iff_of_isPlain rfl).mpr typedAll_nil
  | default => exact (typed_iff_of_isPlain rfl).mpr typedAll_nil

private theorem Arguments.typed {collecting? : Option Nat} {position : Nat}
    (h : Arguments types site collecting? placement reads position params arguments)
    (hreads : TypedAll typing reads) : TypedAll typing arguments := by
  induction h with
  | nil => exact typedAll_nil
  | cons hargument _ ih =>
    refine typedAll_cons.mpr ⟨hargument.typed (typedAll_iff.mpr fun read hread => ?_), ih⟩
    exact typedAll_iff.mp hreads read (mem_of_mem_placedAt hread)

end Bound

/-! ## §4 Elements and patterns -/

section Elements

variable {env : Env} {receiver : Expr} {property : Property} {arguments : List Expr}
  {shape : CallShape} {info : Info} {mode : Mode}

/-- The call of a getter is typed if its receiver and its arguments are. The typing has to admit
the temporaries of the sequence, in which receiver and arguments are bound. -/
theorem GetterCall.typed {result : Expr}
    (h : GetterCall env receiver property arguments shape info allocator result rest)
    (hadmits : typing.Admits result.temps) (hreceiver : receiver.Typed typing)
    (harguments : TypedAll typing arguments) : result.Typed typing := by
  cases h with
  | @mk _ _ read ahead _ _ _ _ normalized _ _ hsettled hnormal =>
    -- the temporaries of the sequence are those of the receiver, then those of the arguments
    rw [Expr.temps, Code.gather_sequence_of_bindings Code.ofBindings_temps.toSumsBindings,
      ← List.map_eq_flatMap, List.map_append, Typing.admits_append, Typing.admits_append]
      at hadmits
    obtain ⟨hahead, hread⟩ := hsettled.typed hadmits.1.1 hreceiver
    obtain ⟨hstores, hreads⟩ := hnormal.readFrom.typed hadmits.1.2 harguments
    apply Code.typed_sequence
    · rw [List.map_append]
      exact typedAll_append.mpr ⟨hahead, hstores⟩
    · exact (typed_iff_of_isPlain rfl).mpr
        (typedAll_cons.mpr ⟨hread, hnormal.arguments.typed hreads⟩)

theorem IndexerElement.typed {indexer : SymbolId} {result : Lowered}
    (h : IndexerElement env receiver indexer arguments shape info mode allocator result rest)
    (hadmits : typing.Admits result.bound) (hreceiver : receiver.Typed typing)
    (harguments : TypedAll typing arguments) : result.Typed typing := by
  cases h with
  | place =>
    exact Lowered.typed_target_iff.mpr ⟨typedAll_nil, typedAll_cons.mpr ⟨hreceiver, harguments⟩⟩
  | value _ _ hcall => exact hcall.typed hadmits hreceiver harguments

theorem ElementAt.typed {object offset : Expr} {intIndexer? : Option SymbolId}
    {result : Lowered} (h : ElementAt env object offset intIndexer? info mode allocator result rest)
    (hadmits : typing.Admits result.bound) (hobject : object.Typed typing)
    (hoffset : offset.Typed typing) : result.Typed typing := by
  cases h with
  | indexer _ helement =>
    exact helement.typed hadmits hobject (typedAll_singleton.mpr hoffset)
  | array =>
    have hoperands : TypedAll typing [object, offset] := typedAll_pair.mpr ⟨hobject, hoffset⟩
    cases mode with
    | read => exact (typed_iff_of_isPlain rfl).mpr hoperands
    | write => exact Lowered.typed_target_iff.mpr ⟨typedAll_nil, hoperands⟩

private theorem typed_dynamicLowered {names : List (Option String)} {refKinds : List RefKind}
    (hreceiver : receiver.Typed typing) (harguments : TypedAll typing arguments) :
    (dynamicLowered receiver arguments names refKinds info mode).Typed typing := by
  have hoperands := typedAll_cons.mpr ⟨hreceiver, harguments⟩
  cases mode with
  | read => exact (typed_iff_of_isPlain rfl).mpr hoperands
  | write => exact Lowered.typed_target_iff.mpr ⟨typedAll_nil, hoperands⟩

end Elements

section Patterns

variable {env : Env} {value position : Expr} {length : SymbolId} {site : Location}
  {holding : Holding} {object size offset : Binding}

private theorem typed_readMember {member : SymbolId} {read : Expr}
    (h : (readMember value member site).Yields env allocator read rest)
    (hvalue : value.Typed typing) : read.Typed typing := by
  have hoperands : TypedAll typing [value] := typedAll_singleton.mpr hvalue
  obtain ⟨-, ⟨property, getter, byRef, -, -, -, rfl⟩ | ⟨field, -, rfl⟩⟩ :=
    readMember_yields_iff.mp h
  · exact (typed_iff_of_isPlain rfl).mpr hoperands
  · exact (typed_iff_of_isPlain rfl).mpr hoperands

private theorem BoundPosition.typed {bound : Info} (h : BoundPosition env bound value position)
    (hadmits : typing.Admits position.temps)
    (hvalue : typing.Admits value.temps → value.Typed typing) : position.Typed typing := by
  rw [Expr.temps, h.gather_eq Code.ofBindings_temps.overlooks.toOverlooksComputed] at hadmits
  cases h with
  | counted => exact (typed_iff_of_isPlain rfl).mpr (typedAll_singleton.mpr (hvalue hadmits))
  | same => exact hvalue hadmits

/-- A receiver and its length are bound at their types. -/
private theorem Measured.typed
    (h : Measured env value length site holding allocator object size rest)
    (hobject : typing object.temp.id object.temp.type)
    (hsize : typing size.temp.id size.temp.type) (hvalue : value.Typed typing) :
    object.store.Typed typing ∧ size.store.Typed typing := by
  cases h with
  | mk hlength =>
    refine ⟨Allocator.typed_store_bind hobject hvalue, Allocator.typed_store_bind hsize ?_⟩
    exact typed_readMember hlength (Binding.typed_reference hobject)

/-- An offset is bound at its type. -/
private theorem Offset.typed {read : Expr} (h : Offset env position read site allocator offset rest)
    (hoffset : typing offset.temp.id offset.temp.type) (hposition : position.Typed typing)
    (hread : read.Typed typing) : offset.store.Typed typing := by
  cases h with
  | mk =>
    apply Allocator.typed_store_bind hoffset
    exact (typed_iff_of_isPlain rfl).mpr (typedAll_pair.mpr ⟨hposition, hread⟩)

/-- Each end of a range reads the range and the length, which are bound ahead of it. -/
private theorem Bounded.typed {bounds read : Expr} {range start stop : Binding}
    (h : Bounded env bounds read site allocator range start stop rest)
    (hrange : typing range.temp.id range.temp.type)
    (hstart : typing start.temp.id start.temp.type) (hstop : typing stop.temp.id stop.temp.type)
    (hbounds : bounds.Typed typing) (hread : read.Typed typing) :
    range.store.Typed typing ∧ start.store.Typed typing ∧ stop.store.Typed typing := by
  have hend {info : Info} {member : SymbolId} :
      (Expr.call info range.reference member [] false).Typed typing :=
    (typed_iff_of_isPlain rfl).mpr (typedAll_singleton.mpr (Binding.typed_reference hrange))
  cases h with
  | mk _ hfirst _ hlast =>
    exact ⟨Allocator.typed_store_bind hrange hbounds, hfirst.typed hstart hend hread,
      hlast.typed hstop hend hread⟩

/-- An access by position is typed: its element reads what is bound ahead of it. The typing admits
the declarations of the whole access, hence those of its parts. -/
theorem typed_index {intIndexer? : Option SymbolId} {info : Info} {mode : Mode}
    {first second third fourth : Allocator} {element : Lowered}
    (hmeasured : Measured env value length info.location (receiverHolding env.types value) first
      object size second)
    (hoffset : Offset env position size.reference info.location third offset fourth)
    (helement : ElementAt env object.reference offset.reference intIndexer? info mode fourth
      element rest)
    (hadmits : typing.Admits (runAhead [object, size, offset] element).bound)
    (hvalue : typing.Admits value.temps → value.Typed typing)
    (hposition : typing.Admits position.temps → position.Typed typing) :
    (runAhead [object, size, offset] element).Typed typing := by
  -- the declarations of the access are those of its bindings and of its operands
  obtain ⟨bindings, hmade, -⟩ := helement.madeOf (isStable_reference offset)
  obtain ⟨hbindings, hoperands⟩ :=
    (index_comprises hmeasured hoffset hmade.toComprises).admits_iff.mp hadmits
  simp only [List.map_cons, Typing.admits_cons] at hbindings
  obtain ⟨hobject, hsize, hoffsetType, hbindings⟩ := hbindings
  rw [List.forall_mem_cons, List.forall_mem_singleton] at hoperands
  -- the element declares the rest: references declare nothing
  have helementBound : typing.Admits element.bound := by
    refine hmade.admits_iff.mpr ⟨hbindings, ?_⟩
    intro operand hoperand
    rcases List.mem_pair.mp hoperand with rfl | rfl
    · exact Typing.admits_nil
    · exact Typing.admits_nil
  obtain ⟨hobjectStore, hsizeStore⟩ := hmeasured.typed hobject hsize (hvalue hoperands.1)
  have hoffsetStore := hoffset.typed hoffsetType (hposition hoperands.2)
    (Binding.typed_reference hsize)
  have helementTyped := helement.typed helementBound (Binding.typed_reference hobject)
    (Binding.typed_reference hoffsetType)
  apply typed_runAhead _ helementTyped
  simp only [List.map_cons, List.map_nil, typedAll_cons]
  exact ⟨hobjectStore, hsizeStore, hoffsetStore, typedAll_nil⟩

/-- An access by range is typed: its slice reads what is bound ahead of it, and the count of
elements is a difference of integers. -/
theorem typed_range (slice : SymbolId) {info : Info} {bounds : Expr}
    {first second third : Allocator} {range start stop : Binding}
    (hmeasured : Measured env value length info.location .copy first object size second)
    (hbounded : Bounded env bounds size.reference info.location third range start stop rest)
    (hadmits : typing.Admits (Code.sequence [object, size, range, start, stop]
      (sliceBetween env object start stop slice info)).temps)
    (hvalue : typing.Admits value.temps → value.Typed typing)
    (hbounds : typing.Admits bounds.temps → bounds.Typed typing) :
    (Code.sequence [object, size, range, start, stop]
      (sliceBetween env object start stop slice info)).Typed typing := by
  -- as before, admitting the whole is admitting bindings and operands
  obtain ⟨hbindings, hoperands⟩ :=
    (range_comprises slice hmeasured hbounded).admits_iff.mp hadmits
  simp only [List.map_cons, Typing.admits_cons] at hbindings
  obtain ⟨hobject, hsize, hrange, hstart, hstop, -⟩ := hbindings
  rw [List.forall_mem_cons, List.forall_mem_singleton] at hoperands
  obtain ⟨hobjectStore, hsizeStore⟩ := hmeasured.typed hobject hsize (hvalue hoperands.1)
  obtain ⟨hrangeStore, hstartStore, hstopStore⟩ := hbounded.typed hrange hstart hstop
    (hbounds hoperands.2) (Binding.typed_reference hsize)
  apply Code.typed_sequence
  · simp only [List.map_cons, List.map_nil, typedAll_cons]
    exact ⟨hobjectStore, hsizeStore, hrangeStore, hstartStore, hstopStore, typedAll_nil⟩
  -- the slice reads the object, the start and, for the count, both ends
  · have hcount : (Expr.binary ⟨env.types.intType, info.location⟩ .sub stop.reference
        start.reference).Typed typing := by
      rw [typed_iff_of_isPlain rfl, Expr.operands, typedAll_pair]
      exact ⟨Binding.typed_reference hstop, Binding.typed_reference hstart⟩
    rw [sliceBetween, typed_iff_of_isPlain rfl, Expr.operands, typedAll_cons, typedAll_pair]
    exact ⟨Binding.typed_reference hobject, Binding.typed_reference hstart, hcount⟩

end Patterns

end Lowering

/-! ## §5 Expressions and accesses -/

open Lowering

section Induction

variable {env : Env}

mutual

/-- A lowered expression keeps to every typing that admits its temporaries. The typing is
arbitrary, so what is admitted can be split among the operands. -/
theorem Source.Expr.lower_typed (hliterals : env.builder = .literals) (expr : Source.Expr)
    {allocator rest : Allocator} {lowered : Expr}
    (h : expr.lower.Yields env allocator lowered rest) (hadmits : typing.Admits lowered.temps) :
    lowered.Typed typing := by
  cases expr with
  | literal info value =>
    obtain ⟨rfl, -⟩ := yields_pure_iff.mp h
    exact (typed_iff_of_isPlain rfl).mpr typedAll_nil
  | var info symbol =>
    obtain ⟨rfl, -⟩ := yields_pure_iff.mp h
    exact (typed_iff_of_isPlain rfl).mpr typedAll_nil
  | self info =>
    obtain ⟨rfl, -⟩ := yields_pure_iff.mp h
    exact (typed_iff_of_isPlain rfl).mpr typedAll_nil
  | field info object field =>
    obtain ⟨value, hobject, rfl⟩ := Source.Expr.field_yields h
    -- a plain expression has the temporaries of its operands and no others
    refine typed_of_isPlain rfl hadmits fun hadmits => ?_
    simp only [Expr.operands, List.flatMap_singleton] at hadmits
    exact typedAll_singleton.mpr (object.lower_typed hliterals hobject hadmits)
  | property info object property =>
    obtain ⟨value, middle, hobject, hread⟩ := Source.Expr.property_yields h
    rw [Expr.temps, gather_readMember Code.ofBindings_temps.overlooks.toOverlooksComputed hread]
      at hadmits
    exact typed_readMember hread (object.lower_typed hliterals hobject hadmits)
  | indexedProperty info object property => exact absurd h not_yields_fail
  | call info receiver method arguments =>
    obtain ⟨value, middle, values, _, hreceiver, harguments, -, rfl⟩ :=
      Source.Expr.call_yields h
    refine typed_of_isPlain rfl hadmits fun hadmits => ?_
    simp only [Expr.operands, List.flatMap_cons, Typing.admits_append] at hadmits
    exact typedAll_cons.mpr ⟨receiver.lower_typed hliterals hreceiver hadmits.1,
      lowerAll_typed hliterals arguments harguments hadmits.2⟩
  | staticCall info method arguments =>
    obtain ⟨values, _, harguments, -, rfl⟩ := Source.Expr.staticCall_yields h
    exact typed_of_isPlain rfl hadmits (lowerAll_typed hliterals arguments harguments)
  -- the constant behind the operand has no temporaries
  | fromEnd info operand =>
    obtain ⟨constructor, value, -, hvalue, rfl⟩ := positionFromEnd_yields h
    refine typed_of_isPlain rfl hadmits fun hadmits => ?_
    simp only [Expr.operands, List.flatMap_cons, Typing.admits_append] at hadmits
    refine typedAll_pair.mpr ⟨operand.lower_typed hliterals hvalue hadmits.1, ?_⟩
    exact (typed_iff_of_isPlain rfl).mpr typedAll_nil
  | rangeAll info =>
    obtain ⟨_, -, rfl, rfl⟩ := fullRange_yields h
    exact (typed_iff_of_isPlain rfl).mpr typedAll_nil
  | rangeFrom info bound | rangeUpTo info bound =>
    obtain ⟨_, value, position, -, hvalue, hbound, rfl⟩ := halfOpenRange_yields h
    refine typed_of_isPlain rfl hadmits fun hadmits => ?_
    simp only [Expr.operands, List.flatMap_singleton] at hadmits
    exact typedAll_singleton.mpr (hbound.typed hadmits (bound.lower_typed hliterals hvalue))
  | rangeBetween info start stop =>
    obtain ⟨_, value, _, _, value', _, -, hvalue, hbound, hvalue', hbound', rfl⟩ :=
      closedRange_yields h
    refine typed_of_isPlain rfl hadmits fun hadmits => ?_
    simp only [Expr.operands, List.flatMap_cons, List.flatMap_nil, List.append_nil,
      Typing.admits_append] at hadmits
    exact typedAll_pair.mpr ⟨hbound.typed hadmits.1 (start.lower_typed hliterals hvalue),
      hbound'.typed hadmits.2 (stop.lower_typed hliterals hvalue')⟩
  | access info node =>
    exact node.lowerCore_typed hliterals
      (Source.Access.lower_yields_iff.mp (Source.Expr.access_yields h)).1 hadmits
termination_by structural expr

/-- Operands that are lowered one by one keep to every typing that admits the temporaries of all.
-/
theorem lowerAll_typed (hliterals : env.builder = .literals) (exprs : List Source.Expr)
    {allocator rest : Allocator} {lowered : List Expr}
    (h : (lowerAll exprs).Yields env allocator lowered rest)
    (hadmits : typing.Admits (lowered.flatMap Expr.temps)) : TypedAll typing lowered := by
  cases exprs with
  | nil =>
    obtain ⟨rfl, rfl⟩ := yields_pure_iff.mp h
    exact typedAll_nil
  | cons expr exprs =>
    obtain ⟨value, _, values, hvalue, hvalues, rfl⟩ := lowerAll_cons_yields h
    rw [List.flatMap_cons, Typing.admits_append] at hadmits
    exact typedAll_cons.mpr ⟨expr.lower_typed hliterals hvalue hadmits.1,
      lowerAll_typed hliterals exprs hvalues hadmits.2⟩
termination_by structural exprs

/-- An access lowered by itself keeps to every typing that admits its temporaries. The operands do
so by induction, for their temporaries are among those of the access. -/
theorem Source.Access.lowerCore_typed (hliterals : env.builder = .literals)
    (node : Source.Access) {mode : Mode} {site : Location} {allocator rest : Allocator}
    {lowered : Lowered}
    (h : (node.lowerCore Source.Expr.lower mode site).Yields env allocator lowered rest)
    (hadmits : typing.Admits lowered.bound) : lowered.Typed typing := by
  cases node with
  | indexer receiver arguments indexer shape type =>
    obtain ⟨object, first, operands, second, hreceiver, harguments, helement⟩ :=
      Source.Access.indexer_yields hliterals h
    obtain ⟨bindings, hmade, -⟩ := helement.madeOf
    obtain ⟨-, hoperands⟩ := hmade.admits_iff.mp hadmits
    rw [List.forall_mem_cons, ← Typing.admits_flatMap] at hoperands
    -- an indexed property is read here and nowhere else; it is no expression by itself
    have hobject : object.Typed typing := by
      cases receiver with
      | indexedProperty info owner property =>
        obtain ⟨value, middle, hvalue, hread⟩ := readIndexedProperty_yields hreceiver
        refine typed_readMember hread (owner.lower_typed hliterals hvalue ?_)
        rw [Expr.temps, ← gather_readMember
          Code.ofBindings_temps.overlooks.toOverlooksComputed hread]
        exact hoperands.1
      | _ => exact Source.Expr.lower_typed hliterals _ hreceiver hoperands.1
    exact helement.typed hadmits hobject
      (lowerAll_typed hliterals arguments harguments hoperands.2)
  | dynamic receiver arguments candidates names refKinds type =>
    obtain ⟨object, middle, operands, hreceiver, harguments, rfl⟩ :=
      Source.Access.dynamic_yields h
    have hcomprises := dynamicLowered_comprises object operands names refKinds ⟨type, site⟩ mode
    obtain ⟨-, hoperands⟩ := hcomprises.admits_iff.mp hadmits
    rw [List.forall_mem_cons, ← Typing.admits_flatMap] at hoperands
    have hobject : object.Typed typing := by
      cases receiver with
      | indexedProperty info owner property =>
        obtain ⟨value, hvalue, rfl⟩ := fetchIndexedProperty_yields hreceiver
        refine typed_of_isPlain rfl hoperands.1 fun hadmits => ?_
        simp only [Expr.operands, List.flatMap_singleton] at hadmits
        exact typedAll_singleton.mpr (owner.lower_typed hliterals hvalue hadmits)
      | _ => exact Source.Expr.lower_typed hliterals _ hreceiver hoperands.1
    exact typed_dynamicLowered hobject
      (lowerAll_typed hliterals arguments harguments hoperands.2)
  | indexPattern receiver length intIndexer? argument type =>
    obtain ⟨value, first, object, size, second, position, third, offset, fourth, element,
      hreceiver, hmeasured, hposition, hoffset, helement, rfl⟩ :=
      Source.Access.indexPattern_yields hliterals h
    exact typed_index hmeasured hoffset helement hadmits
      (receiver.lower_typed hliterals hreceiver) (argument.lower_typed hliterals hposition)
  | rangePattern receiver length slice argument type =>
    obtain ⟨rfl, value, rfl, hpattern⟩ := Source.Access.rangePattern_yields h
    obtain ⟨object, first, objectBinding, size, second, bounds, third, range, start, stop,
      hreceiver, hmeasured, hargument, hbounded, rfl⟩ := rangePattern_yields hpattern
    exact typed_range slice hmeasured hbounded hadmits
      (receiver.lower_typed hliterals hreceiver) (argument.lower_typed hliterals hargument)
termination_by structural node

end

end Induction

/-! ## §6 Types in lowered accesses -/

section Lowered

variable {env : Env}

/-- An element behind an indexer has the type and the place that are asked for. -/
theorem Lowering.IndexerElement.info_eq {receiver : Expr} {indexer : SymbolId}
    {arguments : List Expr} {shape : CallShape} {info : Info} {mode : Mode} {result : Lowered}
    (h : IndexerElement env receiver indexer arguments shape info mode allocator result rest) :
    result.info = info := by
  cases h with
  | place => rfl
  | value _ _ hcall =>
    cases hcall
    exact Code.info_sequence _ _

private theorem Lowering.ElementAt.info_eq {object offset : Expr} {intIndexer? : Option SymbolId}
    {info : Info} {mode : Mode} {result : Lowered}
    (h : ElementAt env object offset intIndexer? info mode allocator result rest) :
    result.info = info := by
  cases h with
  | indexer _ helement => exact helement.info_eq
  | array => cases mode <;> rfl

private theorem Lowering.info_runAhead (bindings : List Binding) (lowered : Lowered) :
    (runAhead bindings lowered).info = lowered.info := by
  cases lowered with
  | value expr => exact Code.info_sequence bindings expr
  | target assignable => rfl

/-- A value or a target has the type and the place of its access, whatever it is made of: bindings
in front of it pass on the type and the place of the element. -/
theorem Source.Access.lowerCore_info (hliterals : env.builder = .literals)
    {node : Source.Access} {mode : Mode} {site : Location} {lowered : Lowered}
    (h : (node.lowerCore Source.Expr.lower mode site).Yields env allocator lowered rest) :
    lowered.info = ⟨node.resultType, site⟩ := by
  cases node with
  | indexer receiver arguments indexer shape type =>
    obtain ⟨_, _, _, _, -, -, helement⟩ := Source.Access.indexer_yields hliterals h
    exact helement.info_eq
  | dynamic receiver arguments candidates names refKinds type =>
    obtain ⟨_, _, _, -, -, rfl⟩ := Source.Access.dynamic_yields h
    cases mode <;> rfl
  | indexPattern receiver length intIndexer? argument type =>
    obtain ⟨_, _, object, size, _, _, _, offset, _, element, -, -, -, -, helement, rfl⟩ :=
      Source.Access.indexPattern_yields hliterals h
    exact (info_runAhead _ element).trans helement.info_eq
  | rangePattern receiver length slice argument type =>
    obtain ⟨-, value, rfl, hvalue⟩ := Source.Access.rangePattern_yields h
    obtain ⟨_, _, _, _, _, _, _, _, _, _, -, -, -, -, rfl⟩ := Lowering.rangePattern_yields hvalue
    rfl

/-- Wherever a lowered access reads or stores a temporary, it does so at the type of the temporary's
only declaration, and every sequence in it has the type and the place of its result. The access
itself has the type of its node and the place that was asked for. The count of temporaries must not
wrap around. -/
theorem Source.Access.lower_types_temporaries (hliterals : env.builder = .literals)
    (node : Source.Access) (mode : Mode) (site : Location) {allocator rest : Allocator}
    {lowered : Lowered} (h : (node.lower mode site).Yields env allocator lowered rest)
    (hroom : allocator.HasRoom lowered.declared.length) :
    (∀ part ∈ lowered.parts, part.KeepsTo lowered.Declares) ∧
      lowered.info = ⟨node.resultType, site⟩ := by
  have hcore := (Source.Access.lower_yields_iff.mp h).1
  have hself := node.lower_selfContained hliterals h
  have hadmits := Lowered.admits_temps (hself.handsOut.nodup hroom)
  rw [hself.wellScoped.temps_eq_gather] at hadmits
  exact ⟨node.lowerCore_typed hliterals hcore hadmits, node.lowerCore_info hliterals hcore⟩

/-- Calls of two types that change places: the second one is read, as an argument of the getter, at
its own type. -/
theorem Source.Access.lower_types_temporaries_of_swapped_calls :
    let call (type : TypeId) : Source.Expr := .staticCall ⟨type, .unknown⟩ ⟨2⟩ []
    let node : Source.Access := Sample.swapped (call ⟨3⟩) (call ⟨4⟩) []
    ∃ lowered rest, (node.lower .read .unknown).Yields Sample.env {} lowered rest ∧
      ({} : Allocator).HasRoom lowered.declared.length ∧ lowered.info = ⟨.invalid, .unknown⟩ ∧
        .temp ⟨⟨4⟩, .unknown⟩ ⟨1⟩ ∈ lowered.parts ∧ lowered.Declares ⟨1⟩ ⟨4⟩ := by
  intro call node
  have hnode : (node.lower .read .unknown).Yields Sample.env {} _ _ := ⟨_, rfl⟩
  obtain ⟨hkeeps, hinfo⟩ := node.lower_types_temporaries rfl .read .unknown hnode (by decide)
  refine ⟨_, _, hnode, by decide, hinfo, ?_, hkeeps (.temp ⟨⟨4⟩, .unknown⟩ ⟨1⟩) ?_⟩
  -- the reference stands behind the call of the getter and its receiver
  all_goals exact List.mem_of_getElem? (i := 7) rfl

end Lowered

end Subscript
