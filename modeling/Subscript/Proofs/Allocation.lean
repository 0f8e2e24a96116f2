import Mathlib.Data.List.Nodup
import Mathlib.Data.List.Perm.Basic
import Subscript.Temporaries

/-!
# Handing out temporaries

An allocator hands out consecutive identifiers. `HandsOut` says that exactly the given identifiers
were handed out between two allocators, in whatever order they are listed; it is closed under
running one step after the other. While the count stays below the number of identifiers, no
identifier is handed out twice, and none that was in use before.

## Architecture

- §1 `upcoming` and `advance`, the identifiers to come
- §2 `HandsOut`
- §3 allocators with room left
- §4 names
-/

namespace Subscript.Code

namespace Allocator

/-! ## §1 Upcoming identifiers -/

/-- The identifier that is handed out after `count` others. -/
def upcomingAt (allocator : Allocator) (count : Nat) : TempId :=
  ⟨allocator.next.raw + UInt32.ofNat count⟩

/-- The next `count` identifiers. -/
def upcoming (allocator : Allocator) (count : Nat) : List TempId :=
  (List.range count).map allocator.upcomingAt

/-- The allocator after handing out `count` identifiers. -/
def advance (allocator : Allocator) (count : Nat) : Allocator :=
  { allocator with next := allocator.upcomingAt count }

@[simp] private theorem length_upcoming (allocator : Allocator) (count : Nat) :
    (allocator.upcoming count).length = count := by
  simp [upcoming]

@[simp] theorem upcomingAt_zero (allocator : Allocator) :
    allocator.upcomingAt 0 = allocator.next := by
  simp [upcomingAt]

@[simp] theorem advance_zero (allocator : Allocator) : allocator.advance 0 = allocator := by
  simp [advance]

/-- Identifiers are counted on from wherever the allocator stands. -/
private theorem upcomingAt_advance (allocator : Allocator) (m n : Nat) :
    (allocator.advance m).upcomingAt n = allocator.upcomingAt (m + n) := by
  simp [upcomingAt, advance, UInt32.ofNat_add, UInt32.add_assoc]

/-- Handing out twice is handing out both counts at once. -/
theorem advance_advance (allocator : Allocator) (m n : Nat) :
    (allocator.advance m).advance n = allocator.advance (m + n) := by
  rw [advance, upcomingAt_advance]
  rfl

/-- The identifiers to come fall into those that are handed out first and those that are handed
out by the allocator behind them. Results about two steps in a row are read off this equation. -/
theorem upcoming_add (allocator : Allocator) (m n : Nat) :
    allocator.upcoming (m + n) =
      allocator.upcoming m ++ (allocator.advance m).upcoming n := by
  simp only [upcoming, List.range_add, List.map_append, List.map_map]
  congr 1
  -- the last `n` counts start at `m`
  apply List.map_congr_left
  intro count _
  exact (upcomingAt_advance allocator m count).symm

/-- Each binding takes one identifier, whatever it binds. -/
theorem bind_snd (allocator : Allocator) (value : Expr) (holding : Holding) :
    (allocator.bind value holding).2 = allocator.advance 1 := rfl

/-! ## §2 What is handed out between two allocators -/

/-- Exactly the identifiers of a list are handed out between two allocators. -/
structure HandsOut (allocator : Allocator) (ids : List TempId) (rest : Allocator) : Prop where
  perm : ids.Perm (allocator.upcoming ids.length)
  rest_eq : rest = allocator.advance ids.length

variable {allocator middle rest : Allocator} {ids ids' : List TempId}

/-- A step that binds nothing hands out nothing. -/
theorem HandsOut.nil (allocator : Allocator) : allocator.HandsOut [] allocator :=
  ⟨.nil, (advance_zero allocator).symm⟩

theorem HandsOut.upcoming (allocator : Allocator) (count : Nat) :
    allocator.HandsOut (allocator.upcoming count) (allocator.advance count) :=
  ⟨by rw [length_upcoming], by rw [length_upcoming]⟩

/-- One step after the other hands out what both do. There is no condition about room: the
identifiers may wrap around, and only their being distinct depends on it. -/
theorem HandsOut.append (h : allocator.HandsOut ids middle) (h' : middle.HandsOut ids' rest) :
    allocator.HandsOut (ids ++ ids') rest := by
  obtain ⟨hperm, rfl⟩ := h
  obtain ⟨hperm', rfl⟩ := h'
  -- the first list takes the identifiers in front, the second one those behind them
  refine ⟨?_, ?_⟩
  · rw [List.length_append, upcoming_add]
    exact hperm.append hperm'
  · rw [List.length_append, advance_advance]

/-- The order in which the identifiers are listed does not matter. Code lists its temporaries
where they are declared, which is not always where they were handed out. -/
theorem HandsOut.of_perm (h : allocator.HandsOut ids rest) (hperm : ids'.Perm ids) :
    allocator.HandsOut ids' rest := by
  have hlength : ids'.length = ids.length := hperm.length_eq
  refine ⟨?_, ?_⟩
  · rw [hlength]
    exact hperm.trans h.perm
  · rw [hlength]
    exact h.rest_eq

/-- Binding a value hands out the identifier of its temporary. -/
theorem HandsOut.of_bind {value : Expr} {holding : Holding} {binding : Binding}
    (h : allocator.bind value holding = (binding, rest)) :
    allocator.HandsOut [binding.temp.id] rest := by
  obtain ⟨rfl, rfl⟩ := Prod.mk.inj h
  exact ⟨by simp [Allocator.upcoming], bind_snd allocator value holding⟩

/-! ## §3 Room -/

/-- The count of temporaries stays below the number of identifiers for so many more. -/
def HasRoom (allocator : Allocator) (count : Nat) : Prop :=
  allocator.next.raw.toNat + count < UInt32.size

instance (count : Nat) : Decidable (allocator.HasRoom count) :=
  inferInstanceAs (Decidable (_ < _))

/-- Room for many is room for fewer. -/
theorem HasRoom.mono {m n : Nat} (h : allocator.HasRoom n) (hle : m ≤ n) :
    allocator.HasRoom m := by
  unfold HasRoom at *
  omega

/-- With room left, numbers do not wrap around: the identifier behind `count` others is that much
larger. The facts about order below rest on this one. -/
private theorem HasRoom.toNat_upcomingAt {count : Nat} (h : allocator.HasRoom count) :
    (allocator.upcomingAt count).raw.toNat = allocator.next.raw.toNat + count := by
  unfold HasRoom UInt32.size at h
  -- below the size of the counter the sum is not reduced
  simp only [upcomingAt, UInt32.toNat_add, UInt32.toNat_ofNat']
  omega

/-- Room for two counts leaves room for the second behind the first. -/
private theorem HasRoom.advance {m n : Nat} (h : allocator.HasRoom (m + n)) :
    (allocator.advance m).HasRoom n := by
  have hnext := (h.mono (Nat.le_add_right m n)).toNat_upcomingAt
  unfold HasRoom at *
  simp only [Allocator.advance, hnext]
  omega

/-- Identifiers handed out with room left are at least the next one, and below the one that
follows them. -/
theorem HandsOut.bounds (h : allocator.HandsOut ids rest) (hroom : allocator.HasRoom ids.length)
    {id : TempId} (hid : id ∈ ids) :
    allocator.next.raw.toNat ≤ id.raw.toNat ∧
      id.raw.toNat < allocator.next.raw.toNat + ids.length := by
  have hupcoming := h.perm.mem_iff.mp hid
  simp only [Allocator.upcoming, List.mem_map, List.mem_range] at hupcoming
  obtain ⟨count, hcount, rfl⟩ := hupcoming
  rw [(hroom.mono (Nat.le_of_lt hcount)).toNat_upcomingAt]
  omega

/-- With room left no identifier is handed out twice. -/
theorem HandsOut.nodup (h : allocator.HandsOut ids rest) (hroom : allocator.HasRoom ids.length) :
    ids.Nodup := by
  -- identifiers to come are told apart by their counts, which do not wrap around
  refine h.perm.nodup_iff.mpr (List.Nodup.map_on ?_ List.nodup_range)
  intro m hm n hn heq
  have hm' := (hroom.mono (Nat.le_of_lt (List.mem_range.mp hm))).toNat_upcomingAt
  have hn' := (hroom.mono (Nat.le_of_lt (List.mem_range.mp hn))).toNat_upcomingAt
  rw [heq] at hm'
  omega

/-- The count that is left after handing out identifiers with room. -/
theorem HandsOut.toNat_next (h : allocator.HandsOut ids rest)
    (hroom : allocator.HasRoom ids.length) :
    rest.next.raw.toNat = allocator.next.raw.toNat + ids.length := by
  rw [h.rest_eq]
  exact hroom.toNat_upcomingAt

/-- With room left, what is handed out are the numbers from the count before up to the count
after. A list of identifiers is thus known from the two counts alone. -/
theorem HandsOut.mem_iff (h : allocator.HandsOut ids rest) (hroom : allocator.HasRoom ids.length)
    {id : TempId} : id ∈ ids ↔ allocator.allocated ≤ id.raw ∧ id.raw < rest.allocated := by
  have hnext := h.toNat_next hroom
  show _ ↔ allocator.next.raw.toNat ≤ id.raw.toNat ∧ id.raw.toNat < rest.next.raw.toNat
  rw [hnext]
  constructor
  · exact h.bounds hroom
  · rintro ⟨hle, hlt⟩
    -- the number is the count of those handed out before it
    obtain ⟨count, hcount⟩ := Nat.exists_eq_add_of_le hle
    have hupcoming := (hroom.mono (show count ≤ ids.length by omega)).toNat_upcomingAt
    have hid : allocator.upcomingAt count = id :=
      congrArg Id.mk (UInt32.toNat_inj.mp (hupcoming.trans hcount.symm))
    apply h.perm.mem_iff.mpr
    exact List.mem_map.mpr ⟨count, List.mem_range.mpr (by omega), hid⟩

/-- An identifier that is handed out with room left is below the next one from then on. -/
theorem HandsOut.lt_next (h : allocator.HandsOut ids rest) (hroom : allocator.HasRoom ids.length)
    {id : TempId} (hid : id ∈ ids) : id < rest.next := by
  have hlt := (h.bounds hroom hid).2
  rw [← h.toNat_next hroom] at hlt
  exact hlt

/-- An identifier from before stays below the next one. -/
theorem HandsOut.lt_next_of_lt (h : allocator.HandsOut ids rest)
    (hroom : allocator.HasRoom ids.length) {id : TempId} (hid : id < allocator.next) :
    id < rest.next := by
  have hnext := h.toNat_next hroom
  have hlt : id.raw.toNat < allocator.next.raw.toNat := hid
  show id.raw.toNat < rest.next.raw.toNat
  omega

/-- An identifier from before is not handed out again. -/
theorem HandsOut.not_mem_of_lt (h : allocator.HandsOut ids rest)
    (hroom : allocator.HasRoom ids.length) {id : TempId} (hid : id < allocator.next) :
    id ∉ ids := by
  intro hmem
  have hle := (h.bounds hroom hmem).1
  exact absurd hid (Nat.not_lt.mpr hle)

/-- Room that is left for later identifiers. -/
theorem HandsOut.hasRoom (h : allocator.HandsOut ids rest) {count : Nat}
    (hroom : allocator.HasRoom (ids.length + count)) : rest.HasRoom count := by
  rw [h.rest_eq]
  exact hroom.advance

end Allocator

/-! ## §4 Names -/

/-- The name of a temporary is a stem followed by its number. -/
def Temp.NamedBy (stem : String) (temp : Temp) : Prop :=
  temp.name = stem ++ toString temp.id.raw.toNat

/-- The temporaries of some bindings are named by a stem. -/
def Binding.AllNamed (stem : String) (bindings : List Binding) : Prop :=
  ∀ binding ∈ bindings, binding.temp.NamedBy stem

section AllNamed

variable {stem : String} {binding : Binding} {bindings bindings' : List Binding}

/-- Without bindings there is nothing to be named. -/
theorem Binding.AllNamed.nil : Binding.AllNamed stem [] := fun _ h => absurd h List.not_mem_nil

/-- A binding named by the stem joins others that are. -/
theorem Binding.AllNamed.cons (h : binding.temp.NamedBy stem)
    (h' : Binding.AllNamed stem bindings) : Binding.AllNamed stem (binding :: bindings) :=
  List.forall_mem_cons.mpr ⟨h, h'⟩

/-- Bindings named by one stem stay so when they are put in a row. -/
theorem Binding.AllNamed.append (h : Binding.AllNamed stem bindings)
    (h' : Binding.AllNamed stem bindings') : Binding.AllNamed stem (bindings ++ bindings') :=
  List.forall_mem_append.mpr ⟨h, h'⟩

/-- Numbers are told apart by their decimal digits. -/
private theorem toString_inj {m n : Nat} (h : toString m = toString n) : m = n := by
  have hdigits : Nat.toDigits 10 m = Nat.toDigits 10 n := String.ofList_injective h
  have hread : ∀ count : Nat, Nat.ofDigitChars 10 (Nat.toDigits 10 count) 0 = count :=
    fun _ => Nat.ofDigitChars_toDigits (by decide) (Nat.le_refl 10)
  rw [← hread m, hdigits, hread]

/-- Temporaries with different numbers and the same stem have different names. -/
theorem Temp.NamedBy.id_eq {temp temp' : Temp} (h : temp.NamedBy stem) (h' : temp'.NamedBy stem)
    (hname : temp.name = temp'.name) : temp.id = temp'.id := by
  rw [h, h'] at hname
  have hnumber : temp.id.raw.toNat = temp'.id.raw.toNat :=
    toString_inj ((String.append_right_inj stem).mp hname)
  exact congrArg Id.mk (UInt32.toNat_inj.mp hnumber)

end AllNamed

/-- A binding names its temporary by the stem in force, not by the one at the end. -/
theorem Allocator.namedBy_bind (allocator : Allocator) (value : Expr) (holding : Holding) :
    (allocator.bind value holding).1.temp.NamedBy allocator.stem := rfl

/-- Handing out identifiers never changes the stem; only a call to do so does. -/
theorem Allocator.HandsOut.stem_eq {allocator rest : Allocator} {ids : List TempId}
    (h : allocator.HandsOut ids rest) : rest.stem = allocator.stem := by
  rw [h.rest_eq]
  rfl

end Subscript.Code
