import Mathlib.Data.Finset.Card
import Mathlib.Data.Finset.Dedup
import Mathlib.Data.List.Nodup
import Subscript.Types

/-!
# Interning

A table of types changes by interning only. As long as there are identifiers left, kinds and
identifiers stand for each other one to one, and an identifier keeps its kind whatever is interned
after it. So everything that lowering once learned from an identifier stays true while the table
grows, also where an array names its elements by an identifier handed out before.

## Architecture

- §1 the kinds of a table in the order of their identifiers, what one intern does to them, and
  `GrowsTo`: nothing that was entered moves
- §2 `Interned`, entries and index as inverses of each other; one intern keeps it
- §3 runs of interns and the identifiers that they hand out
- §4 `AnswersAlike`, what a table leaves as it was in an earlier one
- §5 the predefined kinds
- §6 the main result
-/

namespace Subscript

namespace TypeTable

variable {table old new : TypeTable} {kind kind' : TypeKind} {later : List TypeKind} {id : TypeId}

/-! ## §1 The kinds of a table -/

/-- The kinds entered, in the order of their identifiers. -/
def kinds (table : TypeTable) : List TypeKind := table.entries.toList.map (·.kind)

private theorem size_eq_length_kinds (table : TypeTable) : table.size = table.kinds.length := by
  simp [size, kinds]

/-- An identifier stands for the kind at its number. -/
theorem kind?_eq_getElem? (table : TypeTable) (id : TypeId) :
    table.kind? id = table.kinds[id.raw.toNat]? := by
  simp [kind?, entry?, kinds]

/-- A kind that is known is answered from the index, and the table stays as it is. -/
theorem intern_of_known (h : table.index[kind]? = some id) : table.intern kind = (id, table) := by
  simp only [intern, h]

/-- A new kind is entered at the end, under the number of the kinds before it. With
`intern_of_known` this is all that interning does, and no proof below unfolds it again. -/
theorem intern_of_new (h : table.index[kind]? = none) :
    table.intern kind =
      (⟨UInt32.ofNat table.size⟩,
        ⟨table.entries.push ⟨⟨UInt32.ofNat table.size⟩, kind⟩,
          table.index.insert kind ⟨UInt32.ofNat table.size⟩⟩) := by
  simp only [intern, h, size]

private theorem kinds_intern_of_new (h : table.index[kind]? = none) :
    (table.intern kind).2.kinds = table.kinds ++ [kind] := by
  simp [intern_of_new h, kinds]

/-- After a new kind an identifier stands for what it stood for before, or it is the number of the
kinds before and stands for the new one. -/
private theorem kind?_intern_of_new (h : table.index[kind]? = none) :
    (table.intern kind).2.kind? id = some kind' ↔
      table.kind? id = some kind' ∨ id.raw.toNat = table.size ∧ kind = kind' := by
  rw [kind?_eq_getElem?, kind?_eq_getElem?, kinds_intern_of_new h, size_eq_length_kinds]
  grind

/-- Below the number of identifiers, a number and the word made of it are interchangeable. -/
private theorem raw_toNat_eq_iff {position : Nat} (h : position < UInt32.size) :
    id.raw.toNat = position ↔ id = ⟨UInt32.ofNat position⟩ := by
  have hnumber : (UInt32.ofNat position).toNat = position := UInt32.toNat_ofNat_of_lt h
  constructor
  · intro heq
    exact congrArg Id.mk (UInt32.toNat_inj.mp (heq.trans hnumber.symm))
  · rintro rfl
    exact hnumber

/-- An identifier that stands for a kind is not the reserved one unless all are handed out. -/
private theorem isValid_of_kind? (hroom : table.size < UInt32.size)
    (h : table.kind? id = some kind) :
    id.isValid = true := by
  rw [kind?_eq_getElem?] at h
  have hlt := (List.getElem?_eq_some_iff.mp h).1
  rw [← size_eq_length_kinds] at hlt
  apply id.isValid_iff_ne_invalid.mpr
  rintro rfl
  have hinvalid : (Id.invalid : TypeId).raw.toNat = UInt32.size - 1 := rfl
  omega

/-- Every entry of the one table stands at the same place in the other. -/
def GrowsTo (old new : TypeTable) : Prop := old.entries.toList <+: new.entries.toList

/-- One intern adds at the end of a table, if it adds anything. -/
theorem growsTo_intern (table : TypeTable) (kind : TypeKind) :
    table.GrowsTo (table.intern kind).2 := by
  cases h : table.index[kind]? with
  | some id =>
    rw [intern_of_known h]
    exact List.prefix_refl _
  | none =>
    rw [intern_of_new h, GrowsTo, Array.toList_push]
    exact List.prefix_append _ _

theorem GrowsTo.entry_eq (h : old.GrowsTo new) {entry : TypeEntry}
    (hentry : old.entry? id = some entry) : new.entry? id = some entry := by
  unfold entry? at hentry ⊢
  rw [← Array.getElem?_toList] at hentry ⊢
  obtain ⟨rest, hrest⟩ := h
  have hposition := (List.getElem?_eq_some_iff.mp hentry).1
  rw [← hrest, List.getElem?_append_left hposition, hentry]

/-- An identifier that stands for a kind goes on to do so in a table that has grown. -/
theorem GrowsTo.kind_eq (h : old.GrowsTo new) (hkind : old.kind? id = some kind) :
    new.kind? id = some kind := by
  obtain ⟨entry, hentry, rfl⟩ := Option.map_eq_some_iff.mp hkind
  rw [kind?, h.entry_eq hentry]
  rfl

/-! ## §2 Entries and index -/

/-- Kinds and identifiers stand for each other. -/
structure Interned (table : TypeTable) : Prop where
  /-- no kind is entered twice -/
  nodup : table.kinds.Nodup
  /-- an entry is identified by its position -/
  id_toNat : ∀ position (entry : TypeEntry),
    table.entries[position]? = some entry → entry.id.raw.toNat = position
  /-- the index finds a kind exactly at the identifier that stands for it -/
  index_eq_some_iff : ∀ kind id, table.index[kind]? = some id ↔ table.kind? id = some kind

theorem interned_empty : empty.Interned where
  nodup := List.nodup_nil
  id_toNat := by simp [empty]
  index_eq_some_iff := by simp [empty, kind?, entry?]

namespace Interned

/-- The index knows the kinds entered and no others. -/
theorem mem_kinds_iff (h : table.Interned) :
    kind ∈ table.kinds ↔ ∃ id, table.index[kind]? = some id := by
  constructor
  · intro hkind
    obtain ⟨entry, hentry, rfl⟩ := List.mem_map.mp hkind
    obtain ⟨position, hposition⟩ := List.mem_iff_getElem?.mp hentry
    rw [Array.getElem?_toList] at hposition
    refine ⟨entry.id, (h.index_eq_some_iff _ _).mpr ?_⟩
    -- the identifier of an entry leads back to its position
    rw [kind?, entry?, h.id_toNat position entry hposition, hposition]
    rfl
  · intro ⟨id, hid⟩
    have hkind := (h.index_eq_some_iff _ _).mp hid
    rw [kind?_eq_getElem?] at hkind
    exact List.mem_of_getElem? hkind

private theorem not_mem_kinds_iff (h : table.Interned) :
    kind ∉ table.kinds ↔ table.index[kind]? = none := by
  rw [h.mem_kinds_iff, ← Option.isSome_iff_exists, Option.not_isSome_iff_eq_none]

/-- Two identifiers that stand for one kind are the same. -/
theorem id_inj (h : table.Interned) {id' : TypeId} (hid : table.kind? id = some kind)
    (hid' : table.kind? id' = some kind) : id = id' := by
  rw [← h.index_eq_some_iff] at hid hid'
  exact Option.some.inj (hid.symm.trans hid')

/-- A new kind takes the first free identifier, if there is one. -/
private theorem intern_of_new (h : table.Interned) (hnew : table.index[kind]? = none)
    (hroom : table.size < UInt32.size) : (table.intern kind).2.Interned := by
  constructor
  -- the kind was in no entry, or the index would know it
  · rw [kinds_intern_of_new hnew, List.nodup_append]
    refine ⟨h.nodup, List.nodup_singleton kind, ?_⟩
    rintro kind' hkind' _ hkind rfl
    obtain rfl := List.mem_singleton.mp hkind
    exact h.not_mem_kinds_iff.mpr hnew hkind'
  -- the last entry is the new one, the others are as before
  · intro position entry hentry
    rw [TypeTable.intern_of_new hnew, Array.getElem?_push] at hentry
    split at hentry
    case isTrue hlast =>
      obtain rfl := Option.some.inj hentry
      exact ((raw_toNat_eq_iff hroom).mpr rfl).trans hlast.symm
    case isFalse => exact h.id_toNat position entry hentry
  · intro kind' id
    rw [kind?_intern_of_new hnew, ← h.index_eq_some_iff, TypeTable.intern_of_new hnew,
      Std.HashMap.getElem?_insert]
    split
    case isTrue hsame =>
      -- the new kind is found at its number, and it was found nowhere before
      obtain rfl := eq_of_beq hsame
      rw [hnew, raw_toNat_eq_iff hroom]
      simp [eq_comm]
    case isFalse hother =>
      have hne : kind ≠ kind' := fun heq => hother (beq_iff_eq.mpr heq)
      simp [hne]

/-- One intern keeps the table in order if the kind is known or an identifier is left. -/
theorem intern (h : table.Interned)
    (hroom : kind ∈ table.kinds ∨ table.size < UInt32.size) :
    (table.intern kind).2.Interned := by
  cases hindex : table.index[kind]? with
  | some id =>
    rw [intern_of_known hindex]
    exact h
  | none => exact h.intern_of_new hindex (hroom.resolve_left (h.not_mem_kinds_iff.mpr hindex))

/-- The identifier that an intern answers stands for the kind. -/
theorem kind?_intern (h : table.Interned)
    (hroom : kind ∈ table.kinds ∨ table.size < UInt32.size) :
    (table.intern kind).2.kind? (table.intern kind).1 = some kind := by
  cases hindex : table.index[kind]? with
  | some id =>
    rw [intern_of_known hindex]
    exact (h.index_eq_some_iff _ _).mp hindex
  | none =>
    have hfree := hroom.resolve_left (h.not_mem_kinds_iff.mpr hindex)
    rw [kind?_intern_of_new hindex, TypeTable.intern_of_new hindex]
    exact .inr ⟨(raw_toNat_eq_iff hfree).mpr rfl, rfl⟩

/-- As a set, the kinds after an intern are those before and the kind itself. -/
private theorem toFinset_kinds_intern (h : table.Interned) :
    (table.intern kind).2.kinds.toFinset = insert kind table.kinds.toFinset := by
  cases hindex : table.index[kind]? with
  | some id =>
    rw [intern_of_known hindex, Finset.insert_eq_of_mem]
    exact List.mem_toFinset.mpr (h.mem_kinds_iff.mpr ⟨id, hindex⟩)
  | none => simp [kinds_intern_of_new hindex, List.toFinset_append, Finset.union_comm]

/-- A table without repetition is as large as the set of its kinds. -/
theorem size_eq_card (h : table.Interned) : table.size = table.kinds.toFinset.card := by
  rw [size_eq_length_kinds, List.toFinset_card_of_nodup h.nodup]

end Interned

/-! ## §3 Runs of interns -/

/-- The identifiers that interning one kind after the other hands out. -/
def identifiers (table : TypeTable) : List TypeKind → List TypeId
  | [] => []
  | kind :: later => (table.intern kind).1 :: (table.intern kind).2.identifiers later

/-- The identifiers suffice for the kinds of a table and for those still to come. -/
def HasRoom (table : TypeTable) (later : List TypeKind) : Prop :=
  (table.kinds.toFinset ∪ later.toFinset).card ≤ UInt32.size

private theorem HasRoom.left {earlier : List TypeKind} (h : table.HasRoom (earlier ++ later)) :
    table.HasRoom earlier := by
  refine (Finset.card_le_card (Finset.union_subset_union_right ?_)).trans h
  rw [List.toFinset_append]
  exact Finset.subset_union_left

theorem growsTo_internAll (table : TypeTable) (later : List TypeKind) :
    table.GrowsTo (table.internAll later) := by
  induction later generalizing table with
  | nil => exact List.prefix_refl _
  | cons kind later ih => exact (table.growsTo_intern kind).trans (ih _)

theorem internAll_append (table : TypeTable) (earlier later : List TypeKind) :
    table.internAll (earlier ++ later) = (table.internAll earlier).internAll later :=
  List.foldl_append

/-- A run of interns may be split anywhere: what comes later goes on from the table that is left.
-/
theorem identifiers_append (table : TypeTable) (earlier later : List TypeKind) :
    table.identifiers (earlier ++ later) =
      table.identifiers earlier ++ (table.internAll earlier).identifiers later := by
  induction earlier generalizing table with
  | nil => rfl
  | cons kind earlier ih => exact congrArg _ (ih _)

namespace Interned

/-- The first kind of a run that has room is known, or an identifier is left for it. -/
private theorem hasRoom_first (h : table.Interned) (hroom : table.HasRoom (kind :: later)) :
    kind ∈ table.kinds ∨ table.size < UInt32.size := by
  by_cases hkind : kind ∈ table.kinds
  · exact .inl hkind
  · right
    -- a kind that is not entered is one of those that room was counted for
    have hsubset : insert kind table.kinds.toFinset ⊆
        table.kinds.toFinset ∪ (kind :: later).toFinset := by
      rw [List.toFinset_cons, Finset.union_insert]
      exact Finset.insert_subset_insert kind Finset.subset_union_left
    calc table.size
        < (insert kind table.kinds.toFinset).card := by
          rw [Finset.card_insert_of_notMem (by simpa using hkind), ← h.size_eq_card]
          exact Nat.lt_succ_self _
      _ ≤ UInt32.size := (Finset.card_le_card hsubset).trans hroom

private theorem hasRoom_rest (h : table.Interned) (hroom : table.HasRoom (kind :: later)) :
    (table.intern kind).2.HasRoom later := by
  rw [HasRoom, h.toFinset_kinds_intern, Finset.insert_union]
  rwa [HasRoom, List.toFinset_cons, Finset.union_insert] at hroom

/-- A run with room keeps the table in order, by induction over its interns. -/
theorem internAll (h : table.Interned) (hroom : table.HasRoom later) :
    (table.internAll later).Interned := by
  induction later generalizing table with
  | nil => exact h
  | cons kind later ih => exact ih (h.intern (h.hasRoom_first hroom)) (h.hasRoom_rest hroom)

private theorem toFinset_kinds_internAll (h : table.Interned) (hroom : table.HasRoom later) :
    (table.internAll later).kinds.toFinset = table.kinds.toFinset ∪ later.toFinset := by
  induction later generalizing table with
  | nil => simp
  | cons kind later ih =>
    rw [internAll_cons, ih (h.intern (h.hasRoom_first hroom)) (h.hasRoom_rest hroom),
      h.toFinset_kinds_intern, List.toFinset_cons, Finset.insert_union, Finset.union_insert]

/-- Kinds that are all new are entered one behind the other. -/
private theorem kinds_internAll_of_nodup (h : table.Interned) (hroom : table.HasRoom later)
    (hnew : (table.kinds ++ later).Nodup) :
    (table.internAll later).kinds = table.kinds ++ later := by
  induction later generalizing table with
  | nil => simp
  | cons kind later ih =>
    have hkind : kind ∉ table.kinds := fun hmem =>
      (List.disjoint_of_nodup_append hnew) hmem List.mem_cons_self
    have hkinds := kinds_intern_of_new (h.not_mem_kinds_iff.mp hkind)
    have hrest : table.kinds ++ kind :: later = (table.intern kind).2.kinds ++ later := by
      rw [hkinds, List.append_assoc, List.singleton_append]
    rw [internAll_cons, hrest]
    exact ih (h.intern (h.hasRoom_first hroom)) (h.hasRoom_rest hroom) (hrest ▸ hnew)

/-- Every identifier handed out in a run stands for the kind it was handed out for, to the end. -/
theorem map_kind?_identifiers (h : table.Interned) (hroom : table.HasRoom later) :
    (table.identifiers later).map (table.internAll later).kind? = later.map some := by
  induction later generalizing table with
  | nil => rfl
  | cons kind later ih =>
    have hfirst := h.hasRoom_first hroom
    have hkind := (growsTo_internAll _ later).kind_eq (h.kind?_intern hfirst)
    rw [identifiers, internAll_cons, List.map_cons, List.map_cons, hkind,
      ih (h.intern hfirst) (h.hasRoom_rest hroom)]

/-- Two interns of a run answer the same identifier exactly if they are about the same kind. Both
answers are still good at the end of the run, where different kinds have different identifiers. -/
theorem identifiers_eq_iff (h : table.Interned) (hroom : table.HasRoom later) {i j : Nat}
    (hi : i < later.length) (hj : j < later.length) :
    (table.identifiers later)[i]? = (table.identifiers later)[j]? ↔ later[i]? = later[j]? := by
  -- what was answered on the way is looked up in the table that the run leaves
  have hanswer : ∀ (position : Nat) (hposition : position < later.length),
      ∃ id, (table.identifiers later)[position]? = some id ∧
        (table.internAll later).kind? id = some later[position] := by
    intro position hposition
    have hkind := congrArg (·[position]?) (h.map_kind?_identifiers hroom)
    simp only [List.getElem?_map, List.getElem?_eq_getElem hposition] at hkind
    exact Option.map_eq_some_iff.mp hkind
  obtain ⟨id, hid, hkind⟩ := hanswer i hi
  obtain ⟨id', hid', hkind'⟩ := hanswer j hj
  rw [hid, hid', List.getElem?_eq_getElem hi, List.getElem?_eq_getElem hj]
  constructor
  · intro hsame
    rw [← hkind, ← hkind', Option.some.inj hsame]
  · intro hsame
    exact congrArg some ((h.internAll hroom).id_inj hkind (hkind'.trans hsame.symm))

end Interned

/-! ## §4 What later interning leaves as it was -/

/-- Two tables answer every question about an identifier in the same way. -/
structure AnswersAlike (old new : TypeTable) (id : TypeId) : Prop where
  entry? : new.entry? id = old.entry? id
  kind? : new.kind? id = old.kind? id
  isValueType : new.isValueType id = old.isValueType id
  isInt : new.isInt id = old.isInt id
  isIndex : new.isIndex id = old.isIndex id
  isRange : new.isRange id = old.isRange id
  isDynamic : new.isDynamic id = old.isDynamic id
  elementType? : new.elementType? id = old.elementType? id
  isArray : new.isArray id = old.isArray id

/-- Every question about an identifier that was in use before is answered as before. -/
theorem GrowsTo.answersAlike (h : old.GrowsTo new) (hknown : (old.entry? id).isSome) :
    AnswersAlike old new id := by
  obtain ⟨entry, hentry⟩ := Option.isSome_iff_exists.mp hknown
  have hkept : new.entry? id = old.entry? id := (h.entry_eq hentry).trans hentry.symm
  -- every question is answered from the kind, and the kind from the entry
  have hkind : new.kind? id = old.kind? id := congrArg _ hkept
  constructor
  case entry? => exact hkept
  case kind? => exact hkind
  all_goals
    simp only [TypeTable.isValueType, TypeTable.isInt, TypeTable.isIndex, TypeTable.isRange,
      TypeTable.isDynamic, TypeTable.elementType?, TypeTable.isArray, hkind]

/-! ## §5 The predefined kinds -/

private theorem hasRoom_empty : empty.HasRoom TypeKind.predefined := by
  unfold HasRoom
  decide

theorem interned_initial : initial.Interned := interned_empty.internAll hasRoom_empty

private theorem kinds_initial : initial.kinds = TypeKind.predefined :=
  interned_empty.kinds_internAll_of_nodup hasRoom_empty (by decide)

/-- The predefined kinds have the first identifiers, and looking one of them up never misses. -/
structure HoldsPredefined (table : TypeTable) : Prop where
  known : ∀ kind ∈ TypeKind.predefined, table.index[kind]? = some (table.predefined kind)
  voidType : table.voidType = ⟨0⟩
  boolType : table.boolType = ⟨1⟩
  intType : table.intType = ⟨2⟩
  stringType : table.stringType = ⟨3⟩
  objectType : table.objectType = ⟨4⟩
  dynamicType : table.dynamicType = ⟨5⟩
  indexType : table.indexType = ⟨6⟩
  rangeType : table.rangeType = ⟨7⟩

/-- A predefined kind is found at its position. -/
private theorem Interned.index_predefined (h : table.Interned) (hgrown : initial.GrowsTo table)
    {position : Nat} (hkind : TypeKind.predefined[position]? = some kind) :
    table.index[kind]? = some ⟨UInt32.ofNat position⟩ := by
  have hposition : position < UInt32.size :=
    (List.getElem?_eq_some_iff.mp hkind).1.trans (by decide)
  apply (h.index_eq_some_iff _ _).mpr
  apply hgrown.kind_eq
  rw [kind?_eq_getElem?, kinds_initial, (raw_toNat_eq_iff hposition).mpr rfl, hkind]

/-- The predefined kinds keep the identifiers that the table of predefined kinds gave them. Each
field of the statement is one entry of that table, found by its position. -/
theorem Interned.holdsPredefined (h : table.Interned) (hgrown : initial.GrowsTo table) :
    table.HoldsPredefined := by
  have hposition (position : Nat) {kind : TypeKind}
      (hkind : TypeKind.predefined[position]? = some kind) :
      table.predefined kind = ⟨UInt32.ofNat position⟩ := by
    rw [TypeTable.predefined, h.index_predefined hgrown hkind]
    rfl
  exact {
    known := by
      intro kind hkind
      obtain ⟨position, hkind⟩ := List.mem_iff_getElem?.mp hkind
      rw [h.index_predefined hgrown hkind, hposition position hkind]
    voidType := hposition 0 rfl
    boolType := hposition 1 rfl
    intType := hposition 2 rfl
    stringType := hposition 3 rfl
    objectType := hposition 4 rfl
    dynamicType := hposition 5 rfl
    indexType := hposition 6 rfl
    rangeType := hposition 7 rfl }

/-! ## §6 The main result -/

/-- Whatever is interned from the start, while there are fewer kinds than identifiers: kinds and
identifiers stand for each other, and neither interning more nor interning again moves one. Every
state on the way is the table of a prefix of the run, so the last part speaks of all of them. -/
theorem interning_never_moves (kinds : List TypeKind)
    (hfew : (TypeKind.predefined ++ kinds).toFinset.card < UInt32.size) :
    let table := initial.internAll kinds
    let ids := initial.identifiers kinds
    table.Interned ∧ table.HoldsPredefined ∧
      table.size = (TypeKind.predefined ++ kinds).toFinset.card ∧
      ids.map table.kind? = kinds.map some ∧ (∀ id ∈ ids, id.isValid = true) ∧
      (∀ i < kinds.length, ∀ j < kinds.length, ids[i]? = ids[j]? ↔ kinds[i]? = kinds[j]?) ∧
      ∀ earlier, earlier <+: kinds →
        let before := initial.internAll earlier
        let known := initial.identifiers earlier
        known <+: ids ∧ known.map before.kind? = earlier.map some ∧
          ∀ id, (before.entry? id).isSome → AnswersAlike before table id := by
  intro table ids
  -- room is counted in distinct kinds, known ones included
  have hroom : initial.HasRoom kinds := by
    rw [HasRoom, kinds_initial, ← List.toFinset_append]
    exact hfew.le
  have hinterned : table.Interned := interned_initial.internAll hroom
  have hkinds := interned_initial.map_kind?_identifiers hroom
  have hsize : table.size = (TypeKind.predefined ++ kinds).toFinset.card := by
    rw [hinterned.size_eq_card, interned_initial.toFinset_kinds_internAll hroom, kinds_initial,
      List.toFinset_append]
  refine ⟨hinterned, hinterned.holdsPredefined (growsTo_internAll initial kinds), hsize,
    hkinds, ?_, ?_, ?_⟩
  · intro id hid
    have hknown := List.mem_map_of_mem (f := table.kind?) hid
    rw [hkinds] at hknown
    obtain ⟨kind, -, hkind⟩ := List.mem_map.mp hknown
    exact isValid_of_kind? (hsize ▸ hfew) hkind.symm
  -- the same identifier is answered for the same kind only
  · intro i hi j hj
    exact interned_initial.identifiers_eq_iff hroom hi hj
  -- anything that happened before is a prefix of the run, and the rest only adds
  · rintro earlier ⟨later, rfl⟩ before known
    have hids : ids = known ++ before.identifiers later := identifiers_append initial earlier later
    have htable : table = before.internAll later := internAll_append initial earlier later
    have hgrown : before.GrowsTo table := htable ▸ growsTo_internAll before later
    refine ⟨hids ▸ List.prefix_append _ _, ?_, fun id hknown => hgrown.answersAlike hknown⟩
    exact interned_initial.map_kind?_identifiers hroom.left

/-- Arrays of integers, of spans and of integers again, and a kind that is there from the start.
The array that comes twice has one identifier, and integers keep the one they started with. -/
theorem interning_never_moves_arrays :
    let kinds : List TypeKind :=
      [.array ⟨2⟩, .structType ⟨0⟩ "Span", .array ⟨9⟩, .array ⟨2⟩, .int]
    let table := initial.internAll kinds
    let ids := initial.identifiers kinds
    (TypeKind.predefined ++ kinds).toFinset.card < UInt32.size ∧
      table.Interned ∧ table.intType = ⟨2⟩ ∧ table.size = 11 ∧
      ids.map table.kind? = kinds.map some ∧ ids[0]? = ids[3]? ∧ ids[0]? ≠ ids[2]? := by
  intro kinds table ids
  have hcard : (TypeKind.predefined ++ kinds).toFinset.card = 11 := by decide
  have hfew : (TypeKind.predefined ++ kinds).toFinset.card < UInt32.size := by
    rw [hcard]
    decide
  obtain ⟨hinterned, hpredefined, hsize, hkinds, -, hsame, -⟩ := interning_never_moves kinds hfew
  refine ⟨hfew, hinterned, hpredefined.intType, hsize.trans hcard, hkinds, ?_, ?_⟩
  · exact (hsame 0 (by decide) 3 (by decide)).mpr rfl
  · exact fun heq => absurd ((hsame 0 (by decide) 2 (by decide)).mp heq) (by decide)

end TypeTable

end Subscript
