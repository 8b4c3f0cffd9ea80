import Mathlib.Data.Finset.Dedup
import Mathlib.Data.Finset.Card
import ValueGen.Schema.Message

/-!
This module contains what the index of the fields of a message comes to. The ids and the names are
indexed apart from each other: each of the two indexes holds the earliest field for every key, and a
field that comes too late for one of them is entered in the other one all the same. So a message is
valid exactly if its fields differ from each other in their ids and in their names.
-/

namespace ValueGen

def Field.Differs (f g : Field) : Prop := f.id ≠ g.id ∧ f.name ≠ g.name

namespace FieldIndex

variable {κ : Type} [DecidableEq κ] {key : Field → κ}

/--
The collision of a field with the earliest one of the fields before it that has its key.
-/
def clash (kind : CollisionKind) (key : Field → κ) (earlier : List Field) (f : Field) :
    List Collision :=
  ((earlier.find? fun e => key e = key f).map (⟨kind, ·, f⟩)).toList

/--
The collisions of a list of fields, field by field: first the one of its id, then the one of its
name.
-/
def clashes (fs : List Field) : List Collision :=
  fs.zipIdx.flatMap fun (f, i) =>
    clash .id Field.id (fs.take i) f ++ clash .name Field.name (fs.take i) f

theorem clashes_append_singleton (fs : List Field) (f : Field) :
    clashes (fs ++ [f]) = clashes fs ++ clash .id Field.id fs f ++ clash .name Field.name fs f := by
  have hearlier : ∀ p ∈ fs.zipIdx, (fs ++ [f]).take p.2 = fs.take p.2 := by
    intro p hp
    exact List.take_append_of_le_length (List.snd_lt_of_mem_zipIdx hp).le
  unfold clashes
  rw [List.zipIdx_append, List.flatMap_append, List.append_assoc]
  congr 1
  . apply List.flatMap_congr
    intro p hp
    simp only [hearlier p hp]
  . simp

/--
The entries are those of an index that the fields were entered into: the earliest field for each key,
and no entry more than there are keys.
-/
structure Indexes [BEq κ] (key : Field → κ) (entries : List (κ × Field)) (fs : List Field) : Prop where
  lookup : ∀ k, entries.lookup k = fs.find? fun f => key f = k
  length : entries.length = (fs.map key).toFinset.card

namespace Indexes

variable [BEq κ] {entries : List (κ × Field)} {fs : List Field}

theorem nil (key : Field → κ) : Indexes key [] [] where
  lookup _ := rfl
  length := rfl

/--
A field is either a new entry, or it collides with the entry that is there.
-/
theorem enter [LawfulBEq κ] (h : Indexes key entries fs) (kind : CollisionKind) (f : Field) :
    Indexes key (enter kind key entries f).1 (fs ++ [f])
      ∧ (FieldIndex.enter kind key entries f).2 = clash kind key fs f
      ∧ (FieldIndex.enter kind key entries f).1.length + (clash kind key fs f).length
          = entries.length + 1 := by
  have hkeys : (fs ++ [f]).map key = fs.map key ++ [key f] := by simp
  unfold FieldIndex.enter clash
  rw [h.lookup (key f)]
  cases hfind : fs.find? fun e => key e = key f with
  | some e =>
    have hmem : key f ∈ fs.map key := by
      have heq : key e = key f := by simpa using List.find?_some hfind
      rw [← heq]
      exact List.mem_map_of_mem (List.mem_of_find?_eq_some hfind)
    refine ⟨⟨?_, ?_⟩, rfl, rfl⟩
    . intro k
      rw [List.find?_append, h.lookup k]
      by_cases hk : key f = k
      . simp [← hk, hfind]
      . simp [hk]
    . rw [hkeys, List.toFinset_append, h.length]
      simp [hmem]
  | none =>
    have hmem : key f ∉ fs.map key := by
      rw [List.find?_eq_none] at hfind
      simpa using hfind
    refine ⟨⟨?_, ?_⟩, rfl, ?_⟩
    . intro k
      rw [List.find?_append, List.lookup_append, h.lookup k]
      by_cases hk : key f = k
      . simp [hk]
      . have hne : (k == key f) = false := by simpa using Ne.symm hk
        simp [hk, List.lookup_cons, hne]
    . rw [hkeys, List.toFinset_append, Finset.union_comm, List.length_append, h.length]
      simp [hmem]
    . simp

theorem lookup_eq_some_iff (h : Indexes key entries fs) (k : κ) (f : Field) :
    entries.lookup k = some f
      ↔ ∃ before after, fs = before ++ f :: after ∧ key f = k ∧ ∀ e ∈ before, key e ≠ k := by
  rw [h.lookup k, List.find?_eq_some_iff_append]
  constructor
  . rintro ⟨hkey, before, after, rfl, hbefore⟩
    exact ⟨before, after, rfl, by simpa using hkey, by simpa using hbefore⟩
  . rintro ⟨before, after, rfl, hkey, hbefore⟩
    exact ⟨by simpa using hkey, before, after, rfl, by simpa using hbefore⟩

theorem lookup_eq_none_iff (h : Indexes key entries fs) (k : κ) :
    entries.lookup k = none ↔ ∀ f ∈ fs, key f ≠ k := by
  rw [h.lookup k, List.find?_eq_none]
  simp

theorem length_le (h : Indexes key entries fs) : entries.length ≤ fs.length := by
  rw [h.length]
  simpa using List.toFinset_card_le (fs.map key)

theorem length_eq_iff (h : Indexes key entries fs) :
    entries.length = fs.length ↔ (fs.map key).Nodup := by
  rw [h.length]
  constructor
  . intro hcard
    rw [← Multiset.coe_nodup, ← Multiset.toFinset_card_eq_card_iff_nodup]
    simpa using hcard
  . intro hnodup
    simpa using List.toFinset_card_of_nodup hnodup

end Indexes

/--
The index is the one after a list of fields. Every field is one entry or one collision for each of
its two keys.
-/
structure IsAfter (index : FieldIndex) (fs : List Field) : Prop where
  byId : Indexes Field.id index.byId fs
  byName : Indexes Field.name index.byName fs
  collisions : index.collisions = clashes fs
  count : index.collisions.length + index.byId.length + index.byName.length = 2 * fs.length

theorem empty_isAfter : empty.IsAfter [] where
  byId := .nil _
  byName := .nil _
  collisions := rfl
  count := rfl

theorem IsAfter.add {index : FieldIndex} {fs : List Field} (h : index.IsAfter fs) (f : Field) :
    (index.add f).IsAfter (fs ++ [f]) := by
  obtain ⟨hid, hidClash, hidCount⟩ := h.byId.enter .id f
  obtain ⟨hname, hnameClash, hnameCount⟩ := h.byName.enter .name f
  have hcount := h.count
  constructor
  . exact hid
  . exact hname
  . simp only [FieldIndex.add]
    rw [clashes_append_singleton, h.collisions, hidClash, hnameClash]
  . simp only [FieldIndex.add, List.length_append, hidClash, hnameClash, List.length_singleton]
    omega

theorem ofFields_isAfter (fs : List Field) : (ofFields fs).IsAfter fs := by
  induction fs using List.reverseRecOn with
  | nil => exact empty_isAfter
  | append_singleton fs f ih =>
    rw [ofFields, List.foldl_append]
    exact ih.add f

end FieldIndex

namespace Message

theorem index_isAfter (m : Message) : m.index.IsAfter m.fields := FieldIndex.ofFields_isAfter m.fields

theorem isValid_iff_nodup (m : Message) :
    m.isValid = true ↔ (m.fields.map Field.id).Nodup ∧ (m.fields.map Field.name).Nodup := by
  have h := m.index_isAfter
  have hid := h.byId.length_le
  have hname := h.byName.length_le
  have hcount := h.count
  rw [isValid, collisions, List.isEmpty_iff, ← List.length_eq_zero_iff, ← h.byId.length_eq_iff,
    ← h.byName.length_eq_iff]
  omega

theorem isValid_iff (m : Message) : m.isValid = true ↔ m.fields.Pairwise Field.Differs := by
  rw [isValid_iff_nodup, List.Nodup, List.Nodup, List.pairwise_map, List.pairwise_map,
    ← List.pairwise_and_iff]
  rfl

/--
The message is the one of the given fields: it keeps them in their order, tells all of their
collisions and nothing else, and finds the earliest field for an id or a name.
-/
structure IsOf (m : Message) (fs : List Field) : Prop where
  fields : m.fields = fs
  collisions : m.collisions = FieldIndex.clashes fs
  count : m.collisions.length
    = (fs.length - (fs.map Field.id).toFinset.card) + (fs.length - (fs.map Field.name).toFinset.card)
  valid : m.isValid = true ↔ (fs.map Field.id).Nodup ∧ (fs.map Field.name).Nodup
  foundById : ∀ id f, m.fieldById? id = some f
    ↔ ∃ before after, fs = before ++ f :: after ∧ f.id = id ∧ ∀ e ∈ before, e.id ≠ id
  notFoundById : ∀ id, m.fieldById? id = none ↔ ∀ f ∈ fs, f.id ≠ id
  foundByName : ∀ name f, m.fieldByName? name = some f
    ↔ ∃ before after, fs = before ++ f :: after ∧ f.name = name ∧ ∀ e ∈ before, e.name ≠ name
  notFoundByName : ∀ name, m.fieldByName? name = none ↔ ∀ f ∈ fs, f.name ≠ name

theorem isOf_mk (name : Text) (fs : List Field) : (mk name fs).IsOf fs := by
  have h : (mk name fs).index.IsAfter fs := index_isAfter _
  have hcount := h.count
  have hid := h.byId.length_le
  have hname := h.byName.length_le
  rw [h.byId.length, h.byName.length] at hcount
  rw [h.byId.length] at hid
  rw [h.byName.length] at hname
  constructor
  . rfl
  . exact h.collisions
  . rw [collisions]
    omega
  . exact isValid_iff_nodup _
  . exact h.byId.lookup_eq_some_iff
  . exact h.byId.lookup_eq_none_iff
  . exact h.byName.lookup_eq_some_iff
  . exact h.byName.lookup_eq_none_iff

-- The third field comes too late for its name, and the last one collides with it all the same.
example :
    let field (name : Text) (id : Int) : Field := ⟨.optional, ⟨.int32, []⟩, name, id⟩
    (mk "M" [field "a" 1, field "b" 1, field "a" 2, field "c" 2]).collisions
      = [⟨.id, field "a" 1, field "b" 1⟩, ⟨.name, field "a" 1, field "a" 2⟩,
        ⟨.id, field "a" 2, field "c" 2⟩] := by
  decide

end Message

end ValueGen
