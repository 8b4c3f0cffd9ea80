import ValueGen.Text.Order

/-!
This module contains tables from file names to digests. The entries are kept in the order of their
names, so that equal tables have equal entries.
-/

namespace ValueGen

/--
A table of file names, each with a digest, in the order of the names.
-/
structure FileTable where
  entries : List (Text × Text)
  ordered : entries.Pairwise fun a b => Text.before a.1 b.1
  deriving DecidableEq, Repr

namespace FileTable

def empty : FileTable := ⟨[], .nil⟩

instance : Inhabited FileTable := ⟨empty⟩

def find? (name : Text) : List (Text × Text) → Option Text
  | [] => none
  | e :: es => if e.1 = name then some e.2 else find? name es

def get? (t : FileTable) (name : Text) : Option Text := find? name t.entries

def has (t : FileTable) (name : Text) : Bool := (t.get? name).isSome

def names (t : FileTable) : List Text := t.entries.map Prod.fst

def size (t : FileTable) : Nat := t.entries.length

/--
Put an entry at its place, in place of an entry with its name.
-/
def place (name hash : Text) : List (Text × Text) → List (Text × Text)
  | [] => [(name, hash)]
  | e :: es =>
    if e.1 = name then
      (name, hash) :: es
    else if Text.before e.1 name then
      e :: place name hash es
    else
      (name, hash) :: e :: es

theorem mem_place {name hash : Text} {es : List (Text × Text)} {x : Text × Text}
    (h : x ∈ place name hash es) : x = (name, hash) ∨ x ∈ es := by
  fun_induction place name hash es <;> grind

theorem place_ordered (name hash : Text) {es : List (Text × Text)}
    (h : es.Pairwise fun a b => Text.before a.1 b.1) :
    (place name hash es).Pairwise fun a b => Text.before a.1 b.1 := by
  fun_induction place name hash es with
  | case1 => simp
  | case2 e es he =>
    rw [List.pairwise_cons] at h ⊢
    exact ⟨fun x hx => he ▸ h.1 x hx, h.2⟩
  | case3 e es he hlt ih =>
    rw [List.pairwise_cons] at h ⊢
    refine ⟨fun x hx => ?_, ih h.2⟩
    rcases mem_place hx with rfl | hx
    · exact hlt
    · exact h.1 x hx
  | case4 e es he hlt =>
    have below : Text.before name e.1 :=
      Text.before_of_not_before (Bool.eq_false_iff.2 hlt) he
    rw [List.pairwise_cons]
    refine ⟨fun x hx => ?_, h⟩
    rcases List.mem_cons.1 hx with rfl | hx
    · exact below
    · exact Text.before_trans below ((List.pairwise_cons.1 h).1 x hx)

def insert (t : FileTable) (name hash : Text) : FileTable :=
  ⟨place name hash t.entries, place_ordered name hash t.ordered⟩

def insertAll (t : FileTable) (es : List (Text × Text)) : FileTable :=
  es.foldl (fun t e => t.insert e.1 e.2) t

/--
The table of a list of entries, of which the last one counts for each name.
-/
def ofList (es : List (Text × Text)) : FileTable := empty.insertAll es

theorem find?_place (name hash other : Text) (es : List (Text × Text)) :
    find? other (place name hash es) = if other = name then some hash else find? other es := by
  fun_induction place name hash es <;> grind [find?]

theorem get?_insert (t : FileTable) (name hash other : Text) :
    (t.insert name hash).get? other = if other = name then some hash else t.get? other :=
  find?_place name hash other t.entries

end FileTable

end ValueGen
