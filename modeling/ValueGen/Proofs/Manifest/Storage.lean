import ValueGen.Output.Writer
import ValueGen.Proofs.Disk.Reading
import ValueGen.Proofs.Manifest.RoundTrip

/-!
This module contains that a manifest that was written to a disk is loaded from it again. A map has no
order of its own, so the entries of its table may be written in any: what is read does not depend on
it.
-/

namespace ValueGen

namespace FileTable

theorem insert_comm {a b : Text × Text} (h : a.1 = b.1 → a = b) (t : FileTable) :
    (t.insert a.1 a.2).insert b.1 b.2 = (t.insert b.1 b.2).insert a.1 a.2 := by
  by_cases hname : a.1 = b.1
  . rw [h hname]
  . apply eq_of_get?_eq
    intro name
    simp only [get?_insert]
    by_cases ha : name = a.1
    . rw [if_pos ha, if_pos ha, if_neg (fun hb => hname (ha.symm.trans hb))]
    . rw [if_neg ha, if_neg ha]

-- A table has one entry for each name, so it does not matter which of its entries comes last.
theorem ofList_of_perm {t : FileTable} {order : List (Text × Text)} (h : order.Perm t.entries) :
    ofList order = t := by
  have hcomm : ∀ a ∈ order, ∀ b ∈ order, ∀ u : FileTable,
      (u.insert a.1 a.2).insert b.1 b.2 = (u.insert b.1 b.2).insert a.1 a.2 := by
    intro a ha b hb u
    apply insert_comm
    intro hname
    have hget := t.get?_of_mem (h.subset ha)
    rw [hname, t.get?_of_mem (h.subset hb), Option.some.injEq] at hget
    exact Prod.ext hname hget.symm
  calc
    ofList order = ofList t.entries := h.foldl_eq' hcomm empty
    _ = t := ofList_entries t

theorem length_place_le (name hash : Text) (es : List (Text × Text)) :
    (place name hash es).length ≤ es.length + 1 := by
  fun_induction place name hash es with
  | case1 => simp
  | case2 e es => simp
  | case3 e es _ _ ih => simpa using ih
  | case4 e es => simp

theorem size_insertAll_le (t : FileTable) (es : List (Text × Text)) :
    (t.insertAll es).size ≤ t.size + es.length := by
  induction es generalizing t with
  | nil => exact Nat.le_refl _
  | cons e es ih =>
    have hrest := ih (t.insert e.1 e.2)
    have hfirst : (t.insert e.1 e.2).size ≤ t.size + 1 := length_place_le e.1 e.2 t.entries
    rw [List.length_cons]
    exact hrest.trans (by omega)

theorem size_ofList_le (es : List (Text × Text)) : (ofList es).size ≤ es.length := by
  have h := size_insertAll_le empty es
  have hempty : empty.size = 0 := rfl
  unfold ofList
  omega

end FileTable

namespace Manifest

variable {m : Manifest} {order : List (Text × Text)} {d e : Disk} {path : Text}

theorem load_of_write {content : Text} (h : d.write path content = .ok e) :
    load e path = match ofText? content with
      | some m => (some m, none)
      | none => (some (.new []), some (.corruptManifest path)) := by
  have hread := Disk.read_of_write h
  cases hof : ofText? content with
  | some m => simp [load, hread, hof]
  | none => simp [load, hread, hof]

-- The bytes that say how many entries there are count up to four bytes, and then start again.
theorem ofList_take_eq_iff {t : FileTable} (h : order.Perm t.entries) :
    FileTable.ofList (order.take (order.length % Word.span 4)) = t
      ↔ t.size < Word.span 4 := by
  have hlength : order.length = t.size := h.length_eq
  constructor
  . intro heq
    have hspan : 0 < Word.span 4 := by
      rw [Packed.span_four]
      omega
    have hkept := FileTable.size_ofList_le (order.take (order.length % Word.span 4))
    rw [heq, List.length_take] at hkept
    have hmod := Nat.mod_lt order.length hspan
    omega
  . intro hsize
    rw [hlength, Nat.mod_eq_of_lt hsize, ← hlength, List.take_length]
    exact FileTable.ofList_of_perm h

end Manifest

end ValueGen
