import ValueGen.Schema.Primitive
import ValueGen.Schema.Rule

/-!
This module contains which texts are keywords of rules and of primitive types, and what the other
texts stand for as types.
-/

namespace ValueGen

theorem Rule.ofKeyword?_eq_some_iff (t : Text) (r : Rule) :
    ofKeyword? t = some r ↔ r.isValid = true ∧ r.keyword = t := by
  constructor
  . exact isValid_of_ofKeyword?
  . rintro ⟨hvalid, rfl⟩
    exact ofKeyword?_keyword r hvalid

theorem Rule.ofKeyword?_isSome_iff (t : Text) :
    (ofKeyword? t).isSome = true ↔ t = "optional" ∨ t = "required" ∨ t = "repeated" := by
  rw [Option.isSome_iff_exists]
  constructor
  . rintro ⟨r, h⟩
    rw [ofKeyword?_eq_some_iff] at h
    rw [← h.2]
    cases r with
    | invalid => cases h.1
    | optional => exact .inl rfl
    | required => exact .inr (.inl rfl)
    | repeated => exact .inr (.inr rfl)
  . rintro (rfl | rfl | rfl)
    . exact ⟨.optional, by decide⟩
    . exact ⟨.required, by decide⟩
    . exact ⟨.repeated, by decide⟩

namespace FieldType

def primitiveKeywords : List Text :=
  ["int32", "int64", "float", "double", "bool", "bytes", "string"]

theorem primitiveKeywords_eq : primitiveKeywords = Primitive.all.map Primitive.keyword := rfl

theorem ofKeyword_keyword : ∀ p ∈ Primitive.all, ofKeyword p.keyword = ⟨p, []⟩ := by
  decide

theorem ofKeyword_of_mem {t : Text} (h : t ∈ primitiveKeywords) :
    ∃ p ∈ Primitive.all, p.keyword = t ∧ ofKeyword t = ⟨p, []⟩ := by
  rw [primitiveKeywords_eq, List.mem_map] at h
  obtain ⟨p, hp, rfl⟩ := h
  exact ⟨p, hp, rfl, ofKeyword_keyword p hp⟩

theorem ofKeyword_of_not_mem {t : Text} (h : t ∉ primitiveKeywords) :
    ofKeyword t = ⟨.none, t⟩ := by
  have hnone : Primitive.ofKeyword t = .none := by
    unfold Primitive.ofKeyword
    rw [List.find?_eq_none.2]
    . rfl
    . intro p hp hkey
      apply h
      rw [primitiveKeywords_eq, List.mem_map]
      exact ⟨p, hp, by simpa using hkey⟩
  unfold ofKeyword
  rw [hnone]

theorem isMessage_ofKeyword_iff (t : Text) :
    (ofKeyword t).isMessage = true ↔ t ≠ [] ∧ t ∉ primitiveKeywords := by
  by_cases h : t ∈ primitiveKeywords
  . obtain ⟨p, hp, -, heq⟩ := ofKeyword_of_mem h
    rw [heq]
    simp [isMessage, h]
  . rw [ofKeyword_of_not_mem h]
    simp [isMessage, h]

theorem message_ofKeyword_of_isMessage {t : Text} (h : (ofKeyword t).isMessage = true) :
    (ofKeyword t).message = t := by
  rw [isMessage_ofKeyword_iff] at h
  rw [ofKeyword_of_not_mem h.2]

end FieldType

end ValueGen
