import ValueGen.Proofs.Names.Words
import ValueGen.Schema.Field

/-!
This module contains how the names that the builder uses for a field are made of those that the
value uses. They are the same unless the field is repeated. Then they have one word more at the end,
so that the accumulator can be told from the finished sequence.
-/

namespace ValueGen

namespace Camel

theorem upper_list : upper "list" = "List" := by decide +kernel

theorem lower_list : lower "list" = "list" := by decide +kernel

/--
A name has a word unless it consists of underscores and dashes.
-/
theorem words_ne_nil_iff (name : Text) : words name ≠ [] ↔ ∃ b ∈ name, b ∉ ("_-" : Text) := by
  have hmem (b : UInt8) : isSeparator b = false ↔ b ∉ ("_-" : Text) := by
    have hbytes : ("_-" : Text) = [95, 45] := rfl
    simp [isSeparator, hbytes]
  rw [ne_eq, words_eq_nil_iff]
  simp only [Classical.not_forall, Bool.not_eq_true, hmem, exists_prop]

end Camel

namespace Field

variable {f : Field}

theorem slotName_of_repeated (h : f.rule = .repeated) : f.slotName = f.name ++ 95 :: "list" := by
  rw [slotName, isRepeated, h]
  rfl

theorem slotName_of_ne_repeated (h : f.rule ≠ .repeated) : f.slotName = f.name := by
  rw [slotName, isRepeated, if_neg (by simpa using h)]

theorem builderAccessor_of_repeated (h : f.rule = .repeated) :
    f.builderAccessor = f.accessor ++ "List" := by
  rw [builderAccessor, slotName_of_repeated h, Camel.upper_append_cons (by decide),
    Camel.upper_list, accessor]

-- A name without words has nothing for the new word to be put behind, and it is in lower case then.
theorem builderVarName_of_repeated (h : f.rule = .repeated) :
    f.builderVarName = if Camel.words f.name = [] then ("list" : Text) else f.varName ++ "List" := by
  rw [builderVarName, slotName_of_repeated h]
  split
  . next hnil =>
    rw [Camel.lower_append_cons_of_words_eq_nil (by decide) hnil, Camel.lower_list]
  . next hne => rw [Camel.lower_append_cons (by decide) hne, Camel.upper_list, varName]

theorem builderVarName_eq_append_iff (h : f.rule = .repeated) :
    f.builderVarName = f.varName ++ "List" ↔ ∃ b ∈ f.name, b ∉ ("_-" : Text) := by
  rw [builderVarName_of_repeated h, ← Camel.words_ne_nil_iff]
  split
  . next hnil =>
    have hdiffer : ("list" : Text) ≠ "List" := by decide
    simp [varName, Camel.lower_of_words_eq_nil hnil, hnil, hdiffer]
  . next hne => simp [hne]

/--
The builder's names of a repeated field are those of the value with the word `List` behind them. For
the name of the slot this takes a word in the name of the field. The builder's names of any other
field are those of the value.
-/
theorem builderNames_eq (f : Field) :
    (f.rule = .repeated →
      f.builderAccessor = f.accessor ++ "List" ∧ f.setter = "Set" ++ f.accessor ++ "List"
        ∧ (f.builderVarName = f.varName ++ "List" ↔ ∃ b ∈ f.name, b ∉ ("_-" : Text)))
      ∧ (f.rule ≠ .repeated →
        f.builderAccessor = f.accessor ∧ f.builderVarName = f.varName
          ∧ f.setter = "Set" ++ f.accessor) := by
  constructor
  . intro h
    refine ⟨builderAccessor_of_repeated h, ?_, builderVarName_eq_append_iff h⟩
    rw [setter, builderAccessor_of_repeated h, List.append_assoc]
  . intro h
    have hslot := slotName_of_ne_repeated h
    refine ⟨?_, ?_, ?_⟩
    . rw [builderAccessor, hslot, accessor]
    . rw [builderVarName, hslot, varName]
    . rw [setter, builderAccessor, hslot, accessor]

/--
The name of the field has a byte that is no character, an initialism, and a dash at its end.
-/
theorem builderNames_eq_stray :
    let ids : Field := ⟨.repeated, .ofKeyword "int32", 0xFF :: "_user_id-", 1⟩
    let id : Field := { ids with rule := .required }
    ids.rule = .repeated ∧ (∃ b ∈ ids.name, b ∉ ("_-" : Text)) ∧ id.rule ≠ .repeated
      ∧ ids.builderAccessor = [0xEF, 0xBF, 0xBD] ++ ("UserIDList" : Text)
      ∧ ids.setter = "Set" ++ ids.accessor ++ "List"
      ∧ ids.builderVarName = ids.varName ++ "List"
      ∧ id.builderAccessor = id.accessor ∧ id.builderVarName = id.varName
      ∧ id.setter = "Set" ++ id.accessor := by
  intro ids id
  have hmem : ∃ b ∈ ids.name, b ∉ ("_-" : Text) := ⟨0xFF, List.mem_cons_self, by decide⟩
  have hne : id.rule ≠ .repeated := by decide
  have haccessor : ids.accessor = [0xEF, 0xBF, 0xBD] ++ ("UserID" : Text) := by decide +kernel
  obtain ⟨hbuilder, hsetter, hslot⟩ := (builderNames_eq ids).1 rfl
  rw [haccessor] at hbuilder
  exact ⟨rfl, hmem, hne, hbuilder, hsetter, hslot.2 hmem, (builderNames_eq id).2 hne⟩

-- Without a word in the name of the field, the slot has the new word only.
example : (⟨.repeated, .ofKeyword "int32", "_-", 1⟩ : Field).builderVarName = "list" := by
  decide +kernel

end Field

end ValueGen
