import ValueGen.Names.Camel

/-!
This module contains how a name is split into words. A separator cuts the name in two, and the words
of the name are those of its two parts. So the camel-case forms of the name are put together from
those of the parts.
-/

namespace ValueGen

namespace Camel

variable {b : UInt8}

theorem words_go_append_cons (hb : isSeparator b = true) (word t u : Text) :
    words.go word (t ++ b :: u) = words.go word t ++ words u := by
  induction t generalizing word with
  | nil =>
    rw [List.nil_append, words.go, words.go, if_pos hb]
    split
    . rfl
    . rfl
  | cons c t ih =>
    rw [List.cons_append, words.go, words.go]
    split
    . split
      . exact ih []
      . rw [ih [], List.cons_append]
    . exact ih (c :: word)

/--
A separator cuts a name in two.
-/
theorem words_append_cons (hb : isSeparator b = true) (t u : Text) :
    words (t ++ b :: u) = words t ++ words u :=
  words_go_append_cons hb [] t u

theorem words_go_append {u : Text} (hu : ∀ b ∈ u, isSeparator b = false) (word t : Text) :
    words.go word (u ++ t) = words.go (u.reverse ++ word) t := by
  induction u generalizing word with
  | nil => rfl
  | cons b u ih =>
    rw [List.forall_mem_cons] at hu
    rw [List.cons_append, words.go, if_neg (by simp [hu.1]), ih hu.2, List.reverse_cons,
      List.append_assoc]
    rfl

/--
A text without separators is a word.
-/
theorem words_eq_singleton {w : Text} (hne : w ≠ []) (hw : ∀ b ∈ w, isSeparator b = false) :
    words w = [w] := by
  have hgo := words_go_append hw [] []
  rw [List.append_nil, List.append_nil] at hgo
  rw [words, hgo, words.go, if_neg (by simpa using hne), List.reverse_reverse]

theorem words_go_eq_nil_iff (word name : Text) :
    words.go word name = [] ↔ word = [] ∧ ∀ b ∈ name, isSeparator b = true := by
  induction name generalizing word with
  | nil => simp [words.go]
  | cons b name ih =>
    rw [words.go, List.forall_mem_cons]
    split
    . next hb =>
      split
      . next hempty =>
        rw [List.isEmpty_iff] at hempty
        simp [ih, hb, hempty]
      . next hempty =>
        rw [List.isEmpty_iff] at hempty
        simp [hempty]
    . next hb => simp [ih, hb]

/--
A name has no words if it consists of separators.
-/
theorem words_eq_nil_iff (name : Text) : words name = [] ↔ ∀ b ∈ name, isSeparator b = true := by
  rw [words, words_go_eq_nil_iff]
  simp

/-! The camel-case forms of a name that is cut. -/

theorem upper_append_cons (hb : isSeparator b = true) (t u : Text) :
    upper (t ++ b :: u) = upper t ++ upper u := by
  unfold upper
  rw [words_append_cons hb, List.flatMap_append]

-- The word in lower case is among those in front of the separator.
theorem lower_append_cons (hb : isSeparator b = true) {t : Text} (ht : words t ≠ []) (u : Text) :
    lower (t ++ b :: u) = lower t ++ upper u := by
  obtain ⟨w, ws, hwords⟩ := List.exists_cons_of_ne_nil ht
  unfold lower upper
  rw [words_append_cons hb, hwords, List.cons_append]
  simp only
  rw [List.flatMap_append, List.append_assoc]

-- There is no word in front of the separator, so the first one stands behind it.
theorem lower_append_cons_of_words_eq_nil (hb : isSeparator b = true) {t : Text}
    (ht : words t = []) (u : Text) : lower (t ++ b :: u) = lower u := by
  unfold lower
  rw [words_append_cons hb, ht, List.nil_append]

theorem lower_of_words_eq_nil {t : Text} (ht : words t = []) : lower t = [] := by
  rw [lower, ht]

end Camel

end ValueGen
