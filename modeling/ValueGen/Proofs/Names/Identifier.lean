import ValueGen.Proofs.Names.Camel

/-!
This module contains that camel-case names of declared names are identifiers. A declared name is
one of ASCII letters, digits and underscores that begins with a letter; splitting it into words and
putting them together again never gives anything else, and keeps the letter at the start.
-/

namespace ValueGen

namespace Ascii

/--
Is the byte a letter, a digit or an underscore?
-/
def isWordByte (b : UInt8) : Bool := isLetter b || isDigit b || b == 95

theorem lt_of_isWordByte {b : UInt8} (h : isWordByte b = true) : b < 0x80 := by
  rw [isWordByte, Bool.or_eq_true, Bool.or_eq_true] at h
  obtain (hletter | hdigit) | hunder := h
  . exact lt_of_isLetter hletter
  . rw [isDigit, Bool.and_eq_true, decide_eq_true_eq, decide_eq_true_eq] at hdigit
    exact UInt8.lt_of_le_of_lt hdigit.2 (by decide)
  . rw [beq_iff_eq.1 hunder]
    decide

theorem isWordByte_of_isLetter {b : UInt8} (h : isLetter b = true) : isWordByte b = true := by
  rw [isWordByte, h, Bool.true_or, Bool.true_or]

theorem isLower_toLower {b : UInt8} (h : isLetter b = true) : isLower (toLower b) = true := by
  grind [isLetter, isLower, isUpper, toLower]

theorem not_isSeparator_of_isLetter {b : UInt8} (h : isLetter b = true) :
    Camel.isSeparator b = false := by
  grind [Camel.isSeparator, isLetter, isLower, isUpper]

theorem isWordByte_toUpper {b : UInt8} (h : isWordByte b = true) :
    isWordByte (toUpper b) = true := by
  grind [isWordByte, isDigit, isLetter, isLower, isUpper, toUpper]

theorem isWordByte_toLower {b : UInt8} (h : isWordByte b = true) :
    isWordByte (toLower b) = true := by
  grind [isWordByte, isDigit, isLetter, isLower, isUpper, toLower]

theorem isStart_and_isInner {b : UInt8} (hb : b < 0x80) :
    (isLetter b = true → Identifier.isStart (Char.ofNat b.toNat) = true)
      ∧ (isWordByte b = true → Identifier.isInner (Char.ofNat b.toNat) = true) :=
  forall_ascii (p := fun b => (isLetter b = true → Identifier.isStart (Char.ofNat b.toNat) = true)
    ∧ (isWordByte b = true → Identifier.isInner (Char.ofNat b.toNat) = true))
    (by decide +kernel) hb

end Ascii

theorem Text.chars_of_ascii {t : Text} (h : ∀ b ∈ t, b < 0x80) :
    t.chars = t.map fun b => Char.ofNat b.toNat := by
  induction t with
  | nil => rfl
  | cons b t ih =>
    rw [List.forall_mem_cons] at h
    rw [List.map_cons, ← ih h.2, chars, glyphs_cons h.1]
    rfl

namespace Identifier

/--
The name consists of letters, digits and underscores of ASCII.
-/
def IsSpelled (name : Text) : Prop := ∀ b ∈ name, Ascii.isWordByte b = true

/--
The name can be declared in a source: it consists of letters, digits and underscores of ASCII, and
it begins with a letter.
-/
structure IsDeclared (name : Text) : Prop where
  letter : name.head?.any Ascii.isLetter = true
  spelled : IsSpelled name

instance (name : Text) : Decidable (IsSpelled name) :=
  decidable_of_iff (name.all Ascii.isWordByte = true) List.all_eq_true

instance (name : Text) : Decidable (IsDeclared name) :=
  decidable_of_iff (name.head?.any Ascii.isLetter = true ∧ IsSpelled name)
    ⟨fun h => ⟨h.1, h.2⟩, fun h => ⟨h.letter, h.spelled⟩⟩

theorem IsSpelled.append {name more : Text} (h : IsSpelled name) (hmore : IsSpelled more) :
    IsSpelled (name ++ more) :=
  List.forall_mem_append.2 ⟨h, hmore⟩

theorem IsDeclared.exists_cons {name : Text} (h : IsDeclared name) :
    ∃ b t, name = b :: t ∧ Ascii.isLetter b = true := by
  cases name with
  | nil => cases h.letter
  | cons b t => exact ⟨b, t, rfl, h.letter⟩

theorem IsDeclared.append {name more : Text} (h : IsDeclared name) (hmore : IsSpelled more) :
    IsDeclared (name ++ more) := by
  refine ⟨?_, h.spelled.append hmore⟩
  obtain ⟨b, t, rfl, hletter⟩ := h.exists_cons
  exact hletter

theorem isWord_cons {b : UInt8} {t : Text} (hb : Ascii.isLetter b = true ∨ b = 95)
    (ht : IsSpelled t) : isWord (b :: t) = true := by
  have hword : Ascii.isWordByte b = true := by
    rcases hb with hletter | rfl
    . exact Ascii.isWordByte_of_isLetter hletter
    . rfl
  have hstart : isStart (Char.ofNat b.toNat) = true := by
    rcases hb with hletter | rfl
    . exact (Ascii.isStart_and_isInner (Ascii.lt_of_isLetter hletter)).1 hletter
    . rfl
  have hinner : ∀ c ∈ t, isInner (Char.ofNat c.toNat) = true :=
    fun c hc => (Ascii.isStart_and_isInner (Ascii.lt_of_isWordByte (ht c hc))).2 (ht c hc)
  have hascii : ∀ c ∈ b :: t, c < 0x80 :=
    List.forall_mem_cons.2 ⟨Ascii.lt_of_isWordByte hword, fun c hc =>
      Ascii.lt_of_isWordByte (ht c hc)⟩
  rw [isWord, Text.chars_of_ascii hascii, List.map_cons]
  simpa [hstart, List.all_map] using hinner

theorem IsDeclared.isWord {name : Text} (h : IsDeclared name) : isWord name = true := by
  obtain ⟨b, t, rfl, hletter⟩ := h.exists_cons
  exact isWord_cons (.inl hletter) (List.forall_mem_cons.1 h.spelled).2

theorem not_isKeyword_of_isExported {name : Text} (h : isExported name = true) :
    isKeyword name = false := by
  have hnone : ∀ k ∈ keywords, isExported k = false := by decide
  rw [isKeyword, List.contains_eq_mem, decide_eq_false_iff_not]
  intro hmem
  rw [hnone name hmem] at h
  cases h

theorem IsSpelled.isValid_of_isExported {name : Text} (h : IsSpelled name)
    (hexported : isExported name = true) : isValid name = true := by
  cases name with
  | nil => cases hexported
  | cons b t =>
    have hletter : Ascii.isLetter b = true := by
      rw [Ascii.isLetter, show Ascii.isUpper b = true from hexported, Bool.true_or]
    rw [isValid, isWord_cons (.inl hletter) (List.forall_mem_cons.1 h).2,
      not_isKeyword_of_isExported hexported]
    rfl

end Identifier

theorem Initialism.isSpelled_of_mem_known {w : Text} (h : w ∈ known) : Identifier.IsSpelled w := by
  have hall : ∀ w ∈ known, Identifier.IsSpelled w := by decide
  exact hall w h

namespace Camel

open Identifier (IsSpelled IsDeclared)

/-! The words of a name. -/

theorem mem_of_mem_words_go {word name w : Text} (h : w ∈ words.go word name) :
    ∀ b ∈ w, b ∈ word ∨ b ∈ name := by
  induction name generalizing word with
  | nil =>
    unfold words.go at h
    split at h
    . cases h
    . rw [List.mem_singleton.1 h]
      intro b hb
      exact .inl (List.mem_reverse.1 hb)
  | cons c name ih =>
    have hdeeper {word : Text} (h : w ∈ words.go word name) (b : UInt8) (hb : b ∈ w) :
        b ∈ word ∨ b ∈ c :: name :=
      (ih h b hb).imp_right (List.mem_cons_of_mem c)
    intro b hb
    unfold words.go at h
    split at h
    . split at h
      . exact (hdeeper h b hb).imp_left (by simp)
      . rcases List.mem_cons.1 h with rfl | h
        . exact .inl (List.mem_reverse.1 hb)
        . exact (hdeeper h b hb).imp_left (by simp)
    . rcases hdeeper h b hb with hword | hname
      . rcases List.mem_cons.1 hword with rfl | hword
        . exact .inr List.mem_cons_self
        . exact .inl hword
      . exact .inr hname

theorem isSpelled_of_mem_words {name w : Text} (h : IsSpelled name) (hw : w ∈ words name) :
    IsSpelled w := by
  intro b hb
  exact h b ((mem_of_mem_words_go hw b hb).resolve_left (by simp))

theorem exists_words_go {word : Text} (hword : word ≠ []) (name : Text) :
    ∃ more ws, words.go word name = (word.reverse ++ more) :: ws := by
  induction name generalizing word with
  | nil =>
    refine ⟨[], [], ?_⟩
    rw [words.go, if_neg (by simpa using hword), List.append_nil]
  | cons b name ih =>
    unfold words.go
    split
    . rw [if_neg (by simpa using hword)]
      exact ⟨[], _, by rw [List.append_nil]⟩
    . obtain ⟨more, ws, hmore⟩ := ih (List.cons_ne_nil b word)
      rw [hmore, List.reverse_cons, List.append_assoc]
      exact ⟨_, ws, rfl⟩

-- The first word begins with the letter that the name begins with.
theorem exists_words_of_isDeclared {name : Text} (h : IsDeclared name) :
    ∃ b w ws, words name = (b :: w) :: ws ∧ Ascii.isLetter b = true := by
  obtain ⟨b, t, rfl, hletter⟩ := h.exists_cons
  have hseparator := Ascii.not_isSeparator_of_isLetter hletter
  obtain ⟨more, ws, hmore⟩ := exists_words_go (List.cons_ne_nil b []) t
  refine ⟨b, more, ws, ?_, hletter⟩
  unfold words words.go
  rw [hseparator]
  exact hmore

/-! Words inside a name and at its head. -/

theorem isSpelled_inner {w : Text} (h : IsSpelled w) : IsSpelled (inner w) := by
  unfold inner
  cases hword : Initialism.ofWord? w with
  | some k => exact Initialism.isSpelled_of_mem_known (List.mem_of_find?_eq_some hword)
  | none =>
    cases w with
    | nil => exact h
    | cons b t =>
      obtain ⟨hb, ht⟩ := List.forall_mem_cons.1 h
      rw [Option.getD_none, capitalize, if_pos (Ascii.lt_of_isWordByte hb)]
      exact List.forall_mem_cons.2 ⟨Ascii.isWordByte_toUpper hb, ht⟩

theorem isDeclared_head {b : UInt8} {t : Text} (hletter : Ascii.isLetter b = true)
    (ht : IsSpelled t) : IsDeclared (head (b :: t)) := by
  have hlower : Ascii.isLetter (Ascii.toLower b) = true := by
    rw [Ascii.isLetter, Ascii.isLower_toLower hletter, Bool.or_true]
  have hfirst := Ascii.isWordByte_of_isLetter hlower
  unfold head
  split
  . refine ⟨hlower, List.forall_mem_cons.2 ⟨hfirst, ?_⟩⟩
    intro c hc
    obtain ⟨a, ha, rfl⟩ := List.mem_map.1 hc
    exact Ascii.isWordByte_toLower (ht a ha)
  . have hb := Ascii.lt_of_isLetter hletter
    unfold uncapitalize
    dsimp only
    rw [Glyph.leading_of_ascii hb, Glyph.ofAscii, Ascii.ofChar_toLowerCase hb]
    exact ⟨hlower, List.forall_mem_cons.2 ⟨hfirst, ht⟩⟩

theorem isSpelled_flatMap_inner {ws : List Text} (h : ∀ w ∈ ws, IsSpelled w) :
    IsSpelled (ws.flatMap inner) := by
  intro b hb
  obtain ⟨w, hw, hmem⟩ := List.mem_flatMap.1 hb
  exact isSpelled_inner (h w hw) b hmem

/--
The form with a capital in front of every word is an identifier that is visible outside of its
package.
-/
theorem isExported_upper_of_isDeclared {name : Text} (h : IsDeclared name) :
    Identifier.isExported (upper name) = true ∧ IsSpelled (upper name) := by
  obtain ⟨b, w, ws, hwords, hletter⟩ := exists_words_of_isDeclared h
  refine ⟨?_, isSpelled_flatMap_inner fun w hw => isSpelled_of_mem_words h.spelled hw⟩
  unfold upper
  rw [hwords, List.flatMap_cons]
  exact Identifier.isExported_append (isExported_inner (.inr ⟨b, w, rfl, hletter⟩)) _

/--
The form that starts in lower case could be declared too.
-/
theorem isDeclared_lower {name : Text} (h : IsDeclared name) : IsDeclared (lower name) := by
  obtain ⟨b, w, ws, hwords, hletter⟩ := exists_words_of_isDeclared h
  have hspelled : ∀ v ∈ (b :: w) :: ws, IsSpelled v := by
    intro v hv
    rw [← hwords] at hv
    exact isSpelled_of_mem_words h.spelled hv
  rw [List.forall_mem_cons] at hspelled
  unfold lower
  rw [hwords]
  exact (isDeclared_head hletter (List.forall_mem_cons.1 hspelled.1).2).append
    (isSpelled_flatMap_inner hspelled.2)

end Camel

end ValueGen
