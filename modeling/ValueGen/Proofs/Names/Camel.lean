import ValueGen.Names.Camel
import ValueGen.Proofs.Text.Glyph
import ValueGen.Text.Identifier

/-!
This module contains how camel-case names begin. If the name with a capital in front of every word
is a word of the target language, it begins with an upper-case letter of ASCII, and the same name
with its first word in lower case begins with a lower-case letter.
-/

namespace ValueGen

namespace Identifier

/--
The name is visible outside of its package: it begins with an upper-case letter of ASCII.
-/
def isExported (name : Text) : Bool := name.head?.any Ascii.isUpper

/--
Is the character a lower-case letter whose upper-case form is a letter of ASCII? Beyond ASCII there
are two of them, the dotless i and the long s.
-/
def isSmall (c : Char) : Bool := ('a' ≤ c && c ≤ 'z') || c == 'ı' || c == 'ſ'

/--
The name is kept inside its package: it begins with an underscore or with a lower-case letter.
-/
def isHidden (name : Text) : Bool := name.chars.head?.any fun c => c == '_' || isSmall c

theorem isExported_append {name : Text} (h : isExported name = true) (more : Text) :
    isExported (name ++ more) = true := by
  cases name with
  | nil => cases h
  | cons b t => exact h

theorem isStart_of_isWord {b : UInt8} {t : Text} (h : isWord (b :: t) = true) :
    isStart (Glyph.leading b t).char = true := by
  change (isStart (Glyph.leading b t).char && _) = true at h
  rw [Bool.and_eq_true] at h
  exact h.1

-- The character that a stray byte is replaced by is not a letter.
theorem not_isWord_replacement (t : Text) :
    isWord (Text.ofChar Glyph.replacement ++ t) ≠ true := by
  intro h
  have hbytes : Text.ofChar Glyph.replacement = [0xEF, 0xBF, 0xBD] := by decide
  have hchar : (Glyph.leading 0xEF (0xBF :: 0xBD :: t)).char = Glyph.replacement := by
    simp [Glyph.leading, Glyph.isSecond, Glyph.isTail, Glyph.replacement]
  rw [hbytes, List.cons_append, List.cons_append, List.cons_append, List.nil_append] at h
  have hstart := isStart_of_isWord h
  rw [hchar] at hstart
  have hreplaced : isStart Glyph.replacement = false := by decide +kernel
  exact Bool.eq_false_iff.1 hreplaced hstart

theorem isHidden_cons {b : UInt8} {t : Text}
    (h : isSmall (Glyph.leading b t).char = true) : isHidden (b :: t) = true := by
  change ((Glyph.leading b t).char == '_' || isSmall (Glyph.leading b t).char) = true
  rw [h, Bool.or_true]

end Identifier

namespace Ascii

theorem forall_ascii {p : UInt8 → Prop} (h : ∀ n < 128, p (UInt8.ofNat n)) {b : UInt8}
    (hb : b < 0x80) : p b := by
  have hn := h b.toNat (UInt8.lt_iff_toNat_lt.1 hb)
  rwa [UInt8.ofNat_toNat] at hn

theorem lt_of_isUpper {b : UInt8} (h : isUpper b = true) : b < 0x80 := by
  unfold isUpper at h
  rw [Bool.and_eq_true, decide_eq_true_eq, decide_eq_true_eq] at h
  exact UInt8.lt_of_le_of_lt h.2 (by decide)

theorem lt_of_isLetter {b : UInt8} (h : isLetter b = true) : b < 0x80 := by
  rw [isLetter, Bool.or_eq_true] at h
  rcases h with h | h
  . exact lt_of_isUpper h
  . unfold isLower at h
    rw [Bool.and_eq_true, decide_eq_true_eq, decide_eq_true_eq] at h
    exact UInt8.lt_of_le_of_lt h.2 (by decide)

theorem toLower_of_not_ascii {b : UInt8} (hb : ¬ b < 0x80) : toLower b = b := by
  rw [toLower, if_neg]
  exact fun h => hb (lt_of_isUpper h)

theorem toUpper_of_not_ascii {b : UInt8} (hb : ¬ b < 0x80) : toUpper b = b := by
  rw [toUpper, if_neg]
  exact fun h => hb (lt_of_isLetter (by rw [isLetter, h, Bool.or_true]))

theorem map_toLower_of_not_ascii {t : Text} (h : ∀ b ∈ t, ¬ b < 0x80) : t.map toLower = t := by
  refine (List.map_congr_left (g := id) ?_).trans (List.map_id t)
  exact fun b hb => toLower_of_not_ascii (h b hb)

theorem isUpper_toUpper {b : UInt8} (h : isLetter b = true) : isUpper (toUpper b) = true := by
  grind [isLetter, isLower, isUpper, toUpper]

theorem isLetter_of_isUpper_toUpper {b : UInt8} (h : isUpper (toUpper b) = true) :
    isLetter b = true := by
  grind [isLetter, isLower, isUpper, toUpper]

-- A digit is not at the start of a word of the language.
theorem isLetter_of_isWord_toUpper {b : UInt8} {t : Text} (hb : b < 0x80)
    (hseparator : Camel.isSeparator b = false)
    (h : Identifier.isWord (toUpper b :: t) = true) : isLetter b = true := by
  obtain ⟨hlow, hletter⟩ := forall_ascii (p := fun b => toUpper b < 0x80
    ∧ (Camel.isSeparator b = false → Identifier.isStart (Char.ofNat (toUpper b).toNat) = true
      → isLetter b = true)) (by decide +kernel) hb
  have hstart := Identifier.isStart_of_isWord h
  rw [Glyph.leading_of_ascii hlow] at hstart
  exact hletter hseparator hstart

-- The lower-case form of a letter is a letter of ASCII too.
theorem isSmall_toLower {b : UInt8} (h : isLetter b = true) (t : Text) :
    Identifier.isSmall (Glyph.leading (toLower b) t).char = true := by
  obtain ⟨hlow, hsmall⟩ := forall_ascii (p := fun b => isLetter b = true → toLower b < 0x80
    ∧ Identifier.isSmall (Char.ofNat (toLower b).toNat) = true) (by decide +kernel)
    (lt_of_isLetter h) h
  rw [Glyph.leading_of_ascii hlow]
  exact hsmall

theorem ofChar_toLowerCase {b : UInt8} (hb : b < 0x80) :
    Text.ofChar (toLowerCase (Char.ofNat b.toNat)) = [toLower b] :=
  forall_ascii (p := fun b => Text.ofChar (toLowerCase (Char.ofNat b.toNat)) = [toLower b])
    (by decide +kernel) hb

end Ascii

namespace Initialism

theorem isExported_of_mem_known {w : Text} (h : w ∈ known) : Identifier.isExported w = true := by
  have hall : ∀ w ∈ known, Identifier.isExported w = true := by decide
  exact hall w h

theorem ofWord?_eq_none_iff (w : Text) : ofWord? w = none ↔ isSpelledBy w = false := by
  unfold ofWord? isSpelledBy
  rw [List.find?_eq_none, List.contains_eq_mem, decide_eq_false_iff_not]
  constructor
  . intro h hmem
    exact h _ hmem (beq_self_eq_true _)
  . intro h k hk heq
    exact h (beq_iff_eq.1 heq ▸ hk)

-- Beyond ASCII, only the dotless i and the long s have an upper-case form in ASCII.
theorem small_of_isExported_upper {b : UInt8} {t rest : Text} (hb : ¬ b < 0x80)
    (h : Identifier.isExported (upper (Glyph.leading b t) ++ rest) = true) :
    1 < (Glyph.leading b t).bytes.length
      ∧ ((Glyph.leading b t).char = 'ı' ∨ (Glyph.leading b t).char = 'ſ') := by
  have hfirst := Glyph.head?_bytes_leading b t
  have hnot (more : Text) : Identifier.isExported (b :: more) ≠ true :=
    fun hupper => hb (Ascii.lt_of_isUpper hupper)
  unfold upper at h
  split at h
  . next c hbytes =>
    rw [hbytes, List.head?_cons, Option.some.injEq] at hfirst
    rw [hfirst, Ascii.toUpper_of_not_ascii hb] at h
    exact absurd h (hnot _)
  . next hmany =>
    refine ⟨Glyph.one_lt_length_bytes_leading hmany, ?_⟩
    split at h
    . next hchar => exact .inl (beq_iff_eq.1 hchar)
    . split at h
      . next hchar => exact .inr (beq_iff_eq.1 hchar)
      . obtain ⟨more, hmore⟩ := List.head?_eq_some_iff.1 hfirst
        rw [hmore] at h
        exact absurd h (hnot _)

theorem not_ascii_of_small {b c : UInt8} {t : Text}
    (hchar : (Glyph.leading b t).char = 'ı' ∨ (Glyph.leading b t).char = 'ſ')
    (hc : c ∈ (Glyph.leading b t).bytes) : ¬ c < 0x80 := by
  intro hlow
  have hval : (Char.ofNat c.toNat).toNat < 0x80 := by
    rw [Char.ofNat, dif_pos (.inl (Nat.lt_trans c.toNat_lt (by decide)))]
    exact UInt8.lt_iff_toNat_lt.1 hlow
  rw [Glyph.char_leading_of_mem hc hlow] at hchar
  rcases hchar with hchar | hchar
  all_goals
    rw [hchar] at hval
    exact absurd hval (by decide)

-- An initialism begins with a letter, so the first character of what spells it has a letter of
-- ASCII as its upper-case form.
theorem isSmall_of_isSpelledBy {b : UInt8} {t : Text} (h : isSpelledBy (b :: t) = true)
    (rest : Text) :
    Identifier.isSmall (Glyph.leading (Ascii.toLower b) (t.map Ascii.toLower ++ rest)).char
      = true := by
  have hspelled : Identifier.isExported (spelling (b :: t)) = true := by
    unfold isSpelledBy at h
    rw [List.contains_eq_mem, decide_eq_true_eq] at h
    exact isExported_of_mem_known h
  have hhead : spelling (b :: t)
      = upper (Glyph.leading b t)
        ++ (Text.glyphs.go ((Glyph.leading b t).bytes.length - 1) t).flatMap upper := rfl
  rw [hhead] at hspelled
  by_cases hb : b < 0x80
  . rw [Glyph.leading_of_ascii hb] at hspelled
    exact Ascii.isSmall_toLower (Ascii.isLetter_of_isUpper_toUpper hspelled) _
  . -- The character is not of ASCII, so none of its bytes is changed.
    obtain ⟨hlength, hchar⟩ := small_of_isExported_upper hb hspelled
    have hprefix : (Glyph.leading b t).bytes <+: b :: (t.map Ascii.toLower ++ rest) := by
      have hmapped := (Glyph.bytes_isPrefix b t).map Ascii.toLower
      rw [Ascii.map_toLower_of_not_ascii fun c hc => not_ascii_of_small hchar hc, List.map_cons,
        Ascii.toLower_of_not_ascii hb] at hmapped
      exact hmapped.trans (List.prefix_append _ _)
    rw [Ascii.toLower_of_not_ascii hb, Glyph.leading_of_isPrefix hlength hprefix]
    rcases hchar with hchar | hchar
    all_goals
      rw [hchar]
      rfl

end Initialism

namespace Camel

theorem mem_words_go {word name w : Text} (hword : ∀ b ∈ word, isSeparator b = false)
    (h : w ∈ words.go word name) : w ≠ [] ∧ ∀ b ∈ w, isSeparator b = false := by
  have hreverse : ∀ b ∈ word.reverse, isSeparator b = false :=
    fun b hb => hword b (List.mem_reverse.1 hb)
  induction name generalizing word with
  | nil =>
    unfold words.go at h
    split at h
    . cases h
    . next hempty =>
      rw [List.mem_singleton.1 h]
      exact ⟨by simpa using hempty, hreverse⟩
  | cons b name ih =>
    unfold words.go at h
    split at h
    . split at h
      . exact ih (by simp) h (by simp)
      . next hempty =>
        rcases List.mem_cons.1 h with rfl | h
        . exact ⟨by simpa using hempty, hreverse⟩
        . exact ih (by simp) h (by simp)
    . next hseparator =>
      have hmore : ∀ c ∈ b :: word, isSeparator c = false := by
        rw [List.forall_mem_cons]
        exact ⟨Bool.eq_false_iff.2 hseparator, hword⟩
      exact ih hmore h fun c hc => hmore c (List.mem_reverse.1 hc)

theorem mem_words {name w : Text} (h : w ∈ words name) :
    w ≠ [] ∧ ∀ b ∈ w, isSeparator b = false :=
  mem_words_go (by simp) h

/--
The word spells an initialism, or it begins with a letter of ASCII.
-/
def Opens (w : Text) : Prop :=
  Initialism.isSpelledBy w = true ∨ ∃ b t, w = b :: t ∧ Ascii.isLetter b = true

theorem opens_of_isWord {w rest : Text} (hne : w ≠ []) (hseparator : ∀ b ∈ w, isSeparator b = false)
    (h : Identifier.isWord (inner w ++ rest) = true) : Opens w := by
  cases hspelled : Initialism.isSpelledBy w with
  | true => exact .inl hspelled
  | false =>
    obtain ⟨b, t, rfl⟩ := List.exists_cons_of_ne_nil hne
    refine .inr ⟨b, t, rfl, ?_⟩
    rw [inner, (Initialism.ofWord?_eq_none_iff _).2 hspelled, Option.getD_none, capitalize] at h
    split at h
    . next hb => exact Ascii.isLetter_of_isWord_toUpper hb (hseparator b List.mem_cons_self) h
    . rw [List.append_assoc] at h
      exact absurd h (Identifier.not_isWord_replacement _)

theorem isExported_inner {w : Text} (h : Opens w) : Identifier.isExported (inner w) = true := by
  unfold inner
  cases hword : Initialism.ofWord? w with
  | some k => exact Initialism.isExported_of_mem_known (List.mem_of_find?_eq_some hword)
  | none =>
    rcases h with hspelled | ⟨b, t, rfl, hletter⟩
    . rw [Initialism.ofWord?_eq_none_iff, hspelled] at hword
      cases hword
    . rw [Option.getD_none, capitalize, if_pos (Ascii.lt_of_isLetter hletter)]
      exact Ascii.isUpper_toUpper hletter

theorem isHidden_head {w : Text} (h : Opens w) (rest : Text) :
    Identifier.isHidden (head w ++ rest) = true := by
  unfold head
  split
  . next hspelled =>
    cases w with
    | nil => exact absurd hspelled (by decide)
    | cons b t => exact Identifier.isHidden_cons (Initialism.isSmall_of_isSpelledBy hspelled rest)
  . next hspelled =>
    obtain ⟨b, t, rfl, hletter⟩ := h.resolve_left hspelled
    have hb := Ascii.lt_of_isLetter hletter
    unfold uncapitalize
    dsimp only
    rw [Glyph.leading_of_ascii hb, Glyph.ofAscii, Ascii.ofChar_toLowerCase hb]
    exact Identifier.isHidden_cons (Ascii.isSmall_toLower hletter _)

theorem exists_words {name : Text} (h : Identifier.isWord (upper name) = true) :
    ∃ w ws, words name = w :: ws ∧ Opens w := by
  unfold upper at h
  cases hwords : words name with
  | nil =>
    rw [hwords] at h
    cases h
  | cons w ws =>
    obtain ⟨hne, hseparator⟩ := mem_words (hwords ▸ List.mem_cons_self)
    rw [hwords, List.flatMap_cons] at h
    exact ⟨w, ws, rfl, opens_of_isWord hne hseparator h⟩

/--
Of a name that gives a word of the target language, the form with a capital in front of every word
is visible outside of its package, and the form that starts in lower case is not.
-/
theorem isExported_upper {name : Text} (h : Identifier.isWord (upper name) = true) :
    Identifier.isExported (upper name) = true := by
  obtain ⟨w, ws, hwords, hopens⟩ := exists_words h
  unfold upper
  rw [hwords, List.flatMap_cons]
  exact Identifier.isExported_append (isExported_inner hopens) _

theorem isHidden_lower {name : Text} (h : Identifier.isWord (upper name) = true) :
    Identifier.isHidden (lower name) = true := by
  obtain ⟨w, ws, hwords, hopens⟩ := exists_words h
  unfold lower
  rw [hwords]
  exact isHidden_head hopens _

end Camel

end ValueGen
