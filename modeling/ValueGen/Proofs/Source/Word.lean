import ValueGen.Proofs.Source.Name
import ValueGen.Proofs.Source.Number

/-!
This module contains that words, and words with dots between them, are read as they are written.
-/

namespace ValueGen

/-! The characters of words. -/

namespace Identifier

theorem exists_glyphs_of_isWord {t : Text} (h : isWord t = true) :
    ∃ g gs, t.glyphs = g :: gs ∧ isStart g.char = true ∧ ∀ x ∈ t.glyphs, isInner x.char = true := by
  unfold isWord Text.chars at h
  cases hglyphs : t.glyphs with
  | nil =>
    rw [hglyphs] at h
    cases h
  | cons g gs =>
    simp only [hglyphs, List.map_cons, Bool.and_eq_true, List.all_map, List.all_eq_true] at h
    refine ⟨g, gs, rfl, h.1, ?_⟩
    rw [List.forall_mem_cons]
    exact ⟨by rw [isInner, h.1, Bool.true_or], h.2⟩

theorem isSound_of_isInner {g : Glyph} (h : isInner g.char = true) : g.isSound = true := by
  have hreplacement : isInner Glyph.replacement = false := by decide +kernel
  have hnul : isInner (Char.ofNat 0) = false := by decide
  rw [Glyph.isSound, Bool.and_eq_true, Bool.not_eq_true', bne_iff_ne]
  constructor
  . rw [Glyph.isStray, Bool.and_eq_false_iff, beq_eq_false_iff_ne]
    refine .inl ?_
    intro hchar
    rw [hchar, hreplacement] at h
    cases h
  . intro hzero
    rw [← Char.ofNat_toNat g.char, hzero, hnul] at h
    cases h

theorem not_isSpace_of_isStart {c : Char} (h : isStart c = true) : Cursor.isSpace c = false := by
  rw [← Bool.not_eq_true]
  intro hspace
  simp only [Cursor.isSpace, Bool.or_eq_true, beq_iff_eq] at hspace
  obtain ((rfl | rfl) | rfl) | rfl := hspace
  all_goals exact absurd h (by decide)

theorem not_isDecimal_of_isStart {c : Char} (h : isStart c = true) : Cursor.isDecimal c = false := by
  have hall : ∀ d < 10, isStart (Char.ofNat (48 + d)) = false := by decide
  rw [← Bool.not_eq_true]
  intro hdecimal
  simp only [Cursor.isDecimal, Bool.and_eq_true, decide_eq_true_eq, Char.le_def,
    UInt32.le_iff_toNat_le] at hdecimal
  obtain ⟨hlow, hhigh⟩ : 48 ≤ c.toNat ∧ c.toNat ≤ 57 := hdecimal
  have hchar : c = Char.ofNat (48 + (c.toNat - 48)) := by
    rw [Nat.add_sub_cancel' hlow, Char.ofNat_toNat]
  rw [hchar, hall _ (by omega)] at h
  cases h

-- The character of an ASCII byte of a text is one of the text.
theorem isInner_of_mem {t : Text} (h : isWord t = true) {b : UInt8} (hb : b < 0x80) (hmem : b ∈ t) :
    isInner (Glyph.ofAscii b).char = true := by
  obtain ⟨g, gs, -, -, hinner⟩ := exists_glyphs_of_isWord h
  obtain ⟨u, v, rfl⟩ := List.append_of_mem hmem
  apply hinner
  rw [Text.glyphs_append_cons u hb]
  exact List.mem_append_right _ List.mem_cons_self

end Identifier

namespace Token

variable {t : Text}

/--
A word is one token in front of a character that is no part of a word.
-/
theorem stands_of_isWord (h : Identifier.isWord t = true) {b : UInt8} (hb : b < 0x80)
    (hsound : (Glyph.ofAscii b).isSound = true)
    (hend : Identifier.isInner (Glyph.ofAscii b).char = false) (u : Text) :
    stands t (b :: u) = true := by
  obtain ⟨g, gs, hglyphs, hstart, hinner⟩ := Identifier.exists_glyphs_of_isWord h
  have hne : t ≠ [] := by
    rintro rfl
    cases h
  apply stands_of_takeToken hne
  . rintro rfl
    exact absurd h (by decide)
  . rw [Text.glyphs_append_cons t hb, Text.glyphs_cons hb]
  . rw [hglyphs, List.head?_cons, Option.all_some, Glyph.opensToken,
      Identifier.isSound_of_isInner (hinner g (by rw [hglyphs]; exact List.mem_cons_self)),
      Identifier.not_isSpace_of_isStart hstart]
    rfl
  . intro c hc
    have hboth := Text.glyphs_append_cons t hb u
    rw [← Text.glyphs_cons hb] at hboth
    have hahead : c.ahead = some g := by
      rw [hc.ahead, hboth, hglyphs, List.cons_append, List.head?_cons]
    have htake : c.takeToken = c.takeWhile Identifier.isInner := by
      have hsees : c.sees Identifier.isInner = true := by
        rw [Cursor.sees, hahead]
        exact hinner g (by rw [hglyphs]; exact List.mem_cons_self)
      rw [Cursor.takeToken, hahead, Cursor.takeWhile_of_sees hsees]
      simp only [hstart, if_true]
    rw [htake]
    refine Cursor.isAt_takeWhile ?_ (fun x hx => ⟨Identifier.isSound_of_isInner (hinner x hx),
      hinner x hx⟩) (hboth ▸ hc.ahead) (hboth ▸ hc.rest) hc.faults
    rw [Text.glyphs_cons hb, List.head?_cons, Option.all_some, hsound, hend]
    rfl

theorem canName_of_isWord (h : Identifier.isWord t = true) : canName t = true := by
  have hempty : t.isEmpty = false := by
    cases t with
    | nil => cases h
    | cons b t => rfl
  have hsymbol : symbols.contains t = false := by
    rw [List.contains_eq_mem, decide_eq_false_iff_not]
    intro hmem
    have hnone : ∀ w ∈ symbols, Identifier.isWord w = false := by decide
    rw [hnone t hmem] at h
    cases h
  have hcomment : (t.startsWith "//" || t.startsWith "/*") = false := by
    rw [Bool.or_eq_false_iff, ← Bool.not_eq_true, ← Bool.not_eq_true, Text.startsWith,
      Text.startsWith, List.isPrefixOf_iff_prefix, List.isPrefixOf_iff_prefix]
    constructor
    all_goals
      intro hslashes
      have hinner := Identifier.isInner_of_mem h (b := 47) (by decide)
        (hslashes.subset List.mem_cons_self)
      exact absurd hinner (by decide)
  unfold canName classify
  rw [hempty, hsymbol, hcomment]
  by_cases hkeyword : keywords.contains t = true
  . simp only [hkeyword]
    rfl
  . by_cases hnumber : isNumber t = true
    . simp only [hkeyword, hnumber]
      rfl
    . simp only [hkeyword, hnumber]
      rfl

theorem noDot_of_isWord (h : Identifier.isWord t = true) : t.chars.head? ≠ some '.' := by
  obtain ⟨g, gs, hglyphs, hstart, -⟩ := Identifier.exists_glyphs_of_isWord h
  rw [Text.chars, hglyphs, List.map_cons, List.head?_cons, ne_eq, Option.some.injEq]
  intro hdot
  rw [hdot] at hstart
  exact absurd hstart (by decide)

/--
A dot in front of a word is a token of its own, and no part of a number.
-/
theorem stands_dot (h : Identifier.isWord t = true) {b : UInt8} (hb : b < 0x80) (u : Text) :
    stands "." (t ++ b :: u) = true := by
  obtain ⟨g, gs, hglyphs, hstart, hinner⟩ := Identifier.exists_glyphs_of_isWord h
  have hnext : (t ++ b :: u).glyphs.head? = some g := by
    rw [Text.glyphs_append_cons t hb, hglyphs, List.cons_append, List.head?_cons]
  have hcut : Text.glyphs ("." ++ (t ++ b :: u)) = Text.glyphs "." ++ (t ++ b :: u).glyphs :=
    Text.glyphs_cons (by decide) _
  refine stands_of_takeToken (by decide) (by decide) hcut (by decide) ?_
  intro c hc
  have hahead : c.ahead = some (Glyph.ofAscii 46) := by
    rw [hc.ahead, hcut]
    rfl
  have hadvance : c.advance.IsAt (t ++ b :: u) := by
    refine Cursor.IsAt.advance (b := 46) hc (by decide) ?_
    rw [hnext, Option.all_some]
    exact Identifier.isSound_of_isInner (hinner g (by rw [hglyphs]; exact List.mem_cons_self))
  have hsees : c.advance.sees Cursor.isDecimal = false := by
    rw [Cursor.sees, hadvance.ahead, hnext]
    exact Identifier.not_isDecimal_of_isStart hstart
  have htake : c.takeToken = c.advance := by
    obtain ⟨hletter, hdecimal, hquote, hraw, hdot⟩ :
        Identifier.isStart (Glyph.ofAscii 46).char = false
          ∧ Cursor.isDecimal (Glyph.ofAscii 46).char = false
          ∧ ((Glyph.ofAscii 46).char == '"') = false
          ∧ ((Glyph.ofAscii 46).char.toNat == 0x60) = false
          ∧ ((Glyph.ofAscii 46).char == '.') = true := by decide
    simp only [Cursor.takeToken, hahead, hletter, hdecimal, hquote, hraw, hdot, hsees,
      Bool.false_eq_true, if_true, if_false]
  rwa [htake]

end Token

namespace Spelling

/--
The name is words with dots between them.
-/
structure IsPlain (s : Spelling) : Prop where
  leading : s.leading = false
  words : ∀ t ∈ s.first :: s.more, Identifier.isWord t = true
  trailing : s.trailing = false

-- What follows a word is a dot or the end of the name, and never a part of the word.
theorem exists_tail_append_eq {c : UInt8} (hc : c < 0x80)
    (hsound : (Glyph.ofAscii c).isSound = true)
    (hend : Identifier.isInner (Glyph.ofAscii c).char = false) (more : List Text) :
    ∃ b u, (tail false more).flatten ++ [c] = b :: u ∧ b < 0x80
      ∧ (Glyph.ofAscii b).isSound = true ∧ Identifier.isInner (Glyph.ofAscii b).char = false := by
  cases more with
  | nil => exact ⟨c, [], rfl, hc, hsound, hend⟩
  | cons t more => exact ⟨46, _, rfl, by decide, by decide, by decide⟩

theorem standAll_of_isWord {c : UInt8} (hc : c < 0x80) (hsound : (Glyph.ofAscii c).isSound = true)
    (hend : Identifier.isInner (Glyph.ofAscii c).char = false) {t : Text} {more : List Text}
    (hwords : ∀ w ∈ t :: more, Identifier.isWord w = true) :
    Token.standAll (t :: tail false more) [c] = true := by
  induction more generalizing t with
  | nil =>
    rw [List.forall_mem_cons] at hwords
    rw [tail, if_neg Bool.false_ne_true, Token.standAll, Token.standAll, Bool.and_true]
    exact Token.stands_of_isWord hwords.1 hc hsound hend []
  | cons t' more ih =>
    obtain ⟨ht, hmore⟩ := List.forall_mem_cons.1 hwords
    obtain ⟨b, u, htail, hb, -, -⟩ := exists_tail_append_eq hc hsound hend more
    rw [tail, Token.standAll, Token.standAll, ih hmore, Bool.and_true, Bool.and_eq_true]
    constructor
    . exact Token.stands_of_isWord ht (b := 46) (by decide) (by decide) (by decide) _
    . rw [List.flatten_cons, List.append_assoc, htail]
      exact Token.stands_dot (hmore t' List.mem_cons_self) hb u

theorem IsPlain.stands {s : Spelling} (h : s.IsPlain) {c : UInt8} (hc : c < 0x80)
    (hsound : (Glyph.ofAscii c).isSound = true)
    (hend : Identifier.isInner (Glyph.ofAscii c).char = false) : s.Stands c := by
  obtain ⟨leading, first, more, trailing⟩ := s
  obtain ⟨rfl, hwords, rfl⟩ := h
  exact ⟨standAll_of_isWord hc hsound hend hwords, fun t ht => Token.canName_of_isWord (hwords t ht)⟩

theorem isPlain_of_isWord {t : Text} (h : Identifier.isWord t = true) :
    IsPlain ⟨false, t, [], false⟩ :=
  ⟨rfl, by simpa using h, rfl⟩

end Spelling

end ValueGen
