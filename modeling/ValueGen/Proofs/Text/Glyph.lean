import Mathlib.Data.List.Basic
import ValueGen.Text.Glyph

/-!
This module contains how texts are decoded piece by piece. An ASCII byte is a glyph of its own and
belongs to no other glyph, so a text can be cut in front of it.
-/

namespace ValueGen

theorem forall_byte {p : UInt8 → Prop} (h : ∀ n < 256, p (UInt8.ofNat n)) (b : UInt8) : p b := by
  have hb := h b.toNat (UInt8.toNat_lt b)
  rwa [UInt8.ofNat_toNat] at hb

namespace Glyph

/--
The glyph of an ASCII byte.
-/
def ofAscii (b : UInt8) : Glyph := ⟨Char.ofNat b.toNat, [b]⟩

theorem leading_of_ascii {b : UInt8} (h : b < 0x80) (t : Text) : leading b t = ofAscii b := by
  simp [leading, ofAscii, h]

theorem not_isTail_of_ascii {b : UInt8} (h : b < 0x80) : isTail b = false := by
  have hlow : ¬ 0x80 ≤ b := UInt8.not_le.2 h
  simp [isTail, hlow]

theorem not_isSecond_of_ascii {b : UInt8} (h : b < 0x80) (first : UInt8) :
    isSecond first b = false := by
  have hlow (low : UInt8) (hbound : 0x80 ≤ low) : ¬ low ≤ b :=
    UInt8.not_le.2 (UInt8.lt_of_lt_of_le h hbound)
  simp [isSecond, not_isTail_of_ascii h, hlow 0xA0 (by decide), hlow 0x80 (by decide),
    hlow 0x90 (by decide)]

-- An ASCII byte behind a text and what comes after it have no part in the first glyph.
theorem leading_append {b : UInt8} (h : b < 0x80) (first : UInt8) (t u : Text) :
    leading first (t ++ b :: u) = leading first t := by
  have htail := not_isTail_of_ascii h
  have hsecond := not_isSecond_of_ascii h first
  unfold leading
  -- A glyph has at most four bytes, so only the first three of the others matter.
  rcases t with _ | ⟨c, _ | ⟨d, _ | ⟨e, t⟩⟩⟩
  all_goals
    rcases u with _ | ⟨x, _ | ⟨y, u⟩⟩
    all_goals simp [htail, hsecond]

theorem head?_bytes_leading (b : UInt8) (t : Text) : (leading b t).bytes.head? = some b := by
  unfold leading ofStrayByte
  repeat' split
  all_goals rfl

theorem one_lt_length_bytes_leading {b : UInt8} {t : Text}
    (h : ∀ c, (leading b t).bytes ≠ [c]) : 1 < (leading b t).bytes.length := by
  have hpos := List.length_pos_of_ne_nil (bytes_ne_nil b t)
  have hne : (leading b t).bytes.length ≠ 1 := by
    intro hone
    obtain ⟨c, hc⟩ := List.length_eq_one_iff.1 hone
    exact h c hc
  omega

-- All bytes of a character beyond ASCII are beyond ASCII themselves.
theorem char_leading_of_mem {b c : UInt8} {t : Text} (hmem : c ∈ (leading b t).bytes)
    (hc : c < 0x80) : (leading b t).char = Char.ofNat c.toNat := by
  have htail := not_isTail_of_ascii hc
  have hsecond := not_isSecond_of_ascii hc b
  unfold leading at hmem ⊢
  split
  . next hb =>
    simp only [hb, ↓reduceIte, List.mem_singleton] at hmem
    rw [hmem]
  . next hb =>
    exfalso
    simp only [hb, ↓reduceIte, ofStrayByte] at hmem
    repeat' split at hmem
    all_goals
      simp only [List.mem_cons, List.not_mem_nil, or_false, Bool.and_eq_true] at *
      grind

/--
The glyph is the first one of some text.
-/
def IsDecoded (g : Glyph) : Prop := ∃ b t, g = leading b t

theorem IsDecoded.eq_ofAscii {g : Glyph} (h : g.IsDecoded) {b : UInt8} (hb : b < 0x80)
    (hhead : g.bytes.head? = some b) : g = ofAscii b := by
  obtain ⟨c, t, rfl⟩ := h
  rw [head?_bytes_leading, Option.some.injEq] at hhead
  rw [hhead, leading_of_ascii hb]

-- Unless it is that of a single byte, the first glyph depends on nothing but its own bytes.
theorem leading_of_isPrefix {b : UInt8} {t u : Text} (hlength : 1 < (leading b t).bytes.length)
    (h : (leading b t).bytes <+: b :: u) : leading b u = leading b t := by
  obtain ⟨v, hv⟩ := h
  have hstray : ¬ 1 < (ofStrayByte b).bytes.length := Nat.lt_irrefl 1
  fun_cases leading b t
  all_goals simp only [leading, *, if_true, if_false, Bool.false_eq_true] at hlength hv
  . exact absurd hlength (Nat.lt_irrefl 1)
  -- The bytes behind the first one are those that `u` starts with.
  all_goals
    simp only [List.cons_append, List.nil_append, List.cons.injEq, true_and] at hv
    subst hv
    simp only [leading, *, if_true, if_false, Bool.false_eq_true]

theorem length_bytes_leading_le (b : UInt8) (t : Text) :
    (leading b t).bytes.length ≤ t.length + 1 := by
  simpa using (bytes_isPrefix b t).length_le

end Glyph

namespace Text

theorem glyphs.isDecoded_of_mem {skip : Nat} {t : Text} {g : Glyph} (h : g ∈ go skip t) :
    g.IsDecoded := by
  induction t generalizing skip with
  | nil => cases h
  | cons b t ih =>
    cases skip with
    | succ k => exact ih h
    | zero =>
      obtain rfl | h := List.mem_cons.1 h
      . exact ⟨b, t, rfl⟩
      . exact ih h

theorem glyphs.go_append (skip : Nat) {t : Text} (hskip : skip ≤ t.length) {b : UInt8}
    (h : b < 0x80) (u : Text) :
    glyphs.go skip (t ++ b :: u) = glyphs.go skip t ++ Glyph.ofAscii b :: u.glyphs := by
  induction t generalizing skip with
  | nil =>
    obtain rfl : skip = 0 := Nat.le_zero.1 hskip
    simp [glyphs.go, glyphs, Glyph.leading_of_ascii h, Glyph.ofAscii]
  | cons c t ih =>
    cases skip with
    | succ k =>
      simp only [List.cons_append, glyphs.go]
      exact ih k (Nat.le_of_succ_le_succ hskip)
    | zero =>
      have hlength := Glyph.length_bytes_leading_le c t
      simp only [List.cons_append, glyphs.go, Glyph.leading_append h]
      rw [ih _ (by omega)]

/--
A text is decoded in two pieces if there is an ASCII byte between them.
-/
theorem glyphs_append_cons (t : Text) {b : UInt8} (h : b < 0x80) (u : Text) :
    (t ++ b :: u).glyphs = t.glyphs ++ Glyph.ofAscii b :: u.glyphs :=
  glyphs.go_append 0 (Nat.zero_le _) h u

theorem glyphs_cons {b : UInt8} (h : b < 0x80) (u : Text) :
    glyphs (b :: u) = Glyph.ofAscii b :: u.glyphs := by
  simpa [glyphs, glyphs.go] using glyphs_append_cons [] h u

theorem glyphs_ne_nil {t : Text} (h : t ≠ []) : t.glyphs ≠ [] := by
  intro hnil
  apply h
  rw [← ofGlyphs_glyphs t, hnil]
  rfl

theorem head?_glyphs_append_cons {t : Text} (ht : t ≠ []) {b : UInt8} (h : b < 0x80) (u : Text) :
    (t ++ b :: u).glyphs.head? = t.glyphs.head? := by
  rw [glyphs_append_cons t h u, List.head?_append_of_ne_nil _ (glyphs_ne_nil ht)]

/--
The number of ASCII bytes of a text.
-/
def asciiCount (t : Text) : Nat := t.countP (· < 0x80)

theorem asciiCount_append (t u : Text) : asciiCount (t ++ u) = t.asciiCount + u.asciiCount :=
  List.countP_append

-- The text is cut at one ASCII byte after the other.
theorem asciiCount_le_length_glyphs (t : Text) : t.asciiCount ≤ t.glyphs.length := by
  by_cases hascii : ∃ b ∈ t, b < 0x80
  . obtain ⟨b, hmem, hb⟩ := hascii
    obtain ⟨u, v, rfl⟩ := List.append_of_mem hmem
    have hu := asciiCount_le_length_glyphs u
    have hv := asciiCount_le_length_glyphs v
    have hcount : asciiCount (b :: v) = asciiCount v + 1 := by simp [asciiCount, hb]
    rw [asciiCount_append, hcount, glyphs_append_cons u hb v, List.length_append, List.length_cons]
    omega
  . have hzero : t.asciiCount = 0 := by
      simpa [asciiCount, List.countP_eq_zero] using hascii
    omega
termination_by t.length

end Text

end ValueGen
