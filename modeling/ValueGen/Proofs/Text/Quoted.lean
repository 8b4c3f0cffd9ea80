import ValueGen.Proofs.Text.Glyph
import ValueGen.Text.Quoted

/-!
This module contains that a text in quotes stays on its line: control characters are written as escapes.
-/

namespace ValueGen

theorem Text.le_of_mem_hex {b : UInt8} {width n : Nat} (h : b ∈ hex width n) : 0x20 ≤ b := by
  have hdigit : ∀ d < 16, 0x20 ≤ Ascii.hexDigit d := by decide
  induction width generalizing n with
  | zero => cases h
  | succ width ih =>
    rw [hex, List.mem_append, List.mem_singleton] at h
    obtain h | rfl := h
    . exact ih h
    . exact hdigit _ (Nat.mod_lt n (by decide))

namespace Quoted

theorem le_of_shortEscape? {c : Char} {b : UInt8} (h : shortEscape? c = some b) : 0x20 ≤ b := by
  unfold shortEscape? at h
  split at h
  all_goals
    cases h
    try decide

-- A control character is a glyph of its own, and it is none of those that are kept.
theorem le_of_mem_bytes {g : Glyph} (hg : g.IsDecoded) {b : UInt8} (hb : b ∈ g.bytes)
    (hkept : g.char = '"' ∨ g.char = '\\' ∨ isPrintable g.char = true) : 0x20 ≤ b := by
  have hcontrol : ∀ n < 0x20, Char.ofNat n ≠ '"' ∧ Char.ofNat n ≠ '\\'
      ∧ isPrintable (Char.ofNat n) = false := by
    decide +kernel
  by_contra hlow
  rw [UInt8.not_le] at hlow
  obtain ⟨c, t, rfl⟩ := hg
  have hchar := Glyph.char_leading_of_mem hb (UInt8.lt_trans hlow (by decide))
  obtain ⟨hquote, hslash, hprint⟩ := hcontrol b.toNat hlow
  rw [hchar] at hkept
  simp [hquote, hslash, hprint] at hkept

theorem le_of_mem_escape {g : Glyph} (hg : g.IsDecoded) : ∀ b ∈ escape '"' g, 0x20 ≤ b := by
  have hslash : ∀ b ∈ ("\\" : Text), 0x20 ≤ b := by decide +kernel
  have hmark : ∀ b ∈ ("\\x" : Text) ++ "\\u" ++ "\\U", 0x20 ≤ b := by decide +kernel
  simp only [List.forall_mem_append] at hmark
  unfold escape
  split
  . rw [List.forall_mem_append]
    refine ⟨hmark.1.1, ?_⟩
    intro b hb
    obtain ⟨c, -, hc⟩ := List.mem_flatMap.1 hb
    exact Text.le_of_mem_hex hc
  . split
    . next hkept =>
      rw [Bool.or_eq_true, beq_iff_eq, beq_iff_eq] at hkept
      rw [List.forall_mem_append]
      exact ⟨hslash, fun b hb => le_of_mem_bytes hg hb (hkept.imp_right .inl)⟩
    . split
      . next hprint => exact fun b hb => le_of_mem_bytes hg hb (.inr (.inr hprint))
      . split
        . next c hc =>
          rw [List.forall_mem_append, List.forall_mem_singleton]
          exact ⟨hslash, le_of_shortEscape? hc⟩
        . dsimp only
          split
          . exact List.forall_mem_append.2 ⟨hmark.1.1, fun _ => Text.le_of_mem_hex⟩
          . split
            . exact List.forall_mem_append.2 ⟨hmark.1.2, fun _ => Text.le_of_mem_hex⟩
            . exact List.forall_mem_append.2 ⟨hmark.2, fun _ => Text.le_of_mem_hex⟩

end Quoted

/--
There are no control characters in a text in quotes.
-/
theorem Text.le_of_mem_quote {b : UInt8} {t : Text} (h : b ∈ t.quote) : 0x20 ≤ b := by
  have hquote : ∀ b ∈ ("\"" : Text), 0x20 ≤ b := by decide +kernel
  rw [quote, List.mem_append, List.mem_append, List.mem_flatMap] at h
  obtain (h | ⟨g, hg, hb⟩) | h := h
  . exact hquote b h
  . exact Quoted.le_of_mem_escape (glyphs.isDecoded_of_mem hg) b hb
  . exact hquote b h

end ValueGen
