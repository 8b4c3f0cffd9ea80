import Mathlib.Data.List.Basic
import Mathlib.Data.List.Induction
import Mathlib.Data.Nat.Digits.Defs
import ValueGen.Text.Integer

/-!
This module contains the meaning of decimal numerals, that reading an integer of a bounded width
accepts exactly the numerals of the integers of that width, and that the digits of a number stand for
the number.
-/

namespace ValueGen

namespace Text

/--
The number that decimal digits stand for, the most significant one first.
-/
def digitsValue (digits : Text) : Nat := Nat.ofDigits 10 (digits.reverse.map fun b => b.toNat - 48)

/--
The text is an optional sign and at least one decimal digit, and it stands for the integer `n`.
-/
def Denotes (t : Text) (n : Int) : Prop :=
  ∃ sign digits : Text,
    t = sign ++ digits ∧ digits ≠ [] ∧ (∀ b ∈ digits, 48 ≤ b ∧ b ≤ 57)
      ∧ ((sign = [] ∨ sign = "+") ∧ n = digitsValue digits ∨ sign = "-" ∧ n = -digitsValue digits)

theorem foldl_digits_eq_digitsValue (t : Text) :
    t.foldl (fun n b => n * 10 + (b.toNat - 48)) 0 = digitsValue t := by
  induction t using List.reverseRecOn with
  | nil => rfl
  | append_singleton t b ih =>
    rw [List.foldl_append, ih]
    simp only [List.foldl_cons, List.foldl_nil, digitsValue, List.reverse_append,
      List.reverse_cons, List.reverse_nil, List.nil_append, List.singleton_append, List.map_cons,
      Nat.ofDigits_cons]
    omega

theorem digits?_eq_some_iff (t : Text) (n : Nat) :
    digits? t = some n ↔ t ≠ [] ∧ (∀ b ∈ t, 48 ≤ b ∧ b ≤ 57) ∧ n = digitsValue t := by
  unfold digits?
  rw [foldl_digits_eq_digitsValue]
  split
  . next h =>
    simp only [Bool.or_eq_true, List.isEmpty_iff, Bool.not_eq_true', List.all_eq_false] at h
    simp only [reduceCtorEq, false_iff]
    rintro ⟨hne, hdigit, -⟩
    rcases h with h | ⟨b, hb, hnot⟩
    . exact hne h
    . apply hnot
      simpa [Ascii.isDigit] using hdigit b hb
  . next h =>
    simp only [Bool.or_eq_true, List.isEmpty_iff, Bool.not_eq_true', not_or, Bool.not_eq_false,
      List.all_eq_true, Ascii.isDigit, Bool.and_eq_true, decide_eq_true_eq] at h
    simp only [Option.some.injEq]
    constructor
    . intro hn
      exact ⟨h.1, h.2, hn.symm⟩
    . intro hn
      exact hn.2.2.symm

-- A text of digits only starts with no sign.
theorem integer?_of_digits {t : Text} (h : ∀ b ∈ t, 48 ≤ b ∧ b ≤ 57) :
    integer? t = (digits? t).map Int.ofNat := by
  unfold integer?
  split
  . exact absurd (h 43 List.mem_cons_self).1 (by decide)
  . exact absurd (h 45 List.mem_cons_self).1 (by decide)
  . rfl

theorem denotes_of_integer? {t : Text} {n : Int} (h : integer? t = some n) : Denotes t n := by
  unfold integer? at h
  split at h
  all_goals
    rw [Option.map_eq_some_iff] at h
    obtain ⟨k, hk, rfl⟩ := h
    rw [digits?_eq_some_iff] at hk
    obtain ⟨hne, hdigit, rfl⟩ := hk
  . next digits => exact ⟨"+", digits, rfl, hne, hdigit, .inl ⟨.inr rfl, rfl⟩⟩
  . next digits => exact ⟨"-", digits, rfl, hne, hdigit, .inr ⟨rfl, rfl⟩⟩
  . exact ⟨[], t, rfl, hne, hdigit, .inl ⟨.inl rfl, rfl⟩⟩

theorem integer?_of_denotes {t : Text} {n : Int} (h : Denotes t n) : integer? t = some n := by
  obtain ⟨sign, digits, rfl, hne, hdigit, hsign⟩ := h
  have hdigits : digits? digits = some (digitsValue digits) := by
    rw [digits?_eq_some_iff]
    exact ⟨hne, hdigit, rfl⟩
  rcases hsign with ⟨rfl | rfl, rfl⟩ | ⟨rfl, rfl⟩
  . rw [List.nil_append, integer?_of_digits hdigit, hdigits]
    rfl
  . change (digits? digits).map Int.ofNat = _
    rw [hdigits]
    rfl
  . change ((digits? digits).map fun k => - Int.ofNat k) = _
    rw [hdigits]
    rfl

theorem integer?_eq_some_iff (t : Text) (n : Int) : integer? t = some n ↔ Denotes t n :=
  ⟨denotes_of_integer?, integer?_of_denotes⟩

def DenotesWithin (bits : Nat) (t : Text) (n : Int) : Prop :=
  Denotes t n ∧ -2 ^ (bits - 1) ≤ n ∧ n < 2 ^ (bits - 1)

theorem holds_iff (bits : Nat) (n : Int) :
    Word.holds bits n = true ↔ -2 ^ (bits - 1) ≤ n ∧ n < 2 ^ (bits - 1) := by
  have hcount : (Word.count (bits - 1) : Int) = 2 ^ (bits - 1) := by
    unfold Word.count
    exact Int.natCast_pow 2 (bits - 1)
  unfold Word.holds Word.least Word.greatest
  rw [hcount]
  simp only [Bool.and_eq_true, decide_eq_true_eq]
  omega

theorem readInteger_eq_ok_iff (bits : Nat) (t : Text) (n : Int) :
    readInteger bits t = .ok n ↔ DenotesWithin bits t n := by
  unfold readInteger DenotesWithin
  rw [← integer?_eq_some_iff, ← holds_iff]
  split
  . next h => simp [h]
  . next k h =>
    rw [h]
    split
    . next hk =>
      simp only [Except.ok.injEq, Option.some.injEq, iff_self_and]
      rintro rfl
      exact hk
    . next hk =>
      simp only [reduceCtorEq, Option.some.injEq, false_iff, not_and]
      rintro rfl
      exact hk

/-! The decimal digits of a number. -/

-- The last digit comes off the end.
theorem ofNat_eq (n : Nat) :
    ofNat n = (if n < 10 then [] else ofNat (n / 10)) ++ [(48 + n % 10).toUInt8] := by
  have hdigit : ∀ d < 10, (Nat.digitChar d).toNat.toUInt8 = (48 + d).toUInt8 := by decide
  unfold ofNat
  rw [Nat.toDigits_eq_if (by decide)]
  split
  . next h => simp [hdigit n h, Nat.mod_eq_of_lt h]
  . simp [hdigit (n % 10) (Nat.mod_lt n (by decide))]

theorem ofNat_ne_nil (n : Nat) : ofNat n ≠ [] := by
  rw [ofNat_eq]
  simp

theorem digit_of_mem_ofNat {n : Nat} {b : UInt8} (h : b ∈ ofNat n) : 48 ≤ b ∧ b ≤ 57 := by
  have hdigit : ∀ d < 10, 48 ≤ (48 + d).toUInt8 ∧ (48 + d).toUInt8 ≤ 57 := by decide
  rw [ofNat_eq, List.mem_append, List.mem_singleton] at h
  obtain h | rfl := h
  . split at h
    . simp at h
    . exact digit_of_mem_ofNat h
  . exact hdigit _ (Nat.mod_lt n (by decide))
termination_by n
decreasing_by omega

theorem digitsValue_append_singleton (t : Text) (b : UInt8) :
    digitsValue (t ++ [b]) = digitsValue t * 10 + (b.toNat - 48) := by
  rw [← foldl_digits_eq_digitsValue, ← foldl_digits_eq_digitsValue, List.foldl_append]
  rfl

theorem digitsValue_ofNat (n : Nat) : digitsValue (ofNat n) = n := by
  have hdigit : ∀ d < 10, (48 + d).toUInt8.toNat - 48 = d := by decide
  rw [ofNat_eq, digitsValue_append_singleton, hdigit _ (Nat.mod_lt n (by decide))]
  split
  . next h =>
    have hnil : digitsValue [] = 0 := rfl
    omega
  . rw [digitsValue_ofNat (n / 10)]
    omega
termination_by n
decreasing_by omega

theorem denotes_ofNat (n : Nat) : Denotes (ofNat n) n :=
  ⟨[], ofNat n, rfl, ofNat_ne_nil n, fun _ h => digit_of_mem_ofNat h,
    .inl ⟨.inl rfl, by rw [digitsValue_ofNat]⟩⟩

-- Only zero starts with a zero.
theorem head?_ofNat_ne {n : Nat} (h : n ≠ 0) : (ofNat n).head? ≠ some 48 := by
  have hdigit : ∀ d < 10, d ≠ 0 → (48 + d).toUInt8 ≠ 48 := by decide
  rw [ofNat_eq]
  split
  . next hlt =>
    rw [Nat.mod_eq_of_lt hlt]
    simpa using hdigit n hlt h
  . rw [List.head?_append_of_ne_nil _ (ofNat_ne_nil _)]
    exact head?_ofNat_ne (by omega)
termination_by n
decreasing_by omega

end Text

end ValueGen
