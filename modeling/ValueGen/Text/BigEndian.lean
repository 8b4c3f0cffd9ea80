import ValueGen.Text.Basic
import ValueGen.Text.Word

/-!
This module contains numbers as bytes, the most significant one first. Reading a number gives back
the number that was written if it fits the width.
-/

namespace ValueGen

namespace Text

def bigEndian : Nat → Nat → Text
  | 0, _ => []
  | width + 1, n => (n / Word.span width % 256).toUInt8 :: bigEndian width n

/--
Read a number of `width` bytes, which follow the bytes that gave `high`.
-/
def readBigEndian (high : Nat) : Nat → Text → Option (Nat × Text)
  | 0, rest => some (high, rest)
  | _ + 1, [] => none
  | width + 1, b :: rest => readBigEndian (256 * high + b.toNat) width rest

def splitBytes? (n : Nat) (t : Text) : Option (Text × Text) :=
  if n ≤ t.length then some (t.take n, t.drop n) else none

theorem readBigEndian_bigEndian_append (high width n : Nat) (rest : Text) :
    readBigEndian high width (bigEndian width n ++ rest)
      = some (high * Word.span width + n % Word.span width, rest) := by
  induction width generalizing high with
  | zero => simp [readBigEndian, bigEndian, Word.span_zero, Nat.mod_one]
  | succ width ih =>
    have byte : (n / Word.span width % 256).toUInt8.toNat = n / Word.span width % 256 := by
      simp [Nat.toUInt8, UInt8.toNat_ofNat']
    have parts : n % Word.span (width + 1)
        = n % Word.span width + Word.span width * (n / Word.span width % 256) := by
      rw [Word.span_succ, Nat.mod_mul]
    have shifted : 256 * high * Word.span width = high * Word.span (width + 1) := by
      rw [Word.span_succ, Nat.mul_comm 256 high, Nat.mul_assoc, Nat.mul_comm 256]
    simp only [bigEndian, List.cons_append, readBigEndian, ih, byte, parts, Nat.add_mul, shifted]
    rw [Nat.mul_comm (n / Word.span width % 256), Nat.add_comm (n % Word.span width), Nat.add_assoc]

theorem splitBytes?_append (t rest : Text) : splitBytes? t.length (t ++ rest) = some (t, rest) := by
  simp [splitBytes?]

end Text

end ValueGen
