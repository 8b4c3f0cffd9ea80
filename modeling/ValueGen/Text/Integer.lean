import ValueGen.Text.Quoted
import ValueGen.Text.Word

/-!
This module contains the reading of decimal integers of a bounded width.
-/

namespace ValueGen

inductive IntegerFault where
  | malformed
  | outOfRange
  deriving DecidableEq, Repr

def IntegerFault.message : IntegerFault → Text
  | .malformed => "invalid syntax"
  | .outOfRange => "value out of range"

namespace Text

/--
The value of a list of decimal digits, or nothing if there is none or one of the bytes is no digit.
-/
def digits? (t : Text) : Option Nat :=
  if t.isEmpty || !t.all Ascii.isDigit then
    none
  else
    some (t.foldl (fun n b => n * 10 + (b.toNat - 48)) 0)

def integer? : Text → Option Int
  | 43 :: t => (digits? t).map Int.ofNat
  | 45 :: t => (digits? t).map fun n => - Int.ofNat n
  | t => (digits? t).map Int.ofNat

/--
Read an optionally signed decimal integer of `bits` bits in two's complement.
-/
def readInteger (bits : Nat) (t : Text) : Except IntegerFault Int :=
  match integer? t with
  | none => .error .malformed
  | some n =>
    if Word.holds bits n then
      .ok n
    else
      .error .outOfRange

end Text

end ValueGen
