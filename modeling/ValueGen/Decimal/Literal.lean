import ValueGen.Decimal.Numeral
import ValueGen.Text.Integer

/-!
This module contains the reading of integers that say themselves what base they are written in. The
digits may be grouped by underscores.
-/

namespace ValueGen

namespace Literal

/--
The base of a number without a sign, and its digits. A leading zero alone means octal digits.
-/
def base (t : Text) : Nat × Text :=
  match t with
  | 48 :: mark :: c :: digits =>
    match Ascii.toLower mark with
    | 98 => (2, c :: digits)
    | 111 => (8, c :: digits)
    | 120 => (16, c :: digits)
    | _ => (8, mark :: c :: digits)
  | 48 :: digits => (8, digits)
  | digits => (10, digits)

/--
The value of digits after those with the value `n`. The first fault counts: a digit that the base
does not have, or a value of more than 64 bits.
-/
def digits (base n : Nat) : Text → Except IntegerFault Nat
  | [] => .ok n
  | b :: t =>
    if b == 95 then
      digits base n t
    else
      match (Ascii.hexValue? b).filter (· < base) with
      | none => .error .malformed
      | some d =>
        if n * base + d < Word.count 64 then digits base (n * base + d) t else .error .outOfRange

/--
Do the underscores of a number without a sign stand between digits? The mark of a base is as good
as a digit.
-/
def underscoresFit (t : Text) : Bool :=
  match t with
  | 48 :: mark :: rest =>
    let m := Ascii.toLower mark
    if m == 98 || m == 111 || m == 120 then
      Numeral.underscoresFit (m == 120) .digit rest
    else
      Numeral.underscoresFit false .start t
  | t => Numeral.underscoresFit false .start t

def unsigned (t : Text) : Except IntegerFault Nat :=
  if t.isEmpty then
    .error .malformed
  else
    let (base, ds) := base t
    match digits base 0 ds with
    | .error f => .error f
    | .ok n => if t.contains 95 && !underscoresFit t then .error .malformed else .ok n

end Literal

/--
Read an integer of 64 bits in two's complement with an optional sign, in the base it is written in.
-/
def Text.readLiteral (t : Text) : Except IntegerFault Int :=
  let bounded (negative : Bool) : Except IntegerFault Nat → Except IntegerFault Int
    | .error f => .error f
    | .ok n =>
      let n : Int := if negative then -n else n
      if Word.holds 64 n then .ok n else .error .outOfRange
  match t with
  | 45 :: t => bounded true (Literal.unsigned t)
  | 43 :: t => bounded false (Literal.unsigned t)
  | t => bounded false (Literal.unsigned t)

end ValueGen
