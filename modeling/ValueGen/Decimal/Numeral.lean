import ValueGen.Text.Basic

/-!
This module contains the texts of numbers: decimal ones with an optional fraction and exponent,
hexadecimal ones with a binary exponent, and the words for infinity and for what is no number. The
value of a finite text is kept exactly.
-/

namespace ValueGen

/--
The exact meaning of the text of a number.
-/
inductive Numeral where
  | finite (negative : Bool) (num den : Nat)
  | infinite (negative : Bool)
  | notANumber
  deriving DecidableEq, Repr

namespace Numeral

/--
The digits of a number with at most one point among them: their value in the base, the number of
digits behind the point, and whether there is a digit at all. Underscores are passed over.
-/
structure Digits where
  value : Nat
  places : Nat
  point : Bool
  some : Bool
  deriving DecidableEq, Repr

def digit? (base : Nat) (b : UInt8) : Option Nat := (Ascii.hexValue? b).filter (· < base)

def readDigits (base : Nat) (d : Digits) : Text → Digits × Text
  | [] => (d, [])
  | b :: t =>
    if b == 95 then
      readDigits base d t
    else if b == 46 && !d.point then
      readDigits base { d with point := true } t
    else
      match digit? base b with
      | some v =>
        readDigits base
          ⟨d.value * base + v, if d.point then d.places + 1 else d.places, d.point, true⟩ t
      | none => (d, b :: t)

/--
What the last character of a number was, for the rule on underscores.
-/
inductive Seen where
  | start
  | digit
  | underscore
  | other
  deriving DecidableEq, Repr

/--
Underscores stand only between digits. `hex` tells whether the letters up to f are digits.
-/
def underscoresFit (hex : Bool) (seen : Seen) : Text → Bool
  | [] => seen != .underscore
  | b :: t =>
    if Ascii.isDigit b || (hex && (Ascii.hexValue? b).isSome) then
      underscoresFit hex .digit t
    else if b == 95 then
      seen == .digit && underscoresFit hex .underscore t
    else
      seen != .underscore && underscoresFit hex .other t

/--
Read an exponent behind its mark: an optional sign and digits, up to the end of the text. It is
cut off where every value is out of reach.
-/
def readExponent (t : Text) : Option Int :=
  let (negative, t) : Bool × Text :=
    match t with
    | 43 :: t => (false, t)
    | 45 :: t => (true, t)
    | t => (false, t)
  match t with
  | b :: _ =>
    if Ascii.isDigit b && t.all (fun b => Ascii.isDigit b || b == 95) then
      let e := (t.filter Ascii.isDigit).foldl
        (fun (e : Nat) b => if e < 10000 then e * 10 + (b.toNat - 48) else e) 0
      some (if negative then - (e : Int) else (e : Int))
    else
      none
  | [] => none

/--
The number `value` times `base` to the power `e`.
-/
def scaled (negative : Bool) (value base : Nat) (e : Int) : Numeral :=
  if 0 ≤ e then
    .finite negative (value * Nat.pow base e.toNat) 1
  else
    .finite negative value (Nat.pow base (-e).toNat)

def readUnsigned (negative : Bool) (t : Text) : Option Numeral :=
  match t with
  | 48 :: x :: u =>
    if (x == 120 || x == 88) && !u.isEmpty then
      let (d, rest) := readDigits 16 ⟨0, 0, false, false⟩ u
      match rest with
      | p :: e =>
        if d.some && (p == 112 || p == 80) && underscoresFit true .digit u then
          (readExponent e).map fun e => scaled negative d.value 2 (e - 4 * d.places)
        else
          none
      | [] => none
    else
      decimal t
  | t => decimal t
where
  decimal (t : Text) : Option Numeral :=
    let (d, rest) := readDigits 10 ⟨0, 0, false, false⟩ t
    if !d.some || !underscoresFit false .start t then
      none
    else
      match rest with
      | [] => some (scaled negative d.value 10 (- (d.places : Int)))
      | m :: e =>
        if m == 101 || m == 69 then
          (readExponent e).map fun e => scaled negative d.value 10 (e - d.places)
        else
          none

def spells (t word : Text) : Bool := t.map Ascii.toLower == word

def ofText? (t : Text) : Option Numeral :=
  let unsigned (negative : Bool) (t : Text) : Option Numeral :=
    if spells t "inf" || spells t "infinity" then
      some (.infinite negative)
    else
      readUnsigned negative t
  match t with
  | 43 :: t => unsigned false t
  | 45 :: t => unsigned true t
  | t => if spells t "nan" then some .notANumber else unsigned false t

end Numeral

end ValueGen
