import ValueGen.Decimal.Numeral
import ValueGen.Text.Word

/-!
This module contains binary floating-point numbers of a given format, and the rounding of exact
numbers to them.
-/

namespace ValueGen

/--
A format of floating-point numbers: the number of binary digits, and the least and the greatest
exponent of the last of them.
-/
structure FloatFormat where
  precision : Nat
  least : Int
  greatest : Int
  deriving DecidableEq, Repr

namespace FloatFormat

def single : FloatFormat := ⟨24, -149, 104⟩

def double : FloatFormat := ⟨53, -1074, 971⟩

end FloatFormat

/--
A floating-point number. A finite one is `digits` times two to the power `exponent`.
-/
inductive Floating where
  | finite (negative : Bool) (digits : Nat) (exponent : Int)
  | infinite (negative : Bool)
  | notANumber
  deriving DecidableEq, Repr

namespace Floating

/--
The quotient of two natural numbers to the nearest integer, a half to the even one.
-/
def roundDiv (num den : Nat) : Nat :=
  let q := num / den
  let r := num % den
  if 2 * r < den then
    q
  else if den < 2 * r then
    q + 1
  else
    q + q % 2

/--
The number `num / den` counted in units of two to the power `e`.
-/
def inUnits (num den : Nat) (e : Int) : Nat × Nat :=
  if 0 ≤ e then (num, den * Word.count e.toNat) else (num * Word.count (-e).toNat, den)

/--
The exponent of the last digit of `num / den` in a format: as small as the precision allows, and
not below the least.
-/
def unitExponent (f : FloatFormat) (num den : Nat) : Int :=
  let e : Int := (num.log2 : Int) - den.log2 - f.precision
  let (n, d) := inUnits num den e
  let e := if n < d * Word.count f.precision then e else e + 1
  max e f.least

/--
The nearest number of a format, or nothing if the number is too large for it.
-/
def round? (f : FloatFormat) (negative : Bool) (num den : Nat) : Option Floating :=
  if num == 0 then
    some (.finite negative 0 f.least)
  else
    let e := unitExponent f num den
    let (n, d) := inUnits num den e
    let m := roundDiv n d
    let (m, e) := if m == Word.count f.precision then (m / 2, e + 1) else (m, e)
    if f.greatest < e then none else some (.finite negative m e)

/--
The number of a format that a text stands for, or nothing if the text is no number or the number
is too large.
-/
def ofText? (f : FloatFormat) (t : Text) : Option Floating :=
  match Numeral.ofText? t with
  | none => none
  | some .notANumber => some .notANumber
  | some (.infinite negative) => some (.infinite negative)
  | some (.finite negative num den) => round? f negative num den

end Floating

end ValueGen
