import ValueGen.Decimal.Binary

/-!
This module contains the shortest decimal texts of floating-point numbers: the fewest digits that
read back as the same number and, of these, the nearest to it.
-/

namespace ValueGen

/--
Decimal digits with a point: the value is `0.d₁d₂d₃…` times ten to the power `point`.
-/
structure Digits where
  digits : List Nat
  point : Int
  deriving DecidableEq, Repr

namespace Shortest

/--
The half-way marks around a number, and the number itself, all multiplied by a common factor:
everything between the marks reads back as the number, and the marks do if its last binary digit
is zero.
-/
structure Interval where
  low : Nat
  value : Nat
  high : Nat
  factor : Nat
  closed : Bool
  deriving DecidableEq, Repr

def interval (f : FloatFormat) (m : Nat) (e : Int) : Interval :=
  -- Below a power of two the numbers lie twice as close.
  let narrow := m == Word.count (f.precision - 1) && f.least < e
  let low := if narrow then 4 * m - 1 else 4 * m - 2
  let high := 4 * m + 2
  let e := e - 2
  if 0 ≤ e then
    let k := Word.count e.toNat
    ⟨low * k, 4 * m * k, high * k, 1, m % 2 == 0⟩
  else
    ⟨low, 4 * m, high, Word.count (-e).toNat, m % 2 == 0⟩

def covers (i : Interval) (n : Nat) (p : Int) : Bool :=
  let (x, factor) :=
    if 0 ≤ p then (n * Nat.pow 10 p.toNat * i.factor, 1)
    else (n * i.factor, Nat.pow 10 (-p).toNat)
  if i.closed then
    i.low * factor ≤ x && x ≤ i.high * factor
  else
    i.low * factor < x && x < i.high * factor

/--
The best number of units of ten to the power `p` in the interval, if there is one: of the two
neighbours of the value the one that lies in it, or else the nearer one.
-/
def candidate? (i : Interval) (p : Int) : Option Nat :=
  let (num, den) :=
    if 0 ≤ p then (i.value, i.factor * Nat.pow 10 p.toNat)
    else (i.value * Nat.pow 10 (-p).toNat, i.factor)
  let below := num / den
  let r := num % den
  let above := below + 1
  match covers i below p && below != 0, covers i above p with
  | true, true => some (if 2 * r < den || (2 * r == den && below % 2 == 0) then below else above)
  | true, false => some below
  | false, true => some above
  | false, false => none

/--
Try finer and finer grids, from units of ten to the power `p` on.
-/
def search (i : Interval) (p : Int) : Nat → Nat × Int
  | 0 => ((candidate? i p).getD 0, p)
  | k + 1 =>
    match candidate? i p with
    | some n => (n, p)
    | none => search i (p - 1) k

def digitsOf (n : Nat) : List Nat :=
  ((Nat.toDigits 10 n).map (fun c => c.toNat - 48)).reverse.dropWhile (· == 0) |>.reverse

def digits (f : FloatFormat) (m : Nat) (e : Int) : Digits :=
  if m == 0 then
    ⟨[], 0⟩
  else
    let i := interval f m e
    -- The first power of ten that is not below the number.
    let start : Int := (((m.log2 : Int) + e + 2) * 30103) / 100000 + 1
    let (n, p) := search i start 30
    ⟨digitsOf n, p + (Nat.toDigits 10 n).length⟩

end Shortest

/--
How floating-point numbers are written: positionally if the exponent of the first digit lies in a
range, else with an exponent of at least two digits.
-/
structure FloatStyle where
  leastPositional : Int
  firstScientific : Int

namespace FloatStyle

def write (ds : List Nat) : Text := ds.map fun d => (48 + d).toUInt8

def fraction : List Nat → Text
  | [] => []
  | ds => "." ++ write ds

/--
The exponent of a number in scientific notation: its sign and at least two digits.
-/
def exponent (e : Int) : Text :=
  let sign : Text := if e < 0 then "-" else "+"
  let n := e.natAbs
  "e" ++ sign ++ (if n < 10 then ("0" : Text) else []) ++ Text.ofNat n

def finite (s : FloatStyle) (d : Digits) : Text :=
  let e := d.point - 1
  match d.digits with
  | [] => "0"
  | first :: rest =>
    if e < s.leastPositional || s.firstScientific ≤ e then
      write [first] ++ fraction rest ++ exponent e
    else if d.point ≤ 0 then
      "0." ++ write (List.replicate (-d.point).toNat 0) ++ write d.digits
    else
      let n := d.point.toNat
      write (d.digits.take n ++ List.replicate (n - d.digits.length) 0)
        ++ fraction (d.digits.drop n)

def render (s : FloatStyle) (f : FloatFormat) : Floating → Text
  | .notANumber => "NaN"
  | .infinite negative => if negative then "-Inf" else "+Inf"
  | .finite negative m e =>
    (if negative then ("-" : Text) else []) ++ s.finite (Shortest.digits f m e)

end FloatStyle

end ValueGen
