import ValueGen.Text.Integer

/-!
This module contains the reading of dates, times of the day and offsets of time zones.
-/

namespace ValueGen

namespace Calendar

def daysIn (year month : Nat) : Nat :=
  if month == 2 then
    if year % 4 == 0 && (year % 100 != 0 || year % 400 == 0) then 29 else 28
  else if month == 4 || month == 6 || month == 9 || month == 11 then
    30
  else
    31

/--
How many digits the fields of a date or a time have. Loose fields may also have a single digit.
-/
inductive Width where
  | loose
  | strict
  deriving DecidableEq, Repr

def field? (w : Width) (least most : Nat) (t : Text) : Option (Nat × Text) :=
  let ds := (t.take 2).takeWhile Ascii.isDigit
  match Text.digits? ds with
  | some n =>
    if least ≤ n && n ≤ most && (w == .loose || ds.length == 2) then
      some (n, t.drop ds.length)
    else
      none
  | none => none

def after? (b : UInt8) : Text → Option Text
  | c :: rest => if c == b then some rest else none
  | [] => none

/--
A date at the start of a text: a year of four digits, a month and a day. What follows it comes back.
-/
def afterDate? (w : Width) (t : Text) : Option Text := do
  let year ← if (t.take 4).length == 4 then Text.digits? (t.take 4) else none
  let t ← after? 45 (t.drop 4)
  let (month, t) ← field? w 1 12 t
  let t ← after? 45 t
  let (_, t) ← field? w 1 (daysIn year month) t
  return t

/--
The hour and the minute at the start of a text. What follows them comes back.
-/
def afterMinute? (w : Width) (t : Text) : Option Text := do
  let (_, t) ← field? w 0 23 t
  let t ← after? 58 t
  let (_, t) ← field? w 0 59 t
  return t

/--
The colon and the second after a minute, and a fraction of the second if there is one. What follows
them comes back.
-/
def afterSecond? (w : Width) (t : Text) : Option Text := do
  let t ← after? 58 t
  let (_, t) ← field? w 0 59 t
  match t with
  | point :: rest =>
    let fraction := rest.takeWhile Ascii.isDigit
    if (point == 46 || point == 44) && !fraction.isEmpty then
      return rest.drop fraction.length
    else
      return t
  | [] => return t

def isZone (t : Text) : Bool :=
  match t with
  | [90] => true
  | [s, a, b, 58, c, d] =>
    (s == 43 || s == 45)
      && (field? .strict 0 24 [a, b]).isSome && (field? .strict 0 60 [c, d]).isSome
  | _ => false

end Calendar

end ValueGen
