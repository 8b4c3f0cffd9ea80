import ValueGen.Failure
import ValueGen.Text.Integer

/-!
This module contains reports of malformed sources. A report is a text that may start with a place
in the form `file:line:column: `, and the place is recovered from it.
-/

namespace ValueGen

namespace Report

/--
A number and a colon at the start of a text: the number, and what follows.
-/
def numberColon? (t : Text) : Option (Nat × Text) :=
  match t.dropWhile Ascii.isDigit with
  | 58 :: rest => (Text.digits? (t.takeWhile Ascii.isDigit)).map fun n => (n, rest)
  | _ => none

/--
A place at the start of a text: a line, a column and a blank, with colons behind the numbers.
-/
def place? (t : Text) : Option (Nat × Nat × Text) :=
  match numberColon? t with
  | none => none
  | some (line, rest) =>
    match numberColon? rest with
    | some (column, 32 :: message) => some (line, column, message)
    | _ => none

/--
The shortest name of a file in front of a place, with the place. `done` is read already, last byte
first.
-/
def named? (done : Text) : Text → Option (Text × Nat × Nat × Text)
  | [] => none
  | b :: t =>
    match if b == 58 then place? t else none with
    | some found => some (done.reverse, found)
    | none => named? (b :: done) t

/--
The name of a file, the place in it and the message that a report on a single line consists of.
The name may be missing.
-/
def split? (t : Text) : Option (Text × Nat × Nat × Text) :=
  if t.contains 10 then
    none
  else
    match named? [] t with
    | some found => some found
    | none => (place? t).map fun found => ([], found)

def bounded (n : Nat) : Int := if Word.holds 64 n then n else Word.greatest 64

/--
The failure that a report on a source tells of. A report without a place is kept whole.
-/
def toFailure (file report : Text) : Failure :=
  match split? report with
  | none => .malformed file 0 0 report
  | some (name, line, column, message) =>
    .malformed (if name.isEmpty then file else name) (bounded line) (bounded column) message

end Report

end ValueGen
