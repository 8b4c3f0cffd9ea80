/-!
This module contains the texts of the project. A text is a list of bytes: sources, names and file
contents may hold any bytes, also such that are no well-formed UTF-8.
-/

namespace ValueGen

abbrev Text := List UInt8

namespace Text

def ofString (s : String) : Text := s.toList.flatMap String.utf8EncodeChar

instance : Coe String Text := ⟨ofString⟩

/--
The text of an ASCII character, and the UTF-8 bytes of any other.
-/
def ofChar (c : Char) : Text := String.utf8EncodeChar c

def ofNat (n : Nat) : Text := (Nat.toDigits 10 n).map fun c => c.toNat.toUInt8

def ofInt : Int → Text
  | .ofNat n => ofNat n
  | .negSucc n => "-" ++ ofNat (n + 1)

def join (sep : Text) : List Text → Text
  | [] => []
  | [t] => t
  | t :: u :: ts => t ++ sep ++ join sep (u :: ts)

/--
The pieces of a text between the occurrences of the byte `sep`. There is always at least one.
-/
def splitOn (sep : UInt8) : Text → List Text
  | [] => [[]]
  | b :: t =>
    if b == sep then
      [] :: splitOn sep t
    else
      match splitOn sep t with
      | [] => [[b]]
      | p :: ps => (b :: p) :: ps

def trimRight (p : UInt8 → Bool) (t : Text) : Text := (t.reverse.dropWhile p).reverse

def startsWith (t start : Text) : Bool := start.isPrefixOf t

def endsWith (t tail : Text) : Bool := tail.isSuffixOf t

/--
What follows the first occurrence of the byte `b`, together with what precedes it.
-/
def cut? (b : UInt8) : Text → Option (Text × Text)
  | [] => none
  | c :: t =>
    if c == b then
      some ([], t)
    else
      (cut? b t).map fun (before, after) => (c :: before, after)

/--
The part of a text after the last occurrence of the byte `b`; all of it if there is none.
-/
def afterLast (b : UInt8) (t : Text) : Text := (t.reverse.takeWhile (· != b)).reverse

def includes (t part : Text) : Bool :=
  match t with
  | [] => part.isEmpty
  | b :: rest => startsWith (b :: rest) part || includes rest part

/--
Bytewise lexicographic order: does `s` come before `t` or equal it?
-/
def le : Text → Text → Bool
  | [], _ => true
  | _ :: _, [] => false
  | a :: s, b :: t => a < b || (a == b && le s t)

end Text

/-! Classes of ASCII bytes, and the change between the two cases. -/

namespace Ascii

def isUpper (b : UInt8) : Bool := 65 ≤ b && b ≤ 90

def isLower (b : UInt8) : Bool := 97 ≤ b && b ≤ 122

def isDigit (b : UInt8) : Bool := 48 ≤ b && b ≤ 57

def isLetter (b : UInt8) : Bool := isUpper b || isLower b

def toUpper (b : UInt8) : UInt8 := if isLower b then b - 32 else b

def toLower (b : UInt8) : UInt8 := if isUpper b then b + 32 else b

def hexValue? (b : UInt8) : Option Nat :=
  if isDigit b then
    some (b.toNat - 48)
  else if 97 ≤ b && b ≤ 102 then
    some (b.toNat - 87)
  else if 65 ≤ b && b ≤ 70 then
    some (b.toNat - 55)
  else
    none

def hexDigit (n : Nat) : UInt8 := if n < 10 then (48 + n).toUInt8 else (87 + n).toUInt8

end Ascii

/--
The last `width` hexadecimal digits of `n`, in lower case.
-/
def Text.hex (width n : Nat) : Text :=
  match width with
  | 0 => []
  | w + 1 => Text.hex w (n / 16) ++ [Ascii.hexDigit (n % 16)]

end ValueGen
