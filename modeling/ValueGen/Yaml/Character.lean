import ValueGen.Text.Glyph

/-!
This module contains the characters of a YAML text: how they are encoded, which of them are allowed,
and the classes that matter for reading.
-/

namespace ValueGen

namespace Yaml

def isAllowed (c : Char) : Bool :=
  let n := c.toNat
  n == 0x09 || n == 0x0A || n == 0x0D || (0x20 ≤ n && n ≤ 0x7E) || n == 0x85
    || (0xA0 ≤ n && n ≤ 0xD7FF) || (0xE000 ≤ n && n ≤ 0xFFFD) || 0x10000 ≤ n

/--
The characters of a sequence of 16-bit units.
-/
def ofUnits? : List Nat → Option (List Char)
  | [] => some []
  | [u] => if 0xD800 ≤ u && u ≤ 0xDFFF then none else some [Char.ofNat u]
  | u :: v :: rest =>
    if 0xD800 ≤ u && u ≤ 0xDBFF then
      if 0xDC00 ≤ v && v ≤ 0xDFFF then
        (ofUnits? rest).map (Char.ofNat (0x10000 + (u - 0xD800) * 0x400 + (v - 0xDC00)) :: ·)
      else
        none
    else if 0xDC00 ≤ u && u ≤ 0xDFFF then
      none
    else
      (ofUnits? (v :: rest)).map (Char.ofNat u :: ·)

/--
The 16-bit units of a text, of which each one is made of two bytes.
-/
def units? (unit : UInt8 → UInt8 → Nat) : Text → Option (List Nat)
  | [] => some []
  | [_] => none
  | a :: b :: rest => (units? unit rest).map (unit a b :: ·)

/--
The characters of a text, without the mark that may tell the encoding at its start.
-/
def decode? : Text → Option (List Char)
  | 0xFF :: 0xFE :: rest => (units? (fun a b => a.toNat + 256 * b.toNat) rest).bind ofUnits?
  | 0xFE :: 0xFF :: rest => (units? (fun a b => 256 * a.toNat + b.toNat) rest).bind ofUnits?
  | 0xEF :: 0xBB :: 0xBF :: rest => ofUtf8? rest
  | t => ofUtf8? t
where
  ofUtf8? (t : Text) : Option (List Char) := if t.isWellFormed then some t.chars else none

def characters? (t : Text) : Option (List Char) := (decode? t).filter (·.all isAllowed)

def isBlank (c : Char) : Bool := c == ' ' || c == '\t'

def isBreak (c : Char) : Bool :=
  c == '\n' || c == '\r' || c.toNat == 0x85 || c.toNat == 0x2028 || c.toNat == 0x2029

def isWord (c : Char) : Bool := c.isAlphanum || c == '_' || c == '-'

def atGap : List Char → Bool
  | [] => true
  | c :: _ => isBlank c || isBreak c

def atLineEnd : List Char → Bool
  | [] => true
  | c :: _ => isBreak c

def hexValue? (c : Char) : Option Nat :=
  if c.toNat < 0x80 then Ascii.hexValue? c.toNat.toUInt8 else none

end Yaml

end ValueGen
