import ValueGen.Text.Glyph

/-!
This module contains snake-case names. Every byte of the camel-case name stands for the Latin-1
character of that number.
-/

namespace ValueGen

namespace Snake

/--
Is the byte an upper-case letter of Latin-1?
-/
def isUpper (b : UInt8) : Bool := Ascii.isUpper b || (0xC0 ≤ b && b ≤ 0xDE && b != 0xD7)

def isLower (b : UInt8) : Bool :=
  Ascii.isLower b || b == 0xB5 || (0xDF ≤ b && b != 0xF7)

/--
Is the byte a letter of Latin-1? The two ordinal indicators are letters without case.
-/
def isLetter (b : UInt8) : Bool := isUpper b || isLower b || b == 0xAA || b == 0xBA

def toLower (b : UInt8) : UInt8 := if isUpper b then b + 32 else b

/--
The Latin-1 character of a byte, in lower case.
-/
def render (b : UInt8) : Text := Text.ofChar (Char.ofNat (toLower b).toNat)

/--
Does a word start at the upper-case letter `b`, which stands between `before` and `after`?
`split` tells whether a word started at `before`.
-/
def startsWord (before b after : UInt8) (split : Bool) : Bool :=
  isUpper b && (isLower before || (!split && isLower after && isLetter before))

def ofCamel : Text → Text
  | [] => []
  | b :: t => render b ++ go b true t
where
  /--
  The rest of the snake-case name after the byte `before`. A word starts at the first byte of a
  name, and `split` tells whether one starts at `before`.
  -/
  go (before : UInt8) (split : Bool) : Text → Text
    | [] => []
    -- No word starts at the last byte, which nothing follows.
    | [b] => render b
    | b :: after :: t =>
      if startsWord before b after split then
        "_" ++ render b ++ go b true (after :: t)
      else
        render b ++ go b false (after :: t)

end Snake

end ValueGen
