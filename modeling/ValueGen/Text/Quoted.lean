import ValueGen.Text.Glyph
import ValueGen.Text.Printable

/-!
This module contains quoted texts: a text between double quotes in which everything that cannot be
printed, the quote and the backslash are written as escapes. A single character stands between
single quotes in the same way.
-/

namespace ValueGen

namespace Quoted

/--
The letter that stands after a backslash for a control character that has one.
-/
def shortEscape? (c : Char) : Option UInt8 :=
  match c.toNat with
  | 7 => some 97
  | 8 => some 98
  | 12 => some 102
  | 10 => some 110
  | 13 => some 114
  | 9 => some 116
  | 11 => some 118
  | _ => none

def escape (quote : Char) (g : Glyph) : Text :=
  if g.isStray then
    "\\x" ++ g.bytes.flatMap (fun b => Text.hex 2 b.toNat)
  else if g.char == quote || g.char == '\\' then
    "\\" ++ g.bytes
  else if isPrintable g.char then
    g.bytes
  else
    match shortEscape? g.char with
    | some b => "\\" ++ [b]
    | none =>
      let code := g.char.toNat
      if code < 0x20 || code == 0x7F then
        "\\x" ++ Text.hex 2 code
      else if code < 0x10000 then
        "\\u" ++ Text.hex 4 code
      else
        "\\U" ++ Text.hex 8 code

end Quoted

def Text.quote (t : Text) : Text :=
  "\"" ++ t.glyphs.flatMap (Quoted.escape '"') ++ "\""

def Text.quoteChar (c : Char) : Text :=
  "'" ++ Quoted.escape '\'' ⟨c, Text.ofChar c⟩ ++ "'"

end ValueGen
