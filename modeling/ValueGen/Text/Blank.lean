import ValueGen.Text.Glyph
import ValueGen.Text.Ranges

/-!
This module contains blanks: the characters of white space.
-/

namespace ValueGen

def blankRanges : List CodeRange := [
  ⟨0x9, 0xD⟩, ⟨0x20, 0x20⟩, ⟨0x85, 0x85⟩, ⟨0xA0, 0xA0⟩, ⟨0x1680, 0x1680⟩, ⟨0x2000, 0x200A⟩,
  ⟨0x2028, 0x2029⟩, ⟨0x202F, 0x202F⟩, ⟨0x205F, 0x205F⟩, ⟨0x3000, 0x3000⟩]

def isBlank (c : Char) : Bool := CodeRange.covers blankRanges c.toNat

def Text.trimBlanks (t : Text) : Text :=
  Text.ofGlyphs (t.glyphs.reverse.dropWhile fun g => isBlank g.char).reverse

end ValueGen
