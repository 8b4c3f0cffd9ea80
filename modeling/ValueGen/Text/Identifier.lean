import ValueGen.Text.Glyph
import ValueGen.Text.Letter
import ValueGen.Text.Digit

/-!
This module contains the identifiers of the generated code.
-/

namespace ValueGen

namespace Identifier

/--
The words that the target language reserves.
-/
def keywords : List Text := [
  "break", "case", "chan", "const", "continue", "default", "defer", "else", "fallthrough", "for",
  "func", "go", "goto", "if", "import", "interface", "map", "package", "range", "return",
  "select", "struct", "switch", "type", "var"]

def isKeyword (name : Text) : Bool := keywords.contains name

def isStart (c : Char) : Bool := c == '_' || isLetter c

def isInner (c : Char) : Bool := isStart c || isDigit c

/--
Is the name a non-empty sequence of letters, digits and underscores that does not start with a
digit?
-/
def isWord (name : Text) : Bool :=
  match name.chars with
  | [] => false
  | c :: cs => isStart c && cs.all isInner

/--
Is the name an identifier of the target language: a word that is not reserved?
-/
def isValid (name : Text) : Bool := isWord name && !isKeyword name

end Identifier

end ValueGen
