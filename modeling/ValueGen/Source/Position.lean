import ValueGen.Text.Basic

/-!
This module contains positions in sources.
-/

namespace ValueGen

/--
A place in a source. Lines and columns count from one; a position without a line names the source
only.
-/
structure Position where
  file : Text
  line : Int
  column : Int
  deriving DecidableEq, Repr, Inhabited

namespace Position

def isKnown (p : Position) : Bool := 0 < p.line

/--
The position as text: `file:line:column`, and less if a part of it is not known.
-/
def render (p : Position) : Text :=
  if !p.isKnown then
    p.file
  else if p.file.isEmpty then
    Text.ofInt p.line ++ ":" ++ Text.ofInt p.column
  else
    p.file ++ ":" ++ Text.ofInt p.line ++ ":" ++ Text.ofInt p.column

end Position

end ValueGen
