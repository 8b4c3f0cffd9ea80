import ValueGen.Text.Blank

/-!
This module contains the comment lines at the head of a generated file. A line that already is a
comment is kept, so a line may open a block comment that a later line closes; the lines together
have to consist of comments only.
-/

namespace ValueGen

namespace Code

namespace Comment

def ofLine (line : Text) : Text :=
  if line.startsWith "//" || line.startsWith "/*" then line else "// " ++ line

inductive State where
  /-- Between comments, at the start of a line or behind a closed block comment. -/
  | between
  | block
  | failed
  deriving DecidableEq, Repr

def State.read : State → Text → State
  | .failed, _ => .failed
  | .block, 42 :: 47 :: t => State.read .between t
  | .block, _ :: t => State.read .block t
  | .block, [] => .block
  | .between, 47 :: 47 :: _ => .between
  | .between, 47 :: 42 :: t => State.read .block t
  | .between, b :: t => if b == 32 || b == 9 || b == 13 then State.read .between t else .failed
  | .between, [] => .between

def isSourceGlyph (g : Glyph) : Bool :=
  !g.isStray && g.char.toNat != 0 && g.char.toNat != 0xFEFF

def areComments (lines : List Text) : Bool :=
  lines.all (fun l => l.glyphs.all isSourceGlyph) && lines.foldl State.read .between == .between

/--
A comment line as it is printed: without carriage returns and without blanks at its end.
-/
def print (line : Text) : Text := Text.trimBlanks (line.filter (· != 13))

end Comment

end Code

end ValueGen
