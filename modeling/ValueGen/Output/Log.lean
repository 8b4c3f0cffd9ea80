import ValueGen.Text.Quoted

/-!
This module contains the lines that a run logs, and how they are written.
-/

namespace ValueGen

inductive Level where
  | debug
  | info
  | warning
  | error
  deriving DecidableEq, Repr, Inhabited

def Level.name : Level → Text
  | .debug => "DEBUG"
  | .info => "INFO"
  | .warning => "WARN"
  | .error => "ERROR"

/--
A logged line: a text, and facts that go with it.
-/
structure LogLine where
  level : Level
  text : Text
  facts : List (Text × Text)
  deriving DecidableEq, Repr, Inhabited

namespace LogLine

/--
Does a character force quotes? A blank, an equals sign, a quote and a control character do, and
beyond the ASCII characters the replacement character and whatever is not printable.
-/
def forcesQuotes (c : Char) : Bool :=
  if c.toNat < 0x80 then
    c.toNat ≤ 0x20 || c == '=' || c == '"'
  else
    c == Glyph.replacement || !isPrintable c

/--
Is a value quoted when it is written? An empty one is too.
-/
def needsQuotes (t : Text) : Bool := t.isEmpty || t.chars.any forcesQuotes

def value (t : Text) : Text := if needsQuotes t then t.quote else t

def pair (fact : Text × Text) : Text := value fact.1 ++ "=" ++ value fact.2

def render (l : LogLine) : Text :=
  let facts : List (Text × Text) := [("level", l.level.name), ("msg", l.text)]
  Text.join " " ((facts ++ l.facts).map pair)

end LogLine

end ValueGen
