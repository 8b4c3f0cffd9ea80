import ValueGen.Names.Initialism
import ValueGen.Text.LowerCase

/-!
This module contains camel-case names. A name in snake case is split into words at underscores and
dashes, and the words are put together again with a capital in front of each. Initialisms are kept
in upper case.
-/

namespace ValueGen

namespace Camel

def isSeparator (b : UInt8) : Bool := b == 95 || b == 45

/--
The words of a name: its maximal non-empty pieces without separators.
-/
def words (name : Text) : List Text :=
  go [] name
where
  /--
  The words of `name` when the bytes of `word`, last one first, were read before it.
  -/
  go (word : Text) : Text → List Text
    | [] => if word.isEmpty then [] else [word.reverse]
    | b :: t =>
      if isSeparator b then
        if word.isEmpty then go [] t else word.reverse :: go [] t
      else
        go (b :: word) t

/--
A word with its first byte in upper case. A byte beyond ASCII is no character on its own and is
replaced.
-/
def capitalize : Text → Text
  | [] => []
  | b :: t => if b < 0x80 then Ascii.toUpper b :: t else Text.ofChar Glyph.replacement ++ t

def inner (word : Text) : Text := (Initialism.ofWord? word).getD (capitalize word)

def uncapitalize : Text → Text
  | [] => []
  | b :: t =>
    let g := Glyph.leading b t
    Text.ofChar (toLowerCase g.char) ++ (b :: t).drop g.bytes.length

/--
How a word stands at the head of a name that starts in lower case.
-/
def head (word : Text) : Text :=
  if Initialism.isSpelledBy word then word.map Ascii.toLower else uncapitalize word

/--
The name with a capital in front of every word.
-/
def upper (name : Text) : Text := (words name).flatMap inner

/--
The name with a capital in front of every word but the first.
-/
def lower (name : Text) : Text :=
  match words name with
  | [] => []
  | w :: ws => head w ++ ws.flatMap inner

end Camel

end ValueGen
