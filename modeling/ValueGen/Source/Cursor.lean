import ValueGen.Text.Glyph

/-!
This module contains cursors, which read the characters of a source one by one. A cursor is always
one character ahead: the next character is known before it is taken, and what is wrong with a
character is found out when it becomes the next one.
-/

namespace ValueGen

/--
A place in a source between two characters.
-/
structure Cursor where
  /-- The next character; there is none at the end of the source. -/
  ahead : Option Glyph
  rest : List Glyph
  /-- The line behind the next character. -/
  line : Nat
  /-- The number of characters of that line up to the next character, inclusive. -/
  column : Nat
  /-- The number of characters of the line before, its line break included. -/
  lastColumn : Nat
  /-- The characters taken since the last mark, the last one first. -/
  taken : List Glyph
  faults : List Text
  deriving Repr, Inhabited

namespace Cursor

def size (c : Cursor) : Nat := c.rest.length + if c.ahead.isSome then 1 else 0

def report (c : Cursor) (fault : Text) : Cursor := { c with faults := c.faults ++ [fault] }

/--
Make the first of the remaining characters the next one. Behind the last character the cursor
moves one column on, once.
-/
def load (c : Cursor) (first : Bool) : Cursor :=
  match c.rest with
  | [] =>
    { c with ahead := none, column := if first || c.ahead.isNone then c.column else c.column + 1 }
  | g :: rest =>
    let next := { c with ahead := some g, rest := rest, column := c.column + 1 }
    if g.isStray then
      next.report "invalid UTF-8 encoding"
    else if g.char.toNat == 0 then
      next.report "invalid character NUL"
    else if g.char == '\n' then
      { next with line := c.line + 1, column := 0, lastColumn := c.column + 1 }
    else
      next

def advance (c : Cursor) : Cursor :=
  load { c with taken := c.ahead.toList ++ c.taken } false

/--
Start reading a source. A byte order mark at the very start is passed over.
-/
def start (source : List Glyph) : Cursor :=
  let c := load ⟨none, source, 1, 0, 0, [], []⟩ true
  match c.ahead with
  | some g => if g.char.toNat == 0xFEFF then c.advance else c
  | none => c

/--
Forget what was taken and what was found wrong.
-/
def mark (c : Cursor) : Cursor := { c with taken := [], faults := [] }

def place (c : Cursor) : Nat × Nat :=
  -- A line break is the last character of the line that it ends, although the next line has begun.
  if 0 < c.column then (c.line, c.column) else (c.line - 1, c.lastColumn)

def text (c : Cursor) : Text := Text.ofGlyphs c.taken.reverse

def sees (c : Cursor) (p : Char → Bool) : Bool :=
  match c.ahead with
  | some g => p g.char
  | none => false

def seesChar (c : Cursor) (x : Char) : Bool := c.sees (· == x)

def takeWhile (p : Char → Bool) (c : Cursor) : Cursor :=
  go c.size c
where
  go : Nat → Cursor → Cursor
    | 0, c => c
    | n + 1, c => if c.sees p then go n c.advance else c

end Cursor

end ValueGen
