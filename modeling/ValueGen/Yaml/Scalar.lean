import ValueGen.Yaml.Token

/-!
This module contains the scalars of YAML texts: plain ones, quoted ones, and blocks of lines. Line
breaks inside of them are folded: a single one is a blank, and of several the first is dropped.
-/

namespace ValueGen

namespace Yaml

/--
The blanks and line breaks that were read since the last other character.
-/
structure Gap where
  blanks : List Char
  /-- The first line break. -/
  first : List Char
  /-- The line breaks after the first one. -/
  further : List Char
  broken : Bool
  deriving DecidableEq, Repr, Inhabited

namespace Gap

def none : Gap := ⟨[], [], [], false⟩

def foldBreaks (first further : List Char) : List Char :=
  if first.head? == some '\n' then
    if further.isEmpty then [' '] else further
  else
    first ++ further

def text (g : Gap) : List Char := if g.broken then foldBreaks g.first g.further else g.blanks

/--
Read blanks and line breaks. Blanks at the start of a line are dropped; `refuse` says which of them
are refused.
-/
def read (refuse : Lexer → Bool) : Nat → Lexer → Gap → Option (Lexer × Gap)
  | 0, l, g => some (l, g)
  | fuel + 1, l, g =>
    match l.rest with
    | [] => some (l, g)
    | c :: _ =>
      if Yaml.isBlank c then
        if g.broken then
          if refuse l then Option.none else read refuse fuel (l.advance 1) g
        else
          read refuse fuel (l.advance 1) { g with blanks := g.blanks ++ [c] }
      else if isBreak c then
        let (b, l) := l.lineBreak
        if g.broken then
          read refuse fuel l { g with further := g.further ++ b }
        else
          read refuse fuel l ⟨[], b, g.further, true⟩
      else
        some (l, g)

end Gap

namespace Lexer

/--
How many characters of a plain scalar follow without a gap. In a flow collection the characters of
its structure end it.
-/
def plainRun (flow : Bool) : List Char → Nat
  | [] => 0
  | c :: rest =>
    if Yaml.isBlank c || isBreak c then
      0
    else if c == ':' && atGap rest then
      0
    else if flow && (c == ',' || c == '[' || c == ']' || c == '\x7b' || c == '\x7d'
        || (c == '?' && (rest.head? == some ' ' || atLineEnd rest))) then
      0
    else
      plainRun flow rest + 1

/--
Read a plain scalar. The text so far and the gap behind it are given.
-/
def plainText (indent : Int) : Nat → Lexer → List Char → Gap → Option (Lexer × List Char × Gap)
  | 0, l, done, gap => some (l, done, gap)
  | fuel + 1, l, done, gap =>
    if l.atAnyMark || l.sees '#' then
      some (l, done, gap)
    else
      let n := plainRun (0 < l.flowLevel) l.rest
      let (done, gap) := if n == 0 then (done, gap) else (done ++ gap.text ++ l.rest.take n, .none)
      let l := l.advance n
      if atGap l.rest && !l.rest.isEmpty then
        match Gap.read (fun l => l.mark.column < indent && l.sees '\t') l.rest.length l gap with
        | none => none
        | some (l, gap) =>
          if l.flowLevel == 0 && l.mark.column < indent then
            some (l, done, gap)
          else
            plainText indent fuel l done gap
      else
        some (l, done, gap)

/--
Read a plain scalar. A key may follow it if it ends on another line.
-/
def plainScalar (l : Lexer) : Option Lexer :=
  match plainText (l.indent + 1) (l.rest.length + 1) l [] .none with
  | none => none
  | some (l, done, gap) =>
    let l := { l with keyAllowed := l.keyAllowed || gap.broken }
    some (l.push (.scalar (Text.ofChars done) true))

def hexNumber? (ds : List Char) : Option Nat :=
  ds.foldl (fun n d => n.bind fun n => (hexValue? d).map (16 * n + ·)) (some 0)

def codeEscape? (width : Nat) (rest : List Char) : Option (Char × Nat) :=
  if (rest.take width).length < width then
    none
  else
    match hexNumber? (rest.take width) with
    | none => none
    | some n =>
      if (0xD800 ≤ n && n ≤ 0xDFFF) || 0x10FFFF < n then none else some (Char.ofNat n, 2 + width)

/--
The character that an escape stands for, and the length of the escape. What follows the backslash
is given.
-/
def escape? : List Char → Option (Char × Nat)
  | [] => none
  | c :: rest =>
    match c with
    | '0' => some (Char.ofNat 0x00, 2)
    | 'a' => some (Char.ofNat 0x07, 2)
    | 'b' => some (Char.ofNat 0x08, 2)
    | 't' => some ('\t', 2)
    | '\t' => some ('\t', 2)
    | 'n' => some ('\n', 2)
    | 'v' => some (Char.ofNat 0x0B, 2)
    | 'f' => some (Char.ofNat 0x0C, 2)
    | 'r' => some ('\r', 2)
    | 'e' => some (Char.ofNat 0x1B, 2)
    | ' ' => some (' ', 2)
    | '"' => some ('"', 2)
    | '\'' => some ('\'', 2)
    | '\\' => some ('\\', 2)
    | 'N' => some (Char.ofNat 0x85, 2)
    | '_' => some (Char.ofNat 0xA0, 2)
    | 'L' => some (Char.ofNat 0x2028, 2)
    | 'P' => some (Char.ofNat 0x2029, 2)
    | 'x' => codeEscape? 2 rest
    | 'u' => codeEscape? 4 rest
    | 'U' => codeEscape? 8 rest
    | _ => none

/--
Read the characters of a quoted scalar up to a gap or to the closing quote. Whether an escaped line
break ended them comes with them.
-/
def quotedRun (single : Bool) : Nat → Lexer → List Char → Option (Lexer × List Char × Bool)
  | 0, l, done => some (l, done, false)
  | fuel + 1, l, done =>
    match l.rest with
    | [] => some (l, done, false)
    | c :: rest =>
      if atGap l.rest then
        some (l, done, false)
      else if single && c == '\'' then
        if rest.head? == some '\'' then
          quotedRun single fuel (l.advance 2) (done ++ ['\''])
        else
          some (l, done, false)
      else if !single && c == '"' then
        some (l, done, false)
      else if !single && c == '\\' then
        if !rest.isEmpty && atLineEnd rest then
          some ((l.advance 1).skipBreak, done, true)
        else
          match escape? rest with
          | none => none
          | some (e, n) => quotedRun single fuel (l.advance n) (done ++ [e])
      else
        quotedRun single fuel (l.advance 1) (done ++ [c])

def quotedText (single : Bool) : Nat → Lexer → List Char → Option (Lexer × List Char)
  | 0, _, _ => none
  | fuel + 1, l, done =>
    if l.atAnyMark || l.rest.isEmpty then
      none
    else
      match quotedRun single l.rest.length l done with
      | none => none
      | some (l, done, escaped) =>
        if l.sees (if single then '\'' else '"') then
          some (l.advance 1, done)
        else
          match Gap.read (fun _ => false) l.rest.length l { Gap.none with broken := escaped } with
          | none => none
          | some (l, gap) => quotedText single fuel l (done ++ gap.text)

def quotedScalar (l : Lexer) (single : Bool) : Option Lexer :=
  (quotedText single (l.rest.length + 1) (l.advance 1) []).map fun (l, done) =>
    l.push (.scalar (Text.ofChars done) false)

inductive Chomping where
  | strip
  | clip
  | keep
  deriving DecidableEq, Repr

def chomping? : Option Char → Option Chomping
  | some '+' => some .keep
  | some '-' => some .strip
  | _ => none

/--
A digit that gives an indentation. Zero is refused.
-/
def indentDigit (l : Lexer) : Option (Nat × Lexer) :=
  match l.head? with
  | some c =>
    if c.isDigit then
      if c == '0' then none else some (c.toNat - 48, l.advance 1)
    else
      some (0, l)
  | none => some (0, l)

def chompingSign (l : Lexer) : Chomping × Lexer :=
  match chomping? l.head? with
  | some c => (c, l.advance 1)
  | none => (.clip, l)

/--
Read the signs behind the indicator of a block: the chomping and the indentation, in any order.
-/
def blockSigns (l : Lexer) : Option (Chomping × Nat × Lexer) :=
  if (chomping? l.head?).isSome then
    let (c, l) := l.chompingSign
    l.indentDigit.map fun (n, l) => (c, n, l)
  else
    match l.indentDigit with
    | none => none
    | some (0, l) => some (.clip, 0, l)
    | some (n, l) => let (c, l) := l.chompingSign; some (c, n, l)

/--
Read the indentation of a line of a block and the empty lines before it. An indentation of zero is
not known yet; the widest one so far is kept then.
-/
def blockBreaks (indent : Nat) : Nat → Lexer → Nat → List Char → Option (Lexer × Nat × List Char)
  | 0, l, widest, breaks => some (l, widest, breaks)
  | fuel + 1, l, widest, breaks =>
    let spaces := (l.rest.takeWhile (· == ' ')).length
    let l := l.advance (if indent == 0 then spaces else min spaces (indent - l.mark.column))
    let widest := max widest l.mark.column
    if (indent == 0 || l.mark.column < indent) && l.sees '\t' then
      none
    else if atLineEnd l.rest && !l.rest.isEmpty then
      let (b, l) := l.lineBreak
      blockBreaks indent fuel l widest (breaks ++ b)
    else
      some (l, widest, breaks)

/--
The indentation of a block: the given one, or else that of its first line, but further right than
what is around it.
-/
def blockIndent (l : Lexer) (given widest : Nat) : Nat :=
  if given == 0 then max (max widest (l.indent + 1).toNat) 1 else given

structure Block where
  text : List Char
  /-- The line break behind the last line. -/
  first : List Char
  /-- The line breaks after it. -/
  further : List Char
  indented : Bool

/--
Add a line to a block. In a folded block the line break before it is a blank, unless one of the two
lines starts with a blank.
-/
def Block.addLine (b : Block) (literal : Bool) (line : List Char) : List Char :=
  let blank := match line.head? with
    | some c => Yaml.isBlank c
    | none => false
  let join :=
    if !literal && !b.indented && !blank && b.first.head? == some '\n' then
      if b.further.isEmpty then [' '] else []
    else
      b.first
  b.text ++ join ++ b.further ++ line

def blockLines (literal : Bool) (indent : Nat) : Nat → Lexer → Block → Option (Lexer × Block)
  | 0, l, b => some (l, b)
  | fuel + 1, l, b =>
    if l.mark.column != indent || l.rest.isEmpty then
      some (l, b)
    else
      let line := l.rest.takeWhile fun c => !isBreak c
      let text := b.addLine literal line
      let (first, l) := (l.advance line.length).lineBreak
      match blockBreaks indent (l.rest.length + 1) l 0 [] with
      | none => none
      | some (l, _, further) =>
        let indented := match line.head? with
          | some c => Yaml.isBlank c
          | none => false
        blockLines literal indent fuel l ⟨text, first, further, indented⟩

def blockScalar (l : Lexer) (literal : Bool) : Option Lexer :=
  match (l.advance 1).blockSigns with
  | none => none
  | some (chomping, increment, l) =>
    let l := l.skipWhile Yaml.isBlank
    let l := if l.sees '#' then l.skipWhile (fun c => !isBreak c) else l
    if !atLineEnd l.rest then
      none
    else
      let l := l.skipBreak
      let given :=
        if increment == 0 then 0
        else if 0 ≤ l.indent then l.indent.toNat + increment
        else increment
      match blockBreaks given (l.rest.length + 1) l 0 [] with
      | none => none
      | some (l, widest, breaks) =>
        let indent := l.blockIndent given widest
        match blockLines literal indent (l.rest.length + 1) l ⟨[], [], breaks, false⟩ with
        | none => none
        | some (l, b) =>
          let tail := match chomping with
            | .strip => []
            | .clip => b.first
            | .keep => b.first ++ b.further
          some (l.push (.scalar (Text.ofChars (b.text ++ tail)) false))

end Lexer

end Yaml

end ValueGen
