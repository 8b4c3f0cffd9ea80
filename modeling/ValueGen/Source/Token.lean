import ValueGen.Source.Cursor
import ValueGen.Source.Position
import ValueGen.Text.Letter
import ValueGen.Text.Digit
import ValueGen.Text.Identifier
import ValueGen.Decimal.Binary

/-!
This module contains the tokens of declaration sources: words, numbers, quoted texts, comments and
single characters. What is wrong inside a token is noted, and scanning goes on.
-/

namespace ValueGen

inductive TokenClass where
  | endOfSource
  | comment
  | number
  | keyword
  | symbol
  /-- Any other token: words, quoted texts and stray characters. -/
  | word
  deriving DecidableEq, Repr, Inhabited

/--
A token with the line and the column where it starts. The line is zero if it is not known.
-/
structure Token where
  kind : TokenClass
  text : Text
  line : Nat
  column : Nat
  deriving DecidableEq, Repr, Inhabited

namespace Token

/--
The characters that are tokens of a class of their own.
-/
def symbols : List Text :=
  [";", ":", "=", "\"", "'", "(", ")", "\x7b", "\x7d", "[", "]", "<", ">", ",", "."]

def keywords : List Text := [
  "syntax", "edition", "service", "rpc", "returns", "option", "message", "import", "package",
  "oneof", "map", "reserved", "enum", "repeated", "weak", "public", "stream", "optional", "group",
  "extensions", "extend", "required"]

def isHex (t : Text) : Bool := t.startsWith "0x" || t.startsWith "0X"

/--
The value of a hexadecimal integer with its mark in front, if it fits into 64 bits with a sign.
-/
def hexInteger? (t : Text) : Option Nat :=
  let digits := t.drop 2
  if digits.all (fun b => b == 95 || (Ascii.hexValue? b).isSome)
      && digits.any (· != 95) && Numeral.underscoresFit true .digit digits then
    let n := (Numeral.readDigits 16 ⟨0, 0, false, false⟩ digits).1.value
    if Word.holds 64 n then some n else none
  else
    none

/--
Does the text stand for a number? The usual spellings of infinity and of what is no number do not.
-/
def isNumber (t : Text) : Bool :=
  if ([("NaN" : Text), "nan", "Inf", "inf", "Infinity", "infinity"] : List Text).contains t then
    false
  else if isHex t then
    (hexInteger? t).isSome
  else
    (Floating.ofText? .double t).isSome

def classify (t : Text) : TokenClass :=
  if t.isEmpty then
    .endOfSource
  else if symbols.contains t then
    .symbol
  else if keywords.contains t then
    .keyword
  else if t.startsWith "//" || t.startsWith "/*" then
    .comment
  else if isNumber t then
    .number
  else
    .word

def is (t : Token) (text : Text) : Bool := t.text == text

/--
Does the token belong to the declaration language, or is it a number?
-/
def isReserved (t : Token) : Bool := t.kind == .keyword || t.kind == .number

def isName (t : Token) : Bool := t.kind == .word || t.isReserved

end Token

def Text.isQuoted (t : Text) : Bool :=
  (t.startsWith "\"" && t.endsWith "\"") || (t.startsWith "'" && t.endsWith "'")

def Text.unquote (t : Text) : Text :=
  if 2 ≤ t.length && t.isQuoted then t.tail.dropLast else t

namespace Cursor

def isSpace (c : Char) : Bool := c == ' ' || c == '\t' || c == '\n' || c == '\r'

def isDecimal (c : Char) : Bool := '0' ≤ c && c ≤ '9'

/--
The value of a hexadecimal digit; sixteen for any other character.
-/
def digitValue (c : Char) : Nat :=
  if isDecimal c then
    c.toNat - 48
  else if 'a' ≤ c && c ≤ 'f' then
    c.toNat - 87
  else if 'A' ≤ c && c ≤ 'F' then
    c.toNat - 55
  else
    16

/--
The digits of a number: which characters they are, whether there is a digit and whether there is an
underscore among them.
-/
structure DigitRun where
  digit : Bool
  underscore : Bool
  /-- The first digit that does not belong to the base. -/
  invalid : Option Char
  deriving DecidableEq, Repr

/--
Take the digits of a number of the base, and underscores. In a base up to ten every decimal digit
is taken, and the first one too large is noted.
-/
def takeDigits (base : Nat) (run : DigitRun) (c : Cursor) : DigitRun × Cursor :=
  go c.size run c
where
  go : Nat → DigitRun → Cursor → DigitRun × Cursor
    | 0, run, c => (run, c)
    | n + 1, run, c =>
      match c.ahead with
      | none => (run, c)
      | some g =>
        if g.char == '_' then
          go n { run with underscore := true } c.advance
        else if digitValue g.char < max base 10 then
          let invalid :=
            if run.invalid.isNone && base ≤ digitValue g.char then some g.char else run.invalid
          go n ⟨true, run.underscore, invalid⟩ c.advance
        else
          (run, c)

inductive Base where
  | decimal
  | leadingZero
  | hexadecimal
  | octal
  | binary
  deriving DecidableEq, Repr

namespace Base

def radix : Base → Nat
  | .decimal => 10
  | .leadingZero | .octal => 8
  | .hexadecimal => 16
  | .binary => 2

def literal : Base → Text
  | .decimal => "decimal literal"
  | .leadingZero | .octal => "octal literal"
  | .hexadecimal => "hexadecimal literal"
  | .binary => "binary literal"

end Base

def takeBaseLetter (c : Cursor) : Base × Cursor :=
  if c.sees (fun x => x == 'x' || x == 'X') then
    (.hexadecimal, c.advance)
  else if c.sees (fun x => x == 'o' || x == 'O') then
    (.octal, c.advance)
  else if c.sees (fun x => x == 'b' || x == 'B') then
    (.binary, c.advance)
  else
    (.leadingZero, c)

def takeBase (c : Cursor) : Base × Cursor :=
  if c.seesChar '0' then takeBaseLetter c.advance else (.decimal, c)

/--
Do underscores stand only between digits of a number, or between its mark and a digit?
-/
def underscoresFit (t : Text) : Bool :=
  match t with
  | 48 :: x :: rest =>
    if x == 120 || x == 88 then
      Numeral.underscoresFit true .digit rest
    else if x == 111 || x == 79 || x == 98 || x == 66 then
      Numeral.underscoresFit false .digit rest
    else
      Numeral.underscoresFit false .start t
  | _ => Numeral.underscoresFit false .start t

def takeExponentDigits (c : Cursor) : DigitRun × Cursor :=
  let c := if c.sees (fun x => x == '+' || x == '-') then c.advance else c
  let (run, c) := takeDigits 10 ⟨false, false, none⟩ c
  (run, if run.digit then c else c.report "exponent has no digits")

def takeExponent (base : Base) (c : Cursor) : (Bool × DigitRun) × Cursor :=
  match c.ahead with
  | none => ((false, ⟨false, false, none⟩), c)
  | some g =>
    let isE := g.char == 'e' || g.char == 'E'
    let isP := g.char == 'p' || g.char == 'P'
    if isE || isP then
      let mark := "'" ++ g.bytes ++ "'"
      let c :=
        if isE && base != .decimal && base != .leadingZero then
          c.report (mark ++ " exponent requires decimal mantissa")
        else if isP && base != .hexadecimal then
          c.report (mark ++ " exponent requires hexadecimal mantissa")
        else
          c
      let (run, c) := takeExponentDigits c.advance
      ((true, run), c)
    else
      ((false, ⟨false, false, none⟩), c)

def closeNumber (base : Base) (fraction : Bool) (run : DigitRun) (scientific : Bool)
    (tail : DigitRun) (c : Cursor) : Cursor :=
  let c :=
    if !scientific && base == .hexadecimal && fraction then
      c.report "hexadecimal mantissa requires a 'p' exponent"
    else
      c
  let c :=
    match run.invalid with
    | some d =>
      -- The digits of a fraction are decimal, also behind a leading zero.
      if fraction || scientific then
        c
      else
        c.report ("invalid digit '" ++ Text.ofChar d ++ "' in " ++ base.literal)
    | none => c
  if (run.underscore || tail.underscore) && !underscoresFit c.text then
    c.report "'_' must separate successive digits"
  else
    c

/--
Take what follows the digits of a number. `fraction` tells whether there was a point among them.
-/
def endNumber (base : Base) (fraction : Bool) (run : DigitRun) (c : Cursor) : Cursor :=
  let c := if run.digit then c else c.report (base.literal ++ " has no digits")
  let ((scientific, tail), c) := takeExponent base c
  closeNumber base fraction run scientific tail c

def takeFraction (base : Base) (run : DigitRun) (c : Cursor) : Cursor :=
  let c :=
    if base == .octal || base == .binary then
      c.report ("invalid radix point in " ++ base.literal)
    else
      c
  let (run, c) := takeDigits base.radix run c
  endNumber base true run c

def takeWhole (base : Base) (c : Cursor) : Cursor :=
  -- A zero that is no part of a mark is a digit itself.
  let (run, c) := takeDigits base.radix ⟨base == .leadingZero, false, none⟩ c
  if c.seesChar '.' then takeFraction base run c.advance else endNumber base false run c

/--
Take a number. `dotted` tells that the point of its fraction was taken before.
-/
def takeNumber (dotted : Bool) (c : Cursor) : Cursor :=
  if dotted then
    takeFraction .decimal ⟨false, false, none⟩ c
  else
    let (base, c) := takeBase c
    takeWhole base c

def takeEscapeDigits (base : Nat) : Nat → Cursor → Cursor
  | 0, c => c
  | n + 1, c =>
    if c.sees (fun x => digitValue x < base) then
      takeEscapeDigits base n c.advance
    else
      c.report "invalid char escape"

/--
Take an escape of a text in double quotes, behind its backslash.
-/
def takeEscape (c : Cursor) : Cursor :=
  match c.ahead with
  | none => c.report "invalid char escape"
  | some g =>
    if ['a', 'b', 'f', 'n', 'r', 't', 'v', '\\', '"'].contains g.char then
      c.advance
    else if '0' ≤ g.char && g.char ≤ '7' then
      takeEscapeDigits 8 3 c
    else if g.char == 'x' then
      takeEscapeDigits 16 2 c.advance
    else if g.char == 'u' then
      takeEscapeDigits 16 4 c.advance
    else if g.char == 'U' then
      takeEscapeDigits 16 8 c.advance
    else
      c.report "invalid char escape"

/--
Take a text in double quotes. It ends at the end of the line at the latest.
-/
def takeQuoted (c : Cursor) : Cursor :=
  go c.size c.advance
where
  go : Nat → Cursor → Cursor
    | 0, c => c.report "literal not terminated"
    | n + 1, c =>
      match c.ahead with
      | none => c.report "literal not terminated"
      | some g =>
        if g.char == '"' then
          c.advance
        else if g.char == '\n' then
          -- The line break is taken along.
          (c.report "literal not terminated").advance
        else if g.char == '\\' then
          go n c.advance.takeEscape
        else
          go n c.advance

def takeRaw (c : Cursor) : Cursor :=
  let c := c.advance.takeWhile (·.toNat != 0x60)
  if c.ahead.isSome then c.advance else c.report "literal not terminated"

def takeBlockComment (c : Cursor) : Cursor :=
  go c.size c.advance
where
  go : Nat → Cursor → Cursor
    | 0, c => c.report "comment not terminated"
    | n + 1, c =>
      match c.ahead with
      | none => c.report "comment not terminated"
      | some g =>
        let c := c.advance
        if g.char == '*' && c.seesChar '/' then c.advance else go n c

def takeToken (c : Cursor) : Cursor :=
  match c.ahead with
  | none => c
  | some g =>
    if Identifier.isStart g.char then
      c.advance.takeWhile Identifier.isInner
    else if isDecimal g.char then
      takeNumber false c
    else if g.char == '"' then
      takeQuoted c
    else if g.char.toNat == 0x60 then
      takeRaw c
    else if g.char == '.' then
      let c := c.advance
      if c.sees isDecimal then takeNumber true c else c
    else if g.char == '/' then
      let c := c.advance
      if c.seesChar '/' then
        c.takeWhile (· != '\n')
      else if c.seesChar '*' then
        takeBlockComment c
      else
        c
    else
      c.advance

end Cursor

end ValueGen
