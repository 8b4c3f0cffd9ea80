import ValueGen.Text.Calendar
import ValueGen.Text.Glyph
import ValueGen.Toml.Value

/-!
This module contains the scalars of TOML texts: texts in four kinds of quotes, integers in four
bases, floating-point numbers, truth values, dates and times. A number is first cut off as far as
its characters go and then has to have the right form as a whole.
-/

namespace ValueGen

namespace Toml

/--
Is the character a line break? A carriage return stands only before a line feed.
-/
def isBreak (c : Char) : Bool := c == '\n' || c == '\r'

def isBlank (c : Char) : Bool := c == ' ' || c == '\t'

def hexDigit? (c : Char) : Option Nat := if c.toNat < 128 then Ascii.hexValue? c.toUInt8 else none

def valueOf? (base : Nat) (digits : List Char) : Option Nat :=
  digits.foldl
    (fun n c => n.bind fun n => ((hexDigit? c).filter (· < base)).map (base * n + ·)) (some 0)

/-! Quoted texts -/

/--
The text up to the quote that ends a line of text, as it is written, and what follows the quote.
-/
def untilQuote (quote : Char) (escapes : Bool) : List Char → Option (List Char × List Char)
  | [] => none
  | c :: rest =>
    if c == quote then
      some ([], rest)
    else if isBreak c then
      none
    else if escapes && c == '\\' then
      match rest with
      | [] => none
      | d :: rest => (untilQuote quote escapes rest).map fun (t, rest) => (c :: d :: t, rest)
    else
      (untilQuote quote escapes rest).map fun (t, rest) => (c :: t, rest)

/--
The text up to the three quotes that end several lines of text, as it is written, and what follows
the quotes. One or two more quotes directly before them belong to the text.
-/
def untilQuotes (quote : Char) (escapes : Bool) : List Char → Option (List Char × List Char)
  | [] => none
  | c :: rest =>
    let quotes := ((c :: rest).takeWhile (· == quote)).length
    if 6 ≤ quotes then
      none
    else if 3 ≤ quotes then
      some (List.replicate (quotes - 3) quote, rest.drop (quotes - 1))
    else if escapes && c == '\\' then
      match rest with
      | [] => none
      | d :: rest => (untilQuotes quote escapes rest).map fun (t, rest) => (c :: d :: t, rest)
    else
      (untilQuotes quote escapes rest).map fun (t, rest) => (c :: t, rest)

def coded? (digits : List Char) : Option Char :=
  (valueOf? 16 digits).bind fun n => if n.isValidChar then some (Char.ofNat n) else none

def escaped? (c : Char) : Option Char :=
  match c with
  | 'b' => some '\x08'
  | 't' => some '\t'
  | 'n' => some '\n'
  | 'f' => some '\x0c'
  | 'r' => some '\r'
  | 'e' => some '\x1b'
  | '"' => some '"'
  | '\\' => some '\\'
  | _ => none

def unescape? : List Char → Option (List Char)
  | [] => some []
  | '\\' :: 'x' :: a :: b :: rest =>
    (coded? [a, b]).bind fun ch => (unescape? rest).map (ch :: ·)
  | '\\' :: 'u' :: a :: b :: c :: d :: rest =>
    (coded? [a, b, c, d]).bind fun ch => (unescape? rest).map (ch :: ·)
  | '\\' :: 'U' :: a :: b :: c :: d :: e :: f :: g :: h :: rest =>
    (coded? [a, b, c, d, e, f, g, h]).bind fun ch => (unescape? rest).map (ch :: ·)
  | '\\' :: c :: rest => (escaped? c).bind fun ch => (unescape? rest).map (ch :: ·)
  | c :: rest => if c == '\\' then none else (unescape? rest).map (c :: ·)

def withoutFirstBreak : List Char → List Char
  | '\n' :: rest => rest
  | '\r' :: '\n' :: rest => rest
  | cs => cs

/--
Is there a line break before the next character that is no blank?
-/
def endsLine (cs : List Char) : Bool := (cs.takeWhile fun c => isBlank c || isBreak c).contains '\n'

/--
Join the lines that end with a backslash to the next character that is neither a blank nor a line
break. With `skipping` set, such a line end was just read.
-/
def joinLines (skipping : Bool) : List Char → List Char
  | [] => []
  | '\\' :: '\\' :: rest => '\\' :: '\\' :: joinLines false rest
  | c :: rest =>
    if skipping && (isBlank c || isBreak c) then
      joinLines true rest
    else if c == '\\' && endsLine rest then
      joinLines true rest
    else
      c :: joinLines false rest

def basicLine? (cs : List Char) : Option (Text × List Char) :=
  (untilQuote '"' true cs).bind fun (t, rest) => (unescape? t).map fun t => (Text.ofChars t, rest)

def literalLine? (cs : List Char) : Option (Text × List Char) :=
  (untilQuote '\'' false cs).map fun (t, rest) => (Text.ofChars t, rest)

def basicLines? (cs : List Char) : Option (Text × List Char) :=
  (untilQuotes '"' true cs).bind fun (t, rest) =>
    (unescape? (joinLines false (withoutFirstBreak t))).map fun t => (Text.ofChars t, rest)

def literalLines? (cs : List Char) : Option (Text × List Char) :=
  (untilQuotes '\'' false cs).map fun (t, rest) => (Text.ofChars (withoutFirstBreak t), rest)

/-! Numbers -/

/--
Does each underscore stand between two digits? Digits are taken to be hexadecimal here.
-/
def underscoresFit (cs : List Char) : Bool := go false cs
where
  go (afterDigit : Bool) : List Char → Bool
    | [] => afterDigit
    | c :: rest => (c != '_' || afterDigit) && go (hexDigit? c).isSome rest

/--
Does a decimal number start with a zero that it does not need?
-/
def hasLeadingZero : List Char → Bool
  | '0' :: _ :: _ => true
  | '+' :: '0' :: _ :: _ => true
  | '-' :: '0' :: _ :: _ => true
  | _ => false

def bounded? (n : Int) : Option Value :=
  if Word.holds 64 n then some (.integer n) else none

def decimal? (cs : List Char) : Option Value :=
  if hasLeadingZero cs || !underscoresFit cs then
    none
  else
    match cs.filter (· != '_') with
    | '-' :: digits => (valueOf? 10 digits).bind fun n => bounded? (-n)
    | '+' :: digits => (valueOf? 10 digits).bind fun n => bounded? n
    | digits => (valueOf? 10 digits).bind fun n => bounded? n

def pointsFit : List Char → Bool
  | [] => true
  | '.' :: rest => (rest.head?.any Char.isDigit) && pointsFit rest
  | _ :: rest => pointsFit rest

def pieces (cs : List Char) : List (List Char) :=
  (cs.splitOnP fun c => c == '.' || c == 'e' || c == 'E').filter (!·.isEmpty)

def fraction? (cs : List Char) : Option Value :=
  let ps := pieces cs
  if ps.all underscoresFit && !(ps.head?.any hasLeadingZero) && pointsFit cs then
    (Floating.ofText? .double (Text.ofChars (cs.filter (· != '_')))).map .float
  else
    none

/--
An integer in another base after its mark. Its first character has to be a digit.
-/
def based? (base : Nat) (cs : List Char) : Option (Value × List Char) :=
  let isDigit (c : Char) : Bool := (hexDigit? c).any (· < base)
  let run := cs.takeWhile fun c => isDigit c || c == '_'
  if run.head?.any isDigit && underscoresFit run then
    ((valueOf? base (run.filter (· != '_'))).bind fun n => bounded? n).map
      fun v => (v, cs.drop run.length)
  else
    none

/-! Dates and times -/

/--
Is the text a date, a time of the day, or both with or without the offset of a time zone?
-/
def isMoment (t : Text) : Bool :=
  let afterTime? (t : Text) : Option Text :=
    (Calendar.afterMinute? .strict t).map fun t => (Calendar.afterSecond? .strict t).getD t
  match Calendar.afterDate? .strict t with
  | none => (afterTime? t).any List.isEmpty
  | some [] => true
  | some (sep :: rest) =>
    sep == 84 && (afterTime? rest).any fun zone => zone.isEmpty || Calendar.isZone zone

/--
A date or a time at the start of a text. It is cut off as far as its characters go, less the blanks
at its end. Letters may be in lower case, and a blank may divide the date from the time.
-/
def moment? (cs : List Char) : Option (Value × List Char) :=
  let run := cs.takeWhile fun c => c.isDigit || "-:Tt .Zz+".toList.contains c
  let t := Text.ofChars ((run.reverse.dropWhile (· == ' ')).reverse.map fun c =>
    if c == 'z' then 'Z' else if c == 't' || c == ' ' then 'T' else c)
  if isMoment t then some (.moment t, cs.drop run.length) else none

/--
A number without a sign of its base at the start of a text. The first character is a digit or a
sign, which comes first.
-/
def number? (sign : List Char) (cs : List Char) : Option (Value × List Char) :=
  let run := cs.takeWhile fun c => c.isDigit || c == '_'
  let rest := cs.drop run.length
  if !(run.head?.any Char.isDigit) then
    none
  else if rest.head?.any (fun c => c == '.' || c == 'e' || c == 'E') then
    let more := rest.takeWhile fun c => c.isDigit || "_.-+eE".toList.contains c
    (fraction? (sign ++ run ++ more)).map fun v => (v, rest.drop more.length)
  else
    (decimal? (sign ++ run)).map fun v => (v, rest)

def signed? (sign : Char) : List Char → Option (Value × List Char)
  | 'i' :: 'n' :: 'f' :: rest => some (.float (.infinite (sign == '-')), rest)
  | 'n' :: 'a' :: 'n' :: rest => some (.float .notANumber, rest)
  | cs => number? [sign] cs

def numeral? (cs : List Char) : Option (Value × List Char) :=
  match cs with
  | '0' :: 'x' :: rest => based? 16 rest
  | '0' :: 'o' :: rest => based? 8 rest
  | '0' :: 'b' :: rest => based? 2 rest
  | cs =>
    let rest := cs.dropWhile Char.isDigit
    if rest.head?.any (fun c => c == '-' || c == ':') then moment? cs else number? [] cs

def scalar? : List Char → Option (Value × List Char)
  | '"' :: '"' :: '"' :: rest => (basicLines? rest).map fun (t, rest) => (.text t, rest)
  | '\'' :: '\'' :: '\'' :: rest => (literalLines? rest).map fun (t, rest) => (.text t, rest)
  | '"' :: rest => (basicLine? rest).map fun (t, rest) => (.text t, rest)
  | '\'' :: rest => (literalLine? rest).map fun (t, rest) => (.text t, rest)
  | 't' :: 'r' :: 'u' :: 'e' :: rest => some (.bool true, rest)
  | 'f' :: 'a' :: 'l' :: 's' :: 'e' :: rest => some (.bool false, rest)
  | 'i' :: 'n' :: 'f' :: rest => some (.float (.infinite false), rest)
  | 'n' :: 'a' :: 'n' :: rest => some (.float .notANumber, rest)
  | '+' :: rest => signed? '+' rest
  | '-' :: rest => signed? '-' rest
  | cs => numeral? cs

end Toml

end ValueGen
