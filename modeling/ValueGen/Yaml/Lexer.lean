import ValueGen.Yaml.Scalar

/-!
This module contains the reading of YAML texts into tokens. Each step reads one token, or refuses
the text. The tokens before a refusal are kept, because a document may end before it.
-/

namespace ValueGen

namespace Yaml

namespace Lexer

/--
Go over a comment, and over the empty lines and comments that follow it on further lines.
-/
def skipComment : Nat → Lexer → Lexer
  | 0, l => l
  | fuel + 1, l =>
    let l := l.skipWhile fun c => !isBreak c
    let gap := l.rest.takeWhile fun c => Yaml.isBlank c || isBreak c
    if (l.rest.drop gap.length).head? == some '#' then
      match Gap.read (fun _ => false) gap.length l .none with
      | some (l, _) => skipComment fuel l
      | none => l
    else
      l

/--
Go over blanks, comments and line breaks. Tabs are not taken where a key may start. On a new line of
a block a key may start.
-/
def skipGap : Nat → Lexer → Lexer
  | 0, l => l
  | fuel + 1, l =>
    -- A byte order mark may stand at the start of any line.
    let l := if l.mark.column == 0 && l.sees (Char.ofNat 0xFEFF) then l.advance 1 else l
    let tabs := 0 < l.flowLevel || !l.keyAllowed
    let l := l.skipWhile fun c => c == ' ' || (tabs && c == '\t')
    let l := if l.sees '#' then skipComment l.rest.length l else l
    if atLineEnd l.rest && !l.rest.isEmpty then
      let l := l.skipBreak
      skipGap fuel { l with keyAllowed := l.keyAllowed || l.flowLevel == 0 }
    else
      l

def streamEnd (l : Lexer) : Option Lexer :=
  -- The end counts as the start of a line.
  let l := if l.mark.column == 0 then l else { l with mark := ⟨l.mark.index, l.mark.line + 1, 0⟩ }
  (l.unrollIndent (-1)).removeKey?.map fun l => { l with keyAllowed := false }.push .streamEnd

def documentMark (l : Lexer) (t : Token) : Option Lexer :=
  (l.unrollIndent (-1)).removeKey?.map fun l => ({ l with keyAllowed := false }.advance 3).push t

def digits (l : Lexer) : Option (Nat × Lexer) :=
  let ds := l.rest.takeWhile Char.isDigit
  if ds.isEmpty || 9 < ds.length then
    none
  else
    some (ds.foldl (fun n d => 10 * n + (d.toNat - 48)) 0, l.advance ds.length)

/--
Read the handle of a tag: exclamation marks, with letters in between. In a directive it has to be
complete.
-/
def tagHandle (l : Lexer) (complete : Bool) : Option (List Char × Lexer) :=
  if !l.sees '!' then
    none
  else
    let l := l.advance 1
    let word := l.rest.takeWhile isWord
    let l := l.advance word.length
    if l.sees '!' then
      some ('!' :: word ++ ['!'], l.advance 1)
    else if complete && !word.isEmpty then
      none
    else
      some ('!' :: word, l)

def isTagChar (c : Char) : Bool := isWord c || ";/?:@&=+$,.!~*'()[]%".toList.contains c

/--
Undo the escapes of a tag, each of which is a percent sign and two hexadecimal digits.
-/
def unescapeTag? : List Char → Option Text
  | [] => some []
  | ['%'] => none
  | ['%', _] => none
  | '%' :: a :: b :: rest =>
    match hexNumber? [a, b] with
    | some n => (unescapeTag? rest).map (n.toUInt8 :: ·)
    | none => none
  | c :: rest => (unescapeTag? rest).map (Text.ofChar c ++ ·)

/--
Read the text of a tag behind the start that was read already. It must not be empty altogether.
-/
def tagText (l : Lexer) (start : List Char) : Option (Text × Lexer) :=
  let cs := l.rest.takeWhile isTagChar
  if start.isEmpty && cs.isEmpty then
    none
  else
    (unescapeTag? cs).bind fun t =>
      if Text.isWellFormed t then some (Text.ofChars start.tail ++ t, l.advance cs.length) else none

def tag (l : Lexer) : Option Lexer :=
  if (l.rest.drop 1).head? == some '<' then
    match (l.advance 2).tagText [] with
    | none => none
    | some (suffix, l) => if l.sees '>' then finish (l.advance 1) [] suffix else none
  else
    match l.tagHandle false with
    | none => none
    | some (handle, l) =>
      if 1 < handle.length && handle.getLast? == some '!' then
        match l.tagText [] with
        | none => none
        | some (suffix, l) => finish l (Text.ofChars handle) suffix
      else
        match l.tagText handle with
        | none => none
        | some (suffix, l) => if suffix.isEmpty then finish l [] "!" else finish l "!" suffix
where
  finish (l : Lexer) (handle suffix : Text) : Option Lexer :=
    if atGap l.rest then some (l.push (.tag handle suffix)) else none

def directiveToken (l : Lexer) (name : List Char) : Option (Token × Lexer) :=
  let l := l.skipWhile Yaml.isBlank
  match String.ofList name with
  | "YAML" =>
    match l.digits with
    | none => none
    | some (major, l) =>
      if l.sees '.' then
        (l.advance 1).digits.map fun (minor, l) => (.version major minor, l)
      else
        none
  | "TAG" =>
    match l.tagHandle true with
    | none => none
    | some (handle, l) =>
      if !atGap l.rest then
        none
      else
        match (l.skipWhile Yaml.isBlank).tagText [] with
        | none => none
        | some (start, l) =>
          if atGap l.rest then some (.tagHandle (Text.ofChars handle) start, l) else none
  | _ => none

def directive (l : Lexer) : Option Lexer :=
  match (l.unrollIndent (-1)).removeKey? with
  | none => none
  | some l =>
    let l := { l with keyAllowed := false }.advance 1
    let name := l.rest.takeWhile isWord
    let l := l.advance name.length
    if name.isEmpty || !atGap l.rest then
      none
    else
      match l.directiveToken name with
      | none => none
      | some (t, l) =>
        let l := l.skipWhile Yaml.isBlank
        let l := if l.sees '#' then l.skipWhile (fun c => !isBreak c) else l
        if atLineEnd l.rest then some (l.skipBreak.push t) else none

def flowStart (l : Lexer) (t : Token) : Option Lexer :=
  l.saveKey?.map fun l =>
    let l := { l with keyAllowed := true, flowLevel := l.flowLevel + 1, keys := none :: l.keys }
    (l.advance 1).push t

def flowEnd (l : Lexer) (t : Token) : Option Lexer :=
  l.removeKey?.map fun l =>
    let l := if 0 < l.flowLevel then { l with keys := l.keys.tail } else l
    ({ l with keyAllowed := false, flowLevel := l.flowLevel - 1 }.advance 1).push t

def flowEntry (l : Lexer) : Option Lexer :=
  l.removeKey?.map fun l => ({ l with keyAllowed := true }.advance 1).push .flowEntry

def blockEntry (l : Lexer) : Option Lexer :=
  if l.flowLevel == 0 && !l.keyAllowed then
    none
  else
    (l.rollIndent l.mark.column none .blockSequence).removeKey?.map fun l =>
      ({ l with keyAllowed := true }.advance 1).push .blockEntry

def complexKey (l : Lexer) : Option Lexer :=
  if l.flowLevel == 0 && !l.keyAllowed then
    none
  else
    (l.rollIndent l.mark.column none .blockMapping).removeKey?.map fun l =>
      ({ l with keyAllowed := l.flowLevel == 0 }.advance 1).push .key

/--
The colon before a value. It makes a key of what may be one.
-/
def valueSign (l : Lexer) : Option Lexer :=
  match l.validKey? with
  | none => none
  | some (some k) =>
    let l := (l.insert k.token .key).rollIndent k.mark.column (some k.token) .blockMapping
    some (({ l with keys := none :: l.keys.tail, keyAllowed := false }.advance 1).push .value)
  | some none =>
    if l.flowLevel == 0 && !l.keyAllowed then
      none
    else
      let l := l.rollIndent l.mark.column none .blockMapping
      let l := { l with keys := none :: l.keys.tail, keyAllowed := l.flowLevel == 0 }
      some ((l.advance 1).push .value)

def anchor (l : Lexer) (make : Text → Token) : Option Lexer :=
  match l.saveKey? with
  | none => none
  | some l =>
    let l := { l with keyAllowed := false }.advance 1
    let name := l.rest.takeWhile isWord
    let l := l.advance name.length
    let ends := match l.head? with
      | none => true
      | some c => atGap l.rest || "?:,]\x7d%@`".toList.contains c
    if name.isEmpty || !ends then none else some (l.push (make (Text.ofChars name)))

/--
The start of a token that may turn out to start a key. No key may start right behind it.
-/
def keyStart (l : Lexer) (read : Lexer → Option Lexer) : Option Lexer :=
  l.saveKey?.bind fun l => read { l with keyAllowed := false }

/--
A block of lines. A key may follow it.
-/
def blockStart (l : Lexer) (literal : Bool) : Option Lexer :=
  l.removeKey?.bind fun l => { l with keyAllowed := true }.blockScalar literal

def startsPlain (c : Char) : Bool := !"-?:,[]\x7b\x7d#&*!|>'\"%@`".toList.contains c

def next (l : Lexer) : Option Lexer :=
  let l := skipGap (l.rest.length + 1) l
  let l := l.unrollIndent l.mark.column
  match l.rest with
  | [] => l.streamEnd
  | c :: rest =>
    let flow := 0 < l.flowLevel
    if l.mark.column == 0 && c == '%' then l.directive
    else if l.atMark '-' then l.documentMark .documentStart
    else if l.atMark '.' then l.documentMark .documentEnd
    else if c == '[' then l.flowStart .flowSequence
    else if c == '\x7b' then l.flowStart .flowMapping
    else if c == ']' then l.flowEnd .flowSequenceEnd
    else if c == '\x7d' then l.flowEnd .flowMappingEnd
    else if c == ',' then l.flowEntry
    else if c == '-' && atGap rest then l.blockEntry
    else if c == '?' && (flow || atGap rest) then l.complexKey
    else if c == ':' && (flow || atGap rest) then l.valueSign
    else if c == '*' then l.anchor .alias
    else if c == '&' then l.anchor .anchor
    else if c == '!' then l.keyStart tag
    else if c == '|' && !flow then l.blockStart true
    else if c == '>' && !flow then l.blockStart false
    else if c == '\'' then l.keyStart (quotedScalar · true)
    else if c == '"' then l.keyStart (quotedScalar · false)
    else if (startsPlain c && !atGap l.rest) || (c == '-' && rest.head?.all (!Yaml.isBlank ·))
        || (!flow && (c == '?' || c == ':') && !atGap rest) then
      l.keyStart plainScalar
    else none

/--
Read all tokens, or as many as there are before the text is refused. Every step reads a character
or reaches the end.
-/
def run : Nat → Lexer → Lexer × Bool
  | 0, l => (l, false)
  | fuel + 1, l =>
    match l.next with
    | none => (l, false)
    | some l => if l.tokens.getLast? == some .streamEnd then (l, true) else run fuel l

end Lexer

/--
The tokens of a text. If the text is refused at some point, not all of them are there.
-/
structure Tokens where
  list : List Token
  complete : Bool
  deriving Repr

def Tokens.ofChars (cs : List Char) : Tokens :=
  let (l, complete) := Lexer.run (cs.length + 2) (Lexer.start cs)
  ⟨l.tokens, complete⟩

/--
How many tokens are read before one is taken, beside that one.
-/
def Tokens.lookAhead : Nat := 2

/--
The token at a number. It can be taken only if the text is not refused shortly behind it. Behind the
end of the stream there is nothing but its end.
-/
def Tokens.get? (ts : Tokens) (n : Nat) : Option Token :=
  if ts.complete then
    some (ts.list.getD n .streamEnd)
  else if n + Tokens.lookAhead < ts.list.length then
    ts.list[n]?
  else
    none

end Yaml

end ValueGen
