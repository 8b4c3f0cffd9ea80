import ValueGen.Yaml.Character

/-!
This module contains the tokens of YAML texts, and the state of reading them. Whether a token starts
a key is known only when a colon follows, so possible keys are noted with the number of the token
they start at, and the token that announces the key is put in later.
-/

namespace ValueGen

namespace Yaml

inductive Token where
  | streamStart
  | streamEnd
  | version (major minor : Nat)
  | tagHandle (handle start : Text)
  | documentStart
  | documentEnd
  | blockSequence
  | blockMapping
  | blockEnd
  | flowSequence
  | flowSequenceEnd
  | flowMapping
  | flowMappingEnd
  | blockEntry
  | flowEntry
  | key
  | value
  | alias (name : Text)
  | anchor (name : Text)
  | tag (handle suffix : Text)
  | scalar (text : Text) (plain : Bool)
  deriving DecidableEq, Repr, Inhabited

structure Mark where
  index : Nat
  line : Nat
  column : Nat
  deriving DecidableEq, Repr, Inhabited

/--
A token that may turn out to start a key. In some places it has to.
-/
structure PossibleKey where
  token : Nat
  required : Bool
  mark : Mark
  deriving DecidableEq, Repr, Inhabited

structure Lexer where
  rest : List Char
  mark : Mark
  flowLevel : Nat
  /-- The column of the innermost block collection, and those of the ones around it. -/
  indent : Int
  indents : List Int
  keyAllowed : Bool
  /-- The possible key of each open flow collection, the innermost first, and of the block. -/
  keys : List (Option PossibleKey)
  tokens : List Token
  deriving Repr, Inhabited

namespace Lexer

def start (cs : List Char) : Lexer where
  rest := cs
  mark := ⟨0, 0, 0⟩
  flowLevel := 0
  indent := -1
  indents := []
  keyAllowed := true
  keys := [none]
  tokens := [.streamStart]

def head? (l : Lexer) : Option Char := l.rest.head?

def sees (l : Lexer) (c : Char) : Bool := l.rest.head? == some c

def advance (l : Lexer) (n : Nat) : Lexer :=
  { l with
    rest := l.rest.drop n
    mark := { l.mark with index := l.mark.index + n, column := l.mark.column + n } }

def skipWhile (l : Lexer) (p : Char → Bool) : Lexer := l.advance (l.rest.takeWhile p).length

/--
Go over a line break. What it stands for comes with it: the separators of lines and paragraphs stand
for themselves, all others for a new line.
-/
def lineBreak (l : Lexer) : List Char × Lexer :=
  let next (n : Nat) : Lexer :=
    { l with rest := l.rest.drop n, mark := ⟨l.mark.index + n, l.mark.line + 1, 0⟩ }
  match l.rest with
  | '\r' :: '\n' :: _ => (['\n'], next 2)
  | c :: _ =>
    if c.toNat == 0x2028 || c.toNat == 0x2029 then
      ([c], next 1)
    else if isBreak c then
      (['\n'], next 1)
    else
      ([], l)
  | [] => ([], l)

def skipBreak (l : Lexer) : Lexer := l.lineBreak.2

def push (l : Lexer) (t : Token) : Lexer := { l with tokens := l.tokens ++ [t] }

def insert (l : Lexer) (n : Nat) (t : Token) : Lexer := { l with tokens := l.tokens.insertIdx n t }

/--
Open a block collection if the column is further right than that of the innermost one. Its token is
put in at a number, or else at the end.
-/
def rollIndent (l : Lexer) (column : Nat) (number : Option Nat) (t : Token) : Lexer :=
  if 0 < l.flowLevel then
    l
  else if l.indent < column then
    { l with indents := l.indent :: l.indents, indent := column }.insert
      (number.getD l.tokens.length) t
  else
    l

/--
Close the block collections that are further right than the column.
-/
def unrollIndent (l : Lexer) (column : Int) : Lexer :=
  if 0 < l.flowLevel then l else go l l.indents
where
  go (l : Lexer) : List Int → Lexer
    | [] => l
    | outer :: more =>
      if column < l.indent then
        go { l.push .blockEnd with indent := outer, indents := more } more
      else
        l

/--
Forget the possible key. It is an error if there has to be one.
-/
def removeKey? (l : Lexer) : Option Lexer :=
  match l.keys with
  | some k :: outer => if k.required then none else some { l with keys := none :: outer }
  | _ => some l

/--
Note that a key may start here, if it may.
-/
def saveKey? (l : Lexer) : Option Lexer :=
  if !l.keyAllowed then
    some l
  else
    -- At the column of a block collection nothing but a key can stand.
    let k : PossibleKey :=
      ⟨l.tokens.length, l.flowLevel == 0 && l.indent == l.mark.column, l.mark⟩
    l.removeKey?.map fun l => { l with keys := some k :: l.keys.tail }

def longestKey : Nat := 1024

/--
The possible key that is still valid here. A key ends on the line it starts on. It is an error if
one that has to be there is not valid any more.
-/
def validKey? (l : Lexer) : Option (Option PossibleKey) :=
  match l.keys with
  | some k :: _ =>
    if k.mark.line < l.mark.line || k.mark.index + longestKey < l.mark.index then
      if k.required then none else some none
    else
      some (some k)
  | _ => some none

/--
Is there a mark between documents here: three times the character at the start of a line?
-/
def atMark (l : Lexer) (c : Char) : Bool :=
  l.mark.column == 0
    && match l.rest with
      | a :: b :: d :: rest => a == c && b == c && d == c && atGap rest
      | _ => false

def atAnyMark (l : Lexer) : Bool := l.atMark '-' || l.atMark '.'

end Lexer

end Yaml

end ValueGen
