import ValueGen.Source.Token
import ValueGen.Text.Quoted

/-!
This module contains the reader of a source, which hands out its tokens one by one, and the actions
that recognize parts of it. What is wrong inside tokens is collected on the way.
-/

namespace ValueGen

/--
What the reader does about faults inside tokens.
-/
inductive Care where
  | strict
  /-- Unknown escapes in quoted texts are let pass. -/
  | escapes
  | none
  deriving DecidableEq, Repr, Inhabited

structure Reader where
  file : Text
  cursor : Cursor
  /-- The place of the last token; its line is zero if characters were passed over since. -/
  place : Nat × Nat
  pushed : Option Token
  care : Care
  reports : List Text
  deriving Repr, Inhabited

inductive Stop where
  | unexpected (place found expected : Text)
  /-- A range of numbers ends that never started. -/
  | brokenRange
  | stuck
  deriving DecidableEq, Repr, Inhabited

abbrev Parse := ExceptT Stop (StateM Reader)

namespace Reader

/--
A place in the file as text. A file without a name is the input.
-/
def placeText (file : Text) (place : Nat × Nat) : Text :=
  let name : Text := if file.isEmpty then "<input>" else file
  if 0 < place.1 then
    name ++ ":" ++ Text.ofNat place.1 ++ ":" ++ Text.ofNat place.2
  else
    name

def notes (care : Care) (fault : Text) : Bool :=
  match care with
  | .strict => true
  | .escapes => fault != "invalid char escape"
  | .none => false

def reportLine (file : Text) (place : Nat × Nat) (fault : Text) : Text :=
  "go scanner error at " ++ placeText file place ++ " = " ++ fault ++ "\n"

/--
Collect the faults that the cursor found, as faults at the given place.
-/
def collect (r : Reader) (place : Nat × Nat) : Reader :=
  { r with
    cursor := { r.cursor with faults := [] }
    reports := r.reports
      ++ (r.cursor.faults.filter (notes r.care)).map (reportLine r.file place) }

def start (file source : Text) : Reader :=
  collect ⟨file, Cursor.start source.glyphs, (0, 0), none, .strict, []⟩ (0, 0)

def skipSpace (r : Reader) : Reader :=
  collect { r with cursor := r.cursor.mark.takeWhile Cursor.isSpace } (0, 0)

def scanToken (r : Reader) : Text × Reader :=
  let place := r.cursor.place
  let cursor := r.cursor.mark.takeToken
  (cursor.text, collect { r with cursor := cursor, place := place } place)

def scan (r : Reader) : Text × Reader := scanToken (skipSpace r)

/--
The number of characters that are left, and some more.
-/
def budget (r : Reader) : Nat := r.cursor.size + 4

end Reader

namespace Parse

/--
Join the tokens up to the next single quote, and return nothing if there is none.
-/
def untilQuote : Nat → Text → Parse (Option Text)
  | 0, _ => throw .stuck
  | n + 1, done => do
    let text ← modifyGet Reader.scan
    if text.isEmpty then
      return none
    else if text == "'" then
      return some done
    else
      untilQuote n (done ++ text)

/--
A token with this text at the place of the last scanned one.
-/
def tokenHere (text : Text) : Parse Token := do
  let r ← get
  return ⟨Token.classify text, text, r.place.1, r.place.2⟩

/--
The next token. A text in single quotes is one token.
-/
def next : Parse Token := do
  let r ← get
  match r.pushed with
  | some t =>
    set { r with pushed := none }
    return t
  | none =>
    let text ← modifyGet Reader.scan
    if text == "'" then
      -- The pieces of the text are no tokens of their own, so that no fault in them counts.
      modify fun r => { r with care := .none }
      let inner ← untilQuote r.budget []
      modify fun now => { now with care := r.care }
      match inner with
      | none => tokenHere []
      | some t => tokenHere ("'" ++ t ++ "'")
    else
      tokenHere text

def putBack (t : Token) : Parse Unit := modify fun r => { r with pushed := some t }

/--
Stop, because `found` stands where `expected` should be. The place is that of the last token that
was scanned.
-/
def unexpected {α : Type} (found expected : Text) : Parse α := do
  let r ← get
  throw (.unexpected (Reader.placeText r.file r.place) found expected)

/--
Pass over blanks, and tell whether the next character is a dot. A token that was put back is not
considered.
-/
def dotAhead : Parse Bool := do
  let r ← get
  let blank := fun (c : Char) => c == ' ' || c == '\t' || c == '\n'
  if r.cursor.sees blank then
    let cursor := r.cursor.mark.takeWhile blank
    -- Between two tokens the reader is at no known place.
    set (Reader.collect { r with cursor := cursor, place := (0, 0) } (0, 0))
    return cursor.seesChar '.'
  else
    return r.cursor.seesChar '.'

def expect (text expected : Text) : Parse Unit := do
  let t ← next
  if !t.is text then
    unexpected t.text expected

def name (expected : Text) : Parse Text := do
  let t ← next
  if t.isName then
    return t.text
  else
    unexpected t.text expected

def comments : Parse Unit := do
  go (← get).budget
where
  go : Nat → Parse Unit
    | 0 => throw .stuck
    | n + 1 => do
      let t ← next
      if t.kind == .comment then
        go n
      else
        putBack t

def dottedRest : Nat → Text → Parse Text
  | 0, _ => throw .stuck
  | n + 1, done => do
    if ← dotAhead then
      let _ ← next
      let t ← next
      if t.isName then
        dottedRest n (done ++ "." ++ t.text)
      else
        putBack t
        return done ++ "."
    else
      return done

/--
Read a dotted name. It starts with a word or, if `reserved` allows it, with a keyword or a number;
any other token is returned as it is.
-/
def dotted (reserved : Bool) : Parse Token := do
  let t ← next
  if t.kind == .word || (reserved && t.isReserved) then
    let text ← dottedRest (← get).budget t.text
    return { t with kind := .word, text := text }
  else
    return t

def identifier : Parse Token := do
  let t ← dotted false
  if t.is "." then
    let t ← dotted false
    return { t with text := "." ++ t.text }
  else
    return t

def identifierName (expected : Text) : Parse Text := do
  let t ← identifier
  if t.isName then
    return t.text
  else
    unexpected t.text expected

/--
Read the rest of the name of a type, as long as dots follow. Any token may stand behind a dot.
-/
def typeRest : Nat → Token → Parse Token
  | 0, _ => throw .stuck
  | n + 1, t => do
    if ← dotAhead then
      let _ ← next
      let u ← next
      typeRest n { t with kind := .word, text := t.text ++ "." ++ u.text }
    else
      return t

def typeName : Parse Token := do
  let t ← next
  let t ← if t.is "." then do
      let u ← next
      pure { t with kind := u.kind, text := "." ++ u.text }
    else
      pure t
  typeRest (← get).budget t

end Parse

end ValueGen
