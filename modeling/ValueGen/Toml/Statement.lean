import ValueGen.Toml.Scalar

/-!
This module contains the reading of TOML texts into statements, one to a line.
-/

namespace ValueGen

namespace Toml

def withoutMark (t : Text) : Text :=
  if t.startsWith [0xff, 0xfe] || t.startsWith [0xfe, 0xff] then t.drop 2
  else if t.startsWith [0xef, 0xbb, 0xbf] then t.drop 3
  else t

/--
Is each character allowed? Of the control characters only tabs and line breaks are, and a carriage
return only before a line feed.
-/
def charactersFit : List Char → Bool
  | [] => true
  | '\r' :: rest => rest.head? == some '\n' && charactersFit rest
  | c :: rest =>
    (c == '\t' || c == '\n' || (0x20 ≤ c.toNat && c.toNat != 0x7f)) && charactersFit rest

def characters? (t : Text) : Option (List Char) :=
  let t := withoutMark t
  if t.isWellFormed && charactersFit t.chars then some t.chars else none

def skipBlanks (cs : List Char) : List Char := cs.dropWhile isBlank

/--
Drop blanks, line breaks and comments at the start. With `inComment` set, a comment was begun.
-/
def skipSpace (inComment : Bool) : List Char → List Char
  | [] => []
  | c :: rest =>
    if isBreak c then skipSpace false rest
    else if inComment || c == '#' then skipSpace true rest
    else if isBlank c then skipSpace false rest
    else c :: rest

def isBare (c : Char) : Bool := c.isAlphanum || c == '_' || c == '-'

def name? : List Char → Option (Text × List Char)
  | '"' :: rest => basicLine? rest
  | '\'' :: rest => literalLine? rest
  | cs =>
    let name := cs.takeWhile isBare
    if name.isEmpty then none else some (Text.ofChars name, cs.drop name.length)

/--
Names with points between them at the start of a text. Blanks around them are dropped.
-/
def path? : Nat → List Char → Option (Path × List Char)
  | 0, _ => none
  | fuel + 1, cs =>
    match name? (skipBlanks cs) with
    | none => none
    | some (name, rest) =>
      match skipBlanks rest with
      | '.' :: rest => (path? fuel rest).map fun (names, rest) => (name :: names, rest)
      | rest => some ([name], rest)

mutual

def value? : Nat → List Char → Option (Value × List Char)
  | 0, _ => none
  | fuel + 1, cs =>
    match skipBlanks cs with
    | '[' :: rest => (items? fuel (skipSpace false rest)).map fun (vs, rest) => (.array vs, rest)
    | '\x7b' :: rest =>
      (entries? fuel (skipSpace false rest)).map fun (es, rest) => (.table es, rest)
    | cs => scalar? cs

/--
The items of an array up to its end. The last one may have a comma behind it.
-/
def items? : Nat → List Char → Option (List Value × List Char)
  | 0, _ => none
  | fuel + 1, cs =>
    match cs with
    | ']' :: rest => some ([], rest)
    | cs =>
      match value? fuel cs with
      | none => none
      | some (v, rest) =>
        match skipSpace false rest with
        | ',' :: rest => (items? fuel (skipSpace false rest)).map fun (vs, rest) => (v :: vs, rest)
        | ']' :: rest => some ([v], rest)
        | _ => none

/--
The entries of a table on the place of a value, up to its end. The last one may have a comma behind
it.
-/
def entries? : Nat → List Char → Option (List (Path × Value) × List Char)
  | 0, _ => none
  | fuel + 1, cs =>
    match cs with
    | '\x7d' :: rest => some ([], rest)
    | cs =>
      match assignment? fuel cs with
      | none => none
      | some (e, rest) =>
        match skipSpace false rest with
        | ',' :: rest =>
          (entries? fuel (skipSpace false rest)).map fun (es, rest) => (e :: es, rest)
        | '\x7d' :: rest => some ([e], rest)
        | _ => none

def assignment? : Nat → List Char → Option ((Path × Value) × List Char)
  | 0, _ => none
  | fuel + 1, cs =>
    match path? cs.length cs with
    | some (path, '=' :: rest) => (value? fuel rest).map fun (v, rest) => ((path, v), rest)
    | _ => none

end

/--
What follows the end of a statement: blanks, possibly a comment, and a line break or the end.
-/
def lineEnd? (cs : List Char) : Option (List Char) :=
  match skipBlanks cs with
  | [] => some []
  | c :: rest =>
    if c == '#' then some (rest.dropWhile (!isBreak ·))
    else if isBreak c then some rest
    else none

def statement? (fuel : Nat) : List Char → Option (Statement × List Char)
  | '[' :: '[' :: rest =>
    match path? fuel rest with
    | some (path, ']' :: ']' :: rest) => some (.element path, rest)
    | _ => none
  | '[' :: rest =>
    match path? fuel rest with
    | some (path, ']' :: rest) => some (.table path, rest)
    | _ => none
  | cs => (assignment? fuel cs).map fun ((path, v), rest) => (.entry path v, rest)

def statements? : Nat → List Char → Option (List Statement)
  | 0, _ => none
  | fuel + 1, cs =>
    match skipSpace false cs with
    | [] => some []
    | cs =>
      match statement? (4 * cs.length + 4) cs with
      | none => none
      | some (s, rest) => (lineEnd? rest).bind fun rest => (statements? fuel rest).map (s :: ·)

def Statement.ofText? (t : Text) : Option (List Statement) :=
  (characters? t).bind fun cs => statements? (cs.length + 1) cs

end Toml

end ValueGen
