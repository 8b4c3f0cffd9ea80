import ValueGen.Decimal.Literal
import ValueGen.Failure

/-!
This module contains the flags of command lines. A flag has a long name and possibly a short one of
a single byte. Its value stands behind an equals sign or is the next argument; directly behind a
short name it needs no sign. A switch needs no value, so that short names of switches can be written
together. Flags and other arguments can be mixed, up to the argument that ends the flags.
-/

namespace ValueGen

inductive FlagKind where
  | text
  | integer
  | switch
  deriving DecidableEq, Repr

structure Flag where
  name : Text
  short : Option UInt8
  kind : FlagKind
  deriving DecidableEq, Repr

inductive FlagValue where
  | text (t : Text)
  | integer (n : Int)
  | switch (b : Bool)
  deriving DecidableEq, Repr

namespace Flag

def title (f : Flag) : Text :=
  match f.short with
  | some c => "-" ++ [c] ++ ", --" ++ f.name
  | none => "--" ++ f.name

def truth? (t : Text) : Option Bool :=
  if (["1", "t", "T", "TRUE", "true", "True"] : List Text).contains t then some true
  else if (["0", "f", "F", "FALSE", "false", "False"] : List Text).contains t then some false
  else none

def invalid (f : Flag) (t reader : Text) (fault : IntegerFault) : Failure :=
  .wrapped ("invalid argument " ++ t.quote ++ " for " ++ f.title.quote ++ " flag")
    (.plain (reader ++ ": parsing " ++ t.quote ++ ": " ++ fault.message))

def read (f : Flag) (t : Text) : Except Failure FlagValue :=
  match f.kind with
  | .text => .ok (.text t)
  | .integer =>
    match t.readLiteral with
    | .ok n => .ok (.integer n)
    | .error fault => .error (f.invalid t "strconv.ParseInt" fault)
  | .switch =>
    match truth? t with
    | some b => .ok (.switch b)
    | none => .error (f.invalid t "strconv.ParseBool" .malformed)

def named? (fs : List Flag) (name : Text) : Option Flag := fs.find? (·.name == name)

def short? (fs : List Flag) (c : UInt8) : Option Flag := fs.find? (·.short == some c)

/--
The text of a switch that is given without a value.
-/
def on : Text := "true"

end Flag

/--
What one argument says: it gives flags their values as they are written, and the last flag may still
need the next argument as its value.
-/
structure FlagUse where
  given : List (Flag × Text)
  pending : Option (Flag × Failure)

namespace FlagUse

/--
How the byte of a short name is shown: a byte beyond the ASCII ones by the first byte of the
character with its number.
-/
def shown (c : UInt8) : Text :=
  let first := ((Text.ofChar (Char.ofNat c.toNat)).headD c).toNat
  Text.quoteChar (Char.ofNat first)

def ofLong (fs : List Flag) (t : Text) : Except Failure FlagUse :=
  -- A name starts neither with a dash nor with an equals sign.
  if t.head? == some 45 || t.head? == some 61 then
    .error (.plain ("bad flag syntax: --" ++ t))
  else
    let (name, value?) : Text × Option Text :=
      match t.cut? 61 with
      | some (name, value) => (name, some value)
      | none => (t, none)
    match Flag.named? fs name, value? with
    | none, _ => .error (.plain ("unknown flag: --" ++ name))
    | some f, some value => .ok ⟨[(f, value)], none⟩
    | some f, none =>
      if f.kind == .switch then
        .ok ⟨[(f, Flag.on)], none⟩
      else
        .ok ⟨[], some (f, .plain ("flag needs an argument: --" ++ name))⟩

/--
Read an argument with short names, behind its dash. What the tests of a program are run with is
passed over.
-/
def ofShort (fs : List Flag) : Text → Except Failure FlagUse
  | [] => .ok ⟨[], none⟩
  | c :: rest =>
    if Text.startsWith (c :: rest) "test." then
      .ok ⟨[], none⟩
    else
      match Flag.short? fs c with
      | none =>
        .error (.plain ("unknown shorthand flag: " ++ shown c ++ " in -" ++ (c :: rest)))
      | some f =>
        -- With nothing behind it the equals sign separates nothing.
        if rest.head? == some 61 && 1 < rest.length then
          .ok ⟨[(f, rest.drop 1)], none⟩
        else if f.kind == .switch then
          match ofShort fs rest with
          | .error e => .error e
          | .ok u => .ok ⟨(f, Flag.on) :: u.given, u.pending⟩
        else if rest.isEmpty then
          .ok ⟨[], some (f, .plain ("flag needs an argument: " ++ shown c ++ " in -" ++ [c]))⟩
        else
          .ok ⟨[(f, rest)], none⟩

end FlagUse

/--
A command line: the values of flags, with the latest one last, and the other arguments.
-/
structure CommandLine where
  values : List (Text × FlagValue)
  arguments : List Text
  deriving DecidableEq, Repr, Inhabited

namespace CommandLine

def value? (l : CommandLine) (name : Text) : Option FlagValue :=
  (l.values.reverse.find? (·.1 == name)).map Prod.snd

def text? (l : CommandLine) (name : Text) : Option Text :=
  match l.value? name with
  | some (.text t) => some t
  | _ => none

def integer? (l : CommandLine) (name : Text) : Option Int :=
  match l.value? name with
  | some (.integer n) => some n
  | _ => none

def switch? (l : CommandLine) (name : Text) : Option Bool :=
  match l.value? name with
  | some (.switch b) => some b
  | _ => none

def give (l : CommandLine) : List (Flag × Text) → Except Failure CommandLine
  | [] => .ok l
  | (f, t) :: rest =>
    match f.read t with
    | .error e => .error e
    | .ok v => ({ l with values := l.values ++ [(f.name, v)] } : CommandLine).give rest

inductive Shape where
  | plain
  | ending
  | long (t : Text)
  | short (t : Text)

def Shape.of : Text → Shape
  | [45, 45] => .ending
  | 45 :: 45 :: t => .long t
  | 45 :: c :: t => .short (c :: t)
  -- A dash alone is an argument.
  | _ => .plain

def read (fs : List Flag) (l : CommandLine) : List Text → Except Failure CommandLine
  | [] => .ok l
  | a :: rest =>
    let use? : Option (Except Failure FlagUse) :=
      match Shape.of a with
      | .long t => some (FlagUse.ofLong fs t)
      | .short t => some (FlagUse.ofShort fs t)
      | _ => none
    match Shape.of a, use? with
    | .ending, _ => .ok { l with arguments := l.arguments ++ rest }
    | _, none => read fs { l with arguments := l.arguments ++ [a] } rest
    | _, some (.error e) => .error e
    | _, some (.ok u) =>
      match l.give u.given, u.pending, rest with
      | .error e, _, _ => .error e
      | .ok l, none, rest => read fs l rest
      | .ok _, some (_, missing), [] => .error missing
      -- The next argument is the value, also if it looks like a flag.
      | .ok l, some (f, _), v :: rest =>
        match l.give [(f, v)] with
        | .error e => .error e
        | .ok l => read fs l rest

def ofArguments (fs : List Flag) (as : List Text) : Except Failure CommandLine :=
  read fs ⟨[], []⟩ as

end CommandLine

end ValueGen
