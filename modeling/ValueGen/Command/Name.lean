import ValueGen.Command.Flag
import ValueGen.Text.Distance
import ValueGen.Text.LowerCase

/-!
This module contains the commands of the program and how a command is found among the arguments. It
is the first argument that is no flag and no value of a flag. Only the flags that all commands share
are known before the command is; any other flag is taken to have a value.
-/

namespace ValueGen

inductive Command where
  | generate
  | check
  | describe
  deriving DecidableEq, Repr

namespace Command

def program : Text := "protoval"

def all : List Command := [.generate, .check, .describe]

def name : Command → Text
  | .generate => "generate"
  | .check => "check"
  | .describe => "describe"

def ofName? (t : Text) : Option Command := all.find? (·.name == t)

def help : Text := "help"

def helpFlag : Flag := ⟨"help", some 104, .switch⟩

def sharedFlags : List Flag := [⟨"verbose", some 118, .switch⟩]

def ownFlags : Command → List Flag
  | .generate => [
      ⟨"config", some 99, .text⟩, ⟨"package", some 112, .text⟩, ⟨"target", some 116, .text⟩,
      ⟨"header", none, .text⟩, ⟨"workers", some 119, .integer⟩, ⟨"no-format", none, .switch⟩,
      ⟨"watch", none, .switch⟩]
  | .check => []
  | .describe => [⟨"format", some 102, .text⟩]

def flags (c : Command) : List Flag := c.ownFlags ++ sharedFlags ++ [helpFlag]

/--
Is the next argument taken to be the value of this one?
-/
def takesValue (a : Text) : Bool :=
  let isSwitch (f? : Option Flag) : Bool := f?.any (·.kind == .switch)
  !a.contains 61 &&
    match a with
    | 45 :: 45 :: name => !isSwitch (Flag.named? sharedFlags name)
    | [45, c] => !isSwitch (Flag.short? sharedFlags c)
    | _ => false

/--
The arguments that are no flags and no values of flags. A flag whose value is the last argument ends
them.
-/
def words : List Text → List Text
  | [] => []
  | a :: rest =>
    if a == "--" then
      []
    else if takesValue a then
      match rest with
      | _ :: b :: rest => words (b :: rest)
      | _ => []
    else if a.isEmpty || a.head? == some 45 then
      words rest
    else
      a :: words rest

/--
The arguments without the first one that is the given word and no value of a flag.
-/
def without (w : Text) : List Text → List Text
  | [] => []
  | a :: rest =>
    if a == "--" then
      a :: rest
    else if takesValue a then
      match rest with
      | [] => [a]
      | v :: rest => a :: v :: without w rest
    else if a == w then
      rest
    else
      a :: without w rest

/--
The names of commands that a word may be meant for: those that start with it, and those that differ
from it in at most two places.
-/
def suggestions (w : Text) : List Text :=
  (all.map name).filter fun n =>
    n.startsWith w.lowerCase || Text.distance w.lowerCase n ≤ 2

def suggestionLine (n : Text) : Text := "\t" ++ n ++ "\n"

def unknown (w : Text) : Failure :=
  let lines := (suggestions w).flatMap suggestionLine
  let hint : Text := if lines.isEmpty then [] else "\n\nDid you mean this?\n" ++ lines
  .plain ("unknown command " ++ w.quote ++ " for " ++ program.quote ++ hint)

end Command

end ValueGen
