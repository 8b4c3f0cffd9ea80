import ValueGen.Code.Printer
import ValueGen.Failure

/-!
This module contains the settings of a run and their validation.
-/

namespace ValueGen

structure Options where
  package : Text
  /-- The directory that the files are written to. -/
  target : Text
  /-- Comment lines added below the notice at the head of each file. -/
  header : Text
  /-- The import path of the package that generated code builds on. -/
  runtime : Text
  /-- How many files are worked on at once; zero leaves it to the machine. -/
  workers : Int
  /-- Whether files are formatted before they are written. -/
  format : Bool
  /-- Whether the target directory has a manifest. -/
  manifest : Bool
  deriving DecidableEq, Repr, Inhabited

/--
What an emitter produces for a message: a file of code, or a text that is written as it stands and
that nobody can format.
-/
inductive Output where
  | code (f : Code.File)
  | verbatim (t : Text)
  deriving Repr, Inhabited

def Output.print? : Output → Option Code.Printed
  | .code f => f.print?
  | .verbatim t => some ⟨t, none⟩

/--
An emitter turns a message into an output. It is a function of the message and the plain settings.
-/
structure Emitter where
  name : Text
  emit : Message → Options → Except Failure Output

/--
The settings of a run: the plain ones, and an emitter in place of the usual one.
-/
structure Settings extends Options where
  emitter : Option Emitter

namespace Settings

/--
The usual import path of the package that generated code builds on.
-/
def defaultRuntime : Text := "github.com/syssam/protoval"

/--
The settings that apply where nothing else is said.
-/
def default : Settings where
  package := []
  target := []
  header := []
  runtime := defaultRuntime
  workers := 0
  format := true
  manifest := true
  emitter := none

def zero : Settings where
  package := []
  target := []
  header := []
  runtime := []
  workers := 0
  format := false
  manifest := false
  emitter := none

def isPackageName (name : Text) : Bool := name != "_" && Identifier.isValid name

def missing : Failure := .setting "Config" none "config cannot be nil"

/--
Why the settings do not do for printing a message, if they do not.
-/
def fault? (s : Settings) : Option Failure :=
  if s.package.isEmpty then
    some (.setting "Package" none "package cannot be empty")
  else if !isPackageName s.package then
    some (.setting "Package" (some s.package) "not a valid Go package name")
  else if s.workers < 0 then
    some (.setting "Workers" (some (Text.ofInt s.workers)) "workers cannot be negative")
  else
    none

end Settings

/--
The import path in use: the usual one if none is set.
-/
def Options.runtimePath (o : Options) : Text :=
  if o.runtime.isEmpty then Settings.defaultRuntime else o.runtime

end ValueGen
