import ValueGen.Plan.Code
import ValueGen.Schema.Basic
import ValueGen.Output.Schedule

/-!
This module contains the generation of the files of a schema. Messages are generated independently
of each other, and a message that fails does not stop the others; but no two files may have the
same name or declare the same package-level name.
-/

namespace ValueGen

def fileSuffix : Text := ".protoval.go"

def Message.fileName (m : Message) : Text := Snake.ofCamel m.name ++ fileSuffix

/--
The emitter in use: the usual one if none is set.
-/
def Settings.emitterInUse (s : Settings) : Emitter := s.emitter.getD .values

/--
Generate the file of a message. The settings have to be valid.
-/
def generate (m : Message) (s : Settings) : Except Failure Code.Printed :=
  match s.fault? with
  | some f => .error f
  | none =>
    match s.emitterInUse.emit m s.toOptions with
    | .error f =>
      -- An emitter that tells which message failed is not wrapped again.
      if f.has .generation then
        .error f
      else
        .error (.generation m.name [] [] ("emitter " ++ s.emitterInUse.name) (some f))
    | .ok output =>
      match output.print? with
      | some printed => .ok printed
      | none =>
        .error (.generation m.name [] m.fileName "render output"
          (some (.plain "the output is not well-formed")))

structure GeneratedFile where
  name : Text
  message : Text
  printed : Code.Printed
  deriving DecidableEq, Repr, Inhabited

/--
The file names and the package-level names taken by messages, each with the message that took it.
-/
structure Claims where
  files : List (Text × Text)
  names : List (Text × Text)
  deriving DecidableEq, Repr, Inhabited

namespace Claims

def empty : Claims := ⟨[], []⟩

/--
Why a message cannot take its names, if it cannot.
-/
def fault? (c : Claims) (m : Message) : Option Failure :=
  match c.files.lookup m.fileName with
  | some first =>
    some (.generation m.name [] m.fileName ("file name collides with message " ++ first) none)
  | none =>
    (TypeNames.ofName m.name).toList.findSome? fun id =>
      (c.names.lookup id).map fun first =>
        .generation m.name [] [] ("identifier " ++ id ++ " collides with message " ++ first) none

def take (c : Claims) (m : Message) : Claims where
  files := c.files ++ [(m.fileName, m.name)]
  names := c.names ++ (TypeNames.ofName m.name).toList.map fun id => (id, m.name)

/--
Let the messages take their names in order. A message that cannot take all of its names takes none.
-/
def settle (c : Claims) : List Message → List (Message × Option Failure)
  | [] => []
  | m :: ms =>
    match c.fault? m with
    | some f => (m, some f) :: settle c ms
    | none => (m, none) :: settle (c.take m) ms

end Claims

/--
The outcome for one message: its file, or why there is none.
-/
abbrev Outcome := Except Failure GeneratedFile

/--
The files generated for a schema in the order of its messages, and the messages that failed with
the reasons.
-/
structure Batch where
  files : List GeneratedFile
  failed : List (Text × Failure)

namespace Batch

def empty : Batch := ⟨[], []⟩

def cons (m : Message) (o : Outcome) (b : Batch) : Batch :=
  match o with
  | .ok f => { b with files := f :: b.files }
  | .error f => { b with failed := (m.name, f) :: b.failed }

/--
Collect the outcomes of messages, as far as there are any.
-/
def collect : List (Message × Option Outcome) → Batch
  | [] => .empty
  | (m, some o) :: rest => (collect rest).cons m o
  | (_, none) :: rest => collect rest

def failedNames (b : Batch) : List Text := b.failed.map Prod.fst

def failure? (b : Batch) : Option Failure := Failure.join? (b.failed.map Prod.snd)

end Batch

def outcome (s : Settings) (m : Message) : Outcome :=
  (generate m s).map fun printed => ⟨m.fileName, m.name, printed⟩

/--
The outcomes that are known before any task has run: those of the messages that lack their names.
-/
def initialOutcomes (settled : List (Message × Option Failure)) : List (Option Outcome) :=
  settled.map fun c => c.2.map Except.error

/--
Run the tasks of a schedule. Each one generates the file of a message that has its names and notes
the outcome. There is no result if a task was canceled.
-/
def runGeneration (s : Settings) (settled : List (Message × Option Failure)) :
    Schedule → List (Option Outcome) → Except Failure (List (Option Outcome))
  | [], outcomes => .ok outcomes
  | (i, start) :: rest, outcomes =>
    match settled[i]? with
    | some (m, none) =>
      if start == .canceled then
        .error .canceled
      else
        runGeneration s settled rest (outcomes.set i (some (outcome s m)))
    | _ => runGeneration s settled rest outcomes

/--
Generate the files of a schema, with one task a message. If the work is canceled before a message
that has its names is generated, there is no batch at all.
-/
def generateSchema (schema : Schema) (s : Settings) (schedule : Schedule) :
    Except Failure Batch :=
  match s.fault? with
  | some f => .error f
  | none =>
    let settled := Claims.empty.settle schema.messages
    match runGeneration s settled schedule (initialOutcomes settled) with
    | .error f => .error f
    | .ok outcomes => .ok (Batch.collect (schema.messages.zip outcomes))

end ValueGen
