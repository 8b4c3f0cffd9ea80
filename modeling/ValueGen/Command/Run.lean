import ValueGen.Command.Name
import ValueGen.Output.SourceFile
import ValueGen.Schema.Describe
import ValueGen.Settings.File

/-!
This module contains the runs of the program: what a command line does to the disk, prints and logs.
-/

namespace ValueGen

structure RunResult where
  disk : Disk
  output : Text
  log : List LogLine
  failure : Option Failure

namespace RunResult

def failed (d : Disk) (f : Failure) : RunResult := ⟨d, [], [], some f⟩

def printed (d : Disk) (t : Text) : RunResult := ⟨d, t, [], none⟩

/--
The lines that are shown: those of the lowest level only if all are wanted.
-/
def shown (o : RunResult) (verbose : Bool) : RunResult :=
  { o with log := o.log.filter fun l => verbose || l.level != .debug }

end RunResult

namespace Command

def usage : Option Command → Text
  | none => "Usage:\n  protoval [command]\n"
  | some .generate => "Usage:\n  protoval generate [flags] FILE\n"
  | some .check => "Usage:\n  protoval check FILE...\n"
  | some .describe => "Usage:\n  protoval describe [--format text|json] FILE\n"

def notOne (n : Nat) : Failure := .plain ("accepts 1 arg(s), received " ++ Text.ofNat n)

/--
The settings that the flags of a command line ask for. The target directory has to be set by
something, and the flag says where it is if nothing else does.
-/
def settingsAsked (l : CommandLine) (s : Settings) : List Setting :=
  let target := (l.text? "target").orElse fun _ => if s.target.isEmpty then some "." else none
  ((l.text? "package").map Setting.package).toList
    ++ (target.map Setting.target).toList
    ++ ((l.text? "header").map Setting.header).toList
    ++ ((l.integer? "workers").map Setting.workers).toList
    ++ ((l.switch? "no-format").map fun b => Setting.format !b).toList

/--
The settings of a command line: those of a file, if one is named, and then those of the flags.
-/
def settings (d : Disk) (l : CommandLine) : Except Failure Settings :=
  let file := (l.text? "config").getD []
  match if file.isEmpty then .ok Settings.default else Settings.load d file with
  | .error f => .error f
  | .ok s =>
    match s.applyAll (settingsAsked l s) with
    | (s, none) => .ok s
    | (_, some f) => .error f

def generateOnce (d : Disk) (timing : Timing) (s : Settings) (path : Text) : RunResult :=
  let (p, f?) := Source.generateFile (some s) path timing ⟨d, .zero, []⟩
  ⟨p.disk, [], p.log, f?⟩

/--
Generate the code for a source file and watch the directory it lies in. A failure is logged, since
the next change of the file may mend it.
-/
def generateWatching (d : Disk) (timing : Timing) (s : Settings) (path : Text) : RunResult :=
  match d.fault? (Path.directory path) with
  | some fault => .failed d (.wrapped ("watch " ++ path) (.refused fault))
  | none =>
    let o := generateOnce d timing s path
    let failed : List LogLine := o.failure.toList.map fun f =>
      ⟨.error, "protoval: generation failed", [("file", path), ("error", f.message)]⟩
    let watching : LogLine := ⟨.info, "protoval: watching for changes", [("file", path)]⟩
    { o with log := o.log ++ failed ++ [watching], failure := none }

def runGenerate (d : Disk) (timing : Timing) (l : CommandLine) : RunResult :=
  match l.arguments with
  | [path] =>
    match settings d l with
    | .error f => .failed d f
    | .ok s =>
      if l.switch? "watch" == some true then
        generateWatching d timing s path
      else
        generateOnce d timing s path
  | as => .failed d (notOne as.length)

def checkLine (path : Text) (s : Schema) : Text :=
  path ++ ": ok (" ++ Text.ofNat s.messages.length ++ " messages)\n"

/--
Compile source files one after the other. Each one that compiles gets a line, and the failures of
the others are collected.
-/
def checkFiles (d : Disk) : List Text → Text × List Failure
  | [] => ([], [])
  | path :: paths =>
    let (output, failures) := checkFiles d paths
    match Source.compileFile d path with
    | .ok s => (checkLine path s ++ output, failures)
    | .error f => (output, f :: failures)

def runCheck (d : Disk) (l : CommandLine) : RunResult :=
  if l.arguments.isEmpty then
    .failed d (.plain "requires at least 1 arg(s), only received 0")
  else
    let (output, failures) := checkFiles d l.arguments
    -- What stops the reading altogether stops the command, with nothing printed.
    match failures.find? Failure.isAbrupt with
    | some f => .failed d f
    | none => ⟨d, output, [], Failure.join? failures⟩

def runDescribe (d : Disk) (l : CommandLine) : RunResult :=
  match l.arguments with
  | [path] =>
    match Source.compileFile d path with
    | .error f => .failed d f
    | .ok s =>
      let format := (l.text? "format").getD "text"
      if format == "text" then
        .printed d s.declarations
      else if format == "json" then
        .printed d (s.toJson.render 0 ++ "\n")
      else
        .failed d (.plain ("unknown format " ++ format.quote ++ "; use text or json"))
  | as => .failed d (notOne as.length)

def runFound (d : Disk) (timing : Timing) (c? : Option Command) (as : List Text) : RunResult :=
  match CommandLine.ofArguments ((c?.map flags).getD (sharedFlags ++ [helpFlag])) as with
  | .error f => .failed d f
  | .ok l =>
    if l.switch? "help" == some true then
      .printed d (usage c?)
    else
      let verbose := l.switch? "verbose" == some true
      match c? with
      | none => .printed d (usage none)
      | some .generate => (runGenerate d timing l).shown verbose
      | some .check => (runCheck d l).shown verbose
      | some .describe => (runDescribe d l).shown verbose

def run (d : Disk) (timing : Timing) (as : List Text) : RunResult :=
  match words as with
  | [] => runFound d timing none as
  | w :: topics =>
    match ofName? w with
    | some c => runFound d timing (some c) (without w as)
    | none =>
      if w == help then
        .printed d (usage (topics.head?.bind ofName?))
      else
        .failed d (unknown w)

end Command

end ValueGen
