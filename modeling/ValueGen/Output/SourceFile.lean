import ValueGen.Output.Writer
import ValueGen.Schema.Compile

/-!
This module contains work on source files: compiling the file at a path, and generating the code of
all its messages.
-/

namespace ValueGen

namespace Source

/--
Compile the source file at a path. A directory can be opened like a file, but it cannot be read.
-/
def compileFile (d : Disk) (path : Text) : Except Failure Schema :=
  match d.nodeAt? path, d.read path with
  | some .directory, _ =>
    let fault : Failure := .disk "read" path .isDirectory
    .error (Report.toFailure path (Reader.reportLine path (0, 0) fault.message))
  | _, .error f => .error (.wrapped ("load: open " ++ path) f)
  | _, .ok source => Source.compile path source

/--
The settings with the name of the package that is generated: where none is set, it is the last part
of the name in the source.
-/
def withPackage (s : Settings) (schema : Schema) : Settings :=
  if s.package.isEmpty then { s with package := schema.space.afterLast 0x2e } else s

/--
Compile the source file at a path, and write the code of all its messages to the target directory.
-/
def generateFile (settings : Option Settings) (path : Text) (timing : Timing) (p : Progress) :
    Progress × Option Failure :=
  match settings with
  | none => (p, some Settings.missing)
  | some s =>
    match compileFile p.disk path with
    | .error f => (p, some f)
    | .ok schema =>
      let s := withPackage s schema
      match s.fault? with
      | some f => (p, some f)
      | none =>
        let (p, failure?) := Writer.write (some s) schema timing p
        (p, failure?.map (.wrapped ("generate " ++ path)))

end Source

end ValueGen
