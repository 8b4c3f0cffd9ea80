import ValueGen.Disk.Path
import ValueGen.Failure

/-!
This module contains disks: directory trees with files and symbolic links, seen from the working
directory. An operation either takes effect or says why it does not.
-/

namespace ValueGen

/--
A place on a disk: the names of the directories that lead to it from the working directory, and
its own name. The working directory is the empty place.
-/
abbrev Place := List Text

inductive Node where
  | file (content : Text)
  | directory
  | link (target : Text)
  deriving DecidableEq, Repr

/--
A disk: the nodes at its places. Each place occurs at most once.
-/
structure Disk where
  entries : List (Place × Node)
  deriving DecidableEq, Repr, Inhabited

namespace Disk

def empty : Disk := ⟨[]⟩

/--
The node at a place. The working directory is always there.
-/
def node? (d : Disk) (p : Place) : Option Node :=
  if p.isEmpty then some .directory else d.entries.lookup p

def isDirectory (d : Disk) (p : Place) : Bool := d.node? p == some .directory

def erase (d : Disk) (p : Place) : Disk := ⟨d.entries.filter fun e => e.1 != p⟩

def put (d : Disk) (p : Place) (n : Node) : Disk := ⟨(d.erase p).entries ++ [(p, n)]⟩

/--
The entries that lie under a place, however deep.
-/
def under (d : Disk) (p : Place) : List (Place × Node) :=
  d.entries.filter fun e => p.isPrefixOf e.1 && e.1 != p

def longestName : Nat := 255

def longestPath : Nat := 4095

/--
How many links are followed on the way to a place.
-/
def mostLinks : Nat := 40

def nameFault? (name : Text) : Option DiskFault :=
  if longestName < name.length then some .nameTooLong else none

/--
Take steps from a place. Only from a directory a step can be taken. The last step may lead to a
place with nothing at it. Where a step leads to a link, `onLink` goes on from there; the last step
stays at the link unless it is to be followed.
-/
def walk (d : Disk) (follow : Bool) (onLink : Place → List Text → Except DiskFault Place)
    (here : Place) : List Text → Except DiskFault Place
  | [] => .ok here
  | step :: rest =>
    if !d.isDirectory here then
      .error .notDirectory
    else if step == "." then
      walk d follow onLink here rest
    else if step == ".." then
      -- The directory above the root is the root itself.
      walk d follow onLink here.dropLast rest
    else
      match nameFault? step with
      | some f => .error f
      | none =>
        match d.node? (here ++ [step]) with
        | some (.link target) =>
          if rest.isEmpty && !follow then
            .ok (here ++ [step])
          else
            onLink (if Path.isRooted target then [] else here) (Path.steps target ++ rest)
        | some _ => walk d follow onLink (here ++ [step]) rest
        | none => if rest.isEmpty then .ok (here ++ [step]) else .error .notFound

def walkLinks (d : Disk) (follow : Bool) : Nat → Place → List Text → Except DiskFault Place
  | 0 => walk d follow fun _ _ => .error .linkLoop
  | n + 1 => walk d follow (walkLinks d follow n)

def pathFault? (path : Text) : Option DiskFault :=
  if path.isEmpty then
    some .notFound
  else if path.contains 0 then
    some .invalidName
  else if longestPath < path.length then
    some .nameTooLong
  else
    none

/--
The place that a path leads to. If the last step leads to a link, the link is followed or not.
-/
def locate (d : Disk) (follow : Bool) (path : Text) : Except DiskFault Place :=
  match pathFault? path with
  | some f => .error f
  | none => walkLinks d follow mostLinks [] (Path.steps path)

/--
The place at which a directory of the path would be made. A separator at the end of the path does
not count as a step.
-/
def locateNew (d : Disk) (path : Text) : Except DiskFault Place :=
  match pathFault? path with
  | some f => .error f
  | none =>
    walkLinks d false mostLinks [] (Path.steps (Text.trimRight (· == Path.separator) path))

def refuse {α : Type} (operation path : Text) (fault : DiskFault) : Except Failure α :=
  .error (.disk operation path fault)

def read (d : Disk) (path : Text) : Except Failure Text :=
  match d.locate true path with
  | .error f => refuse "open" path f
  | .ok p =>
    match d.node? p with
    | some (.file content) => .ok content
    | some .directory => refuse "read" path .isDirectory
    | some (.link _) => refuse "open" path .linkLoop
    | none => refuse "open" path .notFound

/--
Write the file at a path, in place of a file that is already there.
-/
def write (d : Disk) (path content : Text) : Except Failure Disk :=
  match d.locate true path with
  | .error f => refuse "open" path f
  | .ok p =>
    match d.node? p with
    | some .directory => refuse "open" path .isDirectory
    | _ => .ok (d.put p (.file content))

def remove (d : Disk) (path : Text) : Except Failure Disk :=
  match d.locate false path with
  | .error f => refuse "remove" path f
  | .ok p =>
    match d.node? p with
    | none => refuse "remove" path .notFound
    | some .directory =>
      if (d.under p).isEmpty then .ok (d.erase p) else refuse "remove" path .notEmpty
    | some _ => .ok (d.erase p)

def makeDirectory (d : Disk) (path : Text) : Except Failure Disk :=
  match d.locateNew path with
  | .error f => refuse "mkdir" path f
  | .ok p =>
    match d.node? p with
    | none => .ok (d.put p .directory)
    | some _ => refuse "mkdir" path .exists

/--
The node that a path leads to, links followed.
-/
def nodeAt? (d : Disk) (path : Text) : Option Node :=
  match d.locate true path with
  | .ok p => d.node? p
  | .error _ => none

def fault? (d : Disk) (path : Text) : Option DiskFault :=
  match d.locate true path with
  | .ok p => if (d.node? p).isSome then none else some .notFound
  | .error f => some f

/--
Make the directory at a path, if it is not there, when the one it lies in is there.
-/
def ensureDirectory (d : Disk) (path : Text) : Disk × Option Failure :=
  match d.makeDirectory path with
  | .ok d => (d, none)
  | .error f =>
    -- The directory may have been there before. A link to one does not count.
    match d.locate false path with
    | .ok p => if d.isDirectory p then (d, none) else (d, some f)
    | .error _ => (d, some f)

/--
Make the directory at a path with all the directories it lies in, as far as they are not there.
Directories that were made before one could not be made stay.
-/
def makeDirectories (d : Disk) (path : Text) : Disk × Option Failure :=
  match d.nodeAt? path with
  | some .directory => (d, none)
  | some _ => (d, some (.disk "mkdir" path .notDirectory))
  | none =>
    match _h : Path.parent? path with
    | none => d.ensureDirectory path
    | some parent =>
      match d.makeDirectories parent with
      | (d, some f) => (d, some f)
      | (d, none) => d.ensureDirectory path
termination_by path.length
decreasing_by exact Path.length_parent?_lt _h

end Disk

end ValueGen
