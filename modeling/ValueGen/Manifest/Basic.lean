import ValueGen.Manifest.Packed
import ValueGen.Manifest.Table

/-!
This module contains manifests: the record that a run leaves in the target directory of the files it
wrote, with the digests of their contents. A manifest is stored in packed form, and one of another
version counts as empty.
-/

namespace ValueGen

structure Manifest where
  version : Int
  package : Text
  files : FileTable
  deriving DecidableEq, Repr, Inhabited

namespace Manifest

def fileName : Text := ".protoval.manifest"

def currentVersion : Int := 1

def new (package : Text) : Manifest := ⟨currentVersion, package, .empty⟩

def put (m : Manifest) (name hash : Text) : Manifest :=
  { m with files := m.files.insert name hash }

def isUnchanged (m : Manifest) (name hash : Text) : Bool := m.files.get? name == some hash

def encodeFiles (entries : List (Text × Text)) : Text :=
  Packed.mapHead entries.length ++ entries.flatMap fun e => Packed.text e.1 ++ Packed.text e.2

def encodeWith (version : Int) (package files : Text) : Text :=
  Packed.mapHead 3
    ++ Packed.text "version" ++ Packed.integer version
    ++ Packed.text "package" ++ Packed.text package
    ++ Packed.text "files" ++ files

/--
Write a manifest, with its files in the order of their names.
-/
def encode (m : Manifest) : Text := encodeWith m.version m.package (encodeFiles m.files.entries)

def blank : Manifest := ⟨0, [], .empty⟩

def readEntries : Nat → FileTable → Text → Option (FileTable × Text)
  | 0, files, t => some (files, t)
  | n + 1, files, t =>
    match Packed.readText t with
    | none => none
    | some (name, t) =>
      match Packed.readText t with
      | none => none
      | some (hash, t) => readEntries n (files.insert name hash) t

def readVersion (m : Manifest) (t : Text) : Option (Manifest × Text) :=
  (Packed.readInteger t).map fun (version, t) => ({ m with version }, t)

def readPackage (m : Manifest) (t : Text) : Option (Manifest × Text) :=
  (Packed.readText t).map fun (package, t) => ({ m with package }, t)

/--
Read the files. They add to those that are already there, unless there is no table at all.
-/
def readFiles (m : Manifest) (t : Text) : Option (Manifest × Text) :=
  match Packed.readMapSize t with
  | none => none
  | some (none, t) => some ({ m with files := .empty }, t)
  | some (some n, t) => (readEntries n m.files t).map fun (files, t) => ({ m with files }, t)

/--
Read the part of a manifest that has a name. Parts with other names are skipped.
-/
def readPart (m : Manifest) (name t : Text) : Option (Manifest × Text) :=
  if name == "version" then
    readVersion m t
  else if name == "package" then
    readPackage m t
  else if name == "files" then
    readFiles m t
  else
    (Packed.skip t).map fun t => (m, t)

def readParts : Nat → Manifest → Text → Option Manifest
  | 0, m, _ => some m
  | n + 1, m, t =>
    match Packed.readText t with
    | none => none
    | some (name, t) =>
      match readPart m name t with
      | none => none
      | some (m, t) => readParts n m t

/--
Read the three parts in order, without names.
-/
def readInOrder (m : Manifest) (t : Text) : Option Manifest := do
  let (m, t) ← readVersion m t
  let (m, t) ← readPackage m t
  let (m, _) ← readFiles m t
  return m

/--
Read a manifest. What follows it is ignored.
-/
def decode? (t : Text) : Option Manifest :=
  match Packed.readHead t with
  | some (.absent, _) => some blank
  | some (.map n, t) => readParts n blank t
  | some (.array 0, _) => some blank
  | some (.array 3, t) => readInOrder blank t
  | _ => none

/--
The manifest that a stored text stands for: an empty one if it has another version, and none if it
cannot be read.
-/
def ofText? (t : Text) : Option Manifest :=
  (decode? t).map fun m => if m.version = currentVersion then m else new []

end Manifest

end ValueGen
