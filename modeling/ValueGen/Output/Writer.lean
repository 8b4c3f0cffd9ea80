import ValueGen.Digest
import ValueGen.Disk.Basic
import ValueGen.Manifest.Basic
import ValueGen.Output.Generate
import ValueGen.Output.Log

/-!
This module contains the writer, which keeps a target directory in step with a schema. It writes
the files that changed, removes the files that the schema no longer asks for, and leaves a manifest
of what it wrote. A file that an earlier run did not record is never removed.
-/

namespace ValueGen

structure Metrics where
  written : Nat
  skipped : Nat
  removed : Nat
  bytes : Nat
  deriving DecidableEq, Repr, Inhabited

def Metrics.zero : Metrics := ⟨0, 0, 0, 0⟩

/--
What a run changes: the disk, the metrics and the log.
-/
structure Progress where
  disk : Disk
  metrics : Metrics
  log : List LogLine
  deriving DecidableEq, Repr, Inhabited

namespace Progress

def report (p : Progress) (level : Level) (text : Text) (facts : List (Text × Text)) : Progress :=
  { p with log := p.log ++ [⟨level, text, facts⟩] }

def skip (p : Progress) (name : Text) : Progress :=
  { p with metrics := { p.metrics with skipped := p.metrics.skipped + 1 } }.report .debug
    "protoval: file unchanged" [("file", name)]

def wrote (p : Progress) (f : GeneratedFile) (content : Text) (disk : Disk) : Progress :=
  let metrics := { p.metrics with
    written := p.metrics.written + 1
    bytes := p.metrics.bytes + content.length }
  { p with disk, metrics }.report .debug "protoval: file written"
    [("file", f.name), ("message", f.message), ("bytes", Text.ofNat content.length)]

def removed (p : Progress) (name : Text) (disk : Disk) : Progress :=
  { p with disk, metrics := { p.metrics with removed := p.metrics.removed + 1 } }.report .debug
    "protoval: stale file removed" [("file", name)]

end Progress

/--
Read the manifest at a path. If there is none, or one of another version, it is an empty one. If it
cannot be decoded, it is an empty one too, and there is a failure as well.
-/
def Manifest.load (d : Disk) (path : Text) : Option Manifest × Option Failure :=
  match d.read path with
  | .error f =>
    if f.is .notFound then
      (some (.new []), none)
    else
      (none, some (.wrapped "read manifest" f))
  | .ok t =>
    match Manifest.ofText? t with
    | some m => (some m, none)
    | none => (some (.new []), some (.corruptManifest path))

def Manifest.save (m : Manifest) (d : Disk) (path : Text) : Except Failure Disk :=
  match d.write path m.encode with
  | .ok d => .ok d
  | .error f => .error (.wrapped "write manifest" f)

namespace Writer

/--
The content of a file as it is to be written: formatted if the settings say so. There is none if it
cannot be formatted.
-/
def finalContent? (o : Options) (f : GeneratedFile) : Option Text :=
  if o.format then f.printed.formatted else some f.printed.content

def hasDigest (d : Disk) (path hash : Text) : Bool :=
  match d.read path with
  | .ok content => digest content == hash
  | .error _ => false

/--
Where the content of a file that cannot be formatted is left.
-/
def rejectPath (path : Text) : Text := path ++ ".error"

def unformatted (f : GeneratedFile) (path : Text) : Failure :=
  .generation f.message [] f.name ("format (unformatted written to " ++ rejectPath path ++ ")")
    (some (.plain "the content cannot be formatted"))

/--
Write a file, unless it was recorded with the same digest and still has it. The result is the digest
of the content. What cannot be formatted is left beside the file, if that is possible.
-/
def writeFile (o : Options) (previous : Manifest) (f : GeneratedFile) (p : Progress) :
    Progress × Except Failure Text :=
  let path := Path.join o.target f.name
  match finalContent? o f with
  | none =>
    match p.disk.write (rejectPath path) f.printed.content with
    | .ok disk => ({ p with disk }, .error (unformatted f path))
    | .error _ => (p, .error (unformatted f path))
  | some content =>
    let hash := digest content
    if o.manifest && previous.isUnchanged f.name hash && hasDigest p.disk path hash then
      (p.skip f.name, .ok hash)
    else
      match p.disk.write path content with
      | .ok disk => (p.wrote f content disk, .ok hash)
      | .error e => (p, .error (.wrapped ("write " ++ f.name) e))

/--
The tasks that write files, under way: what they changed, the files they recorded, and the first
failure of one of them.
-/
structure Writing where
  progress : Progress
  recorded : FileTable
  failure? : Option Failure

namespace Writing

def fail (w : Writing) (f : Failure) : Writing :=
  { w with failure? := some (w.failure?.getD f) }

def turn (o : Options) (previous : Manifest) (files : List GeneratedFile) (w : Writing)
    (next : Nat × Start) : Writing :=
  match files[next.1]? with
  | none => w
  | some f =>
    if next.2 == .canceled then
      w.fail .canceled
    else if next.2 == .late && w.failure?.isSome then
      -- The first failure has canceled the rest.
      w
    else
      match writeFile o previous f w.progress with
      | (progress, .ok hash) => { w with progress, recorded := w.recorded.insert f.name hash }
      | (progress, .error e) => { w with progress }.fail e

def run (o : Options) (previous : Manifest) (files : List GeneratedFile) (schedule : Schedule)
    (p : Progress) : Writing :=
  schedule.foldl (turn o previous files) ⟨p, .empty, none⟩

end Writing

/--
Could the name be one that a writer gave to a file? It is a single step and ends like a source file.
-/
def isOwnName (name : Text) : Bool := !name.contains Path.separator && name.endsWith ".go"

/--
Remove the files of the names that are not kept. A file that is gone already counts as removed.
-/
def removeStale (target : Text) (kept : FileTable) :
    List Text → Progress → Progress × Option Failure
  | [], p => (p, none)
  | name :: names, p =>
    if kept.has name || !isOwnName name then
      removeStale target kept names p
    else
      match p.disk.remove (Path.join target name) with
      | .ok disk => removeStale target kept names (p.removed name disk)
      | .error f =>
        if f.is .notFound then
          removeStale target kept names (p.removed name p.disk)
        else
          (p, some (.wrapped ("remove stale " ++ name) f))

/--
Keep what the previous manifest says of the files of messages that failed, so that those files stay
until the messages can be generated again.
-/
def keepFailed (schema : Schema) (previous : Manifest) (failed : List Text) (files : FileTable) :
    FileTable :=
  failed.foldl keep files
where
  keep (files : FileTable) (name : Text) : FileTable :=
    match schema.message? name with
    | none => files
    | some m =>
      match previous.files.get? m.fileName with
      | none => files
      | some hash => files.insert m.fileName hash

def manifestPath (o : Options) : Text := Path.join o.target Manifest.fileName

/--
The manifest that the run before left, if manifests are in use. One that cannot be decoded is
ignored, with a warning.
-/
def previousManifest (o : Options) (p : Progress) : Except Failure (Manifest × Progress) :=
  if !o.manifest then
    .ok (.new o.package, p)
  else
    match Manifest.load p.disk (manifestPath o) with
    | (some m, none) => .ok (m, p)
    | (_, some f) =>
      if f.is .corruptManifest then
        .ok (.new o.package, p.report .warning "protoval: ignoring unreadable manifest"
          [("file", manifestPath o), ("error", f.message)])
      else
        .error f
    -- Loading never ends in this way.
    | (none, none) => .ok (.new o.package, p)

/--
The failure of a run that stopped: why messages failed before, and why it stopped.
-/
def stopped (batch : Batch) (f : Failure) : Option Failure :=
  Failure.join? (batch.failure?.toList ++ [f])

/--
The facts at the end of a run: what the run did since the metrics were taken.
-/
def summary (o : Options) (batch : Batch) (start now : Metrics) : List (Text × Text) := [
  ("target", o.target),
  ("written", Text.ofNat (now.written - start.written)),
  ("skipped", Text.ofNat (now.skipped - start.skipped)),
  ("removed", Text.ofNat (now.removed - start.removed)),
  ("failed", Text.ofNat batch.failed.length)]

/--
The end of a run with a manifest: remove what is stale, and save the manifest.
-/
def finish (o : Options) (schema : Schema) (batch : Batch) (previous : Manifest) (start : Metrics)
    (recorded : FileTable) (p : Progress) : Progress × Option Failure :=
  let files := keepFailed schema previous batch.failedNames recorded
  match removeStale o.target files previous.files.names p with
  | (p, some f) => (p, stopped batch f)
  | (p, none) =>
    match ({ Manifest.new o.package with files } : Manifest).save p.disk (manifestPath o) with
    | .error f => (p, stopped batch f)
    | .ok disk =>
      ({ p with disk }.report .info "protoval: generation done"
        (summary o batch start p.metrics), batch.failure?)

/--
Write the generated files of a schema to the target directory, which is there.
-/
def writeBatch (o : Options) (schema : Schema) (batch : Batch) (timing : Timing) (p : Progress) :
    Progress × Option Failure :=
  match previousManifest o p with
  | .error f => (p, some f)
  | .ok (previous, q) =>
    let w := Writing.run o previous batch.files (timing.writing batch.files.length) q
    match w.failure? with
    | some f => (w.progress, stopped batch f)
    | none =>
      if o.manifest then
        finish o schema batch previous p.metrics w.recorded w.progress
      else
        (w.progress.report .info "protoval: generation done"
          [("target", o.target), ("files", Text.ofNat batch.files.length),
            ("failed", Text.ofNat batch.failed.length)], batch.failure?)

def missingTarget : Failure := .setting "Target" none "missing target directory in config"

/--
Generate and write the files of a schema. That some messages cannot be generated does not stop the
others.
-/
def write (settings : Option Settings) (schema : Schema) (timing : Timing) (p : Progress) :
    Progress × Option Failure :=
  match settings with
  | none => (p, some missingTarget)
  | some s =>
    if s.target.isEmpty then
      (p, some missingTarget)
    else
      match generateSchema schema s (timing.generation schema.messages.length) with
      | .error f => (p, some f)
      | .ok batch =>
        match p.disk.makeDirectories s.target with
        | (disk, some f) => ({ p with disk }, some (.wrapped "create output directory" f))
        | (disk, none) => writeBatch s.toOptions schema batch timing { p with disk }

end Writer

end ValueGen
