import Mathlib.Data.List.Nodup
import Mathlib.Data.List.Perm.Subperm
import ValueGen.Proofs.Manifest.RoundTrip
import ValueGen.Proofs.Output.Exit
import ValueGen.Proofs.Output.Stale
import ValueGen.Proofs.Output.Writing

/-!
This module contains that a run that reports no failure leaves the target directory in step with the
schema, whatever was there before and in whatever order the tasks took effect.
-/

namespace ValueGen

theorem Text.length_hex (width n : Nat) : (Text.hex width n).length = width := by
  induction width generalizing n with
  | zero => rfl
  | succ width ih =>
    unfold Text.hex
    rw [List.length_append, ih, List.length_singleton]

theorem length_digest (t : Text) : (digest t).length = 64 := by
  unfold digest Digest.State.words
  simp [Text.length_hex]

namespace Writer

variable {o : Options} {s : Settings} {schema : Schema} {batch : Batch} {timing : Timing}
  {files : List GeneratedFile} {previous : Manifest} {p q : Progress} {w : Writing}
  {directory : Place} {before made after : Disk} {table : FileTable}

/-! How a run without a failure goes. -/

theorem writeBatch_cases (hmanifest : o.manifest = true)
    (h : writeBatch o schema batch timing p = (q, none)) :
    batch.failure? = none
      ∧ ∃ previous r w, previousManifest o p = .ok (previous, r)
        ∧ w = Writing.run o previous batch.files (timing.writing batch.files.length) r
        ∧ w.failure? = none
        ∧ ∃ t, removeStale o.target (keepFailed schema previous batch.failedNames w.recorded)
              previous.files.names w.progress = (t, none)
            ∧ t.disk.write (manifestPath o)
                (Manifest.encode ⟨Manifest.currentVersion, o.package,
                  keepFailed schema previous batch.failedNames w.recorded⟩) = .ok q.disk := by
  rcases writeBatch_exit hmanifest h with ⟨-, cause, hcause⟩ | ⟨previous, r, hprevious, hend⟩
  . cases hcause
  . rcases hend with ⟨⟨f, hf⟩, -⟩ | ⟨hfailure, t, hsaves⟩
    . exact absurd hf.symm (stopped_ne_none batch f)
    . exact ⟨hfailure.symm, previous, r, _, hprevious, rfl, hsaves.written, t, hsaves.removed,
        hsaves.saved⟩

theorem write_cases (h : write (some s) schema timing p = (q, none)) :
    s.target ≠ []
      ∧ ∃ batch, generateSchema schema s (timing.generation schema.messages.length) = .ok batch
        ∧ writeBatch s.toOptions schema batch timing
            { p with disk := (p.disk.makeDirectories s.target).1 } = (q, none) := by
  unfold write at h
  dsimp only at h
  split at h
  . cases h
  . next htarget =>
    split at h
    . cases h
    . next batch hbatch =>
      refine ⟨by simpa using htarget, batch, hbatch, ?_⟩
      split at h
      . cases h
      . next disk hmade =>
        rw [hmade]
        exact h

-- The manifest could be saved, so there was a way to the target directory at the end. Nothing that
-- was done before has added to the directories and links it leads through.
theorem writeBatch_leadsTo (hmanifest : o.manifest = true) (htarget : o.target ≠ [])
    (h : writeBatch o schema batch timing p = (q, none)) :
    Disk.CanFollow (manifestPath o) ∧ ∃ directory, p.disk.LeadsTo o.target directory := by
  obtain ⟨-, previous, r, w, hprevious, hw, -, t, hremove, hsave⟩ := writeBatch_cases hmanifest h
  obtain ⟨hfollow, directory, hleads⟩ :=
    Disk.exists_leadsTo_of_write htarget Manifest.isPlain_fileName hsave
  refine ⟨hfollow, directory, ?_⟩
  have hwritten : w.progress.disk.Keeps r.disk := by
    rw [hw]
    apply Writing.foldl_turn_keeps
  rw [← (previousManifest_cases hmanifest hprevious).1]
  exact ((removeStale_keeps hremove).trans hwritten).leadsTo hleads

/-! What a run does to the target directory. -/

/--
The name is one of a manifest that the directory holds, a writer could have given it to a file, and
it is not one of those that are kept.
-/
structure IsStale (d : Disk) (directory : Place) (kept : List Text) (name : Text) : Prop where
  named : ∃ m, d.HoldsManifest directory m ∧ name ∈ m.files.names
  own : isOwnName name = true
  not_kept : name ∉ kept

/--
The files hold their final contents, the manifest names exactly them, stale files are gone, and all
else is as before.
-/
structure Settles (o : Options) (files : List GeneratedFile) (directory : Place)
    (before after : Disk) (table : FileTable) : Prop where
  leadsTo : after.LeadsTo o.target directory
  written : ∀ f ∈ files, ∃ content, finalContent? o f = some content
    ∧ Disk.CanReach o.target f.name
    ∧ after.node? (directory ++ [f.name]) = some (.file content)
    ∧ table.get? f.name = some (digest content)
  unrecorded : ∀ name, (∀ f ∈ files, name ≠ f.name) → table.get? name = none
  canReach : Disk.CanReach o.target Manifest.fileName
  manifest : after.node? (directory ++ [Manifest.fileName])
    = some (.file (Manifest.encode ⟨Manifest.currentVersion, o.package, table⟩))
  stale : ∀ name, IsStale before directory (files.map GeneratedFile.name) name
    → after.node? (directory ++ [name]) = none
  others : ∀ place, place ≠ directory ++ [Manifest.fileName]
    → (∀ f ∈ files, place ≠ directory ++ [f.name])
    → (∀ name, IsStale before directory (files.map GeneratedFile.name) name
      → place ≠ directory ++ [name])
    → after.node? place = before.node? place

theorem mem_staleNames_iff_isStale (hafter : w.IsAfter o directory before files)
    (hprevious : ∀ name, name ∈ previous.files.names
      ↔ ∃ m, before.HoldsManifest directory m ∧ name ∈ m.files.names) (name : Text) :
    name ∈ staleNames w.recorded previous.files.names
      ↔ IsStale before directory (files.map GeneratedFile.name) name := by
  rw [mem_staleNames_iff, hprevious]
  constructor
  . rintro ⟨hnamed, hget, hname⟩
    refine ⟨hnamed, hname, ?_⟩
    intro hmem
    obtain ⟨f, hf, rfl⟩ := List.mem_map.1 hmem
    obtain ⟨content, -, -, -, hrecorded⟩ := hafter.written f hf
    rw [hget] at hrecorded
    cases hrecorded
  . rintro ⟨hnamed, hname, hkept⟩
    refine ⟨hnamed, hafter.unrecorded name ?_, hname⟩
    rintro f hf rfl
    exact hkept (List.mem_map_of_mem hf)

theorem Settles.of_steps {t : Progress} (hown : ∀ f ∈ files, isOwnName f.name = true)
    (hprevious : ∀ name, name ∈ previous.files.names
      ↔ ∃ m, before.HoldsManifest directory m ∧ name ∈ m.files.names)
    (hafter : w.IsAfter o directory before files)
    (hcleared : Disk.IsCleared directory (staleNames w.recorded previous.files.names)
      w.progress.disk t.disk)
    (hentry : t.disk.IsEntry o.target directory Manifest.fileName)
    (hsave : t.disk.write (manifestPath o)
      (Manifest.encode ⟨Manifest.currentVersion, o.package, w.recorded⟩) = .ok after) :
    Settles o files directory before after w.recorded := by
  obtain ⟨hreach, -, hput⟩ := hentry.write_join hsave
  have hmanifest : after.node? (directory ++ [Manifest.fileName])
      = some (.file (Manifest.encode ⟨Manifest.currentVersion, o.package, w.recorded⟩)) := by
    rw [hput, Disk.node?_put _ (by simp), if_pos rfl]
  have hother (place : Place) (hplace : place ≠ directory ++ [Manifest.fileName]) :
      after.node? place = t.disk.node? place := by
    rw [hput, Disk.node?_put _ (by simp), if_neg hplace]
  have hstale := mem_staleNames_iff_isStale hafter hprevious
  refine ⟨hentry.leadsTo_of_write hsave, ?_, hafter.unrecorded, hreach, hmanifest, ?_, ?_⟩
  . intro f hf
    obtain ⟨content, hcontent, hfile, hnode, hrecorded⟩ := hafter.written f hf
    refine ⟨content, hcontent, hfile, ?_, hrecorded⟩
    have hne := ne_fileName_of_isOwnName (hown f hf)
    rw [hother _ (by simpa using hne), hcleared.unchanged _ ?_, hnode]
    intro name hname hplace
    have heq : f.name = name := by simpa using hplace
    rw [hstale] at hname
    exact hname.not_kept (heq ▸ List.mem_map_of_mem hf)
  . intro name hname
    have hne := ne_fileName_of_isOwnName hname.own
    rw [hother _ (by simpa using hne)]
    exact hcleared.absent name ((hstale name).2 hname)
  . intro place hplace hfiles hnames
    rw [hother place hplace, hcleared.unchanged place, hafter.unchanged place hfiles]
    intro name hname
    exact hnames name ((hstale name).1 hname)

-- A run that reports no failure settles the target directory, which is there when it starts.
theorem writeBatch_settles (hmanifest : o.manifest = true) (hfailed : batch.failedNames = [])
    (hown : ∀ f ∈ batch.files, isOwnName f.name = true)
    (hready : Writing.IsReady o batch.files directory p.disk)
    (hlinks : p.disk.HasNoLinks directory) (hleads : p.disk.LeadsTo o.target directory)
    (hcovers : (timing.writing batch.files.length).Covers batch.files.length)
    (h : writeBatch o schema batch timing p = (q, none)) :
    ∃ table, Settles o batch.files directory p.disk q.disk table := by
  obtain ⟨-, previous, r, w, hprevious, hw, hnone, t, hremove, hsave⟩ :=
    writeBatch_cases hmanifest h
  rw [hfailed] at hremove hsave
  change removeStale o.target w.recorded previous.files.names w.progress = (t, none) at hremove
  change t.disk.write (manifestPath o)
    (Manifest.encode ⟨Manifest.currentVersion, o.package, w.recorded⟩) = .ok q.disk at hsave
  have hdisk := (previousManifest_cases hmanifest hprevious).1
  have hwritten : w.progress.disk.Keeps p.disk := by
    rw [hw, ← hdisk]
    apply Writing.foldl_turn_keeps
  -- The way to the directory is the same after all steps.
  have htleads : t.disk.LeadsTo o.target directory := by
    obtain ⟨-, other, hother⟩ :=
      Disk.exists_leadsTo_of_write hready.target_ne Manifest.isPlain_fileName hsave
    have heq := hleads.unique (((removeStale_keeps hremove).trans hwritten).leadsTo hother)
    exact heq ▸ hother
  have hafter : w.IsAfter o directory p.disk batch.files := by
    have hwleads := (removeStale_keeps hremove).leadsTo htleads
    rw [← hdisk] at hready ⊢
    rw [hw] at hnone hwleads ⊢
    exact Writing.run_isAfter hready hcovers hwleads hnone
  have hcleared := removeStale_isCleared hready.target_ne hremove htleads
  have hentry : t.disk.IsEntry o.target directory Manifest.fileName :=
    ⟨hready.target_ne, htleads, Manifest.isPlain_fileName,
      hcleared.hasNoLinks (hafter.hasNoLinks hlinks) Manifest.fileName⟩
  have hnames := (previousManifest_ok hmanifest
    ⟨hready.target_ne, hleads, Manifest.isPlain_fileName, hlinks Manifest.fileName⟩
    (hentry.write_join hsave).1 hprevious).2
  exact ⟨w.recorded, Settles.of_steps hown hnames hafter hcleared hentry hsave⟩

/-! The manifest that is left. -/

theorem Settles.exists_of_get? (h : Settles o files directory before after table)
    {name hash : Text} (hget : table.get? name = some hash) :
    ∃ f ∈ files, f.name = name ∧ ∃ content, finalContent? o f = some content
      ∧ Disk.CanReach o.target name ∧ hash = digest content := by
  by_cases hname : ∃ f ∈ files, name = f.name
  . obtain ⟨f, hf, rfl⟩ := hname
    obtain ⟨content, hcontent, hreach, -, hrecorded⟩ := h.written f hf
    rw [hget] at hrecorded
    cases hrecorded
    exact ⟨f, hf, rfl, content, hcontent, hreach, rfl⟩
  . rw [h.unrecorded name fun f hf heq => hname ⟨f, hf, heq⟩] at hget
    cases hget

-- What names and digests there are is short enough in any case.
theorem Settles.fits (h : Settles o files directory before after table)
    (hpackage : o.package.length < Word.span 4) (hsize : files.length < Word.span 4) :
    Manifest.Fits o.package table.entries := by
  refine ⟨hpackage, ?_, ?_, ?_⟩
  . have hsubset : table.names ⊆ files.map GeneratedFile.name := by
      intro name hname
      obtain ⟨e, he, rfl⟩ := List.mem_map.1 hname
      obtain ⟨f, hf, hfile, -⟩ := h.exists_of_get? (table.get?_of_mem he)
      rw [← hfile]
      exact List.mem_map_of_mem hf
    have hle := (table.names_nodup.subperm hsubset).length_le
    unfold FileTable.names at hle
    rw [List.length_map, List.length_map] at hle
    omega
  . intro e he
    obtain ⟨f, -, -, content, -, hreach, -⟩ := h.exists_of_get? (table.get?_of_mem he)
    have hname := hreach.name
    unfold Disk.nameFault? Disk.longestName at hname
    rw [Packed.span_four]
    split at hname
    . cases hname
    . omega
  . intro e he
    obtain ⟨f, -, -, content, -, -, hhash⟩ := h.exists_of_get? (table.get?_of_mem he)
    rw [hhash, length_digest, Packed.span_four]
    omega

/-! The messages of a schema. -/

/--
The final content of the file of a message, if it can be generated and formatted.
-/
def contentOf? (s : Settings) (m : Message) : Option Text :=
  match generate m s with
  | .ok printed => finalContent? s.toOptions ⟨m.fileName, m.name, printed⟩
  | .error _ => none

/--
The digest tells the final content of each message from what is at its place in the directory.
-/
def DigestsTell (s : Settings) (schema : Schema) (d : Disk) (directory : Place) : Prop :=
  ∀ m ∈ schema.messages, ∀ old content, d.node? (directory ++ [m.fileName]) = some (.file old)
    → contentOf? s m = some content → digest old = digest content → old = content

/--
The table names the files of the messages, each with the digest of its final content, and no others.
-/
def Records (s : Settings) (schema : Schema) (table : FileTable) : Prop :=
  ∀ name hash, table.get? name = some hash
    ↔ ∃ m ∈ schema.messages, m.fileName = name
      ∧ ∃ content, contentOf? s m = some content ∧ hash = digest content

/--
The place of the target directory, once it has been made.
-/
def targetPlace (s : Settings) (d : Disk) : Except DiskFault Place :=
  (d.makeDirectories s.target).1.locate true (Path.clean s.target)

/--
The target directory is in step with the schema: every message has its file with the final content,
the manifest names these files with the digests of their contents, and files that the manifest
before named and that a writer could have written are gone unless they are among them. Nothing else
has changed, except that directories were made on the way. The packed form has four bytes for a
size, so only a package and a number of messages within them can be read again.
-/
structure IsInStep (s : Settings) (schema : Schema) (directory : Place) (before after : Disk) :
    Prop where
  files : ∀ m ∈ schema.messages, ∃ content, contentOf? s m = some content
    ∧ after.read (Path.join s.target m.fileName) = .ok content
  manifest : ∃ table, Records s schema table
    ∧ after.read (manifestPath s.toOptions) = .ok (Manifest.encode ⟨1, s.package, table⟩)
    ∧ (s.package.length < Word.span 4 → schema.messages.length < Word.span 4
      → Manifest.load after (manifestPath s.toOptions) = (some ⟨1, s.package, table⟩, none))
  stale : ∀ name, IsStale before directory (schema.messages.map Message.fileName) name
    → after.node? (directory ++ [name]) = none
  others : ∀ place, place ≠ directory ++ [Manifest.fileName]
    → (∀ m ∈ schema.messages, place ≠ directory ++ [m.fileName])
    → (∀ name, IsStale before directory (schema.messages.map Message.fileName) name
      → place ≠ directory ++ [name])
    → after.node? place = before.node? place
      ∨ (before.node? place = none ∧ after.node? place = some .directory)

theorem contentOf?_eq {m : Message} {printed : Code.Printed} (h : generate m s = .ok printed) :
    contentOf? s m = finalContent? s.toOptions ⟨m.fileName, m.name, printed⟩ := by
  unfold contentOf?
  rw [h]

theorem isOwnName_of_mem_files (hbatch : batch.IsSequential schema s)
    (hemitter : s.emitterInUse = .values) : ∀ f ∈ batch.files, isOwnName f.name = true := by
  intro f hf
  obtain ⟨m, -, printed, hgenerate, rfl⟩ := hbatch.exists_of_mem_files hf
  exact Message.isOwnName_fileName (isValid_of_generate hemitter hgenerate)

theorem isReady_of_isSequential (hbatch : batch.IsSequential schema s)
    (hfailed : batch.failedNames = []) (hemitter : s.emitterInUse = .values)
    (htarget : s.target ≠ []) (hlinks : made.HasNoLinks directory)
    (hdigest : DigestsTell s schema made directory) :
    Writing.IsReady s.toOptions batch.files directory made where
  target_ne := htarget
  name_inj := by
    intro f hf g hg hname
    exact List.inj_on_of_nodup_map hbatch.nodup_files hf hg hname
  plain := by
    intro f hf
    exact isPlain_of_isOwnName (isOwnName_of_mem_files hbatch hemitter f hf)
  noLink := fun f _ => hlinks f.name
  digest := by
    intro f hf old content hold hcontent heq
    rw [hbatch.mem_files_iff hfailed] at hf
    obtain ⟨m, hm, printed, hgenerate, rfl⟩ := hf
    rw [← contentOf?_eq hgenerate] at hcontent
    exact hdigest m hm old content hold hcontent heq

theorem digestsTell_of_addsDirectories (h : before.AddsDirectories made)
    (hbefore : DigestsTell s schema before directory) : DigestsTell s schema made directory := by
  intro m hm old content hold
  rw [h.node?_eq_file_iff] at hold
  exact hbefore m hm old content hold

theorem isStale_iff (h : before.AddsDirectories made) (directory : Place) (kept : List Text)
    (name : Text) :
    IsStale made directory kept name ↔ IsStale before directory kept name := by
  have hholds (m : Manifest) :
      made.HoldsManifest directory m ↔ before.HoldsManifest directory m := by
    unfold Disk.HoldsManifest
    simp only [h.node?_eq_file_iff]
  constructor
  . rintro ⟨⟨m, hm, hname⟩, hown, hkept⟩
    exact ⟨⟨m, (hholds m).1 hm, hname⟩, hown, hkept⟩
  . rintro ⟨⟨m, hm, hname⟩, hown, hkept⟩
    exact ⟨⟨m, (hholds m).2 hm, hname⟩, hown, hkept⟩

theorem Settles.records (h : Settles s.toOptions batch.files directory made after table)
    (hbatch : batch.IsSequential schema s) (hfailed : batch.failedNames = []) :
    Records s schema table := by
  intro name hash
  constructor
  . intro hget
    obtain ⟨f, hf, hname, content, hcontent, -, hhash⟩ := h.exists_of_get? hget
    rw [hbatch.mem_files_iff hfailed] at hf
    obtain ⟨m, hm, printed, hgenerate, rfl⟩ := hf
    rw [← contentOf?_eq hgenerate] at hcontent
    exact ⟨m, hm, hname, content, hcontent, hhash⟩
  . rintro ⟨m, hm, rfl, content, hcontent, rfl⟩
    obtain ⟨printed, hgenerate⟩ := hbatch.exists_generate hfailed hm
    obtain ⟨other, hother, -, -, hget⟩ := h.written ⟨m.fileName, m.name, printed⟩
      ((hbatch.mem_files_iff hfailed _).2 ⟨m, hm, printed, hgenerate, rfl⟩)
    rw [contentOf?_eq hgenerate, hother] at hcontent
    cases hcontent
    exact hget

theorem Settles.read_join (h : Settles o files directory made after table)
    (htarget : o.target ≠ []) {name content : Text} (hplain : Path.IsPlain name)
    (hreach : Disk.CanReach o.target name)
    (hnode : after.node? (directory ++ [name]) = some (.file content)) :
    after.read (Path.join o.target name) = .ok content := by
  have hlink : after.IsNoLink (directory ++ [name]) := by
    intro target
    rw [hnode]
    simp
  have hentry : after.IsEntry o.target directory name := ⟨htarget, h.leadsTo, hplain, hlink⟩
  exact hentry.read_join_of_node hreach hnode

theorem Settles.load_manifest (h : Settles s.toOptions batch.files directory made after table)
    (htarget : s.target ≠ []) (hpackage : s.package.length < Word.span 4)
    (hsize : batch.files.length < Word.span 4) :
    Manifest.load after (manifestPath s.toOptions) = (some ⟨1, s.package, table⟩, none) := by
  unfold Manifest.load manifestPath
  rw [h.read_join htarget Manifest.isPlain_fileName h.canReach h.manifest]
  dsimp only
  rw [Manifest.ofText?_encode (h.fits hpackage hsize)]
  rfl

theorem Settles.isInStep (h : Settles s.toOptions batch.files directory made after table)
    (hbatch : batch.IsSequential schema s) (hfailed : batch.failedNames = [])
    (hemitter : s.emitterInUse = .values) (htarget : s.target ≠ [])
    (hmade : before.AddsDirectories made) : IsInStep s schema directory before after := by
  have hnames := hbatch.map_name_files hfailed
  have hstale := isStale_iff hmade directory (schema.messages.map Message.fileName)
  refine ⟨?_, ⟨table, h.records hbatch hfailed, ?_, ?_⟩, ?_, ?_⟩
  . intro m hm
    obtain ⟨printed, hgenerate⟩ := hbatch.exists_generate hfailed hm
    have hf : ⟨m.fileName, m.name, printed⟩ ∈ batch.files :=
      (hbatch.mem_files_iff hfailed _).2 ⟨m, hm, printed, hgenerate, rfl⟩
    obtain ⟨content, hcontent, hreach, hnode, -⟩ := h.written _ hf
    have hplain := isPlain_of_isOwnName (isOwnName_of_mem_files hbatch hemitter _ hf)
    rw [contentOf?_eq hgenerate]
    exact ⟨content, hcontent, h.read_join htarget hplain hreach hnode⟩
  . exact h.read_join htarget Manifest.isPlain_fileName h.canReach h.manifest
  . intro hpackage hsize
    have hlength := congrArg List.length hnames
    rw [List.length_map, List.length_map] at hlength
    exact h.load_manifest htarget hpackage (hlength ▸ hsize)
  . intro name hname
    apply h.stale
    rw [hnames, hstale]
    exact hname
  . intro place hplace hmessages hnotStale
    rw [h.others place hplace]
    . exact hmade place
    . intro f hf
      rw [hbatch.mem_files_iff hfailed] at hf
      obtain ⟨m, hm, printed, -, rfl⟩ := hf
      exact hmessages m hm
    . intro name hname
      rw [hnames, hstale] at hname
      exact hnotStale name hname

def shapeSettings : Settings := { Settings.default with package := "shapes", target := "out" }

def shapeSchema : Schema := ⟨[], [⟨"Shape", []⟩, ⟨"Point", []⟩]⟩

/--
The target directory has the file of one message, which the manifest does not name, a file that the
manifest names and that is stale by now, and a file that no run has written.
-/
def shapeStart : Progress where
  disk := ⟨[
    (["out"], .directory),
    (["out", "shape.protoval.go"], .file ((contentOf? shapeSettings ⟨"Shape", []⟩).getD [])),
    (["out", "circle.protoval.go"], .file "stale"),
    (["out", "notes.txt"], .file "notes"),
    (["out", Manifest.fileName], .file (Manifest.encode
      ⟨1, "shapes", .ofList [("circle.protoval.go", "0")]⟩))]⟩
  metrics := .zero
  log := []

/--
The tasks of the second message take effect first.
-/
def shapeTiming : Timing where
  generation := fun _ => [(1, .late), (0, .early)]
  writing := fun _ => [(1, .late), (0, .early)]

end Writer

end ValueGen
