import ValueGen.Proofs.Disk.Making
import ValueGen.Proofs.Manifest.Size
import ValueGen.Proofs.Output.Attempt
import ValueGen.Proofs.Output.Target

/-!
This module contains what a run that saves its manifest leaves behind, also if messages failed. The
files it generated are up to date, and its manifest has entries for these files and for those of the
messages that failed, as far as there were any.
-/

namespace ValueGen

/--
Every task runs exactly once, however many there are.
-/
def Timing.RunsAll (timing : Timing) : Prop :=
  ∀ n, (timing.generation n).Covers n ∧ (timing.writing n).Covers n

theorem Timing.inOrder_runsAll (canceled : Bool) : (Timing.inOrder canceled).RunsAll := by
  intro n
  exact ⟨Schedule.inOrder_covers n canceled, Schedule.inOrder_covers n canceled⟩

namespace Writer

variable {o : Options} {s : Settings} {schema : Schema} {batch : Batch} {timing : Timing}
  {previous : Manifest} {p q r t : Progress} {directory : Place} {before after : Disk}
  {table : FileTable} {f : GeneratedFile} {name hash : Text}

/-! The files of messages that failed. -/

/--
The name is the file name of a message that failed.
-/
def IsFailedFile (schema : Schema) (failed : List Text) (name : Text) : Prop :=
  ∃ m ∈ schema.messages, m.name ∈ failed ∧ m.fileName = name

instance (schema : Schema) (failed : List Text) (name : Text) :
    Decidable (IsFailedFile schema failed name) :=
  inferInstanceAs (Decidable (∃ m ∈ schema.messages, m.name ∈ failed ∧ m.fileName = name))

theorem isFailedFile_cons (schema : Schema) (first : Text) (failed : List Text) (name : Text) :
    IsFailedFile schema (first :: failed) name
      ↔ IsFailedFile schema failed name ∨ IsFailedFile schema [first] name := by
  unfold IsFailedFile
  simp only [List.mem_cons, List.not_mem_nil, or_false]
  constructor
  . rintro ⟨m, hm, hname | hname, hfile⟩
    . exact .inr ⟨m, hm, hname, hfile⟩
    . exact .inl ⟨m, hm, hname, hfile⟩
  . rintro (⟨m, hm, hname, hfile⟩ | ⟨m, hm, hname, hfile⟩)
    . exact ⟨m, hm, .inr hname, hfile⟩
    . exact ⟨m, hm, .inl hname, hfile⟩

-- Messages of one name have one file, so it does not matter which of them is found.
theorem isFailedFile_singleton (schema : Schema) (first name : Text) :
    IsFailedFile schema [first] name
      ↔ ∃ m, schema.message? first = some m ∧ m.fileName = name := by
  unfold IsFailedFile Schema.message?
  constructor
  . rintro ⟨m, hm, hname, hfile⟩
    rw [List.mem_singleton] at hname
    obtain ⟨found, hfound⟩ : ∃ found, schema.messages.find? (·.name == first) = some found := by
      rw [← Option.isSome_iff_exists, List.find?_isSome]
      exact ⟨m, hm, by simpa using hname⟩
    have hsame : found.name = m.name := by
      rw [hname]
      simpa using List.find?_some hfound
    refine ⟨found, hfound, ?_⟩
    rw [← hfile]
    unfold Message.fileName
    rw [hsame]
  . rintro ⟨m, hfound, hfile⟩
    refine ⟨m, List.mem_of_find?_eq_some hfound, ?_, hfile⟩
    simpa using List.find?_some hfound

/--
The entry that the manifest before has for the file of a message that failed.
-/
def keptHash? (schema : Schema) (previous : Manifest) (failed : List Text) (name : Text) :
    Option Text :=
  if IsFailedFile schema failed name then previous.files.get? name else none

theorem get?_keep (schema : Schema) (previous : Manifest) (files : FileTable) (first name : Text) :
    (keepFailed.keep schema previous files first).get? name
      = (keptHash? schema previous [first] name).or (files.get? name) := by
  unfold keepFailed.keep keptHash?
  by_cases hfailed : IsFailedFile schema [first] name
  . obtain ⟨m, hfound, rfl⟩ := (isFailedFile_singleton schema first name).1 hfailed
    rw [if_pos hfailed, hfound]
    dsimp only
    split
    . next hget => rw [hget, Option.none_or]
    . next hash hget => rw [hget, FileTable.get?_insert, if_pos rfl, Option.some_or]
  . rw [if_neg hfailed, Option.none_or]
    split
    . rfl
    . next m hfound =>
      split
      . rfl
      . rw [FileTable.get?_insert, if_neg]
        intro hfile
        exact hfailed ((isFailedFile_singleton schema first name).2 ⟨m, hfound, hfile.symm⟩)

-- Of two entries for one file, the one that is kept counts.
theorem get?_keepFailed (schema : Schema) (previous : Manifest) (failed : List Text)
    (files : FileTable) (name : Text) :
    (keepFailed schema previous failed files).get? name
      = (keptHash? schema previous failed name).or (files.get? name) := by
  unfold keepFailed
  induction failed generalizing files with
  | nil => simp [keptHash?, IsFailedFile]
  | cons first failed ih =>
    have hcons := isFailedFile_cons schema first failed name
    rw [List.foldl_cons, ih, get?_keep, ← Option.or_assoc]
    unfold keptHash?
    by_cases hfailed : IsFailedFile schema failed name
    . by_cases hfirst : IsFailedFile schema [first] name
      . simp [hcons, hfailed, hfirst]
      . simp [hcons, hfailed, hfirst]
    . simp [hcons, hfailed]

/-! What is on the disk at the end. -/

/--
The run has saved a table of files. The generated files are up to date, and the table has an entry
for each of them and for the files that are kept. Stale files are gone, and all else is as before.
-/
structure Concludes (o : Options) (schema : Schema) (batch : Batch) (directory : Place)
    (previous : Manifest) (before after : Disk) (table : FileTable) : Prop where
  leadsTo : after.LeadsTo o.target directory
  noLinks : after.HasNoLinks directory
  generated : ∀ f ∈ batch.files, ∃ hash, IsUpToDate o directory after f hash
    ∧ table.get? f.name = (keptHash? schema previous batch.failedNames f.name).or (some hash)
  kept : ∀ name, (∀ f ∈ batch.files, name ≠ f.name)
    → table.get? name = keptHash? schema previous batch.failedNames name
  canReach : Disk.CanReach o.target Manifest.fileName
  manifest : after.node? (directory ++ [Manifest.fileName])
    = some (.file (Manifest.encode ⟨Manifest.currentVersion, o.package, table⟩))
  stale : ∀ name ∈ staleNames table previous.files.names, after.node? (directory ++ [name]) = none
  others : ∀ place, place ≠ directory ++ [Manifest.fileName]
    → (∀ f ∈ batch.files, place ≠ directory ++ [f.name] ∧ place ≠ directory ++ [rejectName f.name])
    → (∀ name ∈ staleNames table previous.files.names, place ≠ directory ++ [name])
    → after.node? place = before.node? place

-- The manifest could be saved, so there is a way to the target directory at the end, and hence
-- there was one all the time.
theorem Saves.exists_leadsTo (h : Saves o schema batch timing previous p r q)
    (htarget : o.target ≠ []) :
    Disk.CanFollow (manifestPath o) ∧ ∃ directory, r.disk.LeadsTo o.target directory
      ∧ p.disk.LeadsTo o.target directory := by
  obtain ⟨hfollow, directory, hleads⟩ :=
    Disk.exists_leadsTo_of_write htarget Manifest.isPlain_fileName h.saved
  have hwritten : (attempt o batch timing previous p).progress.disk.Keeps p.disk := by
    apply Writing.foldl_turn_keeps
  exact ⟨hfollow, directory, hleads, ((removeStale_keeps h.removed).trans hwritten).leadsTo hleads⟩

theorem get?_recordedBy (o : Options) (schema : Schema) (batch : Batch) (timing : Timing)
    (previous : Manifest) (p : Progress) (name : Text) :
    (recordedBy o schema batch timing previous p).get? name
      = (keptHash? schema previous batch.failedNames name).or
          ((attempt o batch timing previous p).recorded.get? name) :=
  get?_keepFailed schema previous batch.failedNames _ name

theorem IsUpToDate.of_node?_eq (h : IsUpToDate o directory before f hash)
    (hsame : after.node? (directory ++ [f.name]) = before.node? (directory ++ [f.name])) :
    IsUpToDate o directory after f hash := by
  obtain ⟨content, held, hcontent, hreach, hnode, hdigests⟩ := h
  exact ⟨content, held, hcontent, hreach, hsame.trans hnode, hdigests⟩

theorem IsUpToDate.of_addsDirectories (h : IsUpToDate o directory before f hash)
    (hadds : before.AddsDirectories after) : IsUpToDate o directory after f hash := by
  obtain ⟨content, held, hcontent, hreach, hnode, hdigests⟩ := h
  exact ⟨content, held, hcontent, hreach, (hadds.node?_eq_file_iff _ _).2 hnode, hdigests⟩

/--
The steps of a run that saves a table of files: the tasks leave their outputs, the stale files are
cleared away, and the manifest is put at its place.
-/
structure SavesBy (o : Options) (files : List GeneratedFile) (directory : Place)
    (previous : Manifest) (before : Disk) (w : Writing) (cleared after : Disk) (table : FileTable) :
    Prop where
  tracks : w.Tracks o files directory before
  clears : Disk.IsCleared directory (staleNames table previous.files.names) w.progress.disk cleared
  leadsTo : after.LeadsTo o.target directory
  canReach : Disk.CanReach o.target Manifest.fileName
  free : cleared.node? (directory ++ [Manifest.fileName]) ≠ some .directory
  manifest : ∀ place, after.node? place = if place = directory ++ [Manifest.fileName] then
    some (.file (Manifest.encode ⟨Manifest.currentVersion, o.package, table⟩))
    else cleared.node? place

theorem Saves.savesBy (h : Saves o schema batch timing previous p r q) (htarget : o.target ≠ [])
    (hown : ∀ f ∈ batch.files, isOwnName f.name = true)
    (hlinks : p.disk.HasNoLinks directory) (hleads : p.disk.LeadsTo o.target directory) :
    SavesBy o batch.files directory previous p.disk (attempt o batch timing previous p) r.disk
      q.disk (recordedBy o schema batch timing previous p) := by
  have htracks : (attempt o batch timing previous p).Tracks o batch.files directory p.disk :=
    Writing.run_tracks _ htarget hown hlinks hleads
  have hrleads : r.disk.LeadsTo o.target directory := by
    obtain ⟨-, other, hother, hpleads⟩ := h.exists_leadsTo htarget
    exact hleads.unique hpleads ▸ hother
  have hcleared := removeStale_isCleared htarget h.removed hrleads
  have hentry : r.disk.IsEntry o.target directory Manifest.fileName :=
    ⟨htarget, hrleads, Manifest.isPlain_fileName,
      hcleared.hasNoLinks (htracks.hasNoLinks hlinks) Manifest.fileName⟩
  obtain ⟨hreach, hfree, hput⟩ := hentry.write_join h.saved
  refine ⟨htracks, hcleared, hentry.leadsTo_of_write h.saved, hreach, hfree, ?_⟩
  intro place
  rw [hput, Disk.node?_put r.disk (by simp)]

-- Directories are never written over, but one that is empty may be cleared away like a stale file.
theorem SavesBy.node?_cases {files : List GeneratedFile} {w : Writing} {cleared : Disk}
    (h : SavesBy o files directory previous before w cleared after table) (place : Place) :
    after.node? place = before.node? place ∨ after.node? place = none
      ∨ (before.isDirectory place = false
        ∧ ∃ content, after.node? place = some (.file content)) := by
  have hdirectory (hbefore : before.isDirectory place = true) :
      w.progress.disk.node? place = some .directory :=
    (Disk.isDirectory_iff _ _).1 (h.tracks.keeps.isDirectory hbefore)
  rw [h.manifest]
  split
  . next hplace =>
    right; right
    refine ⟨Bool.eq_false_iff.2 fun hbefore => h.free ?_, _, rfl⟩
    rw [← hplace, h.clears.unchanged place]
    . exact hdirectory hbefore
    . rintro name hname rfl
      have heq : name = Manifest.fileName := by simpa using hplace
      exact ne_fileName_of_isOwnName (mem_staleNames_iff.1 hname).2.2 heq
  . rcases h.clears.node?_cases place with hnone | hsame
    . exact .inr (.inl hnone)
    . rw [hsame]
      rcases h.tracks.places place with hsame | ⟨content, hnode, -⟩
      . exact .inl hsame
      . right; right
        refine ⟨Bool.eq_false_iff.2 fun hbefore => ?_, content, hnode⟩
        rw [hdirectory hbefore] at hnode
        cases hnode

theorem Saves.concludes (h : Saves o schema batch timing previous p r q) (htarget : o.target ≠ [])
    (hown : ∀ f ∈ batch.files, isOwnName f.name = true)
    (hnodup : (batch.files.map GeneratedFile.name).Nodup)
    (hcovers : (timing.writing batch.files.length).Covers batch.files.length)
    (hlinks : p.disk.HasNoLinks directory) (hleads : p.disk.LeadsTo o.target directory) :
    Concludes o schema batch directory previous p.disk q.disk
      (recordedBy o schema batch timing previous p) := by
  have hsteps := h.savesBy htarget hown hlinks hleads
  have hrlinks := hsteps.clears.hasNoLinks (hsteps.tracks.hasNoLinks hlinks)
  refine ⟨hsteps.leadsTo, ?_, ?_, ?_, hsteps.canReach, ?_, ?_, ?_⟩
  . intro name target
    rw [hsteps.manifest]
    split
    . simp
    . exact hrlinks name target
  . intro f hf
    obtain ⟨hash, hrecorded, hupToDate⟩ := hsteps.tracks.exists_recorded hnodup hf
      (Writing.run_records hf hcovers h.written)
    have hget := get?_recordedBy o schema batch timing previous p f.name
    rw [hrecorded] at hget
    refine ⟨hash, hupToDate.of_node?_eq ?_, hget⟩
    rw [hsteps.manifest, if_neg (by simpa using ne_fileName_of_isOwnName (hown f hf)),
      hsteps.clears.unchanged]
    intro name hstale hplace
    have heq : f.name = name := by simpa using hplace
    rw [mem_staleNames_iff, ← heq, hget] at hstale
    simp at hstale
  . intro name hname
    rw [get?_recordedBy, hsteps.tracks.recorded_eq_none hname, Option.or_none]
  . rw [hsteps.manifest, if_pos rfl]
  . intro name hstale
    have hname := (mem_staleNames_iff.1 hstale).2.2
    rw [hsteps.manifest, if_neg (by simpa using ne_fileName_of_isOwnName hname)]
    exact hsteps.clears.absent name hstale
  . intro place hplace hfiles hstale
    rw [hsteps.manifest, if_neg hplace, hsteps.clears.unchanged place hstale]
    rcases hsteps.tracks.places place with hsame | ⟨content, -, houtput⟩
    . exact hsame
    . cases houtput with
      | final hf _ => exact absurd rfl (hfiles _ hf).1
      | rejected hf _ => exact absurd rfl (hfiles _ hf).2

/-! The manifest that is left. -/

theorem keptHash?_eq_some_iff {failed : List Text} :
    keptHash? schema previous failed name = some hash
      ↔ IsFailedFile schema failed name ∧ previous.files.get? name = some hash := by
  unfold keptHash?
  split
  . next hfailed => simp [hfailed]
  . next hfailed => simp [hfailed]

theorem Concludes.cases_of_get? (h : Concludes o schema batch directory previous before after table)
    (hget : table.get? name = some hash) :
    keptHash? schema previous batch.failedNames name = some hash
      ∨ ∃ f ∈ batch.files, f.name = name ∧ IsUpToDate o directory after f hash := by
  by_cases hname : ∃ f ∈ batch.files, f.name = name
  . obtain ⟨f, hf, rfl⟩ := hname
    obtain ⟨fresh, hupToDate, htable⟩ := h.generated f hf
    rw [htable, Option.or_eq_some_iff] at hget
    rcases hget with hkept | ⟨-, hfresh⟩
    . exact .inl hkept
    . cases hfresh
      exact .inr ⟨f, hf, rfl, hupToDate⟩
  . left
    rw [← h.kept name fun f hf heq => hname ⟨f, hf, heq.symm⟩]
    exact hget

-- The names of the table are those of the generated files and of the files that are kept.
theorem Concludes.isSome_get?_iff
    (h : Concludes o schema batch directory previous before after table) (name : Text) :
    (table.get? name).isSome = true
      ↔ (∃ f ∈ batch.files, f.name = name)
        ∨ (IsFailedFile schema batch.failedNames name
          ∧ (previous.files.get? name).isSome = true) := by
  constructor
  . intro hsome
    obtain ⟨hash, hget⟩ := Option.isSome_iff_exists.1 hsome
    rcases h.cases_of_get? hget with hkept | ⟨f, hf, hname, -⟩
    . obtain ⟨hfailed, hprevious⟩ := keptHash?_eq_some_iff.1 hkept
      exact .inr ⟨hfailed, Option.isSome_of_eq_some hprevious⟩
    . exact .inl ⟨f, hf, hname⟩
  . intro hname
    by_cases hnew : ∃ f ∈ batch.files, f.name = name
    . obtain ⟨f, hf, rfl⟩ := hnew
      obtain ⟨hash, -, htable⟩ := h.generated f hf
      rw [htable, Option.isSome_or]
      simp
    . obtain ⟨hfailed, hsome⟩ := hname.resolve_left hnew
      obtain ⟨hash, hprevious⟩ := Option.isSome_iff_exists.1 hsome
      rw [h.kept name fun f hf heq => hnew ⟨f, hf, heq.symm⟩,
        keptHash?_eq_some_iff.2 ⟨hfailed, hprevious⟩]
      rfl

theorem isShort_of_previousManifest (hmanifest : o.manifest = true)
    (h : previousManifest o p = .ok (previous, q)) : previous.files.IsShort := by
  obtain ⟨-, ⟨text, -, htext⟩ | ⟨hempty, -⟩⟩ := previousManifest_cases hmanifest h
  . exact Manifest.isShort_of_ofText? htext
  . rw [hempty]
    exact FileTable.isShort_empty

-- Entries that are kept were read from a manifest, so they can be written to one.
theorem Concludes.fits
    (h : Concludes s.toOptions schema batch directory previous before after table)
    (hbatch : batch.IsSequential schema s) (hshort : previous.files.IsShort)
    (hpackage : s.package.length < Word.span 4) (hsize : schema.messages.length < Word.span 4) :
    Manifest.Fits s.package table.entries := by
  have hentry : ∀ e ∈ table.entries, e.1 ∈ schema.messages.map Message.fileName
      ∧ e.1.length < Word.span 4 ∧ e.2.length < Word.span 4 := by
    intro e he
    rcases h.cases_of_get? (table.get?_of_mem he) with hkept | ⟨f, hf, hname, hupToDate⟩
    . obtain ⟨⟨m, hm, -, hfile⟩, hprevious⟩ := keptHash?_eq_some_iff.1 hkept
      refine ⟨?_, hshort _ _ hprevious⟩
      rw [← hfile]
      exact List.mem_map_of_mem hm
    . obtain ⟨content, held, -, hreach, -, -, hheld⟩ := hupToDate
      obtain ⟨m, hm, printed, -, rfl⟩ := hbatch.exists_of_mem_files hf
      have hfault := hreach.name
      unfold Disk.nameFault? Disk.longestName at hfault
      rw [← hname, ← hheld, length_digest, Packed.span_four]
      refine ⟨List.mem_map_of_mem hm, ?_, by omega⟩
      split at hfault
      . cases hfault
      . omega
  refine ⟨hpackage, ?_, fun e he => (hentry e he).2.1, fun e he => (hentry e he).2.2⟩
  have hsubset : table.names ⊆ schema.messages.map Message.fileName := by
    intro name hname
    obtain ⟨e, he, rfl⟩ := List.mem_map.1 hname
    exact (hentry e he).1
  have hle := (table.names_nodup.subperm hsubset).length_le
  unfold FileTable.names at hle
  rw [List.length_map, List.length_map] at hle
  omega

theorem Concludes.holdsManifest (h : Concludes o schema batch directory previous before after table)
    (hfits : Manifest.Fits o.package table.entries) :
    after.HoldsManifest directory ⟨Manifest.currentVersion, o.package, table⟩ :=
  ⟨_, h.manifest, Manifest.ofText?_encode hfits⟩

/-! A run that saves its manifest. -/

theorem addsDirectories_madeDisk (s : Settings) (d : Disk) : d.AddsDirectories (madeDisk s d) :=
  Disk.makeDirectories_addsDirectories d s.target

theorem isOpen_madeDisk (hlinks : p.disk.IsLinkFree)
    (hmade : (p.disk.makeDirectories s.target).2 = none) :
    Disk.CanFollow s.target ∧ (madeDisk s p.disk).IsOpen [] (Path.pieces s.target) :=
  Disk.isOpen_of_makeDirectories hlinks (Prod.ext rfl hmade)

theorem isOwnName_of_isValid (hbatch : batch.IsSequential schema s)
    (hnames : ∀ m ∈ schema.messages, Identifier.isValid m.name = true) :
    ∀ f ∈ batch.files, isOwnName f.name = true := by
  intro f hf
  obtain ⟨m, hm, printed, -, rfl⟩ := hbatch.exists_of_mem_files hf
  exact Message.isOwnName_fileName (hnames m hm)

theorem Completes.exists_directory (h : Completes s schema timing p batch q)
    (hmanifest : s.manifest = true) :
    ∃ directory, targetPlace s p.disk = .ok directory
      ∧ (madeDisk s p.disk).LeadsTo s.target directory := by
  obtain ⟨htarget, previous, r, t, hprevious, hsaves⟩ := h.saves hmanifest
  obtain ⟨hfollow, directory, -, hleads⟩ := hsaves.exists_leadsTo htarget
  rw [(previousManifest_cases hmanifest hprevious).1] at hleads
  exact ⟨directory, hleads.locate_clean htarget Manifest.isPlain_fileName hfollow, hleads⟩

theorem Completes.concludes (h : Completes s schema timing p batch q)
    (hmanifest : s.manifest = true) (hall : timing.RunsAll)
    (hown : ∀ f ∈ batch.files, isOwnName f.name = true)
    (hlinks : p.disk.HasNoLinks directory)
    (hleads : (madeDisk s p.disk).LeadsTo s.target directory)
    (hpackage : s.package.length < Word.span 4) (hsize : schema.messages.length < Word.span 4) :
    ∃ previous table,
      (∀ name, previous.files.get? name = p.disk.recorded? directory name)
        ∧ q.disk.HoldsManifest directory ⟨Manifest.currentVersion, s.package, table⟩
        ∧ Concludes s.toOptions schema batch directory previous (madeDisk s p.disk) q.disk
            table := by
  have hmade := addsDirectories_madeDisk s p.disk
  have hnoLinks := hmade.hasNoLinks hlinks
  have hbatch := isSequential_of_generateSchema_ok (hall _).1 h.1
  obtain ⟨htarget, previous, r, t, hprevious, hsaves⟩ := h.saves hmanifest
  have hdisk : r.disk = madeDisk s p.disk := (previousManifest_cases hmanifest hprevious).1
  have hconcludes := hsaves.concludes htarget hown hbatch.nodup_files (hall _).2
    (hdisk ▸ hnoLinks) (hdisk ▸ hleads)
  rw [hdisk] at hconcludes
  refine ⟨previous, _, ?_, hconcludes.holdsManifest (hconcludes.fits hbatch
    (isShort_of_previousManifest hmanifest hprevious) hpackage hsize), hconcludes⟩
  intro name
  rw [← hmade.recorded?_eq]
  exact get?_of_previousManifest hmanifest
    ⟨htarget, hleads, Manifest.isPlain_fileName, hnoLinks Manifest.fileName⟩ hconcludes.canReach
    hprevious name

end Writer

end ValueGen
