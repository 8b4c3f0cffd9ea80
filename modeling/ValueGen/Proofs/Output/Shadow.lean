import ValueGen.Proofs.Output.Saving

/-!
This module contains which of the generated files the manifest of a run is right about. If a message
that failed has the file of one that did not, the entry that the manifest before had for the file
takes the place of the new one. The next run writes such a file again.
-/

namespace ValueGen

namespace Writer

variable {o : Options} {s : Settings} {schema : Schema} {batch : Batch} {timing : Timing}
  {previous : Manifest} {p q : Progress} {directory : Place} {before after : Disk}
  {table : FileTable} {f : GeneratedFile} {name hash : Text}

/--
A message that failed has this file, and the manifest before has another digest for it.
-/
def IsShadowed (schema : Schema) (batch : Batch) (d : Disk) (directory : Place)
    (name hash : Text) : Prop :=
  IsFailedFile schema batch.failedNames name
    ∧ ∃ old, d.recorded? directory name = some old ∧ old ≠ hash

theorem or_eq_some_iff_not_isShadowed {d : Disk}
    (hprevious : previous.files.get? name = d.recorded? directory name) :
    (keptHash? schema previous batch.failedNames name).or (some hash) = some hash
      ↔ ¬ IsShadowed schema batch d directory name hash := by
  cases hkept : keptHash? schema previous batch.failedNames name with
  | none =>
    simp only [Option.none_or, true_iff]
    rintro ⟨hfailed, old, hold, -⟩
    rw [← hprevious] at hold
    rw [keptHash?_eq_some_iff.2 ⟨hfailed, hold⟩] at hkept
    cases hkept
  | some old =>
    obtain ⟨hfailed, hold⟩ := keptHash?_eq_some_iff.1 hkept
    rw [hprevious] at hold
    simp only [Option.some_or, Option.some.injEq]
    constructor
    . rintro rfl ⟨-, other, hother, hne⟩
      rw [hold] at hother
      cases hother
      exact hne rfl
    . intro hshadowed
      by_contra hne
      exact hshadowed ⟨hfailed, old, hold, hne⟩

/--
In a run with these settings that starts from the disk, the task of the file leaves it as it is,
whichever tasks have run before it.
-/
def SkipsNext (s : Settings) (files : List GeneratedFile) (d : Disk) (f : GeneratedFile) : Prop :=
  ∀ (p r : Progress) (previous : Manifest) (schedule : Schedule), p.disk = d
    → previousManifest s.toOptions { p with disk := madeDisk s p.disk } = .ok (previous, r)
    → ∃ hash, writeFile s.toOptions previous f
          (Writing.run s.toOptions previous files schedule r).progress
        = ((Writing.run s.toOptions previous files schedule r).progress.skip f.name, .ok hash)

theorem writeFile_of_isUpToDate (hmanifest : o.manifest = true)
    (hentry : p.disk.IsEntry o.target directory f.name)
    (hupToDate : IsUpToDate o directory p.disk f hash)
    (hprevious : previous.files.get? f.name = some hash) :
    writeFile o previous f p = (p.skip f.name, .ok hash) := by
  obtain ⟨content, held, hcontent, hreach, hnode, rfl, hheld⟩ := hupToDate
  have hsame : hasDigest p.disk (Path.join o.target f.name) (digest content) = true := by
    unfold hasDigest
    rw [hentry.read_join_of_node hreach hnode]
    simpa using hheld
  unfold writeFile Manifest.isUnchanged
  rw [hcontent]
  dsimp only
  rw [if_pos (by simp [hmanifest, hprevious, hsame])]

-- A file with another digest in the manifest is written again, even if it is up to date.
theorem writeFile_ne_skip (hcontent : ∀ content, finalContent? o f = some content
      → previous.files.get? f.name ≠ some (digest content)) :
    writeFile o previous f p ≠ (p.skip f.name, .ok hash) := by
  intro h
  unfold writeFile Manifest.isUnchanged at h
  dsimp only at h
  split at h
  . split at h
    all_goals exact absurd (congrArg Prod.snd h) (by simp)
  . next content hfinal =>
    rw [if_neg (by simp [hcontent content hfinal])] at h
    split at h
    . have hskipped := congrArg (fun result => result.1.metrics.skipped) h
      simp [Progress.skip, Progress.wrote, Progress.report] at hskipped
    . exact absurd (congrArg Prod.snd h) (by simp)

theorem previousManifest_of_holdsManifest {m : Manifest} (hmanifest : o.manifest = true)
    (hentry : p.disk.IsEntry o.target directory Manifest.fileName)
    (hreach : Disk.CanReach o.target Manifest.fileName)
    (h : p.disk.HoldsManifest directory m) : previousManifest o p = .ok (m, p) := by
  obtain ⟨text, hnode, htext⟩ := h
  unfold previousManifest Manifest.load manifestPath
  rw [hmanifest, hentry.read_join_of_node hreach hnode]
  simp [htext]

namespace Concludes

variable (h : Concludes s.toOptions schema batch directory previous before after table)

include h

theorem made_isEntry (htarget : s.target ≠ []) (hname : Path.IsPlain name) :
    (madeDisk s after).IsEntry s.target directory name := by
  have hmade := addsDirectories_madeDisk s after
  exact ⟨htarget, hmade.keeps.leadsTo h.leadsTo, hname, hmade.hasNoLinks h.noLinks name⟩

theorem previousManifest_made (hmanifest : s.manifest = true) (htarget : s.target ≠ [])
    (hholds : after.HoldsManifest directory ⟨Manifest.currentVersion, s.package, table⟩)
    (hdisk : p.disk = after) :
    previousManifest s.toOptions { p with disk := madeDisk s p.disk }
      = .ok (⟨Manifest.currentVersion, s.package, table⟩,
        { p with disk := madeDisk s p.disk }) := by
  subst hdisk
  have hentry := h.made_isEntry htarget Manifest.isPlain_fileName
  apply previousManifest_of_holdsManifest hmanifest hentry h.canReach
  obtain ⟨text, hnode, htext⟩ := hholds
  exact ⟨text, ((addsDirectories_madeDisk s p.disk).node?_eq_file_iff _ _).2 hnode, htext⟩

-- The manifest can be read again, and the task of the file may be the first one to run.
theorem get?_of_skipsNext (hmanifest : s.manifest = true) (htarget : s.target ≠ [])
    (hholds : after.HoldsManifest directory ⟨Manifest.currentVersion, s.package, table⟩)
    (hupToDate : IsUpToDate s.toOptions directory after f hash)
    (hskips : SkipsNext s batch.files after f) : table.get? f.name = some hash := by
  have hload := h.previousManifest_made (p := ⟨after, .zero, []⟩) hmanifest htarget hholds rfl
  obtain ⟨_, hskip⟩ := hskips ⟨after, .zero, []⟩ _ _ [] rfl hload
  by_contra hne
  refine writeFile_ne_skip ?_ hskip
  intro content hcontent
  obtain ⟨other, -, hother, -, -, rfl, -⟩ := hupToDate
  rw [hcontent] at hother
  cases hother
  exact hne

-- The file stays up to date while the tasks of the next run take their turns.
theorem skipsNext_of_get? (hmanifest : s.manifest = true) (htarget : s.target ≠ [])
    (hholds : after.HoldsManifest directory ⟨Manifest.currentVersion, s.package, table⟩)
    (hown : ∀ f ∈ batch.files, isOwnName f.name = true)
    (hnodup : (batch.files.map GeneratedFile.name).Nodup) (hf : f ∈ batch.files)
    (hupToDate : IsUpToDate s.toOptions directory after f hash)
    (hget : table.get? f.name = some hash) : SkipsNext s batch.files after f := by
  rintro p r next schedule rfl hnext
  have hmade := addsDirectories_madeDisk s p.disk
  have hdisk : r.disk = madeDisk s p.disk := (previousManifest_cases hmanifest hnext).1
  have hlinks : r.disk.HasNoLinks directory := hdisk ▸ hmade.hasNoLinks h.noLinks
  have hleads : r.disk.LeadsTo s.target directory := hdisk ▸ hmade.keeps.leadsTo h.leadsTo
  have htracks : (Writing.run s.toOptions next batch.files schedule r).Tracks s.toOptions
      batch.files directory r.disk :=
    Writing.run_tracks schedule htarget hown hlinks hleads
  have hstart : IsUpToDate s.toOptions directory r.disk f hash :=
    hdisk ▸ hupToDate.of_addsDirectories hmade
  have hnow := htracks.isUpToDate (hown f hf)
    (fun g hg hname => List.inj_on_of_nodup_map hnodup hg hf hname) hstart
  have hentry : (Writing.run s.toOptions next batch.files schedule r).progress.disk.IsEntry
      s.target directory f.name :=
    ⟨htarget, htracks.keeps.leadsTo hleads, isPlain_of_isOwnName (hown f hf),
      htracks.hasNoLinks hlinks f.name⟩
  refine ⟨hash, writeFile_of_isUpToDate hmanifest hentry hnow ?_⟩
  rw [get?_of_previousManifest hmanifest (h.made_isEntry htarget Manifest.isPlain_fileName)
    h.canReach hnext, hmade.recorded?_eq, hholds.recorded?_eq]
  exact hget

end Concludes

theorem Completes.recorded?_of_mem_files (h : Completes s schema timing p batch q)
    (hmanifest : s.manifest = true)
    (hnames : ∀ m ∈ schema.messages, Identifier.isValid m.name = true)
    (hpackage : s.package.length < Word.span 4) (hsize : schema.messages.length < Word.span 4)
    (hall : timing.RunsAll) (hlinks : p.disk.HasNoLinks directory)
    (hleads : (madeDisk s p.disk).LeadsTo s.target directory) (hf : f ∈ batch.files) :
    ∃ held, q.disk.read (Path.join s.target f.name) = .ok held
      ∧ (q.disk.recorded? directory f.name = some (digest held)
        ↔ ¬ IsShadowed schema batch p.disk directory f.name (digest held))
      ∧ (SkipsNext s batch.files q.disk f
        ↔ ¬ IsShadowed schema batch p.disk directory f.name (digest held)) := by
  have htarget := (h.saves hmanifest).1
  have hbatch := isSequential_of_generateSchema_ok (hall _).1 h.1
  have hown := isOwnName_of_isValid hbatch hnames
  obtain ⟨previous, table, hprevious, hholds, hconcludes⟩ :=
    h.concludes hmanifest hall hown hlinks hleads hpackage hsize
  obtain ⟨hash, hupToDate, htable⟩ := hconcludes.generated f hf
  have hskips : SkipsNext s batch.files q.disk f ↔ table.get? f.name = some hash :=
    ⟨hconcludes.get?_of_skipsNext hmanifest htarget hholds hupToDate,
      hconcludes.skipsNext_of_get? hmanifest htarget hholds hown hbatch.nodup_files hf hupToDate⟩
  obtain ⟨content, held, -, hreach, hnode, -, rfl⟩ := hupToDate
  have hentry : q.disk.IsEntry s.target directory f.name :=
    ⟨htarget, hconcludes.leadsTo, isPlain_of_isOwnName (hown f hf), hconcludes.noLinks f.name⟩
  refine ⟨held, hentry.read_join_of_node hreach hnode, ?_, ?_⟩
  . rw [hholds.recorded?_eq, htable]
    exact or_eq_some_iff_not_isShadowed (hprevious f.name)
  . rw [hskips, htable]
    exact or_eq_some_iff_not_isShadowed (hprevious f.name)

/--
After a run that saves its manifest, the entry of a generated file is the digest of what the file
holds exactly if it is not shadowed by the entry that the manifest before had for it. These are also
the files that the next run with the schema and the settings leaves as they are. The packed form has
four bytes for a size, so only a package and a number of messages within them can be read again.
-/
theorem recorded?_eq_digest_iff (s : Settings) (schema : Schema) (timing : Timing)
    (p q : Progress) (batch : Batch) (hmanifest : s.manifest = true)
    (hnames : ∀ m ∈ schema.messages, Identifier.isValid m.name = true)
    (hpackage : s.package.length < Word.span 4) (hsize : schema.messages.length < Word.span 4)
    (hall : timing.RunsAll)
    (hlinks : ∀ directory, targetPlace s p.disk = .ok directory → p.disk.HasNoLinks directory)
    (h : Completes s schema timing p batch q) :
    ∃ directory, targetPlace s p.disk = .ok directory ∧ ∀ f ∈ batch.files, ∃ held,
      q.disk.read (Path.join s.target f.name) = .ok held
        ∧ (q.disk.recorded? directory f.name = some (digest held)
          ↔ ¬ IsShadowed schema batch p.disk directory f.name (digest held))
        ∧ (SkipsNext s batch.files q.disk f
          ↔ ¬ IsShadowed schema batch p.disk directory f.name (digest held)) := by
  obtain ⟨directory, hplace, hleads⟩ := h.exists_directory hmanifest
  refine ⟨directory, hplace, ?_⟩
  intro f hf
  exact h.recorded?_of_mem_files hmanifest hnames hpackage hsize hall (hlinks directory hplace)
    hleads hf

/--
An emitter that prints the name of a message and nothing else.
-/
def nameEmitter : Emitter := ⟨"name", fun m _ => .ok (.verbatim m.name)⟩

def nameSettings : Settings := { shapeSettings with format := false, emitter := some nameEmitter }

/--
The second message fails, since its file would be the one of the first message.
-/
def collidingSchema : Schema := ⟨[], [⟨"UserID", []⟩, ⟨"UserId", []⟩]⟩

/--
The manifest before has an entry for the file of both messages.
-/
def collidingStart : Progress where
  disk := ⟨[
    (["out"], .directory),
    (["out", Manifest.fileName], .file (Manifest.encode
      ⟨1, "shapes", .ofList [("user_id.protoval.go", "0")]⟩))]⟩
  metrics := .zero
  log := []

theorem collidingStart_hasNoLinks (directory : Place) :
    collidingStart.disk.HasNoLinks directory := by
  apply Disk.hasNoLinks_of_entries
  simp [collidingStart]

theorem isValid_of_mem_collidingSchema :
    ∀ m ∈ collidingSchema.messages, Identifier.isValid m.name = true := by
  decide +kernel

/--
The names of the files and of the failed messages, if there is a batch.
-/
def namesOf? : Except Failure Batch → Option (List Text × List Text)
  | .ok batch => some (batch.files.map GeneratedFile.name, batch.failedNames)
  | .error _ => none

theorem exists_completes_colliding : ∃ batch, Completes nameSettings collidingSchema
      (.inOrder false) collidingStart batch
      (write (some nameSettings) collidingSchema (.inOrder false) collidingStart).1
    ∧ batch.files.map GeneratedFile.name = ["user_id.protoval.go"]
    ∧ batch.failedNames = ["UserId"] := by
  obtain ⟨batch, hcompletes⟩ := completes_of_isSingle rfl (by decide +kernel)
    (Prod.eta (write (some nameSettings) collidingSchema (.inOrder false) collidingStart)).symm
    (by decide +kernel)
  have hnames : namesOf? (generateSchema collidingSchema nameSettings (.inOrder 2 false))
      = some ([("user_id.protoval.go" : Text)], [("UserId" : Text)]) := by
    decide +kernel
  have hbatch : generateSchema collidingSchema nameSettings (.inOrder 2 false) = .ok batch :=
    hcompletes.1
  rw [hbatch, namesOf?, Option.some.injEq, Prod.mk.injEq] at hnames
  exact ⟨batch, hcompletes, hnames⟩

theorem recorded?_eq_digest_iff_colliding :
    ∃ batch q, Completes nameSettings collidingSchema (.inOrder false) collidingStart batch q
      ∧ ∃ directory, targetPlace nameSettings collidingStart.disk = .ok directory
        ∧ ∀ f ∈ batch.files, ∃ held,
          q.disk.read (Path.join nameSettings.target f.name) = .ok held
            ∧ (q.disk.recorded? directory f.name = some (digest held)
              ↔ ¬ IsShadowed collidingSchema batch collidingStart.disk directory f.name
                (digest held))
            ∧ (SkipsNext nameSettings batch.files q.disk f
              ↔ ¬ IsShadowed collidingSchema batch collidingStart.disk directory f.name
                (digest held)) := by
  obtain ⟨batch, hcompletes, -, -⟩ := exists_completes_colliding
  exact ⟨batch, _, hcompletes, recorded?_eq_digest_iff nameSettings collidingSchema
    (.inOrder false) collidingStart _ batch rfl isValid_of_mem_collidingSchema (by decide)
    (by decide) (Timing.inOrder_runsAll false)
    (fun directory _ => collidingStart_hasNoLinks directory) hcompletes⟩

/--
The entry of the file that was generated is not the digest of what it holds, and the next run writes
the file again.
-/
theorem recorded?_ne_digest_colliding :
    nameSettings.manifest = true ∧ nameSettings.fault? = none
      ∧ (∀ m ∈ collidingSchema.messages, Identifier.isValid m.name = true)
      ∧ (∀ directory, collidingStart.disk.HasNoLinks directory)
      ∧ ∃ batch q, Completes nameSettings collidingSchema (.inOrder false) collidingStart batch q
        ∧ ∃ f ∈ batch.files, ∃ held, q.disk.read (Path.join nameSettings.target f.name) = .ok held
          ∧ q.disk.recorded? ["out"] f.name ≠ some (digest held)
          ∧ ¬ SkipsNext nameSettings batch.files q.disk f := by
  obtain ⟨batch, hcompletes, hfiles, hfailed⟩ := exists_completes_colliding
  have hplace : targetPlace nameSettings collidingStart.disk = .ok ["out"] := by
    decide +kernel
  obtain ⟨directory, hdirectory, hleads⟩ := hcompletes.exists_directory rfl
  rw [hplace] at hdirectory
  cases hdirectory
  obtain ⟨f, hf, hname⟩ : ∃ f ∈ batch.files, f.name = "user_id.protoval.go" := by
    rw [← List.mem_map, hfiles]
    exact List.mem_singleton_self _
  obtain ⟨held, hread, hrecorded, hskips⟩ := hcompletes.recorded?_of_mem_files rfl
    isValid_of_mem_collidingSchema (by decide) (by decide) (Timing.inOrder_runsAll false)
    (collidingStart_hasNoLinks _) hleads hf
  have hshadowed : IsShadowed collidingSchema batch collidingStart.disk ["out"] f.name
      (digest held) := by
    rw [IsShadowed, hfailed, hname]
    refine ⟨by decide +kernel, "0", by decide +kernel, ?_⟩
    intro hdigest
    have hlength := length_digest held
    rw [← hdigest] at hlength
    exact absurd hlength (by decide)
  exact ⟨rfl, by decide +kernel, isValid_of_mem_collidingSchema, collidingStart_hasNoLinks, batch,
    _, hcompletes, f, hf, held, hread, fun heq => hrecorded.1 heq hshadowed,
    fun hskip => hskips.1 hskip hshadowed⟩

end Writer

end ValueGen
