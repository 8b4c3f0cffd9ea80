import ValueGen.Proofs.Output.Shadow

/-!
This module contains what a second run does after one that reported no failure, on a disk without
links. It finds the manifest of the first run, all files up to date and none of them stale, so it
changes nothing but the count of the files that were left as they are.
-/

namespace ValueGen

/-! Runs that are not canceled. -/

/--
The work is not canceled before a task starts.
-/
def Schedule.IsUncanceled (schedule : Schedule) : Prop := ∀ next ∈ schedule, next.2 ≠ .canceled

/--
The work is never canceled, however many tasks there are.
-/
def Timing.IsUncanceled (timing : Timing) : Prop :=
  ∀ n, (timing.generation n).IsUncanceled ∧ (timing.writing n).IsUncanceled

theorem Timing.inOrder_isUncanceled : (Timing.inOrder false).IsUncanceled := by
  have hstart (n : Nat) : (Schedule.inOrder n false).IsUncanceled := by
    intro next hnext
    obtain ⟨i, -, rfl⟩ := List.mem_map.1 hnext
    simp
  exact fun n => ⟨hstart n, hstart n⟩

section

variable {schema : Schema} {s : Settings} {b c : Batch} {schedule : Schedule}

theorem Batch.IsSequential.unique (hb : b.IsSequential schema s) (hc : c.IsSequential schema s) :
    b = c := by
  have hfiles := hb.files.trans hc.files.symm
  have hfailed := hb.failed.trans hc.failed.symm
  cases b
  cases c
  cases hfiles
  cases hfailed
  rfl

theorem Batch.IsSequential.generateSchema_eq (h : b.IsSequential schema s)
    (hvalid : s.fault? = none) (hcovers : schedule.Covers schema.messages.length)
    (hcanceled : schedule.IsUncanceled) : generateSchema schema s schedule = .ok b := by
  have hnot : ¬ WasCanceled (Claims.empty.settle schema.messages) schedule := by
    rintro ⟨i, m, hmem, -⟩
    exact hcanceled _ hmem rfl
  obtain ⟨c, hc, hsequential⟩ := generateSchema_of_not_wasCanceled hvalid hcovers hnot
  rw [hc, hsequential.unique h]

end

/-! Tasks with nothing to do. -/

namespace Writer

variable {o : Options} {s : Settings} {schema : Schema} {batch : Batch} {timing : Timing}
  {previous : Manifest} {files : List GeneratedFile} {p q r start : Progress} {directory : Place}
  {d before after : Disk} {table : FileTable} {f : GeneratedFile} {name hash : Text}

namespace Writing

variable {w : Writing} {count : Nat} {schedule : Schedule}

/--
The tasks that have run so far have done nothing but to count their files as left as they are.
-/
structure IsIdle (start : Progress) (count : Nat) (w : Writing) : Prop where
  disk : w.progress.disk = start.disk
  metrics : w.progress.metrics
    = { start.metrics with skipped := start.metrics.skipped + count }
  failure : w.failure? = none

/--
Whatever was counted and logged, the tasks of all files leave them as they are on the disk.
-/
def AllSkip (o : Options) (previous : Manifest) (files : List GeneratedFile) (d : Disk) : Prop :=
  ∀ f ∈ files, ∀ p : Progress, p.disk = d
    → ∃ hash, writeFile o previous f p = (p.skip f.name, .ok hash)

theorem turn_isIdle {next : Nat × Start} (hskip : AllSkip o previous files start.disk)
    (hstart : next.2 ≠ .canceled) (h : w.IsIdle start count) :
    (turn o previous files w next).IsIdle start (count + files[next.1]?.toList.length) := by
  unfold turn
  split
  . next hfile =>
    rw [hfile]
    exact h
  . next f hfile =>
    obtain ⟨hash, hwrite⟩ := hskip f (List.mem_of_getElem? hfile) w.progress h.disk
    rw [if_neg (by simpa using hstart), if_neg (by simp [h.failure]), hwrite, hfile]
    refine ⟨h.disk, ?_, h.failure⟩
    simp [Progress.skip, Progress.report, h.metrics, Nat.add_assoc]

theorem foldl_turn_isIdle (hskip : AllSkip o previous files start.disk)
    (hcanceled : schedule.IsUncanceled) (h : w.IsIdle start count) :
    (schedule.foldl (turn o previous files) w).IsIdle start
      (count + (schedule.flatMap fun next => files[next.1]?.toList).length) := by
  induction schedule generalizing w count with
  | nil => exact h
  | cons next schedule ih =>
    have hnext := turn_isIdle hskip (hcanceled next List.mem_cons_self) h
    rw [List.foldl_cons, List.flatMap_cons, List.length_append, ← Nat.add_assoc]
    exact ih (fun other hother => hcanceled other (List.mem_cons_of_mem _ hother)) hnext

theorem run_isIdle (hskip : AllSkip o previous files p.disk)
    (hcovers : schedule.Covers files.length) (hcanceled : schedule.IsUncanceled) :
    (run o previous files schedule p).IsIdle p files.length := by
  have hidle : Writing.IsIdle p 0 ⟨p, .empty, none⟩ := ⟨rfl, rfl, rfl⟩
  have hrun := foldl_turn_isIdle hskip hcanceled hidle
  rw [(flatMap_perm_of_covers hcovers).length_eq, Nat.zero_add] at hrun
  exact hrun

end Writing

/-! The end of a run with nothing to do. -/

theorem removeStale_of_has {target : Text} {kept : FileTable} {names : List Text}
    (h : ∀ name ∈ names, kept.has name = true) (p : Progress) :
    removeStale target kept names p = (p, none) := by
  induction names with
  | nil => rfl
  | cons name names ih =>
    obtain ⟨hname, hnames⟩ := List.forall_mem_cons.1 h
    unfold removeStale
    rw [hname, Bool.true_or, if_pos rfl]
    exact ih hnames

-- If nothing failed and nothing is stale, all that is left to do is to save the manifest.
theorem finish_of_has (schema : Schema) (start : Metrics) (hfailed : batch.failedNames = [])
    (hkept : ∀ name ∈ previous.files.names, table.has name = true)
    (hentry : p.disk.IsEntry o.target directory Manifest.fileName)
    (hreach : Disk.CanReach o.target Manifest.fileName)
    (hfree : p.disk.node? (directory ++ [Manifest.fileName]) ≠ some .directory) :
    ∃ q, finish o schema batch previous start table p = (q, batch.failure?)
      ∧ q.metrics = p.metrics
      ∧ q.disk = p.disk.put (directory ++ [Manifest.fileName])
          (.file (Manifest.encode ⟨Manifest.currentVersion, o.package, table⟩)) := by
  have hsave : Manifest.save ⟨Manifest.currentVersion, o.package, table⟩ p.disk (manifestPath o)
      = .ok (p.disk.put (directory ++ [Manifest.fileName])
          (.file (Manifest.encode ⟨Manifest.currentVersion, o.package, table⟩))) := by
    unfold Manifest.save manifestPath
    rw [(Disk.write_eq_ok_iff _ _ _ _).2
      ⟨_, hentry.locate_join_of_canReach true hreach, hfree, rfl⟩]
  have hkeep : keepFailed schema previous [] table = table := rfl
  unfold finish Manifest.new
  dsimp only
  rw [hfailed, hkeep, removeStale_of_has hkept]
  dsimp only
  rw [hsave]
  exact ⟨_, rfl, rfl, rfl⟩

theorem IsUpToDate.hash_eq {other : Text} (h : IsUpToDate o directory before f hash)
    (hother : IsUpToDate o directory after f other) : hash = other := by
  obtain ⟨content, -, hcontent, -, -, rfl, -⟩ := h
  obtain ⟨content', -, hcontent', -, -, rfl, -⟩ := hother
  rw [hcontent] at hcontent'
  cases hcontent'
  rfl

theorem keptHash?_nil (schema : Schema) (previous : Manifest) (name : Text) :
    keptHash? schema previous [] name = none := by
  simp [keptHash?, IsFailedFile]

/-! What the first run leaves. -/

namespace Concludes

variable (h : Concludes s.toOptions schema batch directory previous before after table)
  (hfailed : batch.failedNames = [])

include h hfailed

theorem exists_recorded (hf : f ∈ batch.files) :
    ∃ hash, IsUpToDate s.toOptions directory after f hash ∧ table.get? f.name = some hash := by
  obtain ⟨hash, hupToDate, hget⟩ := h.generated f hf
  rw [hfailed, keptHash?_nil] at hget
  exact ⟨hash, hupToDate, hget⟩

theorem allSkip (hmanifest : s.manifest = true) (htarget : s.target ≠ [])
    (hown : ∀ f ∈ batch.files, isOwnName f.name = true) :
    Writing.AllSkip s.toOptions ⟨Manifest.currentVersion, s.package, table⟩ batch.files
      (madeDisk s after) := by
  intro f hf p hdisk
  obtain ⟨hash, hupToDate, hget⟩ := h.exists_recorded hfailed hf
  have hentry := h.made_isEntry htarget (isPlain_of_isOwnName (hown f hf))
  have hmade := hupToDate.of_addsDirectories (addsDirectories_madeDisk s after)
  rw [← hdisk] at hentry hmade
  exact ⟨hash, writeFile_of_isUpToDate hmanifest hentry hmade hget⟩

-- The tasks of the second run record what the first run has recorded.
theorem recorded_eq {w : Writing} (hnodup : (batch.files.map GeneratedFile.name).Nodup)
    (htracks : w.Tracks s.toOptions batch.files directory d)
    (hall : ∀ f ∈ batch.files, (w.recorded.get? f.name).isSome = true) : w.recorded = table := by
  apply FileTable.eq_of_get?_eq
  intro name
  by_cases hname : ∃ f ∈ batch.files, f.name = name
  . obtain ⟨f, hf, rfl⟩ := hname
    obtain ⟨hash, hupToDate, hget⟩ := h.exists_recorded hfailed hf
    obtain ⟨other, hrecorded, hother⟩ := htracks.exists_recorded hnodup hf (hall f hf)
    rw [hrecorded, hget, hupToDate.hash_eq hother]
  . have hnew : ∀ f ∈ batch.files, name ≠ f.name := fun f hf heq => hname ⟨f, hf, heq.symm⟩
    rw [htracks.recorded_eq_none hnew, h.kept name hnew, hfailed, keptHash?_nil]

-- The second run finds the manifest and the files of the first one.
theorem attempt_isIdle (hmanifest : s.manifest = true) (htarget : s.target ≠ [])
    (hown : ∀ f ∈ batch.files, isOwnName f.name = true)
    (hnodup : (batch.files.map GeneratedFile.name).Nodup)
    (hcovers : (timing.writing batch.files.length).Covers batch.files.length)
    (hcanceled : (timing.writing batch.files.length).IsUncanceled)
    (hstart : start.disk = madeDisk s after) :
    (attempt s.toOptions batch timing ⟨Manifest.currentVersion, s.package, table⟩ start).IsIdle
        start batch.files.length
      ∧ (attempt s.toOptions batch timing ⟨Manifest.currentVersion, s.package, table⟩
        start).recorded = table := by
  have hidle : (attempt s.toOptions batch timing ⟨Manifest.currentVersion, s.package, table⟩
      start).IsIdle start batch.files.length :=
    Writing.run_isIdle (hstart ▸ h.allSkip hfailed hmanifest htarget hown) hcovers hcanceled
  have hlinks := (addsDirectories_madeDisk s after).hasNoLinks h.noLinks
  have hleads := (h.made_isEntry htarget Manifest.isPlain_fileName).leadsTo
  rw [← hstart] at hlinks hleads
  refine ⟨hidle, h.recorded_eq hfailed hnodup (Writing.run_tracks _ htarget hown hlinks hleads) ?_⟩
  exact fun f hf => Writing.run_records hf hcovers hidle.failure

theorem writeBatch_eq (hmanifest : s.manifest = true) (htarget : s.target ≠ [])
    (hown : ∀ f ∈ batch.files, isOwnName f.name = true)
    (hnodup : (batch.files.map GeneratedFile.name).Nodup)
    (hcovers : (timing.writing batch.files.length).Covers batch.files.length)
    (hcanceled : (timing.writing batch.files.length).IsUncanceled)
    (hstart : start.disk = madeDisk s after)
    (hprevious : previousManifest s.toOptions start
      = .ok (⟨Manifest.currentVersion, s.package, table⟩, start)) :
    ∃ q, writeBatch s.toOptions schema batch timing start = (q, batch.failure?)
      ∧ q.metrics = { start.metrics with skipped := start.metrics.skipped + batch.files.length }
      ∧ q.disk = (madeDisk s after).put (directory ++ [Manifest.fileName])
          (.file (Manifest.encode ⟨Manifest.currentVersion, s.package, table⟩)) := by
  obtain ⟨hidle, hrecorded⟩ :=
    h.attempt_isIdle hfailed hmanifest htarget hown hnodup hcovers hcanceled hstart
  have hdisk := hidle.disk.trans hstart
  have hentry := h.made_isEntry htarget Manifest.isPlain_fileName
  have hfree : (madeDisk s after).node? (directory ++ [Manifest.fileName]) ≠ some .directory := by
    rw [((addsDirectories_madeDisk s after).node?_eq_file_iff _ _).2 h.manifest]
    simp
  rw [← hdisk] at hentry hfree
  have hkept : ∀ name ∈ (⟨Manifest.currentVersion, s.package, table⟩ : Manifest).files.names,
      table.has name = true :=
    fun name => (table.mem_names_iff name).1
  obtain ⟨q, hfinish, hmetrics, hput⟩ :=
    finish_of_has schema start.metrics hfailed hkept hentry h.canReach hfree
  rw [hdisk] at hput
  refine ⟨q, ?_, hmetrics.trans hidle.metrics, hput⟩
  unfold writeBatch
  rw [hprevious]
  dsimp only
  rw [← attempt, hidle.failure, if_pos hmanifest, hrecorded]
  exact hfinish

end Concludes

/-! The second run. -/

-- A directory on the way may be gone if its name was taken for the one of a stale file. There is
-- nothing in its place, so it can be made again.
theorem Completes.makeDirectories_again (h : Completes s schema timing p batch q)
    (hmanifest : s.manifest = true) (hlinks : p.disk.IsLinkFree)
    (hown : ∀ f ∈ batch.files, isOwnName f.name = true) :
    (q.disk.makeDirectories s.target).2 = none := by
  obtain ⟨htarget, previous, r, t, hprevious, hsaves⟩ := h.saves hmanifest
  obtain ⟨-, hmade, -⟩ := made_of_write h.1 h.2 fun f hf => failure?_ne_some hf batch
  obtain ⟨hfollow, hopen⟩ := isOpen_madeDisk hlinks hmade
  obtain ⟨directory, hleads⟩ := hopen.leadsTo
  have hfree := (addsDirectories_madeDisk s p.disk).isLinkFree hlinks
  have hdisk : r.disk = madeDisk s p.disk := (previousManifest_cases hmanifest hprevious).1
  rw [← hdisk] at hopen hleads hfree
  have hsteps := hsaves.savesBy htarget hown (hfree.hasNoLinks directory) hleads
  apply Disk.makeDirectories_of_isClear _ hfollow
  . apply hopen.isClear_of
    intro place hdirectory
    rcases hsteps.node?_cases place with hsame | hnone | ⟨hnot, -⟩
    . right
      rw [Disk.isDirectory_iff, hsame, ← Disk.isDirectory_iff]
      exact hdirectory
    . exact .inl hnone
    . rw [hnot] at hdirectory
      cases hdirectory
  . intro place target
    rcases hsteps.node?_cases place with hsame | hnone | ⟨-, content, hfile⟩
    . rw [hsame]
      exact hfree place target
    . simp [hnone]
    . simp [hfile]

/--
A run that finds nothing to do: each message is counted as left as it is and nothing else is
counted, all files hold what they held before, and so does the manifest, as far as it can be read.
-/
structure ChangesNothing (schema : Schema) (directory : Place) (p q : Progress) : Prop where
  metrics : q.metrics
    = { p.metrics with skipped := p.metrics.skipped + schema.messages.length }
  files : ∀ place, place ≠ directory ++ [Manifest.fileName]
    → q.disk.content? place = p.disk.content? place
  manifest : ∃ m, p.disk.HoldsManifest directory m ∧ q.disk.HoldsManifest directory m

end Writer

end ValueGen
