import ValueGen.Proofs.Output.Deed
import ValueGen.Proofs.Output.Survival

/-!
This module contains what the metrics of a run account for. They count each generated file, each
byte that was written to one, and each file that was removed. But they also count as removed what a
run could not remove since it was not there.
-/

namespace ValueGen

/--
Is there something at the entry of a directory?
-/
def Disk.hasEntry (d : Disk) (directory : Place) (name : Text) : Bool :=
  (d.node? (directory ++ [name])).isSome

theorem Disk.stays_of_entries {d e : Disk} {p : Place}
    (h : ∀ entry ∈ d.entries, e.node? entry.1 ≠ none) (hp : d.node? p ≠ none) :
    e.node? p ≠ none := by
  unfold node? at hp
  split at hp
  . next hempty =>
    rw [List.isEmpty_iff.1 hempty]
    simp
  . obtain ⟨n, hn⟩ := Option.ne_none_iff_exists'.1 hp
    obtain ⟨before, after, hentries, -⟩ := List.lookup_eq_some_iff.1 hn
    refine h (p, n) ?_
    rw [hentries]
    simp

namespace Writer

variable {o : Options} {s : Settings} {schema : Schema} {batch : Batch} {timing : Timing}
  {previous : Manifest} {p q : Progress} {d : Disk} {directory : Place} {deeds : List Deed}
  {name : Text}

/-! The deeds of a whole run. -/

theorem writeBatch_treats (htarget : o.target ≠ [])
    (hcovers : (timing.writing batch.files.length).Covers batch.files.length)
    (h : writeBatch o schema batch timing p = (q, batch.failure?)) :
    ∃ files names, Treats o p files names q ∧ files.Perm batch.files
      ∧ (∀ name, name ∈ names ↔ IsStaleIn o schema batch timing p name) ∧ names.Nodup
      ∧ (o.manifest = true → ∃ directory, q.disk.LeadsTo o.target directory) := by
  have hperm := Writing.flatMap_perm_of_covers hcovers
  unfold writeBatch at h
  split at h
  . next f hprevious =>
    obtain ⟨cause, rfl⟩ := previousManifest_error hprevious
    exact absurd (congrArg Prod.snd h).symm (failure?_ne_some (by simp) batch)
  . next previous r hprevious =>
    dsimp only at h
    split at h
    . next f _ => exact absurd (congrArg Prod.snd h).symm (failure?_ne_stopped batch f)
    . next hwritten =>
      have hread : Treats o p [] [] r :=
        treats_of_eq (disk_of_previousManifest hprevious) (metrics_of_previousManifest hprevious)
      have hrun := hread.append (run_treats hwritten)
      rw [List.nil_append, List.nil_append] at hrun
      split at h
      . next hmanifest =>
        obtain ⟨hfinish, hleads⟩ := finish_treats htarget h
        have hall := hrun.append hfinish
        rw [List.append_nil, List.nil_append] at hall
        refine ⟨_, _, hall, hperm, ?_, previous.files.names_nodup.filter _, fun _ => hleads⟩
        intro name
        constructor
        . exact fun hname => ⟨hmanifest, previous, r, hprevious, hname⟩
        . rintro ⟨-, other, t, hother, hname⟩
          rw [hprevious] at hother
          cases hother
          exact hname
      . next hmanifest =>
        cases h
        refine ⟨_, [], hrun.of_eq rfl rfl, hperm, ?_, .nil, fun h => absurd h hmanifest⟩
        intro name
        simp [IsStaleIn, hmanifest]

/-! What the metrics say of the deeds. -/

/--
The files that were on the disk before and that the deeds removed from it.
-/
def deleted (d : Disk) (directory : Place) (deeds : List Deed) : List Text :=
  (deeds.filterMap Deed.removed?).filter (d.hasEntry directory)

/--
The stale files that were not on the disk before.
-/
def missing (d : Disk) (directory : Place) (deeds : List Deed) : List Text :=
  (deeds.filterMap Deed.stale?).filter fun name => !d.hasEntry directory name

-- A stale file that was on the disk before is never missed.
theorem deleted_eq_filter
    (hmiss : ∀ name, Deed.miss name ∈ deeds → d.hasEntry directory name = false) :
    deleted d directory deeds = (deeds.filterMap Deed.stale?).filter (d.hasEntry directory) := by
  unfold deleted
  rw [List.filter_filterMap, List.filter_filterMap]
  apply List.filterMap_congr
  intro deed hdeed
  cases deed with
  | miss name =>
    change none = Option.filter (d.hasEntry directory) (some name)
    rw [Option.filter_some, hmiss name hdeed]
    rfl
  | _ => rfl

theorem length_filterMap_stale?
    (hmiss : ∀ name, Deed.miss name ∈ deeds → d.hasEntry directory name = false) :
    (deeds.filterMap Deed.stale?).length
      = (deleted d directory deeds).length + (missing d directory deeds).length := by
  rw [deleted_eq_filter hmiss]
  exact List.length_eq_length_filter_add _

/--
The deeds of a run, and what the metrics say of them. The deeds lead from the disk with the target
directory to the disk in the end. There is one for each generated file and one for each stale file.
-/
structure Accounts (s : Settings) (schema : Schema) (batch : Batch) (timing : Timing)
    (directory : Place) (p q : Progress) (deeds : List Deed) : Prop where
  disk : DoesAll s.toOptions (madeDisk s p.disk) deeds q.disk
  files : (deeds.filterMap Deed.file?).Perm batch.files
  nodup : (deeds.filterMap Deed.stale?).Nodup
  stale : ∀ name, name ∈ deeds.filterMap Deed.stale?
    ↔ IsStaleIn s.toOptions schema batch timing { p with disk := madeDisk s p.disk } name
  /-- Each file that was written is counted as written. -/
  written : q.metrics.written = p.metrics.written + (deeds.filterMap Deed.content?).length
  /-- Each generated file is counted once. -/
  handled : q.metrics.written + q.metrics.skipped
    = p.metrics.written + p.metrics.skipped + batch.files.length
  /-- Each byte of the contents that were written is counted. -/
  bytes : q.metrics.bytes
    = p.metrics.bytes + ((deeds.filterMap Deed.content?).map List.length).sum
  /-- Stale files are counted as removed, also those that were not there. -/
  removed : q.metrics.removed = p.metrics.removed + (deleted p.disk directory deeds).length
    + (missing p.disk directory deeds).length
  /-- So the count is right exactly if all of them were there. -/
  removed_iff : q.metrics.removed = p.metrics.removed + (deleted p.disk directory deeds).length
    ↔ ∀ name, IsStaleIn s.toOptions schema batch timing { p with disk := madeDisk s p.disk } name
      → p.disk.node? (directory ++ [name]) ≠ none

theorem missing_eq_nil_iff : missing d directory deeds = []
    ↔ ∀ name ∈ deeds.filterMap Deed.stale?, d.node? (directory ++ [name]) ≠ none := by
  simp [missing, Disk.hasEntry, List.filter_eq_nil_iff]

/-! The account of a whole run. -/

theorem Completes.exists_deeds (h : Completes s schema timing p batch q)
    (hcovers : (timing.writing batch.files.length).Covers batch.files.length) :
    ∃ deeds, Performs s.toOptions { p with disk := madeDisk s p.disk } deeds q
      ∧ (deeds.filterMap Deed.file?).Perm batch.files
      ∧ (∀ name, name ∈ deeds.filterMap Deed.stale?
        ↔ IsStaleIn s.toOptions schema batch timing { p with disk := madeDisk s p.disk } name)
      ∧ (deeds.filterMap Deed.stale?).Nodup
      ∧ (s.manifest = true → ∃ directory, q.disk.LeadsTo s.target directory) := by
  obtain ⟨htarget, -, hwrite⟩ := made_of_write h.1 h.2 fun f hf => failure?_ne_some hf batch
  obtain ⟨files, names, ⟨deeds, hdeeds, rfl, rfl⟩, hrest⟩ :=
    writeBatch_treats htarget hcovers hwrite
  exact ⟨deeds, hdeeds, hrest⟩

-- The way to the target directory that is there in the end is the one from the start.
theorem Completes.exists_hasEntry_eq_false (h : Completes s schema timing p batch q)
    (hdeeds : Performs s.toOptions { p with disk := madeDisk s p.disk } deeds q)
    (hstale : ∀ name ∈ deeds.filterMap Deed.stale?, s.manifest = true ∧ isOwnName name = true)
    (hnodup : (deeds.filterMap Deed.stale?).Nodup)
    (hleads : s.manifest = true → ∃ directory, q.disk.LeadsTo s.target directory) :
    ∃ directory, (s.manifest = true → targetPlace s p.disk = .ok directory)
      ∧ ∀ name, Deed.miss name ∈ deeds → p.disk.hasEntry directory name = false := by
  by_cases hmanifest : s.manifest = true
  . obtain ⟨directory, hplace, hmade⟩ := h.exists_directory hmanifest
    obtain ⟨other, hother⟩ := hleads hmanifest
    have heq := (hdeeds.disk.keeps.leadsTo hother).unique hmade
    subst heq
    refine ⟨directory, fun _ => hplace, ?_⟩
    intro name hmiss
    have hnone := hdeeds.disk.node?_of_miss (h.saves hmanifest).1 hother
      (fun name hname => (hstale name hname).2) hnodup hmiss
    rw [Disk.hasEntry, Option.isSome_eq_false_iff, Option.isNone_iff_eq_none]
    by_contra hnode
    exact (addsDirectories_madeDisk s p.disk).stays hnode hnone
  . refine ⟨[], fun htrue => absurd htrue hmanifest, ?_⟩
    intro name hmiss
    exact absurd (hstale name (List.mem_filterMap.2 ⟨_, hmiss, rfl⟩)).1 hmanifest

/--
Whatever was on the disk and in the manifest before, and in whatever order the tasks took effect: if
a run reports no more than why messages could not be generated, each generated file counts as
written or as left as it was, the bytes are those of the contents that were written, and all stale
files count as removed: those that were there before and have been removed, but also those that were
not there.
-/
theorem write_accounts (s : Settings) (schema : Schema) (timing : Timing) (p q : Progress)
    (batch : Batch) (hcovers : (timing.writing batch.files.length).Covers batch.files.length)
    (h : Completes s schema timing p batch q) :
    ∃ directory deeds, (s.manifest = true → targetPlace s p.disk = .ok directory)
      ∧ Accounts s schema batch timing directory p q deeds := by
  obtain ⟨deeds, hdeeds, hfiles, hstale, hnodup, hleads⟩ := h.exists_deeds hcovers
  have hown : ∀ name ∈ deeds.filterMap Deed.stale?, s.manifest = true ∧ isOwnName name = true := by
    intro name hname
    obtain ⟨hmanifest, previous, r, -, hmem⟩ := (hstale name).1 hname
    exact ⟨hmanifest, (mem_staleNames_iff.1 hmem).2.2⟩
  obtain ⟨directory, hplace, hmiss⟩ := h.exists_hasEntry_eq_false hdeeds hown hnodup hleads
  have hcount := hdeeds.metrics
  rw [Metrics.foldl_count] at hcount
  have hremoved : q.metrics.removed = p.metrics.removed + (deleted p.disk directory deeds).length
      + (missing p.disk directory deeds).length := by
    rw [hcount, Nat.add_assoc, ← length_filterMap_stale? hmiss]
  refine ⟨directory, deeds, hplace, hdeeds.disk, hfiles, hnodup, hstale, ?_, ?_, ?_, hremoved, ?_⟩
  . rw [hcount]
  . rw [hcount, ← hfiles.length_eq, Deed.length_filterMap_file?]
    dsimp only
    omega
  . rw [hcount]
  . rw [hremoved, Nat.add_eq_left, List.length_eq_zero_iff, missing_eq_nil_iff]
    simp only [hstale]

def shapeOnlySchema : Schema := ⟨[], [⟨"Shape", []⟩]⟩

/--
The manifest names a file that the schema does not ask for, and that somebody has removed.
-/
def missingStart : Progress where
  disk := ⟨[
    (["out"], .directory),
    (["out", Manifest.fileName], .file (Manifest.encode
      ⟨1, "shapes", .ofList [("line.protoval.go", "0")]⟩))]⟩
  metrics := .zero
  log := []

theorem exists_completes_missing : ∃ batch, Completes shapeSettings shapeOnlySchema
    (.inOrder false) missingStart batch
    (write (some shapeSettings) shapeOnlySchema (.inOrder false) missingStart).1 := by
  have hnone : (write (some shapeSettings) shapeOnlySchema (.inOrder false) missingStart).2
      = none := by
    rw [← Option.isNone_iff_eq_none]
    decide +kernel
  obtain ⟨batch, hcompletes, -⟩ := completes_of_none (Prod.ext rfl hnone) rfl
  exact ⟨batch, hcompletes⟩

theorem write_accounts_missing :
    ∃ batch q, Completes shapeSettings shapeOnlySchema (.inOrder false) missingStart batch q
      ∧ ∃ directory deeds, targetPlace shapeSettings missingStart.disk = .ok directory
        ∧ Accounts shapeSettings shapeOnlySchema batch (.inOrder false) directory missingStart q
          deeds := by
  obtain ⟨batch, hcompletes⟩ := exists_completes_missing
  obtain ⟨directory, deeds, hplace, haccounts⟩ := write_accounts shapeSettings shapeOnlySchema
    (.inOrder false) missingStart _ batch (Timing.inOrder_runsAll false _).2 hcompletes
  exact ⟨batch, _, hcompletes, directory, deeds, hplace rfl, haccounts⟩

/--
One file counts as removed although everything that was there before is still there.
-/
theorem removed_eq_one_missing :
    ∃ batch q, Completes shapeSettings shapeOnlySchema (.inOrder false) missingStart batch q
      ∧ missingStart.metrics.removed = 0 ∧ q.metrics.removed = 1
      ∧ ∀ place, missingStart.disk.node? place ≠ none → q.disk.node? place ≠ none := by
  obtain ⟨batch, hcompletes⟩ := exists_completes_missing
  refine ⟨batch, _, hcompletes, rfl, by decide +kernel, ?_⟩
  intro place
  exact Disk.stays_of_entries (by decide +kernel)

end Writer

end ValueGen
