import ValueGen.Proofs.Output.Change
import ValueGen.Proofs.Output.Ending
import ValueGen.Proofs.Output.Shadow

/-!
This module contains that the files of messages that failed survive a run on a disk without links,
however it ends: they are as before, they do not count as stale, and the manifest keeps what it said
of them.
-/

namespace ValueGen

/--
The file that a line says to have been removed as a stale one.
-/
def LogLine.removed? (l : LogLine) : Option Text :=
  if l.text = "protoval: stale file removed" then l.facts.lookup ("file" : Text) else none

-- A manifest is what a file holds.
theorem Disk.recorded?_eq_bind (d : Disk) (directory : Place) (name : Text) :
    d.recorded? directory name = (d.content? (directory ++ [Manifest.fileName])).bind fun t =>
      (Manifest.ofText? t).bind fun m => m.files.get? name := by
  unfold recorded? content?
  cases d.node? (directory ++ [Manifest.fileName]) with
  | none => rfl
  | some n =>
    cases n with
    | file content => rfl
    | directory => rfl
    | link target => rfl

namespace Progress

/--
The files that were removed as stale ones on the way from `p` to `q` are those of the names, in this
order. They are counted, and each of them has its line in the log.
-/
structure Removes (p : Progress) (names : List Text) (q : Progress) : Prop where
  logged : ∃ more, q.log = p.log ++ more ∧ more.filterMap LogLine.removed? = names
  counted : q.metrics.removed = p.metrics.removed + names.length

variable {p q r : Progress} {names more : List Text}

theorem removes_nil_of_eq (hlog : q.log = p.log) (hcount : q.metrics.removed = p.metrics.removed) :
    p.Removes [] q :=
  ⟨⟨[], by rw [hlog, List.append_nil], rfl⟩, hcount⟩

theorem Removes.refl (p : Progress) : p.Removes [] p := removes_nil_of_eq rfl rfl

theorem Removes.trans (hpq : p.Removes names q) (hqr : q.Removes more r) :
    p.Removes (names ++ more) r := by
  obtain ⟨⟨first, hfirst, hnames⟩, hcount⟩ := hpq
  obtain ⟨⟨second, hsecond, hmore⟩, hcount'⟩ := hqr
  refine ⟨⟨first ++ second, ?_, ?_⟩, ?_⟩
  . rw [hsecond, hfirst, List.append_assoc]
  . rw [List.filterMap_append, hnames, hmore]
  . rw [hcount', hcount, List.length_append, Nat.add_assoc]

theorem Removes.nil_trans (hpq : p.Removes [] q) (hqr : q.Removes names r) : p.Removes names r :=
  hpq.trans hqr

theorem Removes.trans_nil (hpq : p.Removes names q) (hqr : q.Removes [] r) :
    p.Removes names r := by
  have h := hpq.trans hqr
  rw [List.append_nil] at h
  exact h

theorem removes_report (p : Progress) (level : Level) {text : Text}
    (htext : text ≠ "protoval: stale file removed") (facts : List (Text × Text)) :
    p.Removes [] (p.report level text facts) :=
  ⟨⟨[⟨level, text, facts⟩], rfl, by simp [LogLine.removed?, htext]⟩, rfl⟩

theorem removes_skip (p : Progress) (name : Text) : p.Removes [] (p.skip name) :=
  ⟨⟨_, rfl, rfl⟩, rfl⟩

theorem removes_wrote (p : Progress) (f : GeneratedFile) (content : Text) (disk : Disk) :
    p.Removes [] (p.wrote f content disk) :=
  ⟨⟨_, rfl, rfl⟩, rfl⟩

theorem removes_removed (p : Progress) (name : Text) (disk : Disk) :
    p.Removes [name] (p.removed name disk) :=
  ⟨⟨_, rfl, rfl⟩, rfl⟩

end Progress

namespace Writer

variable {o : Options} {s : Settings} {schema : Schema} {batch : Batch} {timing : Timing}
  {previous : Manifest} {files : List GeneratedFile} {p q r : Progress} {failure? : Option Failure}
  {name : Text}

/-! What a run removes. -/

theorem writeFile_removes (o : Options) (previous : Manifest) (f : GeneratedFile) (p : Progress) :
    p.Removes [] (writeFile o previous f p).1 := by
  unfold writeFile
  dsimp only
  split
  . split
    . exact Progress.removes_nil_of_eq rfl rfl
    . exact .refl p
  . split
    . exact p.removes_skip f.name
    . split
      . exact p.removes_wrote f _ _
      . exact .refl p

theorem turn_removes (o : Options) (previous : Manifest) (files : List GeneratedFile) (w : Writing)
    (next : Nat × Start) :
    w.progress.Removes [] (Writing.turn o previous files w next).progress := by
  unfold Writing.turn
  split
  . exact .refl _
  . next f _ =>
    have hremoves := writeFile_removes o previous f w.progress
    split
    . exact .refl _
    . split
      . exact .refl _
      . split
        all_goals
          next heq =>
          rw [heq] at hremoves
          exact hremoves

theorem run_removes (o : Options) (previous : Manifest) (files : List GeneratedFile)
    (schedule : Schedule) (p : Progress) :
    p.Removes [] (Writing.run o previous files schedule p).progress := by
  have hall (w : Writing) :
      w.progress.Removes [] (schedule.foldl (Writing.turn o previous files) w).progress := by
    induction schedule generalizing w with
    | nil => exact .refl _
    | cons next schedule ih => exact (turn_removes o previous files w next).trans (ih _)
  exact hall ⟨p, .empty, none⟩

-- Only stale files are removed, and if the removal ends early, only some of them.
theorem removeStale_removes {target : Text} {kept : FileTable} {names : List Text}
    (h : removeStale target kept names p = (q, failure?)) :
    ∃ gone, p.Removes gone q ∧ gone ⊆ staleNames kept names := by
  induction names generalizing p with
  | nil =>
    cases h
    exact ⟨[], .refl q, List.nil_subset _⟩
  | cons name names ih =>
    have hstep (disk : Disk) (hkept : ¬ (kept.has name || !isOwnName name) = true)
        (h : removeStale target kept names (p.removed name disk) = (q, failure?)) :
        ∃ gone, p.Removes gone q ∧ gone ⊆ staleNames kept (name :: names) := by
      obtain ⟨gone, hgone, hsubset⟩ := ih h
      refine ⟨name :: gone, (p.removes_removed name disk).trans hgone, ?_⟩
      unfold staleNames
      rw [List.filter_cons_of_pos (by rw [Bool.not_eq_true']; exact Bool.eq_false_iff.2 hkept)]
      exact List.cons_subset_cons _ hsubset
    unfold removeStale at h
    split at h
    . next hkept =>
      obtain ⟨gone, hgone, hsubset⟩ := ih h
      refine ⟨gone, hgone, ?_⟩
      unfold staleNames
      rw [List.filter_cons_of_neg (by rw [hkept]; simp)]
      exact hsubset
    . next hkept =>
      split at h
      . next disk _ => exact hstep disk hkept h
      . split at h
        . exact hstep p.disk hkept h
        . cases h
          exact ⟨[], .refl q, List.nil_subset _⟩

theorem previousManifest_removes (h : previousManifest o p = .ok (previous, q)) :
    p.Removes [] q := by
  rcases progress_of_previousManifest h with rfl | ⟨facts, rfl⟩
  . exact .refl _
  . exact p.removes_report _ (by decide) facts

/--
The name is one of those that a run with the batch takes for stale.
-/
def IsStaleIn (o : Options) (schema : Schema) (batch : Batch) (timing : Timing) (p : Progress)
    (name : Text) : Prop :=
  o.manifest = true ∧ ∃ previous r, previousManifest o p = .ok (previous, r)
    ∧ name ∈ staleNames (recordedBy o schema batch timing previous r) previous.files.names

theorem writeBatch_removes (h : writeBatch o schema batch timing p = (q, failure?)) :
    ∃ gone, p.Removes gone q ∧ ∀ name ∈ gone, IsStaleIn o schema batch timing p name := by
  unfold writeBatch at h
  split at h
  . cases h
    exact ⟨[], .refl _, by simp⟩
  . next previous r hprevious =>
    have hrun := (previousManifest_removes hprevious).trans_nil
      (run_removes o previous batch.files (timing.writing batch.files.length) r)
    dsimp only at h
    split at h
    . cases h
      exact ⟨[], hrun, by simp⟩
    . split at h
      . next hmanifest =>
        have hstale {t : Progress} {failure? : Option Failure}
            (hremove : removeStale o.target (recordedBy o schema batch timing previous r)
              previous.files.names (attempt o batch timing previous r).progress = (t, failure?)) :
            ∃ gone, p.Removes gone t ∧ ∀ name ∈ gone, IsStaleIn o schema batch timing p name := by
          obtain ⟨gone, hgone, hsubset⟩ := removeStale_removes hremove
          exact ⟨gone, hrun.nil_trans hgone,
            fun name hname => ⟨hmanifest, previous, r, hprevious, hsubset hname⟩⟩
        unfold finish at h
        dsimp only at h
        split at h
        . next t f hremove =>
          cases h
          exact hstale hremove
        . next t hremove =>
          obtain ⟨gone, hgone, hnames⟩ := hstale hremove
          split at h
          . cases h
            exact ⟨gone, hgone, hnames⟩
          . next disk _ =>
            cases h
            have hput : t.Removes [] { t with disk } := Progress.removes_nil_of_eq rfl rfl
            exact ⟨gone, hgone.trans_nil
              (hput.trans_nil (Progress.removes_report _ _ (by decide) _)), hnames⟩
      . cases h
        exact ⟨[], hrun.trans_nil (Progress.removes_report _ _ (by decide) _), by simp⟩

theorem write_removes
    (hbatch : generateSchema schema s (timing.generation schema.messages.length) = .ok batch)
    (h : write (some s) schema timing p = (q, failure?)) :
    ∃ gone, p.Removes gone q ∧ ∀ name ∈ gone,
      IsStaleIn s.toOptions schema batch timing { p with disk := madeDisk s p.disk } name := by
  unfold write at h
  dsimp only at h
  split at h
  . cases h
    exact ⟨[], .refl _, by simp⟩
  . rw [hbatch] at h
    dsimp only at h
    unfold madeDisk
    split at h
    . cases h
      exact ⟨[], Progress.removes_nil_of_eq rfl rfl, by simp⟩
    . next disk hmade =>
      obtain ⟨gone, hgone, hnames⟩ := writeBatch_removes h
      have hput : p.Removes [] { p with disk } := Progress.removes_nil_of_eq rfl rfl
      rw [hmade]
      exact ⟨gone, hput.nil_trans hgone, hnames⟩

/-! What a run spares. -/

-- What the manifest before says of the file of a failed message is said again.
theorem not_mem_staleNames_of_isFailedFile (hfailed : IsFailedFile schema batch.failedNames name) :
    name ∉ staleNames (recordedBy o schema batch timing previous r) previous.files.names := by
  intro hstale
  obtain ⟨hmem, hnone, -⟩ := mem_staleNames_iff.1 hstale
  rw [get?_recordedBy, keptHash?, if_pos hfailed, Option.or_eq_none_iff] at hnone
  rw [FileTable.mem_names_iff, hnone.1] at hmem
  cases hmem

theorem canReach_of_previousManifest {directory : Place} (hmanifest : o.manifest = true)
    (hentry : p.disk.IsEntry o.target directory Manifest.fileName)
    (h : previousManifest o p = .ok (previous, q)) : Disk.CanReach o.target Manifest.fileName := by
  cases hlocate : p.disk.locate true (Path.join o.target Manifest.fileName) with
  | ok place => exact (hentry.canReach_of_locate hlocate).1
  | error fault =>
    have hread : p.disk.read (manifestPath o)
        = .error (.disk "open" (manifestPath o) fault) := by
      unfold Disk.read manifestPath
      rw [hlocate]
      rfl
    have hmissing : (Failure.disk "open" (manifestPath o) fault).is .notFound = false := by
      rw [Bool.eq_false_iff, ne_eq, Failure.is_notFound_disk_iff]
      exact hentry.ne_notFound_of_locate hlocate
    have herror := (previousManifest_eq_error_iff o p _).2 ⟨hmanifest, _, hread, hmissing, rfl⟩
    rw [h] at herror
    cases herror

/--
What is left at a place if the source file of the name is spared. The file is as it was, and if the
manifest is written, it says of the file what the manifest on the disk `d` says of it.
-/
structure Spares (s : Settings) (d : Disk) (name : Text) (place : Place) (n : Option Node) :
    Prop where
  noLink : ∀ target, n ≠ some (.link target)
  source : place ≠ Disk.entryPlace s.target name
  manifest : place = Disk.entryPlace s.target Manifest.fileName
    → ∃ table, n = some (.file (Manifest.encode ⟨Manifest.currentVersion, s.package, table⟩))
      ∧ table.get? name = d.recorded? (Disk.destination [] (Path.pieces s.target)) name

theorem spares_entry {d : Disk} {other : Text} {n : Option Node}
    (hlink : ∀ target, n ≠ some (.link target)) (hname : other ≠ name)
    (hmanifest : other ≠ Manifest.fileName) :
    Spares s d name (Disk.entryPlace s.target other) n where
  noLink := hlink
  source := by simpa [Disk.entryPlace] using hname
  manifest := by
    intro hplace
    exact absurd (by simpa [Disk.entryPlace] using hplace) hmanifest

theorem isOwnName_of_not_mem
    (hbatch : generateSchema schema s (timing.generation schema.messages.length) = .ok batch)
    (hnames : ∀ m ∈ schema.messages, Path.separator ∉ m.name) :
    ∀ f ∈ batch.files, isOwnName f.name = true := by
  intro f hf
  obtain ⟨m, hm, printed, -, rfl⟩ := exists_generate_of_mem_files hbatch hf
  exact Message.isOwnName_fileName_of_not_mem (hnames m hm)

-- The target directory has been made, so the manifest is read from it and written to it.
theorem get?_recordedBy_of_isFailedFile (hlinks : p.disk.IsLinkFree) (htarget : s.target ≠ [])
    (hmade : (p.disk.makeDirectories s.target).2 = none) (hmanifest : s.manifest = true)
    (hown : ∀ f ∈ batch.files, isOwnName f.name = true)
    (hfailed : IsFailedFile schema batch.failedNames name)
    (hfiles : ∀ f ∈ batch.files, f.name ≠ name)
    (h : previousManifest s.toOptions { p with disk := madeDisk s p.disk } = .ok (previous, r)) :
    (recordedBy s.toOptions schema batch timing previous r).get? name
      = p.disk.recorded? (Disk.destination [] (Path.pieces s.target)) name := by
  have hadds := addsDirectories_madeDisk s p.disk
  have hleads := (isOpen_madeDisk hlinks hmade).2.leadsTo_destination
  have hnoLinks := (hadds.isLinkFree hlinks).hasNoLinks (Disk.destination [] (Path.pieces s.target))
  have hentry : (madeDisk s p.disk).IsEntry s.target (Disk.destination [] (Path.pieces s.target))
      Manifest.fileName :=
    ⟨htarget, hleads, Manifest.isPlain_fileName, hnoLinks Manifest.fileName⟩
  have hdisk : r.disk = madeDisk s p.disk := disk_of_previousManifest h
  have htracks : (attempt s.toOptions batch timing previous r).Tracks s.toOptions batch.files
      (Disk.destination [] (Path.pieces s.target)) r.disk :=
    Writing.run_tracks _ htarget hown (hdisk ▸ hnoLinks) (hdisk ▸ hleads)
  rw [get?_recordedBy, htracks.recorded_eq_none fun f hf => (hfiles f hf).symm, Option.or_none,
    keptHash?, if_pos hfailed, ← hadds.recorded?_eq]
  exact get?_of_previousManifest hmanifest hentry
    (canReach_of_previousManifest hmanifest hentry h) h name

theorem allows_spares (hlinks : p.disk.IsLinkFree) (htarget : s.target ≠ [])
    (hmade : (p.disk.makeDirectories s.target).2 = none)
    (hbatch : generateSchema schema s (timing.generation schema.messages.length) = .ok batch)
    (hnames : ∀ m ∈ schema.messages, Path.separator ∉ m.name) {m : Message}
    (hm : m ∈ schema.messages) (hfailed : m.name ∈ batch.failedNames)
    (hfiles : ∀ f ∈ batch.files, f.name ≠ m.fileName) :
    Allows s.toOptions schema batch timing { p with disk := madeDisk s p.disk }
      (Spares s p.disk m.fileName) := by
  have hown := isOwnName_of_not_mem hbatch hnames
  have hsource : isOwnName m.fileName = true :=
    Message.isOwnName_fileName_of_not_mem (hnames m hm)
  have hfailed : IsFailedFile schema batch.failedNames m.fileName := ⟨m, hm, hfailed, rfl⟩
  refine ⟨fun place target h => h.noLink target rfl, ?_, ?_, ?_⟩
  . intro f hf
    refine ⟨isPlain_of_isOwnName (hown f hf), ?_, ?_⟩
    . intro content _
      exact spares_entry (by simp) (hfiles f hf) (ne_fileName_of_isOwnName (hown f hf))
    . intro _
      apply spares_entry (by simp) _ (rejectName_ne_fileName f.name)
      intro heq
      rw [← heq, isOwnName_rejectName] at hsource
      cases hsource
  . intro _ previous r _ name hname
    apply spares_entry (by simp)
    . rintro rfl
      exact not_mem_staleNames_of_isFailedFile hfailed hname
    . exact ne_fileName_of_isOwnName (mem_staleNames_iff.1 hname).2.2
  . intro hmanifest previous r hprevious
    refine ⟨by simp, ?_, fun _ => ⟨_, rfl, ?_⟩⟩
    . simpa [Disk.entryPlace] using (ne_fileName_of_isOwnName hsource).symm
    . exact get?_recordedBy_of_isFailedFile hlinks htarget hmade hmanifest hown hfailed hfiles
        hprevious

/--
The source file of the name is as it was. The manifest is as it was too, or it was written and says
of the file what the manifest before said.
-/
structure Survives (s : Settings) (before after : Disk) (name : Text) : Prop where
  content : after.content? (Disk.entryPlace s.target name)
    = before.content? (Disk.entryPlace s.target name)
  entry : after.content? (Disk.entryPlace s.target Manifest.fileName)
      = before.content? (Disk.entryPlace s.target Manifest.fileName)
    ∨ ∃ table, after.content? (Disk.entryPlace s.target Manifest.fileName)
        = some (Manifest.encode ⟨Manifest.currentVersion, s.package, table⟩)
      ∧ table.get? name = before.recorded? (Disk.destination [] (Path.pieces s.target)) name

-- The packed form has four bytes for a size, so a manifest within them can be read again.
theorem Survives.recorded?_eq {before after : Disk} (h : Survives s before after name)
    (hfits : ∀ table, after.content? (Disk.entryPlace s.target Manifest.fileName)
        = some (Manifest.encode ⟨Manifest.currentVersion, s.package, table⟩)
      → Manifest.Fits s.package table.entries) :
    after.recorded? (Disk.destination [] (Path.pieces s.target)) name
      = before.recorded? (Disk.destination [] (Path.pieces s.target)) name := by
  rcases h.entry with hsame | ⟨table, hcontent, hget⟩
  . unfold Disk.entryPlace at hsame
    rw [Disk.recorded?_eq_bind, Disk.recorded?_eq_bind, hsame]
  . have htext := Manifest.ofText?_encode (hfits table hcontent)
    unfold Disk.entryPlace at hcontent
    rw [← hget, Disk.recorded?_eq_bind, hcontent, Option.bind_some, htext]
    rfl

theorem survives_of_changesTo {made after : Disk} (hadds : p.disk.AddsDirectories made)
    (h : made.ChangesTo after (Spares s p.disk name)) : Survives s p.disk after name := by
  constructor
  . rcases h (Disk.entryPlace s.target name) with hsame | hspares
    . rw [Disk.content?_of_node?_eq hsame, hadds.content?_eq]
    . exact absurd rfl hspares.source
  . rcases h (Disk.entryPlace s.target Manifest.fileName) with hsame | hspares
    . left
      rw [Disk.content?_of_node?_eq hsame, hadds.content?_eq]
    . obtain ⟨table, hnode, hget⟩ := hspares.manifest rfl
      exact .inr ⟨table, (Disk.content?_eq_some_iff _ _ _).2 hnode, hget⟩

/--
However a run with a batch ends, the file of a message that failed is left in place as it was,
unless it is also the file of a message that was generated. It is not among the files that are
removed and counted as stale ones, and the manifest keeps its entry.
-/
theorem write_keepsFailed (s : Settings) (schema : Schema) (timing : Timing) (p q : Progress)
    (batch : Batch) (failure? : Option Failure) (hlinks : p.disk.IsLinkFree)
    (hnames : ∀ m ∈ schema.messages, Path.separator ∉ m.name)
    (hbatch : generateSchema schema s (timing.generation schema.messages.length) = .ok batch)
    (h : write (some s) schema timing p = (q, failure?)) :
    ∃ gone, p.Removes gone q ∧ ∀ m ∈ schema.messages, m.name ∈ batch.failedNames
      → (∀ f ∈ batch.files, f.name ≠ m.fileName)
      → m.fileName ∉ gone ∧ Survives s p.disk q.disk m.fileName := by
  obtain ⟨gone, hgone, hstale⟩ := write_removes hbatch h
  refine ⟨gone, hgone, fun m hm hfailed hfiles => ⟨?_, ?_⟩⟩
  . intro hmem
    obtain ⟨-, previous, r, -, hname⟩ := hstale m.fileName hmem
    exact not_mem_staleNames_of_isFailedFile ⟨m, hm, hfailed, rfl⟩ hname
  . obtain ⟨made, -, hadds, hchange⟩ := write_changesTo hlinks
      (fun other hother htarget hmade => by
        rw [hbatch, Except.ok.injEq] at hother
        subst hother
        exact allows_spares hlinks htarget hmade hbatch hnames hm hfailed hfiles) h
    exact survives_of_changesTo hadds hchange

/--
The second message fails, since it would declare the builder of the first one.
-/
def builderSchema : Schema := ⟨[], [⟨"Shape", []⟩, ⟨"ShapeBuilder", []⟩]⟩

/--
The directory has a file of the message that fails, and one of a message that is gone.
-/
def builderStart : Progress where
  disk := ⟨[
    (["out"], .directory),
    (["out", "shape_builder.protoval.go"], .file "builder"),
    (["out", "point.protoval.go"], .file "point"),
    (["out", Manifest.fileName], .file (Manifest.encode ⟨1, "shapes",
      .ofList [("shape_builder.protoval.go", "1"), ("point.protoval.go", "2")]⟩))]⟩
  metrics := .zero
  log := []

theorem write_keepsFailed_builder :
    ∃ batch q failure?, generateSchema builderSchema nameSettings (.inOrder 2 false) = .ok batch
      ∧ write (some nameSettings) builderSchema (.inOrder false) builderStart = (q, failure?)
      ∧ batch.failedNames = ["ShapeBuilder"]
      ∧ builderStart.disk.IsLinkFree
      ∧ (∀ m ∈ builderSchema.messages, Path.separator ∉ m.name)
      ∧ q.disk.content? ["out", "shape_builder.protoval.go"] = some "builder"
      ∧ q.disk.content? ["out", "point.protoval.go"] = none
      ∧ ∃ gone, builderStart.Removes gone q ∧ ("shape_builder.protoval.go" : Text) ∉ gone
        ∧ Survives nameSettings builderStart.disk q.disk "shape_builder.protoval.go" := by
  have hbuilder : namesOf? (generateSchema builderSchema nameSettings (.inOrder 2 false))
      = some ([("shape.protoval.go" : Text)], [("ShapeBuilder" : Text)]) := by
    decide +kernel
  have hlinks : builderStart.disk.IsLinkFree :=
    Disk.isLinkFree_of_entries (by simp [builderStart])
  have hnames : ∀ m ∈ builderSchema.messages, Path.separator ∉ m.name := by decide
  cases hbatch : generateSchema builderSchema nameSettings (.inOrder 2 false) with
  | error f =>
    rw [hbatch] at hbuilder
    cases hbuilder
  | ok batch =>
    rw [hbatch, namesOf?, Option.some.injEq, Prod.mk.injEq] at hbuilder
    obtain ⟨hfiles, hfailed⟩ := hbuilder
    obtain ⟨gone, hgone, hall⟩ := write_keepsFailed nameSettings builderSchema (.inOrder false)
      builderStart (write (some nameSettings) builderSchema (.inOrder false) builderStart).1 batch _
      hlinks hnames hbatch rfl
    have hfile : (⟨"ShapeBuilder", []⟩ : Message).fileName = "shape_builder.protoval.go" := by
      decide +kernel
    obtain ⟨hkept, hsurvives⟩ := hall ⟨"ShapeBuilder", []⟩ (by simp [builderSchema])
      (by rw [hfailed]; exact List.mem_singleton_self _) (by
        intro f hf
        have hname := List.mem_map_of_mem (f := GeneratedFile.name) hf
        rw [hfiles, List.mem_singleton] at hname
        rw [hname, hfile]
        decide)
    rw [hfile] at hkept hsurvives
    exact ⟨batch, _, _, rfl, rfl, hfailed, hlinks, hnames, by decide +kernel, by decide +kernel,
      gone, hgone, hkept, hsurvives⟩

end Writer

end ValueGen
