import ValueGen.Proofs.Disk.Reading
import ValueGen.Proofs.Disk.Through
import ValueGen.Proofs.Output.Survival

/-!
This module contains that a manifest which cannot be read back, or which has another version, counts
for nothing. A run that finds one does the same as a run that finds none: one step of the two runs
after the other, their disks differ at most in the manifest and their logs in one warning.
-/

namespace ValueGen

/-! The progress of two runs. -/

/--
The run at `q` is as far as the one at `p`, but has seen nothing of the file with the text `t`: its
disk may lack that file, and its log lacks the lines `extra` behind the lines `start`.
-/
structure Progress.Mirrors (place : Place) (t : Text) (start extra : List LogLine)
    (p q : Progress) : Prop where
  disk : p.disk.DiffersAt place t q.disk
  metrics : q.metrics = p.metrics
  log : ∃ lines, p.log = start ++ extra ++ lines ∧ q.log = start ++ lines

namespace Progress.Mirrors

variable {p q : Progress} {place : Place} {t : Text} {start extra : List LogLine}

theorem report (h : p.Mirrors place t start extra q) (level : Level) (text : Text)
    (facts : List (Text × Text)) :
    (p.report level text facts).Mirrors place t start extra (q.report level text facts) where
  disk := h.disk
  metrics := h.metrics
  log := by
    obtain ⟨lines, hp, hq⟩ := h.log
    refine ⟨lines ++ [⟨level, text, facts⟩], ?_, ?_⟩
    . unfold Progress.report
      rw [hp, List.append_assoc]
    . unfold Progress.report
      rw [hq, List.append_assoc]

theorem withDisk {d e : Disk} (h : p.Mirrors place t start extra q)
    (hdisk : d.DiffersAt place t e) :
    ({ p with disk := d } : Progress).Mirrors place t start extra { q with disk := e } :=
  ⟨hdisk, h.metrics, h.log⟩

theorem wrote {d e : Disk} (h : p.Mirrors place t start extra q) (hdisk : d.DiffersAt place t e)
    (f : GeneratedFile) (content : Text) :
    (p.wrote f content d).Mirrors place t start extra (q.wrote f content e) := by
  have hcounted (metrics : Metrics) :
      ({ p with disk := d, metrics } : Progress).Mirrors place t start extra
        { q with disk := e, metrics } := ⟨hdisk, rfl, h.log⟩
  unfold Progress.wrote
  rw [h.metrics]
  exact (hcounted _).report _ _ _

end Progress.Mirrors

namespace Writer

variable {o : Options} {s : Settings} {schema : Schema} {batch : Batch} {timing : Timing}
  {previous other : Manifest} {files : List GeneratedFile} {p q r : Progress} {place : Place}
  {t : Text} {start extra : List LogLine} {d : Disk} {failure? : Option Failure}

/-! What the tasks that write files leave as it is. -/

theorem writeFile_gainsFiles (o : Options) (previous : Manifest) (f : GeneratedFile)
    (p : Progress) : p.disk.GainsFiles (writeFile o previous f p).1.disk := by
  unfold writeFile
  dsimp only
  split
  . split
    . next disk hwrite => exact Disk.write_gainsFiles hwrite
    . exact .refl _
  . split
    . exact .refl _
    . split
      . next disk hwrite => exact Disk.write_gainsFiles hwrite
      . exact .refl _

theorem turn_gainsFiles (o : Options) (previous : Manifest) (files : List GeneratedFile)
    (w : Writing) (next : Nat × Start) :
    w.progress.disk.GainsFiles (Writing.turn o previous files w next).progress.disk := by
  unfold Writing.turn
  split
  . exact .refl _
  . next f _ =>
    have hgains := writeFile_gainsFiles o previous f w.progress
    split
    . exact .refl _
    . split
      . exact .refl _
      . split
        all_goals
          next heq =>
          rw [heq] at hgains
          exact hgains

theorem run_gainsFiles (o : Options) (previous : Manifest) (files : List GeneratedFile)
    (schedule : Schedule) (p : Progress) :
    p.disk.GainsFiles (Writing.run o previous files schedule p).progress.disk := by
  have hall (w : Writing) : w.progress.disk.GainsFiles
      (schedule.foldl (Writing.turn o previous files) w).progress.disk := by
    induction schedule generalizing w with
    | nil => exact .refl _
    | cons next schedule ih => exact (turn_gainsFiles o previous files w next).trans (ih _)
  exact hall ⟨p, .empty, none⟩

/-! The tasks of two runs that know of no file before. -/

theorem isUnchanged_of_empty (hempty : previous.files = .empty) (name hash : Text) :
    previous.isUnchanged name hash = false := by
  unfold Manifest.isUnchanged
  rw [hempty]
  rfl

theorem writeFile_mirrors {f : GeneratedFile} (h : p.Mirrors place t start extra q)
    (hprevious : previous.files = .empty) (hother : other.files = .empty)
    (hnot : ¬ p.disk.LeadsThrough place (Path.join o.target f.name)) :
    (writeFile o other f q).2 = (writeFile o previous f p).2
      ∧ (writeFile o previous f p).1.Mirrors place t start extra (writeFile o other f q).1 := by
  unfold writeFile
  dsimp only
  cases finalContent? o f with
  | none =>
    dsimp only
    -- What cannot be formatted fails in any case.
    rcases h.disk.write_cases (rejectPath (Path.join o.target f.name)) f.printed.content with
      halike | ⟨⟨e, he⟩, e', he'⟩
    . generalize p.disk.write _ _ = first, q.disk.write _ _ = second at halike
      cases halike with
      | error e => exact ⟨rfl, h⟩
      | ok hdisk => exact ⟨rfl, h.withDisk hdisk⟩
    . rw [he, he']
      exact ⟨rfl, h⟩
  | some content =>
    simp only [isUnchanged_of_empty hprevious, isUnchanged_of_empty hother, Bool.and_false,
      Bool.false_and, Bool.false_eq_true, ↓reduceIte]
    have halike := h.disk.write hnot content
    generalize p.disk.write _ _ = first, q.disk.write _ _ = second at halike
    cases halike with
    | error e => exact ⟨rfl, h⟩
    | ok hdisk => exact ⟨rfl, h.wrote hdisk f content⟩

/--
The tasks of the second run are as far as those of the first one, and ended alike so far.
-/
structure Writing.Mirrors (place : Place) (t : Text) (start extra : List LogLine)
    (w v : Writing) : Prop where
  progress : w.progress.Mirrors place t start extra v.progress
  recorded : v.recorded = w.recorded
  failure : v.failure? = w.failure?

theorem turn_mirrors {w v : Writing} (h : w.Mirrors place t start extra v)
    (hprevious : previous.files = .empty) (hother : other.files = .empty)
    (hnot : ∀ f ∈ files, ¬ w.progress.disk.LeadsThrough place (Path.join o.target f.name))
    (next : Nat × Start) :
    (Writing.turn o previous files w next).Mirrors place t start extra
      (Writing.turn o other files v next) := by
  unfold Writing.turn
  cases hfile : files[next.1]? with
  | none => exact h
  | some f =>
    obtain ⟨hresult, hprogress⟩ :=
      writeFile_mirrors h.progress hprevious hother (hnot f (List.mem_of_getElem? hfile))
    dsimp only
    rw [h.failure]
    split
    . exact ⟨h.progress, h.recorded, by unfold Writing.fail; rw [h.failure]⟩
    . split
      . exact h
      . generalize writeFile o previous f w.progress = first at hresult hprogress
        generalize writeFile o other f v.progress = second at hresult hprogress
        obtain ⟨first, result⟩ := first
        obtain ⟨second, result'⟩ := second
        cases hresult
        cases result with
        | ok hash => exact ⟨hprogress, by rw [h.recorded], rfl⟩
        | error e => exact ⟨hprogress, h.recorded, rfl⟩

-- No turn changes which paths lead through the place.
theorem run_mirrors (h : p.Mirrors place t start extra q) (hprevious : previous.files = .empty)
    (hother : other.files = .empty)
    (hnot : ∀ f ∈ files, ¬ p.disk.LeadsThrough place (Path.join o.target f.name))
    (schedule : Schedule) :
    (Writing.run o previous files schedule p).Mirrors place t start extra
      (Writing.run o other files schedule q) := by
  have hall (w v : Writing) (hw : w.Mirrors place t start extra v)
      (hgains : p.disk.GainsFiles w.progress.disk) :
      (schedule.foldl (Writing.turn o previous files) w).Mirrors place t start extra
        (schedule.foldl (Writing.turn o other files) v) := by
    induction schedule generalizing w v with
    | nil => exact hw
    | cons next schedule ih =>
      refine ih _ _ (turn_mirrors hw hprevious hother ?_ next)
        (hgains.trans (turn_gainsFiles o previous files w next))
      intro f hf hthrough
      exact hnot f hf (hgains.ways.2.stepsFrom hthrough)
  exact hall ⟨p, .empty, none⟩ ⟨q, .empty, none⟩ ⟨h, rfl, rfl⟩ (.refl _)

/-! The end of two runs that know of no file before. -/

theorem keepFailed_of_empty (schema : Schema) (hempty : previous.files = .empty)
    (failed : List Text) (files : FileTable) :
    keepFailed schema previous failed files = files := by
  unfold keepFailed
  induction failed generalizing files with
  | nil => rfl
  | cons name failed ih =>
    have hkeep : keepFailed.keep schema previous files name = files := by
      unfold keepFailed.keep
      rw [hempty]
      cases schema.message? name with
      | none => rfl
      | some m => rfl
    rw [List.foldl_cons, hkeep]
    exact ih files

theorem finish_of_empty (schema : Schema) (batch : Batch) (start : Metrics) (recorded : FileTable)
    (hempty : previous.files = .empty)
    (hwrite : p.disk.write (manifestPath o)
      (Manifest.encode ⟨Manifest.currentVersion, o.package, recorded⟩) = .ok d) :
    finish o schema batch previous start recorded p
      = (({ p with disk := d } : Progress).report .info "protoval: generation done"
        (summary o batch start p.metrics), batch.failure?) := by
  have hnames : previous.files.names = [] := by
    rw [hempty]
    rfl
  unfold finish Manifest.save Manifest.new
  simp only [keepFailed_of_empty schema hempty, hnames, removeStale, hwrite]

theorem write_eq_put {path content : Text} (hlocate : d.locate true path = .ok place)
    (hplace : ¬ d.isDirectory place = true) :
    d.write path content = .ok (d.put place (.file content)) := by
  rw [Disk.write_eq_ok_iff]
  refine ⟨place, hlocate, ?_, rfl⟩
  rw [ne_eq, ← Disk.isDirectory_iff]
  exact hplace

-- The manifest is saved by both runs, so no difference stays.
theorem finish_mirrors (h : p.Mirrors place t start extra q) (schema : Schema) (batch : Batch)
    (before : Metrics) (recorded : FileTable) (hprevious : previous.files = .empty)
    (hother : other.files = .empty) (hlocate : p.disk.locate true (manifestPath o) = .ok place) :
    ∃ saved saved',
      finish o schema batch previous before recorded p = (saved, batch.failure?)
      ∧ finish o schema batch other before recorded q = (saved', batch.failure?)
      ∧ saved.Mirrors place t start extra saved'
      ∧ p.disk.GainsFiles saved.disk
      ∧ ∀ place, saved'.disk.node? place = saved.disk.node? place := by
  have hplace := h.disk.not_isDirectory
  have hplace' : ¬ q.disk.isDirectory place = true := by
    rw [h.disk.isDirectory_eq]
    exact hplace
  have hne : place ≠ [] := by
    rintro rfl
    exact hplace (Disk.isDirectory_nil p.disk)
  have hlocate' : q.disk.locate true (manifestPath o) = .ok place := by
    rw [h.disk.locate_eq (Disk.not_leadsThrough_of_locate hplace hlocate), hlocate]
  let content := Manifest.encode ⟨Manifest.currentVersion, o.package, recorded⟩
  have hwrite : p.disk.write (manifestPath o) content = .ok (p.disk.put place (.file content)) :=
    write_eq_put hlocate hplace
  have hwrite' : q.disk.write (manifestPath o) content = .ok (q.disk.put place (.file content)) :=
    write_eq_put hlocate' hplace'
  refine ⟨_, _, finish_of_empty schema batch before recorded hprevious hwrite,
    finish_of_empty schema batch before recorded hother hwrite', ?_, ?_, ?_⟩
  . have hsummary : summary o batch before q.metrics = summary o batch before p.metrics := by
      rw [h.metrics]
    rw [hsummary]
    exact (h.withDisk (h.disk.put hne fun _ => ⟨content, rfl⟩)).report _ _ _
  . exact Disk.write_gainsFiles hwrite
  . exact h.disk.node?_put_file hne content

/-! The manifest before. -/

/--
What a run logs when it reads a manifest with the text: a warning if it cannot be decoded.
-/
def warnings (o : Options) (t : Text) : List LogLine :=
  match Manifest.decode? t with
  | some _ => []
  | none => [⟨.warning, "protoval: ignoring unreadable manifest",
      [("file", manifestPath o),
        ("error", (Failure.corruptManifest (manifestPath o)).message)]⟩]

theorem previousManifest_unreadable (hmanifest : o.manifest = true)
    (hread : p.disk.read (manifestPath o) = .ok t)
    (hversion : ∀ m, Manifest.decode? t = some m → m.version ≠ Manifest.currentVersion) :
    ∃ previous, previous.files = .empty
      ∧ previousManifest o p = .ok (previous, { p with log := p.log ++ warnings o t }) := by
  unfold previousManifest Manifest.load warnings
  rw [hmanifest, hread]
  dsimp only
  cases hdecode : Manifest.decode? t with
  | none =>
    have htext : Manifest.ofText? t = none := by
      unfold Manifest.ofText?
      rw [hdecode]
      rfl
    rw [htext]
    exact ⟨.new o.package, rfl, rfl⟩
  | some m =>
    have htext : Manifest.ofText? t = some (.new []) := by
      unfold Manifest.ofText?
      rw [hdecode, Option.map_some, if_neg (hversion m hdecode)]
    rw [htext]
    refine ⟨.new [], rfl, ?_⟩
    rw [List.append_nil]
    rfl

theorem previousManifest_missing (hmanifest : o.manifest = true)
    (hlocate : p.disk.locate true (manifestPath o) = .ok place)
    (hnone : p.disk.node? place = none) : previousManifest o p = .ok (.new [], p) := by
  have hread : p.disk.read (manifestPath o)
      = .error (.disk "open" (manifestPath o) .notFound) := by
    unfold Disk.read
    simp only [hlocate, hnone]
    rfl
  unfold previousManifest Manifest.load
  rw [hmanifest, hread]
  rfl

/-! Two runs, one of which finds such a manifest and the other one none. -/

/--
The second run did the same as the first one, which started at `p`, without its manifest. Neither of
them removed anything, and the first one may have warned about what it read.
-/
structure IsUnaffected (o : Options) (place : Place) (t : Text) (p q r : Progress) : Prop where
  disk : q.disk.DiffersAt place t r.disk
  metrics : r.metrics = q.metrics
  removes : p.Removes [] q
  stays : ∀ place, p.disk.node? place ≠ none → q.disk.node? place ≠ none
  log : q.log = p.log ∧ r.log = p.log
    ∨ ∃ lines, q.log = p.log ++ warnings o t ++ lines ∧ r.log = p.log ++ lines

-- Making directories counts for nothing here.
theorem isUnaffected_of_addsDirectories {e : Disk} (hadds : p.disk.AddsDirectories d)
    (hdiffers : d.DiffersAt place t e) :
    IsUnaffected o place t p { p with disk := d } { p with disk := e } where
  disk := hdiffers
  metrics := rfl
  removes := Progress.removes_nil_of_eq rfl rfl
  stays := fun _ => hadds.stays
  log := .inl ⟨rfl, rfl⟩

theorem IsUnaffected.of_addsDirectories (hadds : p.disk.AddsDirectories d)
    (h : IsUnaffected o place t { p with disk := d } q r) : IsUnaffected o place t p q r where
  disk := h.disk
  metrics := h.metrics
  removes := ⟨h.removes.logged, h.removes.counted⟩
  stays := fun other hother => h.stays other (hadds.stays hother)
  log := h.log

-- Only files that the manifest before names are removed.
theorem removes_nil_of_empty (hprevious : previousManifest o p = .ok (previous, r))
    (hempty : previous.files = .empty)
    (h : writeBatch o schema batch timing p = (q, failure?)) : p.Removes [] q := by
  obtain ⟨gone, hgone, hstale⟩ := writeBatch_removes h
  cases gone with
  | nil => exact hgone
  | cons name names =>
    obtain ⟨-, other, r', hother, hname⟩ := hstale name List.mem_cons_self
    rw [hprevious, Except.ok.injEq, Prod.mk.injEq] at hother
    rw [← hother.1, hempty] at hname
    cases hname

theorem writeBatch_unreadable (hmanifest : o.manifest = true)
    (hlocate : p.disk.locate true (manifestPath o) = .ok place)
    (hnode : p.disk.node? place = some (.file t)) (hnone : d.node? place = none)
    (hdiffers : p.disk.DiffersAt place t d)
    (hversion : ∀ m, Manifest.decode? t = some m → m.version ≠ Manifest.currentVersion)
    (hnot : ∀ f ∈ batch.files, ¬ p.disk.LeadsThrough place (Path.join o.target f.name))
    (h : writeBatch o schema batch timing p = (q, failure?)) :
    ∃ r, writeBatch o schema batch timing { p with disk := d } = (r, failure?)
      ∧ IsUnaffected o place t p q r
      ∧ (failure? = batch.failure? → ∀ place, r.disk.node? place = q.disk.node? place) := by
  have hread : p.disk.read (manifestPath o) = .ok t := by
    unfold Disk.read
    simp only [hlocate, hnode]
  have hlocate' : d.locate true (manifestPath o) = .ok place := by
    rw [hdiffers.locate_eq (Disk.not_leadsThrough_of_locate hdiffers.not_isDirectory hlocate),
      hlocate]
  obtain ⟨previous, hempty, hprevious⟩ := previousManifest_unreadable hmanifest hread hversion
  have hmissing : previousManifest o { p with disk := d } = .ok (.new [], { p with disk := d }) :=
    previousManifest_missing hmanifest hlocate' hnone
  have hstart : ({ p with log := p.log ++ warnings o t } : Progress).Mirrors place t p.log
      (warnings o t) { p with disk := d } :=
    ⟨hdiffers, rfl, [], (List.append_nil _).symm, (List.append_nil _).symm⟩
  have hnew : (Manifest.new []).files = .empty := rfl
  have hrun := run_mirrors hstart hempty hnew hnot (timing.writing batch.files.length)
  have hgains := run_gainsFiles o previous batch.files (timing.writing batch.files.length)
    { p with log := p.log ++ warnings o t }
  have hremoves : p.Removes [] q := removes_nil_of_empty hprevious hempty h
  have hunaffected {r : Progress} (hmirrors : q.Mirrors place t p.log (warnings o t) r)
      (hgains : p.disk.GainsFiles q.disk) : IsUnaffected o place t p q r :=
    ⟨hmirrors.disk, hmirrors.metrics, hremoves, hgains.stays, .inr hmirrors.log⟩
  unfold writeBatch at h ⊢
  rw [hprevious] at h
  rw [hmissing]
  dsimp only at h ⊢
  generalize Writing.run o previous batch.files _ _ = w at h hrun hgains
  generalize Writing.run o (.new []) batch.files _ _ = v at hrun
  rw [hrun.failure, hrun.recorded]
  cases hfailure : w.failure? with
  | some f =>
    rw [hfailure] at h
    cases h
    exact ⟨_, rfl, hunaffected hrun.progress hgains,
      fun heq => absurd heq.symm (failure?_ne_stopped batch f)⟩
  | none =>
    obtain ⟨saved, saved', hfinish, hfinish', hmirrors, hsaved, hsame⟩ :=
      finish_mirrors hrun.progress schema batch p.metrics w.recorded hempty hnew
        (hgains.ways.1.locate_ok hlocate)
    rw [hfailure] at h
    simp only [hmanifest, ↓reduceIte, hfinish] at h ⊢
    cases h
    exact ⟨saved', hfinish', hunaffected hmirrors (hgains.trans hsaved), fun _ => hsame⟩

/--
A run that finds a manifest which cannot be decoded, or which has another version, does the same as
a run that finds none, as long as no path that it takes leads through the manifest: that of the
target directory leads to it in no way, and those of the generated files do not take a step from it.
Both report the same, and if the manifest is saved, they leave the same behind.
-/
theorem write_unreadable (s : Settings) (schema : Schema) (timing : Timing) (p q : Progress)
    (place : Place) (t : Text) (failure? : Option Failure) (hmanifest : s.manifest = true)
    (hlocate : (madeDisk s p.disk).locate true (manifestPath s.toOptions) = .ok place)
    (hnode : p.disk.node? place = some (.file t))
    (hversion : ∀ m, Manifest.decode? t = some m → m.version ≠ Manifest.currentVersion)
    (htarget : ¬ (madeDisk s p.disk).LeadsInto place s.target)
    (hfiles : ∀ batch,
      generateSchema schema s (timing.generation schema.messages.length) = .ok batch
        → ∀ f ∈ batch.files,
          ¬ (madeDisk s p.disk).LeadsThrough place (Path.join s.target f.name))
    (h : write (some s) schema timing p = (q, failure?)) :
    ∃ r, write (some s) schema timing { p with disk := p.disk.erase place } = (r, failure?)
      ∧ IsUnaffected s.toOptions place t p q r
      ∧ ∀ batch, Completes s schema timing p batch q
        → ∀ place, r.disk.node? place = q.disk.node? place := by
  have herased := Disk.differsAt_erase hnode
  obtain ⟨hsame, hmade⟩ := herased.makeDirectories htarget
  have hadds := Disk.makeDirectories_addsDirectories p.disk s.target
  -- A single failure is not that of a run that completes.
  have hsingle {f : Failure} (hf : ∀ parts, f ≠ .joined parts) (hreported : failure? = some f)
      {batch : Batch} : ¬ Completes s schema timing p batch q := by
    rintro ⟨-, hcompletes⟩
    rw [h, Prod.mk.injEq, hreported] at hcompletes
    exact failure?_ne_some hf batch hcompletes.2.symm
  by_cases hempty : s.target = []
  . have hq := h
    rw [write_of_missing hempty] at hq ⊢
    cases hq
    exact ⟨_, rfl, isUnaffected_of_addsDirectories (.refl _) herased,
      fun _ hcompletes => absurd hcompletes (hsingle (by simp [missingTarget]) rfl)⟩
  cases hbatch : generateSchema schema s (timing.generation schema.messages.length) with
  | error f =>
    have hq := h
    rw [write_of_error hempty hbatch] at hq ⊢
    cases hq
    refine ⟨_, rfl, isUnaffected_of_addsDirectories (.refl _) herased, ?_⟩
    intro batch hcompletes
    rw [hcompletes.1] at hbatch
    cases hbatch
  | ok batch =>
    cases hfailure : (p.disk.makeDirectories s.target).2 with
    | some f =>
      have hq := h
      rw [write_of_not_made hempty hbatch hfailure] at hq
      rw [write_of_not_made hempty hbatch (hsame.trans hfailure)]
      cases hq
      exact ⟨_, rfl, isUnaffected_of_addsDirectories hadds hmade,
        fun _ hcompletes => absurd hcompletes (hsingle (by simp) rfl)⟩
    | none =>
      have hq := h
      rw [write_of_made hempty hbatch hfailure] at hq
      rw [write_of_made hempty hbatch (hsame.trans hfailure)]
      have hmissing := hmade.node?_eq_none (Disk.makeDirectories_addsDirectories _ s.target)
        (Disk.node?_erase_of_file hnode)
      obtain ⟨r, hr, hunaffected, hsaved⟩ := writeBatch_unreadable hmanifest hlocate
        ((hadds.node?_eq_file_iff place t).2 hnode) hmissing hmade hversion (hfiles batch hbatch) hq
      refine ⟨r, hr, hunaffected.of_addsDirectories hadds, ?_⟩
      rintro other ⟨hother, hcompletes⟩
      rw [hbatch, Except.ok.injEq] at hother
      rw [h, Prod.mk.injEq, ← hother] at hcompletes
      exact hsaved hcompletes.2

/--
The manifest cannot be decoded. There are more nodes on the disk.
-/
def garbledStart (more : List (Place × Node)) : Progress where
  disk := ⟨(["out"], .directory) :: (["out", ".protoval.manifest"], .file "garbage") :: more⟩
  metrics := .zero
  log := []

def garbledPlace : Place := ["out", ".protoval.manifest"]

theorem decode?_garbage : Manifest.decode? "garbage" = none := by decide +kernel

theorem write_unreadable_garbled :
    ∃ q r, write (some shapeSettings) shapeSchema (.inOrder false) (garbledStart []) = (q, none)
      ∧ write (some shapeSettings) shapeSchema (.inOrder false)
        { garbledStart [] with disk := (garbledStart []).disk.erase garbledPlace } = (r, none)
      ∧ IsUnaffected shapeSettings.toOptions garbledPlace "garbage" (garbledStart []) q r
      ∧ ∀ place, r.disk.node? place = q.disk.node? place := by
  let q := (write (some shapeSettings) shapeSchema (.inOrder false) (garbledStart [])).1
  have hwrite :
      write (some shapeSettings) shapeSchema (.inOrder false) (garbledStart []) = (q, none) := by
    refine Prod.ext rfl ?_
    rw [← Option.isNone_iff_eq_none]
    decide +kernel
  have hplace : ¬ (garbledStart []).disk.isDirectory garbledPlace = true := by decide
  have hmade : madeDisk shapeSettings (garbledStart []).disk = (garbledStart []).disk := by
    unfold madeDisk
    rw [Disk.makeDirectories_eq]
    rfl
  have htarget : ¬ (garbledStart []).disk.LeadsInto garbledPlace shapeSettings.target := by
    rw [Disk.leadsInto_iff]
    exact Disk.not_leadsThrough_of_locate (p := ["out"]) hplace (by decide)
  have hlocate : ∀ m ∈ shapeSchema.messages, (garbledStart []).disk.locate true
      (Path.join shapeSettings.target m.fileName) = .ok ["out", m.fileName] := by
    decide +kernel
  obtain ⟨r, hr, hunaffected, hsaved⟩ := write_unreadable shapeSettings shapeSchema
    (.inOrder false) (garbledStart []) q garbledPlace "garbage" none rfl
    (by rw [hmade]; decide +kernel) rfl (by simp [decode?_garbage]) (by rw [hmade]; exact htarget)
    (by
      intro batch hbatch f hf
      have hsequential := isSequential_of_generateSchema_ok (Schedule.inOrder_covers 2 false) hbatch
      obtain ⟨m, hm, printed, -, rfl⟩ := hsequential.exists_of_mem_files hf
      rw [hmade]
      exact Disk.not_leadsThrough_of_locate hplace (hlocate m hm))
    hwrite
  obtain ⟨batch, hcompletes, -⟩ := completes_of_none hwrite rfl
  exact ⟨q, r, hwrite, hr, hunaffected, hsaved batch hcompletes⟩

/--
If the path of the target directory leads through the manifest, or that of a generated file does
because of a link, a run without the manifest fails for another reason.
-/
theorem exists_unreadable_matters :
    let through : Settings :=
      { Settings.default with package := "shapes", target := "out/.protoval.manifest/.." }
    let linked := garbledStart
      [(["out", "shape.protoval.go"], .link ".protoval.manifest/shape.protoval.go")]
    Manifest.decode? "garbage" = none
    ∧ (write (some through) ⟨[], []⟩ (.inOrder false) (garbledStart [])).2
      ≠ (write (some through) ⟨[], []⟩ (.inOrder false)
        { garbledStart [] with disk := (garbledStart []).disk.erase garbledPlace }).2
    ∧ (write (some shapeSettings) shapeSchema (.inOrder false) linked).2
      ≠ (write (some shapeSettings) shapeSchema (.inOrder false)
        { linked with disk := linked.disk.erase garbledPlace }).2 := by
  intro through linked
  refine ⟨decode?_garbage, ?_, ?_⟩
  . intro heq
    have hmessage := congrArg (Option.map Failure.message) heq
    revert hmessage
    decide +kernel
  . intro heq
    have hmessage := congrArg (Option.map Failure.message) heq
    revert hmessage
    decide +kernel

end Writer

end ValueGen
