import ValueGen.Proofs.Output.Saving

/-!
This module contains what one call of the writer does to a target directory that was empty at the
start and that only the writer touches. A call that saves its manifest brings the source files in
line with it. A call that stops on the way leaves the manifest as it was, and may have written files
that it does not name.
-/

namespace ValueGen

namespace Disk

variable {start d e : Disk} {path name : Text} {directory : Place}

/--
The path leads to a directory in which there is nothing.
-/
structure IsBlank (d : Disk) (path : Text) (directory : Place) : Prop where
  leadsTo : d.LeadsTo path directory
  blank : ∀ name, d.node? (directory ++ [name]) = none

/--
The disk has kept the directories and links that there were at the start, and there are no links in
the directory. So the paths that led to the directory still do.
-/
structure IsSince (start : Disk) (directory : Place) (d : Disk) : Prop where
  keeps : start.Keeps d
  noLinks : d.HasNoLinks directory

theorem IsBlank.isSince (h : start.IsBlank path directory) : IsSince start directory start where
  keeps := Keeps.refl start
  noLinks := by
    intro name target
    rw [h.blank name]
    simp

theorem IsBlank.leadsTo_since (h : start.IsBlank path directory)
    (hsince : IsSince start directory d) : d.LeadsTo path directory :=
  hsince.keeps.leadsTo h.leadsTo

theorem IsSince.of_addsDirectories (h : IsSince start directory d) (hadds : d.AddsDirectories e) :
    IsSince start directory e :=
  ⟨h.keeps.trans hadds.keeps, hadds.hasNoLinks h.noLinks⟩

-- What is in the directory does not matter, since there was nothing at the start.
theorem IsSince.of_entries (h : IsSince start directory d) (hblank : start.IsBlank path directory)
    (hlinks : e.HasNoLinks directory)
    (hothers : ∀ place, (∀ name, place ≠ directory ++ [name]) → e.node? place = d.node? place) :
    IsSince start directory e where
  keeps := by
    intro place n hn hnode
    rw [hothers place]
    . exact h.keeps place n hn hnode
    . rintro name rfl
      rw [hblank.blank name] at hnode
      cases hnode
  noLinks := hlinks

/--
The directory has a source file of the name, which is a single step as all names of entries are.
-/
def HasSource (d : Disk) (directory : Place) (name : Text) : Prop :=
  Writer.isOwnName name = true ∧ ∃ content, d.node? (directory ++ [name]) = some (.file content)

theorem AddsDirectories.hasSource_iff (h : d.AddsDirectories e) (directory : Place) (name : Text) :
    e.HasSource directory name ↔ d.HasSource directory name := by
  unfold HasSource
  simp only [h.node?_eq_file_iff]

end Disk

namespace Writer

variable {o : Options} {schema : Schema} {batch : Batch} {timing : Timing} {previous : Manifest}
  {files : List GeneratedFile} {p q : Progress} {failure? : Option Failure} {directory : Place}
  {start before after : Disk} {target name : Text}

/-! What a call that stops does. -/

/--
The only changes are outputs of the tasks and source files that are gone.
-/
def Touches (o : Options) (files : List GeneratedFile) (directory : Place) (before after : Disk) :
    Prop :=
  ∀ place, after.node? place = before.node? place
    ∨ (after.node? place = none ∧ ∃ name, isOwnName name = true ∧ place = directory ++ [name])
    ∨ ∃ content, after.node? place = some (.file content)
      ∧ IsOutput o files directory place content

theorem Touches.trans {between : Disk} (h : Touches o files directory before between)
    (hafter : Touches o files directory between after) :
    Touches o files directory before after := by
  intro place
  rcases hafter place with hsame | hchanged
  . rw [hsame]
    exact h place
  . exact .inr hchanged

namespace Touches

variable (h : Touches o files directory before after)

include h

theorem hasNoLinks (hlinks : before.HasNoLinks directory) : after.HasNoLinks directory := by
  intro name link
  rcases h (directory ++ [name]) with hsame | ⟨hnone, -⟩ | ⟨content, hnode, -⟩
  . rw [hsame]
    exact hlinks name link
  . rw [hnone]
    simp
  . rw [hnode]
    simp

theorem isSince (hblank : start.IsBlank target directory)
    (hsince : Disk.IsSince start directory before) : Disk.IsSince start directory after := by
  refine hsince.of_entries hblank (h.hasNoLinks hsince.noLinks) ?_
  intro place hplace
  rcases h place with hsame | ⟨-, name, -, heq⟩ | ⟨content, -, houtput⟩
  . exact hsame
  . exact absurd heq (hplace name)
  . cases houtput with
    | final => exact absurd rfl (hplace _)
    | rejected => exact absurd rfl (hplace _)

theorem recorded?_eq (hown : ∀ f ∈ files, isOwnName f.name = true) (name : Text) :
    after.recorded? directory name = before.recorded? directory name := by
  have hmanifest : after.node? (directory ++ [Manifest.fileName])
      = before.node? (directory ++ [Manifest.fileName]) := by
    rcases h (directory ++ [Manifest.fileName]) with hsame | ⟨-, other, hother, hplace⟩
      | ⟨content, -, houtput⟩
    . exact hsame
    . have heq : Manifest.fileName = other := by simpa using hplace
      exact absurd heq.symm (ne_fileName_of_isOwnName hother)
    . exact absurd houtput (not_isOutput_manifest hown content)
  unfold Disk.recorded?
  rw [hmanifest]

theorem hasSource (hsource : after.HasSource directory name) :
    before.HasSource directory name ∨ ∃ f ∈ files, f.name = name := by
  obtain ⟨hown, content, hnode⟩ := hsource
  rcases h (directory ++ [name]) with hsame | ⟨hnone, -⟩ | ⟨other, -, houtput⟩
  . rw [hsame] at hnode
    exact .inl ⟨hown, content, hnode⟩
  . rw [hnone] at hnode
    cases hnode
  . obtain ⟨f, hf, hname, -⟩ := houtput.of_isOwnName hown
    exact .inr ⟨f, hf, hname⟩

end Touches

-- The removal may end early, and then it has taken away some of the stale files only.
theorem removeStale_touches {kept : FileTable} {names : List Text} (htarget : target ≠ [])
    (hblank : start.IsBlank target directory) (hsince : Disk.IsSince start directory p.disk)
    (h : removeStale target kept names p = (q, failure?)) :
    Touches o files directory p.disk q.disk := by
  induction names generalizing p with
  | nil =>
    cases h
    exact fun _ => .inl rfl
  | cons name names ih =>
    unfold removeStale at h
    split at h
    . exact ih hsince h
    . next hkept =>
      have hown : isOwnName name = true := by
        rw [Bool.or_eq_true, not_or] at hkept
        simpa using hkept.2
      have hleads := hblank.leadsTo_since hsince
      split at h
      . next disk hremove =>
        have hnode (place : Place) : disk.node? place
            = if place = directory ++ [name] then none else p.disk.node? place := by
          rw [(hleads.remove_join htarget (isPlain_of_isOwnName hown) hremove).2,
            Disk.node?_erase p.disk (by simp)]
        have hstep : Touches o files directory p.disk disk := by
          intro place
          rw [hnode]
          split
          . next hplace => exact .inr (.inl ⟨rfl, name, hown, hplace⟩)
          . exact .inl rfl
        exact hstep.trans (ih (p := p.removed name disk) (hstep.isSince hblank hsince) h)
      . split at h
        . exact ih (p := p.removed name p.disk) hsince h
        . cases h
          exact fun _ => .inl rfl

theorem Stops.touches (h : Stops o schema batch timing previous p q) (htarget : o.target ≠ [])
    (hown : ∀ f ∈ batch.files, isOwnName f.name = true)
    (hblank : start.IsBlank o.target directory)
    (hsince : Disk.IsSince start directory p.disk) :
    Touches o batch.files directory p.disk q.disk := by
  have htracks : (attempt o batch timing previous p).Tracks o batch.files directory p.disk :=
    Writing.run_tracks _ htarget hown hsince.noLinks (hblank.leadsTo_since hsince)
  have hwritten : Touches o batch.files directory p.disk
      (attempt o batch timing previous p).progress.disk := by
    intro place
    rcases htracks.places place with hsame | houtput
    . exact .inl hsame
    . exact .inr (.inr houtput)
  rcases h with rfl | ⟨failure?, hremove⟩
  . exact hwritten
  . exact hwritten.trans
      (removeStale_touches htarget hblank (hwritten.isSince hblank hsince) hremove)

/-! The calls of a writer. -/

/--
A call of a writer: its settings and its schema, the schedules of its tasks, and what the writer has
counted and logged before.
-/
structure Call where
  settings : Settings
  schema : Schema
  timing : Timing
  metrics : Metrics
  log : List LogLine

namespace Call

/--
What a call has when it starts on a disk.
-/
def progress (c : Call) (d : Disk) : Progress := ⟨d, c.metrics, c.log⟩

/--
What a call on a disk leads to.
-/
def result (c : Call) (d : Disk) : Progress × Option Failure :=
  write (some c.settings) c.schema c.timing (c.progress d)

/--
The disk after a call.
-/
def diskAfter (c : Call) (d : Disk) : Disk := (c.result d).1.disk

/--
The batch of a call, if it gets as far.
-/
def generated (c : Call) : Except Failure Batch :=
  generateSchema c.schema c.settings (c.timing.generation c.schema.messages.length)

/--
The call generates a file of the name.
-/
def Generates (c : Call) (name : Text) : Prop :=
  ∃ batch, c.generated = .ok batch ∧ ∃ f ∈ batch.files, f.name = name

/--
The call on the disk gets as far as saving the manifest.
-/
def CompletesOn (c : Call) (d : Disk) (batch : Batch) : Prop :=
  Completes c.settings c.schema c.timing (c.progress d) batch (c.result d).1

theorem CompletesOn.generates_iff {c : Call} {d : Disk} (h : c.CompletesOn d batch) (name : Text) :
    c.Generates name ↔ ∃ f ∈ batch.files, f.name = name := by
  have hbatch : c.generated = .ok batch := h.1
  unfold Generates
  rw [hbatch]
  simp

/--
The call writes to the target with a manifest, and it runs all its tasks. The packed form has four
bytes for a size, so only a package and a number of messages within them can be read again.
-/
structure IsFor (c : Call) (target : Text) : Prop where
  target : c.settings.target = target
  manifest : c.settings.manifest = true
  runsAll : c.timing.RunsAll
  package : c.settings.package.length < Word.span 4
  messages : c.schema.messages.length < Word.span 4

/--
The writer would take the files that the call generates for its own.
-/
def HasOwnNames (c : Call) : Prop :=
  ∀ batch, c.generated = .ok batch → ∀ f ∈ batch.files, isOwnName f.name = true

/--
The call has not changed what the manifest says, and the only new source files are generated ones.
-/
structure Abandons (c : Call) (start : Disk) (directory : Place) (before after : Disk) : Prop where
  since : Disk.IsSince start directory after
  recorded : ∀ name, after.recorded? directory name = before.recorded? directory name
  sources : ∀ name, after.HasSource directory name
    → before.HasSource directory name ∨ c.Generates name

/--
The call has saved a manifest that has entries for the generated files and for those of failed
messages that had one. The generated files are there, those that lost their entries are gone, and
the others are as before.
-/
structure Refreshes (c : Call) (batch : Batch) (start : Disk) (directory : Place)
    (before after : Disk) : Prop where
  since : Disk.IsSince start directory after
  manifest : ∃ table,
    after.HoldsManifest directory ⟨Manifest.currentVersion, c.settings.package, table⟩
  recorded : ∀ name, (after.recorded? directory name).isSome = true
    ↔ (∃ f ∈ batch.files, f.name = name)
      ∨ (IsFailedFile c.schema batch.failedNames name
        ∧ (before.recorded? directory name).isSome = true)
  generated : ∀ f ∈ batch.files, after.HasSource directory f.name
  stale : ∀ name, (before.recorded? directory name).isSome = true
    → after.recorded? directory name = none → ¬ after.HasSource directory name
  others : ∀ name, (∀ f ∈ batch.files, name ≠ f.name)
    → (before.recorded? directory name = none ∨ (after.recorded? directory name).isSome = true)
    → (after.HasSource directory name ↔ before.HasSource directory name)

-- A source file has an entry, or it had none before either and was not generated.
theorem Refreshes.cases_of_hasSource {c : Call} (h : c.Refreshes batch start directory before after)
    (hsource : after.HasSource directory name) :
    (after.recorded? directory name).isSome = true
      ∨ (before.HasSource directory name ∧ before.recorded? directory name = none
        ∧ ∀ f ∈ batch.files, name ≠ f.name) := by
  cases hafter : after.recorded? directory name with
  | some hash => exact .inl rfl
  | none =>
    right
    have hbefore : before.recorded? directory name = none := by
      rw [← Option.not_isSome_iff_eq_none]
      intro hsome
      exact h.stale name hsome hafter hsource
    have hnew : ∀ f ∈ batch.files, name ≠ f.name := by
      rintro f hf rfl
      have hsome := (h.recorded f.name).2 (.inl ⟨f, hf, rfl⟩)
      rw [hafter] at hsome
      cases hsome
    exact ⟨(h.others name hnew (.inl hbefore)).1 hsource, hbefore, hnew⟩

variable {c : Call} {d : Disk}

theorem isSequential (hfor : c.IsFor target) (h : c.generated = .ok batch) :
    batch.IsSequential c.schema c.settings :=
  isSequential_of_generateSchema_ok (hfor.runsAll _).1 h

theorem hasOwnNames_of_emitterInUse (hfor : c.IsFor target)
    (hemitter : c.settings.emitterInUse = .values) : c.HasOwnNames :=
  fun _ h => isOwnName_of_mem_files (isSequential hfor h) hemitter

theorem hasOwnNames_of_isValid (hfor : c.IsFor target)
    (hnames : ∀ m ∈ c.schema.messages, Identifier.isValid m.name = true) : c.HasOwnNames :=
  fun _ h => isOwnName_of_isValid (isSequential hfor h) hnames

section

variable (hblank : start.IsBlank target directory) (hsince : Disk.IsSince start directory d)
  (hfor : c.IsFor target) (hown : c.HasOwnNames)

include hblank hsince hfor hown

theorem exists_touches (hnot : ∀ batch, ¬ c.CompletesOn d batch) :
    ∃ made files, d.AddsDirectories made ∧ (∀ f ∈ files, c.Generates f.name)
      ∧ Touches c.settings.toOptions files directory made (c.diskAfter d) := by
  have hmade := addsDirectories_madeDisk c.settings d
  cases hbatch : c.generated with
  | error f =>
    refine ⟨d, [], Disk.AddsDirectories.refl d, by simp, fun place => .inl ?_⟩
    unfold diskAfter result
    rw [fst_write_of_error hbatch]
    rfl
  | ok batch =>
    rcases stops_of_not_completes hfor.manifest hbatch (Prod.eta _).symm (hnot batch) with
      (heq | heq) | ⟨htarget, previous, r, hprevious, hstops⟩
    . refine ⟨d, [], Disk.AddsDirectories.refl d, by simp, fun place => .inl ?_⟩
      unfold diskAfter result
      rw [heq]
      rfl
    . refine ⟨_, [], hmade, by simp, fun place => .inl ?_⟩
      unfold diskAfter result
      rw [heq]
      rfl
    . have hdisk : r.disk = madeDisk c.settings d :=
        (previousManifest_cases hfor.manifest hprevious).1
      refine ⟨_, batch.files, hmade, fun f hf => ⟨batch, hbatch, f, hf, rfl⟩, ?_⟩
      have htouches := hstops.touches htarget (hown batch hbatch)
        (hfor.target.symm ▸ hblank) (hdisk ▸ hsince.of_addsDirectories hmade)
      rw [hdisk] at htouches
      exact htouches

theorem abandons (hnot : ∀ batch, ¬ c.CompletesOn d batch) :
    c.Abandons start directory d (c.diskAfter d) := by
  obtain ⟨made, files, hmade, hfiles, htouches⟩ := exists_touches hblank hsince hfor hown hnot
  refine ⟨htouches.isSince hblank (hsince.of_addsDirectories hmade), ?_, ?_⟩
  . intro name
    rw [htouches.recorded?_eq _ name, hmade.recorded?_eq]
    intro f hf
    obtain ⟨batch, hbatch, g, hg, hname⟩ := hfiles f hf
    exact hname ▸ hown batch hbatch g hg
  . intro name hsource
    rcases htouches.hasSource hsource with hbefore | ⟨f, hf, rfl⟩
    . exact .inl ((hmade.hasSource_iff directory name).1 hbefore)
    . exact .inr (hfiles f hf)

theorem refreshes (h : c.CompletesOn d batch) :
    c.Refreshes batch start directory d (c.diskAfter d) := by
  have hmade := addsDirectories_madeDisk c.settings d
  have hmadeSince := hsince.of_addsDirectories hmade
  have hfiles := hown batch h.1
  obtain ⟨previous, table, hprevious, hholds, hconcludes⟩ := h.concludes hfor.manifest hfor.runsAll
    hfiles hsince.noLinks (hfor.target.symm ▸ hblank.leadsTo_since hmadeSince) hfor.package
    hfor.messages
  change ∀ name, previous.files.get? name = d.recorded? directory name at hprevious
  change (c.diskAfter d).HoldsManifest directory _ at hholds
  change Concludes _ _ _ _ _ (madeDisk c.settings d) (c.diskAfter d) table at hconcludes
  have hstale (name : Text) : name ∈ staleNames table previous.files.names
      ↔ (d.recorded? directory name).isSome = true
        ∧ (c.diskAfter d).recorded? directory name = none ∧ isOwnName name = true := by
    rw [mem_staleNames_iff, FileTable.mem_names_iff, hprevious, hholds.recorded?_eq]
  refine ⟨?_, ⟨table, hholds⟩, ?_, ?_, ?_, ?_⟩
  . refine hmadeSince.of_entries hblank hconcludes.noLinks ?_
    intro place hplace
    exact hconcludes.others place (hplace _) (fun f _ => ⟨hplace _, hplace _⟩)
      (fun name _ => hplace name)
  . intro name
    rw [hholds.recorded?_eq, ← hprevious]
    exact hconcludes.isSome_get?_iff name
  . intro f hf
    obtain ⟨hash, ⟨content, held, -, -, hnode, -⟩, -⟩ := hconcludes.generated f hf
    exact ⟨hfiles f hf, held, hnode⟩
  . rintro name hbefore hafter ⟨hname, content, hnode⟩
    rw [hconcludes.stale name ((hstale name).2 ⟨hbefore, hafter, hname⟩)] at hnode
    cases hnode
  . intro name hnew hrecorded
    rw [← hmade.hasSource_iff]
    unfold Disk.HasSource
    refine and_congr_right fun hname => ?_
    rw [hconcludes.others]
    . simpa using ne_fileName_of_isOwnName hname
    . intro f hf
      refine ⟨by simpa using hnew f hf, ?_⟩
      intro hplace
      have heq : name = rejectName f.name := by simpa using hplace
      rw [heq, isOwnName_rejectName] at hname
      cases hname
    . intro other hother hplace
      have heq : name = other := by simpa using hplace
      obtain ⟨hbefore, hafter, -⟩ := (hstale name).1 (heq ▸ hother)
      rcases hrecorded with hnone | hsome
      . rw [hnone] at hbefore
        cases hbefore
      . rw [hafter] at hsome
        cases hsome

end

end Call

end Writer

end ValueGen
