import ValueGen.Proofs.Output.Ending

/-!
This module contains what a run leaves behind that stops while files are written, on a disk without
links. Whichever tasks have run, every file is as it was or has all of its new content, and the
manifest is as it was.
-/

namespace ValueGen

namespace Writer

variable {o : Options} {s : Settings} {schema : Schema} {batch : Batch} {timing : Timing}
  {previous : Manifest} {files : List GeneratedFile} {p q r : Progress} {directory : Place}
  {before : Disk} {w : Writing} {f : Failure}

/-! Why a run stops while files are written. -/

/--
A task failed: its file could not be formatted or not be written, or the work was canceled before it
started.
-/
inductive IsTaskFault (o : Options) (files : List GeneratedFile) : Failure → Prop where
  | unformatted {file : GeneratedFile} (hfile : file ∈ files) :
      IsTaskFault o files (unformatted file (Path.join o.target file.name))
  | unwritten {file : GeneratedFile} (hfile : file ∈ files) (cause : Failure) :
      IsTaskFault o files (.wrapped ("write " ++ file.name) cause)
  | canceled : IsTaskFault o files .canceled

theorem IsTaskFault.not_isLateFault (h : IsTaskFault o files f)
    (hown : ∀ file ∈ files, isOwnName file.name = true) : ¬ IsLateFault f := by
  intro hlate
  cases h with
  | unformatted => cases hlate
  | canceled => cases hlate
  | @unwritten file hfile cause =>
    generalize htext : "write " ++ file.name = text at hlate
    cases hlate with
    | removal name =>
      have hhead := congrArg List.head? htext
      rw [List.head?_append_of_ne_nil _ (by decide), List.head?_append_of_ne_nil _ (by decide)]
        at hhead
      exact absurd hhead (by decide)
    | saving =>
      have hsplit : ("write manifest" : Text) = ("write " : Text) ++ ("manifest" : Text) := rfl
      rw [hsplit] at htext
      have hname := hown file hfile
      rw [List.append_cancel_left htext] at hname
      exact absurd hname (by decide)

theorem eq_of_stopped_eq {g : Failure} (h : stopped batch f = stopped batch g) : f = g := by
  rw [stopped_eq_joined, stopped_eq_joined, Option.some.injEq, Failure.joined.injEq] at h
  exact List.singleton_inj.1 (List.append_cancel_left h)

theorem stopped_ne_some {g : Failure} (hg : ∀ parts, g ≠ .joined parts) (batch : Batch)
    (f : Failure) : stopped batch f ≠ some g := by
  rw [stopped_eq_joined, ne_eq, Option.some.injEq]
  exact fun h => hg _ h.symm

-- What a run reports tells that it was a task that failed.
theorem halted_of_write
    (hbatch : generateSchema schema s (timing.generation schema.messages.length) = .ok batch)
    (hown : ∀ file ∈ batch.files, isOwnName file.name = true)
    (hfault : IsTaskFault s.toOptions batch.files f)
    (h : write (some s) schema timing p = (q, stopped batch f)) :
    s.target ≠ [] ∧ (p.disk.makeDirectories s.target).2 = none
      ∧ ∃ previous r, r.disk = madeDisk s p.disk
        ∧ q = (attempt s.toOptions batch timing previous r).progress := by
  obtain ⟨htarget, hmade, hwrite⟩ :=
    made_of_write hbatch h fun g hg => stopped_ne_some hg batch f
  refine ⟨htarget, hmade, ?_⟩
  generalize hreported : stopped batch f = reported at hwrite
  cases writeBatch_batchEnd hwrite with
  | unread hprevious =>
    obtain ⟨cause, rfl⟩ := previousManifest_error hprevious
    exact absurd hreported (stopped_ne_some (by simp) batch f)
  | halted hprevious _ => exact ⟨_, _, disk_of_previousManifest hprevious, rfl⟩
  | unfinished _ _ hlate =>
    exact absurd hlate (eq_of_stopped_eq hreported ▸ hfault.not_isLateFault hown)
  | finished _ _ => exact absurd hreported.symm (failure?_ne_stopped batch f)

/-! What the tasks leave. -/

theorem Writing.Tracks.content?_cases (h : w.Tracks o files directory before) (place : Place) :
    w.progress.disk.content? place = before.content? place
      ∨ ∃ content, w.progress.disk.content? place = some content
        ∧ IsOutput o files directory place content := by
  rcases h.places place with hsame | ⟨content, hnode, houtput⟩
  . exact .inl (Disk.content?_of_node?_eq hsame)
  . exact .inr ⟨content, (Disk.content?_eq_some_iff _ _ _).2 hnode, houtput⟩

/--
No file is torn: the manifest is as before, no file is gone, and the file of each message is as
before or has its new content as a whole. Only what cannot be formatted is left beside its file,
which stays as it was.
-/
structure LeavesWhole (s : Settings) (schema : Schema) (batch : Batch) (directory : Place)
    (before after : Disk) : Prop where
  manifest : after.content? (directory ++ [Manifest.fileName])
    = before.content? (directory ++ [Manifest.fileName])
  kept : ∀ place, (before.content? place).isSome = true → (after.content? place).isSome = true
  /-- A message that failed for its names may have the file of another one. -/
  sources : ∀ m ∈ schema.messages,
    after.content? (directory ++ [m.fileName]) = before.content? (directory ++ [m.fileName])
      ∨ ∃ n ∈ schema.messages, n.fileName = m.fileName ∧ (schema.TakesNames m → n = m)
        ∧ ∃ content, contentOf? s n = some content
          ∧ after.content? (directory ++ [m.fileName]) = some content
  unformatted : ∀ file ∈ batch.files, finalContent? s.toOptions file = none
    → after.content? (directory ++ [file.name]) = before.content? (directory ++ [file.name])
      ∧ (after.content? (directory ++ [rejectName file.name])
          = before.content? (directory ++ [rejectName file.name])
        ∨ after.content? (directory ++ [rejectName file.name]) = some file.printed.content)
  others : ∀ place, (∀ file ∈ batch.files, place ≠ directory ++ [file.name])
    → (∀ file ∈ batch.files, finalContent? s.toOptions file = none
      → place ≠ directory ++ [rejectName file.name])
    → after.content? place = before.content? place

theorem LeavesWhole.of_addsDirectories {d after : Disk}
    (h : LeavesWhole s schema batch directory before after) (hadds : d.AddsDirectories before) :
    LeavesWhole s schema batch directory d after := by
  obtain ⟨hmanifest, hkept, hsources, hunformatted, hothers⟩ := h
  simp only [hadds.content?_eq] at hmanifest hkept hsources hunformatted hothers
  exact ⟨hmanifest, hkept, hsources, hunformatted, hothers⟩

-- The tasks leave outputs only, and each output belongs to one file.
theorem Writing.Tracks.leavesWhole (h : w.Tracks s.toOptions batch.files directory before)
    (hbatch : batch.IsSequential schema s)
    (hnames : ∀ m ∈ schema.messages, Identifier.isValid m.name = true) :
    LeavesWhole s schema batch directory before w.progress.disk := by
  have hown := isOwnName_of_isValid hbatch hnames
  have hinj {f g : GeneratedFile} (hf : f ∈ batch.files) (hg : g ∈ batch.files)
      (hname : g.name = f.name) : g = f :=
    List.inj_on_of_nodup_map hbatch.nodup_files hg hf hname
  refine ⟨?_, ?_, ?_, ?_, ?_⟩
  . rcases h.content?_cases (directory ++ [Manifest.fileName]) with hsame | ⟨content, -, houtput⟩
    . exact hsame
    . exact absurd houtput (not_isOutput_manifest hown content)
  . intro place hsome
    rcases h.content?_cases place with hsame | ⟨content, hcontent, -⟩
    . rw [hsame]
      exact hsome
    . rw [hcontent]
      rfl
  . intro m hm
    refine (h.content?_cases (directory ++ [m.fileName])).imp_right ?_
    rintro ⟨content, hcontent, houtput⟩
    obtain ⟨f, hf, hname, hfinal⟩ := houtput.of_isOwnName (Message.isOwnName_fileName (hnames m hm))
    obtain ⟨n, hn, printed, hgenerate, rfl⟩ := hbatch.exists_takesNames_of_mem_files hf
    refine ⟨n, hn.mem_messages, hname, fun hm => hn.eq_of_fileName_eq hm hname, content, ?_,
      hcontent⟩
    rw [contentOf?_eq hgenerate]
    exact hfinal
  . intro f hf hnone
    refine ⟨?_, ?_⟩
    . rcases h.content?_cases (directory ++ [f.name]) with hsame | ⟨content, -, houtput⟩
      . exact hsame
      . obtain ⟨g, hg, hname, hfinal⟩ := houtput.of_isOwnName (hown f hf)
        rw [hinj hf hg hname, hnone] at hfinal
        cases hfinal
    . refine (h.content?_cases (directory ++ [rejectName f.name])).imp_right ?_
      rintro ⟨content, hcontent, houtput⟩
      rcases houtput.cases_of_entry with ⟨g, hg, hname, -⟩ | ⟨g, hg, hname, -, rfl⟩
      . have hgo := hown g hg
        rw [hname, isOwnName_rejectName] at hgo
        cases hgo
      . rw [hinj hf hg (List.append_cancel_right hname)] at hcontent
        exact hcontent
  . intro place hfiles hrejects
    rcases h.content?_cases place with hsame | ⟨content, -, houtput⟩
    . exact hsame
    . cases houtput with
      | final hf _ => exact absurd rfl (hfiles _ hf)
      | rejected hf hnone => exact absurd rfl (hrejects _ hf hnone)

/--
A run that stops because a task failed leaves every file whole, whatever the order of the tasks and
however many of them have run. The message that could not be formatted keeps its file.
-/
theorem write_leavesWhole (s : Settings) (schema : Schema) (timing : Timing) (p q : Progress)
    (batch : Batch) (f : Failure) (hlinks : p.disk.IsLinkFree)
    (hnames : ∀ m ∈ schema.messages, Identifier.isValid m.name = true)
    (hcovers : (timing.generation schema.messages.length).Covers schema.messages.length)
    (hbatch : generateSchema schema s (timing.generation schema.messages.length) = .ok batch)
    (hfault : IsTaskFault s.toOptions batch.files f)
    (h : write (some s) schema timing p = (q, stopped batch f)) :
    ∃ directory, q.disk.LeadsTo s.target directory
      ∧ LeavesWhole s schema batch directory p.disk q.disk := by
  have hsequential := isSequential_of_generateSchema_ok hcovers hbatch
  have hown := isOwnName_of_isValid hsequential hnames
  obtain ⟨htarget, hmade, previous, r, hdisk, rfl⟩ := halted_of_write hbatch hown hfault h
  have hadds := addsDirectories_madeDisk s p.disk
  obtain ⟨directory, hleads⟩ := (isOpen_madeDisk hlinks hmade).2.leadsTo
  have hnoLinks := (hadds.isLinkFree hlinks).hasNoLinks directory
  rw [← hdisk] at hadds hleads hnoLinks
  have htracks : (attempt s.toOptions batch timing previous r).Tracks s.toOptions batch.files
      directory r.disk :=
    Writing.run_tracks _ htarget hown hnoLinks hleads
  exact ⟨directory, htracks.keeps.leadsTo hleads,
    (htracks.leavesWhole hsequential hnames).of_addsDirectories hadds⟩

/--
The first task is canceled, and the file of the second one cannot be formatted.
-/
def haltedTiming : Timing where
  generation := fun n => .inOrder n false
  writing := fun _ => [(0, .canceled), (1, .early)]

def rejectSettings : Settings := { nameSettings with format := true }

/--
Was the work canceled, and did nothing else fail?
-/
def isCanceled : Option Failure → Bool
  | some (.joined [.canceled]) => true
  | _ => false

theorem eq_of_isCanceled {failure? : Option Failure} (h : isCanceled failure? = true) :
    failure? = some (.joined [.canceled]) := by
  unfold isCanceled at h
  split at h
  . rfl
  . cases h

theorem write_leavesWhole_shapes :
    ∃ batch q, generateSchema shapeSchema rejectSettings (.inOrder 2 false) = .ok batch
      ∧ write (some rejectSettings) shapeSchema haltedTiming shapeStart
        = (q, stopped batch .canceled)
      ∧ ∃ directory, q.disk.LeadsTo rejectSettings.target directory
        ∧ LeavesWhole rejectSettings shapeSchema batch directory shapeStart.disk q.disk := by
  have hnames : namesOf? (generateSchema shapeSchema rejectSettings (.inOrder 2 false))
      = some ([("shape.protoval.go" : Text), ("point.protoval.go" : Text)], []) := by
    decide +kernel
  have hcanceled : (write (some rejectSettings) shapeSchema haltedTiming shapeStart).2
      = some (.joined [.canceled]) :=
    eq_of_isCanceled (by decide +kernel)
  cases hbatch : generateSchema shapeSchema rejectSettings (.inOrder 2 false) with
  | error f =>
    rw [hbatch] at hnames
    cases hnames
  | ok batch =>
    rw [hbatch, namesOf?, Option.some.injEq, Prod.mk.injEq] at hnames
    have hcovers : (haltedTiming.generation 2).Covers 2 := Schedule.inOrder_covers 2 false
    have hnone := (isSequential_of_generateSchema_ok hcovers hbatch).failure_none.2 hnames.2
    have hwrite : write (some rejectSettings) shapeSchema haltedTiming shapeStart
        = ((write (some rejectSettings) shapeSchema haltedTiming shapeStart).1,
          stopped batch .canceled) := by
      rw [stopped_eq_joined, hnone]
      exact Prod.ext rfl hcanceled
    refine ⟨batch, _, rfl, hwrite, ?_⟩
    exact write_leavesWhole rejectSettings shapeSchema haltedTiming shapeStart _ batch .canceled
      (Disk.isLinkFree_of_entries (by simp [shapeStart])) (by decide +kernel) hcovers hbatch
      .canceled hwrite

end Writer

end ValueGen
