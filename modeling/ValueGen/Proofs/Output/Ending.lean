import ValueGen.Proofs.Failure.Cause
import ValueGen.Proofs.Output.Exit
import ValueGen.Proofs.Output.Shadow

/-!
This module contains what a run reports in the end. Once the target directory is there and the
manifest in it could be read, whatever goes wrong is reported together with all the reasons for
which messages could not be generated. If one of the two fails, these reasons are lost.
-/

namespace ValueGen

namespace Disk

variable {d : Disk} {path : Text} {f : Failure}

theorem exists_of_read_error (h : d.read path = .error f) :
    ∃ operation fault, f = .disk operation path fault := by
  unfold read refuse at h
  split at h
  . cases h
    exact ⟨_, _, rfl⟩
  . split at h
    . cases h
    all_goals
      cases h
      exact ⟨_, _, rfl⟩

theorem exists_of_write_error {content : Text} (h : d.write path content = .error f) :
    ∃ operation fault, f = .disk operation path fault := by
  unfold write refuse at h
  split at h
  . cases h
    exact ⟨_, _, rfl⟩
  . split at h
    . cases h
      exact ⟨_, _, rfl⟩
    . cases h

theorem exists_of_remove_error (h : d.remove path = .error f) :
    ∃ operation fault, f = .disk operation path fault := by
  unfold remove refuse at h
  split at h
  . cases h
    exact ⟨_, _, rfl⟩
  . split at h
    . cases h
      exact ⟨_, _, rfl⟩
    . split at h
      . cases h
      . cases h
        exact ⟨_, _, rfl⟩
    . cases h

theorem exists_of_ensureDirectory_some (h : (d.ensureDirectory path).2 = some f) :
    ∃ operation fault, f = .disk operation path fault := by
  have hmake {g : Failure} (hg : d.makeDirectory path = .error g) :
      ∃ operation fault, g = .disk operation path fault := by
    unfold makeDirectory refuse at hg
    split at hg
    . cases hg
      exact ⟨_, _, rfl⟩
    . split at hg
      . cases hg
      . cases hg
        exact ⟨_, _, rfl⟩
  unfold ensureDirectory at h
  split at h
  . cases h
  . next g hg =>
    split at h
    . split at h
      . cases h
      . cases h
        exact hmake hg
    . cases h
      exact hmake hg

theorem exists_of_makeDirectories_some (h : (d.makeDirectories path).2 = some f) :
    ∃ operation path fault, f = .disk operation path fault := by
  fun_induction makeDirectories d path with
  | case1 => cases h
  | case2 path =>
    cases h
    exact ⟨_, _, _, rfl⟩
  | case3 path =>
    obtain ⟨operation, fault, rfl⟩ := exists_of_ensureDirectory_some h
    exact ⟨operation, path, fault, rfl⟩
  | case4 path _ parent _ e g hfailed ih =>
    cases h
    exact ih (by rw [hfailed])
  | case5 path =>
    obtain ⟨operation, fault, rfl⟩ := exists_of_ensureDirectory_some h
    exact ⟨operation, path, fault, rfl⟩

end Disk

namespace Writer

variable {o : Options} {s : Settings} {schema : Schema} {batch : Batch} {timing : Timing}
  {previous : Manifest} {p q r : Progress} {failure? : Option Failure} {f g : Failure}

/-! How the writing of a batch ends. -/

/--
A failure after all files have been written: a stale file could not be removed, or the manifest
could not be saved.
-/
inductive IsLateFault : Failure → Prop where
  | removal (name : Text) (cause : Failure) : IsLateFault (.wrapped ("remove stale " ++ name) cause)
  | saving (cause : Failure) : IsLateFault (.wrapped "write manifest" cause)

/--
All ways in which the writing of a batch can end, with and without a manifest.
-/
inductive BatchEnd (o : Options) (batch : Batch) (timing : Timing) (p : Progress) :
    Progress → Option Failure → Prop where
  /-- The manifest before cannot be read. -/
  | unread {f : Failure} (h : previousManifest o p = .error f) :
      BatchEnd o batch timing p p (some f)
  /-- A task failed. -/
  | halted {previous : Manifest} {r : Progress} {f : Failure}
      (hprevious : previousManifest o p = .ok (previous, r))
      (h : (attempt o batch timing previous r).failure? = some f) :
      BatchEnd o batch timing p (attempt o batch timing previous r).progress (stopped batch f)
  /-- All files were written, but something failed after that. -/
  | unfinished {previous : Manifest} {q r : Progress} {f : Failure}
      (hprevious : previousManifest o p = .ok (previous, r))
      (h : (attempt o batch timing previous r).failure? = none) (hf : IsLateFault f) :
      BatchEnd o batch timing p q (stopped batch f)
  /-- Nothing failed but the messages of the batch. -/
  | finished {previous : Manifest} {q r : Progress}
      (hprevious : previousManifest o p = .ok (previous, r))
      (h : (attempt o batch timing previous r).failure? = none) :
      BatchEnd o batch timing p q batch.failure?

theorem isLateFault_of_removeStale {target : Text} {kept : FileTable} {names : List Text}
    (h : removeStale target kept names p = (q, some f)) : IsLateFault f := by
  induction names generalizing p with
  | nil => cases h
  | cons name names ih =>
    unfold removeStale at h
    split at h
    . exact ih h
    . split at h
      . exact ih h
      . split at h
        . exact ih h
        . cases h
          exact .removal name _

theorem isLateFault_of_save {m : Manifest} {d : Disk} {path : Text}
    (h : m.save d path = .error f) : IsLateFault f := by
  unfold Manifest.save at h
  split at h
  . cases h
  . cases h
    exact .saving _

theorem finish_cases {start : Metrics} {recorded : FileTable}
    (h : finish o schema batch previous start recorded p = (q, failure?)) :
    (∃ f, IsLateFault f ∧ failure? = stopped batch f) ∨ failure? = batch.failure? := by
  unfold finish at h
  dsimp only at h
  split at h
  . next f hremove =>
    cases h
    exact .inl ⟨f, isLateFault_of_removeStale hremove, rfl⟩
  . split at h
    . next f hsave =>
      cases h
      exact .inl ⟨f, isLateFault_of_save hsave, rfl⟩
    . cases h
      exact .inr rfl

theorem writeBatch_batchEnd (h : writeBatch o schema batch timing p = (q, failure?)) :
    BatchEnd o batch timing p q failure? := by
  unfold writeBatch at h
  split at h
  . next f hprevious =>
    cases h
    exact .unread hprevious
  . next previous r hprevious =>
    dsimp only at h
    split at h
    . next f hfailed =>
      cases h
      exact .halted hprevious hfailed
    . next hwritten =>
      split at h
      . rcases finish_cases h with ⟨f, hf, rfl⟩ | rfl
        . exact .unfinished hprevious hwritten hf
        . exact .finished hprevious hwritten
      . cases h
        exact .finished hprevious hwritten

/-! What a failure reports of a batch. -/

/--
All reasons for which messages of the batch failed are among what the failure contains.
-/
def ReportsAll (batch : Batch) (f : Failure) : Prop :=
  ∀ g ∈ batch.failed.map Prod.snd, f.Contains g

theorem failure?_eq_joined (hfailed : batch.failedNames ≠ []) :
    batch.failure? = some (.joined (batch.failed.map Prod.snd)) := by
  unfold Batch.failedNames at hfailed
  rw [ne_eq, List.map_eq_nil_iff] at hfailed
  unfold Batch.failure?
  cases hlist : batch.failed with
  | nil => exact absurd hlist hfailed
  | cons first rest => rfl

theorem reportsAll_joined (batch : Batch) :
    ReportsAll batch (.joined (batch.failed.map Prod.snd)) :=
  fun g hg => Failure.contains_joined hg (.self g)

theorem stopped_eq (hfailed : batch.failedNames ≠ []) (f : Failure) :
    stopped batch f = some (.joined [.joined (batch.failed.map Prod.snd), f]) := by
  rw [stopped_eq_joined, failure?_eq_joined hfailed]
  rfl

theorem reportsAll_of_stopped (hfailed : batch.failedNames ≠ []) (h : stopped batch f = some g) :
    ReportsAll batch g := by
  rw [stopped_eq hfailed] at h
  cases h
  intro k hk
  exact Failure.contains_joined (List.mem_cons_self) (reportsAll_joined batch k hk)

theorem ReportsAll.has_generation (h : ReportsAll batch f) (hfailed : batch.failedNames ≠ [])
    (hgeneration : ∀ g ∈ batch.failed.map Prod.snd, g.has .generation = true) :
    f.has .generation = true := by
  unfold Batch.failedNames at hfailed
  rw [ne_eq, List.map_eq_nil_iff] at hfailed
  obtain ⟨first, hfirst⟩ := List.exists_mem_of_ne_nil _ hfailed
  have hmem : first.2 ∈ batch.failed.map Prod.snd := List.mem_map_of_mem hfirst
  exact Failure.has_of_contains (h _ hmem) (hgeneration _ hmem)

theorem has_generation_wrapped_disk (text operation path : Text) (fault : DiskFault) :
    (Failure.wrapped text (.disk operation path fault)).has .generation = false := by
  unfold Failure.has
  simp [Failure.anyNode, Failure.isKind]

/-! Before any file is written. -/

/--
The target directory can be made, and the manifest in it can be read, unless it is not there or not
in use.
-/
structure IsPrepared (s : Settings) (d : Disk) : Prop where
  directory : (d.makeDirectories s.target).2 = none
  manifest : s.manifest = true → ∀ f, (madeDisk s d).read (manifestPath s.toOptions) = .error f
    → f.is .notFound = true

theorem previousManifest_eq_error_iff (o : Options) (p : Progress) (f : Failure) :
    previousManifest o p = .error f
      ↔ o.manifest = true ∧ ∃ cause, p.disk.read (manifestPath o) = .error cause
        ∧ cause.is .notFound = false ∧ f = .wrapped "read manifest" cause := by
  unfold previousManifest Manifest.load
  cases o.manifest with
  | false => simp
  | true =>
    cases hread : p.disk.read (manifestPath o) with
    | ok t =>
      cases htext : Manifest.ofText? t with
      | some m => simp [htext]
      | none => simp [htext, Failure.is, Failure.anyNode, Failure.matchesAlone]
    | error cause =>
      obtain ⟨operation, fault, rfl⟩ := Disk.exists_of_read_error hread
      cases hmissing : (Failure.disk operation (manifestPath o) fault).is .notFound with
      | true => simp [hmissing]
      | false =>
        have hcorrupt : (Failure.wrapped "read manifest"
            (.disk operation (manifestPath o) fault)).is .corruptManifest = false := by
          unfold Failure.is
          cases fault
          all_goals simp [Failure.anyNode, Failure.matchesAlone]
        simp only [Bool.not_true, Bool.false_eq_true, ↓reduceIte, hmissing, hcorrupt]
        constructor
        . intro h
          cases h
          exact ⟨trivial, _, rfl, hmissing, rfl⟩
        . rintro ⟨-, cause, hcause, -, rfl⟩
          cases hcause
          rfl

theorem IsPrepared.previousManifest_ne_error (h : IsPrepared s p.disk) (f : Failure) :
    previousManifest s.toOptions { p with disk := madeDisk s p.disk } ≠ .error f := by
  intro hprevious
  obtain ⟨hmanifest, cause, hread, hmissing, -⟩ := (previousManifest_eq_error_iff _ _ f).1 hprevious
  rw [h.manifest hmanifest cause hread] at hmissing
  cases hmissing

-- A run that is prepared ends with all reasons, whatever else goes wrong.
theorem IsPrepared.reportsAll (timing : Timing) (h : IsPrepared s p.disk)
    (htarget : s.target ≠ [])
    (hbatch : generateSchema schema s (timing.generation schema.messages.length) = .ok batch)
    (hfailed : batch.failedNames ≠ []) :
    ∃ f, (write (some s) schema timing p).2 = some f ∧ ReportsAll batch f := by
  rw [write_of_made htarget hbatch h.directory]
  generalize hend : writeBatch s.toOptions schema batch timing
    { p with disk := madeDisk s p.disk } = result
  obtain ⟨q, failure?⟩ := result
  cases writeBatch_batchEnd hend with
  | unread hprevious => exact absurd hprevious (h.previousManifest_ne_error _)
  | halted _ _ =>
    exact ⟨_, stopped_eq hfailed _, reportsAll_of_stopped hfailed (stopped_eq hfailed _)⟩
  | unfinished _ _ _ =>
    exact ⟨_, stopped_eq hfailed _, reportsAll_of_stopped hfailed (stopped_eq hfailed _)⟩
  | finished _ _ => exact ⟨_, failure?_eq_joined hfailed, reportsAll_joined batch⟩

theorem not_isPrepared_cases (timing : Timing) (h : ¬ IsPrepared s p.disk)
    (htarget : s.target ≠ [])
    (hbatch : generateSchema schema s (timing.generation schema.messages.length) = .ok batch) :
    ∃ text operation path fault, (write (some s) schema timing p).2
      = some (.wrapped text (.disk operation path fault)) := by
  cases hmade : (p.disk.makeDirectories s.target).2 with
  | some f =>
    have hmake : p.disk.makeDirectories s.target = (madeDisk s p.disk, some f) :=
      Prod.ext rfl hmade
    have hwrite : (write (some s) schema timing p).2
        = some (.wrapped "create output directory" f) := by
      unfold write
      simp [htarget, hbatch, hmake]
    obtain ⟨operation, path, fault, rfl⟩ := Disk.exists_of_makeDirectories_some hmade
    exact ⟨_, operation, path, fault, hwrite⟩
  | none =>
    rw [write_of_made htarget hbatch hmade]
    -- Then it is the manifest that cannot be read.
    have hread : s.manifest = true ∧ ∃ f,
        (madeDisk s p.disk).read (manifestPath s.toOptions) = .error f
          ∧ f.is .notFound = false := by
      by_contra hnot
      refine h ⟨hmade, fun hmanifest f hread => ?_⟩
      by_contra hmissing
      exact hnot ⟨hmanifest, f, hread, Bool.eq_false_iff.2 hmissing⟩
    obtain ⟨hmanifest, f, hread, hmissing⟩ := hread
    have hprevious := (previousManifest_eq_error_iff s.toOptions
      { p with disk := madeDisk s p.disk } (.wrapped "read manifest" f)).2
      ⟨hmanifest, f, hread, hmissing, rfl⟩
    obtain ⟨operation, fault, rfl⟩ := Disk.exists_of_read_error hread
    unfold writeBatch
    rw [hprevious]
    exact ⟨_, operation, _, fault, rfl⟩

theorem not_reportsAll_of_not_isPrepared (timing : Timing) (h : ¬ IsPrepared s p.disk)
    (htarget : s.target ≠ [])
    (hcovers : (timing.generation schema.messages.length).Covers schema.messages.length)
    (hbatch : generateSchema schema s (timing.generation schema.messages.length) = .ok batch)
    (hfailed : batch.failedNames ≠ []) :
    ∃ f, (write (some s) schema timing p).2 = some f ∧ ¬ ReportsAll batch f
      ∧ f.has .generation = false := by
  have hgeneration := (isSequential_of_generateSchema_ok hcovers hbatch).generation
  obtain ⟨text, operation, path, fault, hf⟩ := not_isPrepared_cases timing h htarget hbatch
  have hnot := has_generation_wrapped_disk text operation path fault
  refine ⟨_, hf, ?_, hnot⟩
  intro hall
  rw [hall.has_generation hfailed hgeneration] at hnot
  cases hnot

/--
A run with messages that failed always reports a failure. It contains all reasons for which messages
failed, and is recognized as a failed generation, exactly if the target directory could be made and
the manifest in it could be read.
-/
theorem reportsAll_iff_isPrepared (s : Settings) (schema : Schema) (timing : Timing)
    (p : Progress) (batch : Batch) (htarget : s.target ≠ [])
    (hcovers : (timing.generation schema.messages.length).Covers schema.messages.length)
    (hbatch : generateSchema schema s (timing.generation schema.messages.length) = .ok batch)
    (hfailed : batch.failedNames ≠ []) :
    ∃ f, (write (some s) schema timing p).2 = some f
      ∧ (ReportsAll batch f ↔ IsPrepared s p.disk)
      ∧ (f.has .generation = true ↔ IsPrepared s p.disk) := by
  by_cases hprepared : IsPrepared s p.disk
  . obtain ⟨f, hf, hall⟩ := IsPrepared.reportsAll timing hprepared htarget hbatch hfailed
    have hhas := hall.has_generation hfailed
      (isSequential_of_generateSchema_ok hcovers hbatch).generation
    exact ⟨f, hf, by simp [hall, hprepared], by simp [hhas, hprepared]⟩
  . obtain ⟨f, hf, hnot, hhas⟩ :=
      not_reportsAll_of_not_isPrepared timing hprepared htarget hcovers hbatch hfailed
    exact ⟨f, hf, by simp [hnot, hprepared], by simp [hhas, hprepared]⟩

/--
There is a file where the target directory should be.
-/
def blockedStart : Progress := ⟨⟨[(["out"], .file "notes")]⟩, .zero, []⟩

theorem exists_batch_colliding : ∃ batch,
    generateSchema collidingSchema nameSettings (.inOrder 2 false) = .ok batch
      ∧ batch.failedNames = ["UserId"] := by
  have hnames : namesOf? (generateSchema collidingSchema nameSettings (.inOrder 2 false))
      = some ([("user_id.protoval.go" : Text)], [("UserId" : Text)]) := by
    decide +kernel
  cases hbatch : generateSchema collidingSchema nameSettings (.inOrder 2 false) with
  | error f =>
    rw [hbatch] at hnames
    cases hnames
  | ok batch =>
    rw [hbatch, namesOf?, Option.some.injEq, Prod.mk.injEq] at hnames
    exact ⟨batch, rfl, hnames.2⟩

theorem reportsAll_iff_isPrepared_blocked :
    ∃ batch, generateSchema collidingSchema nameSettings (.inOrder 2 false) = .ok batch
      ∧ batch.failedNames = ["UserId"]
      ∧ ∃ f, (write (some nameSettings) collidingSchema (.inOrder false) blockedStart).2 = some f
        ∧ (ReportsAll batch f ↔ IsPrepared nameSettings blockedStart.disk)
        ∧ (f.has .generation = true ↔ IsPrepared nameSettings blockedStart.disk) := by
  obtain ⟨batch, hbatch, hfailed⟩ := exists_batch_colliding
  refine ⟨batch, hbatch, hfailed, ?_⟩
  exact reportsAll_iff_isPrepared nameSettings collidingSchema (.inOrder false) blockedStart batch
    (by decide) (Schedule.inOrder_covers 2 false) hbatch (by simp [hfailed])

/--
A message failed, but all that is reported is that the target directory cannot be made.
-/
theorem not_reportsAll_blocked :
    nameSettings.target ≠ [] ∧ nameSettings.fault? = none
      ∧ ∃ batch, generateSchema collidingSchema nameSettings (.inOrder 2 false) = .ok batch
        ∧ batch.failedNames = ["UserId"]
        ∧ ∃ f, (write (some nameSettings) collidingSchema (.inOrder false) blockedStart).2 = some f
          ∧ ¬ ReportsAll batch f ∧ f.has .generation = false := by
  obtain ⟨batch, hbatch, hfailed⟩ := exists_batch_colliding
  refine ⟨by decide, by decide +kernel, batch, hbatch, hfailed, ?_⟩
  have hprepared : ¬ IsPrepared nameSettings blockedStart.disk := by
    intro h
    have hblocked : (blockedStart.disk.makeDirectories nameSettings.target).2.isSome = true := by
      decide +kernel
    rw [h.directory] at hblocked
    cases hblocked
  exact not_reportsAll_of_not_isPrepared (.inOrder false) hprepared (by decide)
    (Schedule.inOrder_covers 2 false) hbatch (by simp [hfailed])

end Writer

end ValueGen
