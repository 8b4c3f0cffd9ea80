import ValueGen.Output.Writer
import ValueGen.Proofs.Output.Generation

/-!
This module contains the ways in which a run with a manifest can end. Every run that does not report
exactly why messages could not be generated has stopped on the way, and has not saved a manifest.
-/

namespace ValueGen

namespace Failure

-- A failure is never one of the failures that it joins.
theorem joined_ne_joined_cons (parts rest : List Failure) :
    Failure.joined parts ≠ .joined (.joined parts :: rest) := by
  intro h
  have hsize := congrArg sizeOf h
  simp only [joined.sizeOf_spec, List.cons.sizeOf_spec] at hsize
  omega

end Failure

theorem Manifest.write_of_save {m : Manifest} {d e : Disk} {path : Text}
    (h : m.save d path = .ok e) : d.write path m.encode = .ok e := by
  unfold save at h
  split at h
  . next hwrite =>
    cases h
    exact hwrite
  . cases h

namespace Writer

variable {o : Options} {s : Settings} {schema : Schema} {batch : Batch} {timing : Timing}
  {previous : Manifest} {p q : Progress} {failure? : Option Failure}

theorem stopped_eq_joined (batch : Batch) (f : Failure) :
    stopped batch f = some (.joined (batch.failure?.toList ++ [f])) := by
  unfold stopped
  cases batch.failure? with
  | none => rfl
  | some g => rfl

theorem stopped_ne_none (batch : Batch) (f : Failure) : stopped batch f ≠ none := by
  unfold stopped
  rw [ne_eq, Failure.join?_eq_none_iff]
  simp

theorem failure?_ne_stopped (batch : Batch) (f : Failure) : batch.failure? ≠ stopped batch f := by
  unfold stopped Batch.failure?
  cases batch.failed.map Prod.snd with
  | nil => simp [Failure.join?]
  | cons first rest =>
    simp only [Failure.join?, Option.toList_some, List.cons_append, ne_eq, Option.some.injEq]
    exact Failure.joined_ne_joined_cons _ _

theorem failure?_ne_some {f : Failure} (h : ∀ parts, f ≠ .joined parts) (batch : Batch) :
    batch.failure? ≠ some f := by
  unfold Batch.failure? Failure.join?
  intro heq
  split at heq
  . cases heq
  . cases heq
    exact h _ rfl

/-! The end of the writing of a batch. -/

/--
The tasks of a batch when all of them have taken their turns.
-/
def attempt (o : Options) (batch : Batch) (timing : Timing) (previous : Manifest) (p : Progress) :
    Writing :=
  Writing.run o previous batch.files (timing.writing batch.files.length) p

/--
The files that a run records in its manifest: those it wrote, and those that the manifest before
names for messages that failed.
-/
def recordedBy (o : Options) (schema : Schema) (batch : Batch) (timing : Timing)
    (previous : Manifest) (p : Progress) : FileTable :=
  keepFailed schema previous batch.failedNames (attempt o batch timing previous p).recorded

/--
A run goes through all its steps: all files are written, the stale ones are removed, which leads to
`r`, and the manifest is saved.
-/
structure Saves (o : Options) (schema : Schema) (batch : Batch) (timing : Timing)
    (previous : Manifest) (p r q : Progress) : Prop where
  written : (attempt o batch timing previous p).failure? = none
  removed : removeStale o.target (recordedBy o schema batch timing previous p) previous.files.names
    (attempt o batch timing previous p).progress = (r, none)
  saved : r.disk.write (manifestPath o) (Manifest.encode
    ⟨Manifest.currentVersion, o.package, recordedBy o schema batch timing previous p⟩) = .ok q.disk

/--
A run stops after it read the manifest before. Either a task failed, or not all stale files could be
removed, or all of them were removed and the manifest could not be saved.
-/
def Stops (o : Options) (schema : Schema) (batch : Batch) (timing : Timing) (previous : Manifest)
    (p q : Progress) : Prop :=
  q = (attempt o batch timing previous p).progress
    ∨ ∃ failure?, removeStale o.target (recordedBy o schema batch timing previous p)
        previous.files.names (attempt o batch timing previous p).progress = (q, failure?)

theorem finish_exit {start : Metrics}
    (hwritten : (attempt o batch timing previous p).failure? = none)
    (h : finish o schema batch previous start (attempt o batch timing previous p).recorded
      (attempt o batch timing previous p).progress = (q, failure?)) :
    ((∃ f, failure? = stopped batch f) ∧ Stops o schema batch timing previous p q)
      ∨ (failure? = batch.failure? ∧ ∃ r, Saves o schema batch timing previous p r q) := by
  unfold finish at h
  dsimp only at h
  split at h
  . next r f hremove =>
    cases h
    exact .inl ⟨⟨f, rfl⟩, .inr ⟨_, hremove⟩⟩
  . next r hremove =>
    split at h
    . next f _ =>
      cases h
      exact .inl ⟨⟨f, rfl⟩, .inr ⟨_, hremove⟩⟩
    . next disk hsave =>
      cases h
      exact .inr ⟨rfl, r, hwritten, hremove, Manifest.write_of_save hsave⟩

theorem previousManifest_error {f : Failure} (h : previousManifest o p = .error f) :
    ∃ cause, f = .wrapped "read manifest" cause := by
  unfold previousManifest Manifest.load at h
  split at h
  . cases h
  . split at h
    . cases h
    . next hload =>
      split at h
      . cases h
      . next hcorrupt =>
        cases h
        split at hload
        . split at hload
          . cases hload
          . cases hload
            exact ⟨_, rfl⟩
        . split at hload
          . cases hload
          . cases hload
            exact absurd rfl hcorrupt
    . cases h

theorem writeBatch_exit (hmanifest : o.manifest = true)
    (h : writeBatch o schema batch timing p = (q, failure?)) :
    (q = p ∧ ∃ cause, failure? = some (.wrapped "read manifest" cause))
      ∨ ∃ previous r, previousManifest o p = .ok (previous, r)
        ∧ (((∃ f, failure? = stopped batch f) ∧ Stops o schema batch timing previous r q)
          ∨ (failure? = batch.failure? ∧ ∃ t, Saves o schema batch timing previous r t q)) := by
  unfold writeBatch at h
  split at h
  . next f hprevious =>
    cases h
    obtain ⟨cause, rfl⟩ := previousManifest_error hprevious
    exact .inl ⟨rfl, cause, rfl⟩
  . next previous r hprevious =>
    refine .inr ⟨previous, r, hprevious, ?_⟩
    dsimp only at h
    split at h
    . next f _ =>
      cases h
      exact .inl ⟨⟨f, rfl⟩, .inl rfl⟩
    . next hwritten =>
      rw [hmanifest, if_pos rfl] at h
      exact finish_exit hwritten h

/-! The end of a run. -/

/--
The disk once the target directory has been made, as far as that is possible.
-/
def madeDisk (s : Settings) (d : Disk) : Disk := (d.makeDirectories s.target).1

theorem write_of_missing (htarget : s.target = []) :
    write (some s) schema timing p = (p, some missingTarget) := by
  unfold write
  simp [htarget]

theorem write_of_error {f : Failure} (htarget : s.target ≠ [])
    (hbatch : generateSchema schema s (timing.generation schema.messages.length) = .error f) :
    write (some s) schema timing p = (p, some f) := by
  unfold write
  simp [htarget, hbatch]

theorem write_of_not_made {f : Failure} (htarget : s.target ≠ [])
    (hbatch : generateSchema schema s (timing.generation schema.messages.length) = .ok batch)
    (hmade : (p.disk.makeDirectories s.target).2 = some f) :
    write (some s) schema timing p
      = ({ p with disk := madeDisk s p.disk }, some (.wrapped "create output directory" f)) := by
  have hmake : p.disk.makeDirectories s.target = (madeDisk s p.disk, some f) := Prod.ext rfl hmade
  unfold write
  simp [htarget, hbatch, hmake]

theorem write_of_made (htarget : s.target ≠ [])
    (hbatch : generateSchema schema s (timing.generation schema.messages.length) = .ok batch)
    (hmade : (p.disk.makeDirectories s.target).2 = none) :
    write (some s) schema timing p
      = writeBatch s.toOptions schema batch timing { p with disk := madeDisk s p.disk } := by
  have hmake : p.disk.makeDirectories s.target = (madeDisk s p.disk, none) := Prod.ext rfl hmade
  unfold write
  simp [htarget, hbatch, hmake]

-- Before files are written, single failures are reported.
theorem made_of_write
    (hbatch : generateSchema schema s (timing.generation schema.messages.length) = .ok batch)
    (h : write (some s) schema timing p = (q, failure?))
    (hreported : ∀ f, (∀ parts, f ≠ .joined parts) → failure? ≠ some f) :
    s.target ≠ [] ∧ (p.disk.makeDirectories s.target).2 = none
      ∧ writeBatch s.toOptions schema batch timing { p with disk := madeDisk s p.disk }
        = (q, failure?) := by
  have htarget : s.target ≠ [] := by
    intro hempty
    rw [write_of_missing hempty] at h
    cases h
    exact hreported missingTarget (by simp [missingTarget]) rfl
  have hmade : (p.disk.makeDirectories s.target).2 = none := by
    cases hmake : (p.disk.makeDirectories s.target).2 with
    | none => rfl
    | some f =>
      rw [write_of_not_made htarget hbatch hmake] at h
      cases h
      exact absurd rfl (hreported (.wrapped "create output directory" f) (by simp))
  rw [write_of_made htarget hbatch hmade] at h
  exact ⟨htarget, hmade, h⟩

/--
A run with the batch ends before it wrote anything: there is no way to the target directory, or the
manifest in it cannot be read.
-/
def Balks (s : Settings) (p q : Progress) : Prop :=
  q = p ∨ q = { p with disk := madeDisk s p.disk }

theorem write_exit (hmanifest : s.manifest = true)
    (hbatch : generateSchema schema s (timing.generation schema.messages.length) = .ok batch)
    (h : write (some s) schema timing p = (q, failure?)) :
    ((∃ f, (∀ parts, f ≠ .joined parts) ∧ failure? = some f) ∧ Balks s p q)
      ∨ s.target ≠ [] ∧ ∃ previous r,
        previousManifest s.toOptions { p with disk := madeDisk s p.disk } = .ok (previous, r)
        ∧ (((∃ f, failure? = stopped batch f) ∧ Stops s.toOptions schema batch timing previous r q)
          ∨ (failure? = batch.failure?
            ∧ ∃ t, Saves s.toOptions schema batch timing previous r t q)) := by
  unfold write at h
  dsimp only at h
  split at h
  . cases h
    exact .inl ⟨⟨missingTarget, by simp [missingTarget], rfl⟩, .inl rfl⟩
  . next htarget =>
    rw [hbatch] at h
    dsimp only at h
    split at h
    . next disk f hmade =>
      cases h
      refine .inl ⟨⟨_, by simp, rfl⟩, .inr ?_⟩
      unfold madeDisk
      rw [hmade]
    . next disk hmade =>
      have hdisk : madeDisk s p.disk = disk := by
        unfold madeDisk
        rw [hmade]
      rw [hdisk]
      rcases writeBatch_exit hmanifest h with ⟨rfl, cause, rfl⟩ | hexit
      . exact .inl ⟨⟨_, by simp, rfl⟩, .inr (by rw [hdisk])⟩
      . exact .inr ⟨by simpa using htarget, hexit⟩

/--
The run generates the batch and gets as far as saving the manifest: it reports nothing but why
messages of the batch could not be generated.
-/
def Completes (s : Settings) (schema : Schema) (timing : Timing) (p : Progress) (batch : Batch)
    (q : Progress) : Prop :=
  generateSchema schema s (timing.generation schema.messages.length) = .ok batch
    ∧ write (some s) schema timing p = (q, batch.failure?)

-- A run that did not go through all its steps would report why.
theorem Completes.saves (h : Completes s schema timing p batch q) (hmanifest : s.manifest = true) :
    s.target ≠ [] ∧ ∃ previous r t,
      previousManifest s.toOptions { p with disk := madeDisk s p.disk } = .ok (previous, r)
        ∧ Saves s.toOptions schema batch timing previous r t q := by
  rcases write_exit hmanifest h.1 h.2 with
    ⟨⟨f, hf, heq⟩, -⟩ | ⟨htarget, previous, r, hprevious, hend⟩
  . exact absurd heq (failure?_ne_some hf batch)
  . rcases hend with ⟨⟨f, heq⟩, -⟩ | ⟨-, t, hsaves⟩
    . exact absurd heq (failure?_ne_stopped batch f)
    . exact ⟨htarget, previous, r, t, hprevious, hsaves⟩

theorem stops_of_not_completes (hmanifest : s.manifest = true)
    (hbatch : generateSchema schema s (timing.generation schema.messages.length) = .ok batch)
    (h : write (some s) schema timing p = (q, failure?))
    (hnot : ¬ Completes s schema timing p batch q) :
    Balks s p q
      ∨ s.target ≠ [] ∧ ∃ previous r,
        previousManifest s.toOptions { p with disk := madeDisk s p.disk } = .ok (previous, r)
        ∧ Stops s.toOptions schema batch timing previous r q := by
  rcases write_exit hmanifest hbatch h with ⟨-, hbalks⟩ | ⟨htarget, previous, r, hprevious, hend⟩
  . exact .inl hbalks
  . rcases hend with ⟨-, hstops⟩ | ⟨heq, -⟩
    . exact .inr ⟨htarget, previous, r, hprevious, hstops⟩
    . exact absurd ⟨hbatch, heq ▸ h⟩ hnot

theorem fst_write_of_error {f : Failure}
    (h : generateSchema schema s (timing.generation schema.messages.length) = .error f) :
    (write (some s) schema timing p).1 = p := by
  unfold write
  dsimp only
  split
  . rfl
  . rw [h]

theorem exists_batch_of_none (h : write (some s) schema timing p = (q, none)) :
    ∃ batch, generateSchema schema s (timing.generation schema.messages.length) = .ok batch := by
  unfold write at h
  dsimp only at h
  split at h
  . cases h
  . split at h
    . cases h
    . next batch hbatch => exact ⟨batch, hbatch⟩

-- A run that reports no failure at all completes, and no message has failed.
theorem completes_of_none (h : write (some s) schema timing p = (q, none))
    (hmanifest : s.manifest = true) :
    ∃ batch, Completes s schema timing p batch q ∧ batch.failure? = none := by
  obtain ⟨batch, hbatch⟩ := exists_batch_of_none h
  have hnone : batch.failure? = none := by
    rcases write_exit hmanifest hbatch h with ⟨⟨f, -, heq⟩, -⟩ | ⟨-, previous, r, -, hend⟩
    . cases heq
    . rcases hend with ⟨⟨f, heq⟩, -⟩ | ⟨heq, -⟩
      . exact absurd heq.symm (stopped_ne_none batch f)
      . exact heq.symm
  exact ⟨batch, ⟨hbatch, hnone ▸ h⟩, hnone⟩

/--
Is there a failure that joins a single one?
-/
def isSingle : Option Failure → Bool
  | some (.joined [_]) => true
  | _ => false

/--
Is there a batch with messages that failed?
-/
def hasFailed : Except Failure Batch → Bool
  | .ok batch => !batch.failed.isEmpty
  | .error _ => false

-- The failure of a run that stopped joins why messages failed and why the run stopped. So if a
-- single failure is reported although a message failed, the run has not stopped.
theorem completes_of_isSingle (hmanifest : s.manifest = true)
    (hfailed :
      hasFailed (generateSchema schema s (timing.generation schema.messages.length)) = true)
    (h : write (some s) schema timing p = (q, failure?)) (hsingle : isSingle failure? = true) :
    ∃ batch, Completes s schema timing p batch q := by
  cases hbatch : generateSchema schema s (timing.generation schema.messages.length) with
  | error f =>
    rw [hbatch] at hfailed
    cases hfailed
  | ok batch =>
    rw [hbatch] at hfailed
    refine ⟨batch, hbatch, ?_⟩
    rcases write_exit hmanifest hbatch h with ⟨⟨f, hf, rfl⟩, -⟩ | ⟨-, previous, r, -, hend⟩
    . cases f with
      | joined parts => exact absurd rfl (hf parts)
      | _ => cases hsingle
    . rcases hend with ⟨⟨f, rfl⟩, -⟩ | ⟨rfl, -⟩
      . unfold stopped Batch.failure? at hsingle
        cases hparts : batch.failed with
        | nil => simp [hasFailed, hparts] at hfailed
        | cons first rest => simp [hparts, Failure.join?, isSingle] at hsingle
      . exact h

end Writer

end ValueGen
