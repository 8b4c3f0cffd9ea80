import ValueGen.Output.Writer
import ValueGen.Proofs.Disk.Entry

/-!
This module contains what the tasks that write files do to the disk. After some of them have run,
each of their files holds its final content, whether it was written or left as it was, and nothing
else has changed. The order of the tasks does not matter.
-/

namespace ValueGen

namespace Writer

variable {o : Options} {previous : Manifest}

theorem writeFile_keeps (o : Options) (previous : Manifest) (f : GeneratedFile) (p : Progress) :
    (writeFile o previous f p).1.disk.Keeps p.disk := by
  unfold writeFile
  dsimp only
  split
  . split
    . next hwrite => exact Disk.write_keeps hwrite
    . exact Disk.Keeps.refl p.disk
  . split
    . exact Disk.Keeps.refl p.disk
    . split
      . next hwrite => exact Disk.write_keeps hwrite
      . exact Disk.Keeps.refl p.disk

/--
No other content with the digest of the final content of a file is at a place.
-/
def DigestTells (o : Options) (f : GeneratedFile) (n : Option Node) : Prop :=
  ∀ old content, n = some (.file old) → finalContent? o f = some content
    → digest old = digest content → old = content

-- A file that could be written or left as it was holds its final content, and nothing else has
-- changed.
theorem writeFile_ok {f : GeneratedFile} {p q : Progress} {hash : Text} {directory : Place}
    (hentry : p.disk.IsEntry o.target directory f.name)
    (hdigest : DigestTells o f (p.disk.node? (directory ++ [f.name])))
    (h : writeFile o previous f p = (q, .ok hash)) :
    ∃ content, finalContent? o f = some content ∧ hash = digest content
      ∧ Disk.CanReach o.target f.name
      ∧ ∀ place, q.disk.node? place
          = if place = directory ++ [f.name] then some (.file content) else p.disk.node? place := by
  unfold writeFile at h
  dsimp only at h
  split at h
  . split at h
    all_goals cases h
  . next content hcontent =>
    refine ⟨content, hcontent, ?_⟩
    split at h
    . next hskip =>
      -- The file is left as it was. What it holds has the digest of the final content.
      cases h
      refine ⟨rfl, ?_⟩
      rw [Bool.and_eq_true] at hskip
      have hsame := hskip.2
      unfold hasDigest at hsame
      split at hsame
      . next old hread =>
        obtain ⟨hreach, hnode⟩ := hentry.read_join hread
        have heq := hdigest old content hnode hcontent (by simpa using hsame)
        refine ⟨hreach, ?_⟩
        intro place
        split
        . next hplace =>
          rw [hplace, ← heq]
          exact hnode
        . rfl
      . cases hsame
    . split at h
      . next disk hwrite =>
        cases h
        obtain ⟨hreach, -, hput⟩ := hentry.write_join hwrite
        refine ⟨rfl, hreach, ?_⟩
        intro place
        change disk.node? place = _
        rw [hput, Disk.node?_put _ (by simp)]
      . cases h

namespace Writing

/-! What one turn does. -/

theorem turn_keeps (o : Options) (previous : Manifest) (files : List GeneratedFile) (w : Writing)
    (next : Nat × Start) :
    (turn o previous files w next).progress.disk.Keeps w.progress.disk := by
  unfold turn
  split
  . exact Disk.Keeps.refl _
  . next f _ =>
    have hkeeps := writeFile_keeps o previous f w.progress
    split
    . exact Disk.Keeps.refl _
    . split
      . exact Disk.Keeps.refl _
      . split
        all_goals
          next heq =>
          rw [heq] at hkeeps
          exact hkeeps

-- If there is no failure after a turn, there was none before, and the file of the task, if there is
-- one, could be written.
theorem turn_cases {files : List GeneratedFile} {w : Writing} {next : Nat × Start}
    (h : (turn o previous files w next).failure? = none) :
    w.failure? = none
      ∧ ((files[next.1]? = none ∧ turn o previous files w next = w)
        ∨ ∃ f q hash, files[next.1]? = some f
          ∧ writeFile o previous f w.progress = (q, .ok hash)
          ∧ turn o previous files w next
              = { w with progress := q, recorded := w.recorded.insert f.name hash }) := by
  unfold turn at h ⊢
  split at h
  . next hnone => exact ⟨h, .inl ⟨hnone, rfl⟩⟩
  . next f hfile =>
    split at h
    . cases h
    . next hcanceled =>
      split at h
      . next hlate =>
        rw [Bool.and_eq_true] at hlate
        rw [h] at hlate
        exact absurd hlate.2 (by simp)
      . next hlate =>
        split at h
        . next q hash hwrite =>
          refine ⟨h, .inr ⟨f, q, hash, hfile, hwrite, ?_⟩⟩
          simp only [hcanceled, hlate, Bool.false_eq_true, ↓reduceIte]
        . cases h

/-! What a run does. -/

/--
The files can be written to a directory of a disk: their names are plain and differ, no link is at
their places, and the digest tells their final contents from the old ones.
-/
structure IsReady (o : Options) (files : List GeneratedFile) (directory : Place) (d : Disk) :
    Prop where
  target_ne : o.target ≠ []
  name_inj : ∀ f ∈ files, ∀ g ∈ files, f.name = g.name → f = g
  plain : ∀ f ∈ files, Path.IsPlain f.name
  noLink : ∀ f ∈ files, d.IsNoLink (directory ++ [f.name])
  digest : ∀ f ∈ files, DigestTells o f (d.node? (directory ++ [f.name]))

/--
The file holds its final content in the directory, and it is recorded with the digest of it.
-/
def HasWritten (o : Options) (directory : Place) (w : Writing) (f : GeneratedFile) : Prop :=
  ∃ content, finalContent? o f = some content ∧ Disk.CanReach o.target f.name
    ∧ w.progress.disk.node? (directory ++ [f.name]) = some (.file content)
    ∧ w.recorded.get? f.name = some (digest content)

/--
The tasks of the files `done` have run since the disk was `before`, and no others.
-/
structure IsAfter (o : Options) (directory : Place) (before : Disk) (done : List GeneratedFile)
    (w : Writing) : Prop where
  written : ∀ f ∈ done, HasWritten o directory w f
  unchanged : ∀ place, (∀ f ∈ done, place ≠ directory ++ [f.name])
    → w.progress.disk.node? place = before.node? place
  unrecorded : ∀ name, (∀ f ∈ done, name ≠ f.name) → w.recorded.get? name = none

variable {files done : List GeneratedFile} {directory : Place} {before : Disk} {w : Writing}

theorem isAfter_nil (o : Options) (directory : Place) (p : Progress) :
    IsAfter o directory p.disk [] ⟨p, .empty, none⟩ where
  written := by simp
  unchanged := fun _ _ => rfl
  unrecorded := fun _ _ => rfl

theorem IsAfter.of_mem_iff {others : List GeneratedFile} (h : w.IsAfter o directory before done)
    (hmem : ∀ f, f ∈ others ↔ f ∈ done) : w.IsAfter o directory before others where
  written := fun f hf => h.written f ((hmem f).1 hf)
  unchanged := fun place hplace => h.unchanged place fun f hf => hplace f ((hmem f).2 hf)
  unrecorded := fun name hname => h.unrecorded name fun f hf => hname f ((hmem f).2 hf)

-- What is at the place of a file is its final content, or what was there before.
theorem IsAfter.node?_cases (h : w.IsAfter o directory before done)
    (hready : IsReady o files directory before) (hdone : ∀ f ∈ done, f ∈ files)
    {f : GeneratedFile} (hf : f ∈ files) :
    (∃ content, finalContent? o f = some content
        ∧ w.progress.disk.node? (directory ++ [f.name]) = some (.file content))
      ∨ w.progress.disk.node? (directory ++ [f.name]) = before.node? (directory ++ [f.name]) := by
  by_cases hran : f ∈ done
  . obtain ⟨content, hcontent, -, hnode, -⟩ := h.written f hran
    exact .inl ⟨content, hcontent, hnode⟩
  . refine .inr (h.unchanged _ fun g hg hplace => ?_)
    have hname : f.name = g.name := by simpa using hplace
    have heq := hready.name_inj f hf g (hdone g hg) hname
    exact hran (heq ▸ hg)

theorem IsAfter.isEntry (h : w.IsAfter o directory before done)
    (hready : IsReady o files directory before) (hdone : ∀ f ∈ done, f ∈ files)
    (hleads : w.progress.disk.LeadsTo o.target directory) {f : GeneratedFile} (hf : f ∈ files) :
    w.progress.disk.IsEntry o.target directory f.name where
  path_ne := hready.target_ne
  leadsTo := hleads
  plain := hready.plain f hf
  noLink := by
    intro target
    rcases h.node?_cases hready hdone hf with ⟨content, -, hnode⟩ | hnode
    . rw [hnode]
      simp
    . rw [hnode]
      exact hready.noLink f hf target

theorem IsAfter.digestTells (h : w.IsAfter o directory before done)
    (hready : IsReady o files directory before) (hdone : ∀ f ∈ done, f ∈ files)
    {f : GeneratedFile} (hf : f ∈ files) :
    DigestTells o f (w.progress.disk.node? (directory ++ [f.name])) := by
  rcases h.node?_cases hready hdone hf with ⟨content, hcontent, hnode⟩ | hnode
  . intro old new hold hnew _
    rw [hnode] at hold
    rw [hcontent] at hnew
    cases hold
    cases hnew
    rfl
  . rw [hnode]
    exact hready.digest f hf

theorem IsAfter.hasNoLinks (h : w.IsAfter o directory before done)
    (hbefore : before.HasNoLinks directory) : w.progress.disk.HasNoLinks directory := by
  intro name target
  by_cases hdone : ∃ f ∈ done, name = f.name
  . obtain ⟨f, hf, rfl⟩ := hdone
    obtain ⟨content, -, -, hnode, -⟩ := h.written f hf
    rw [hnode]
    simp
  . rw [h.unchanged]
    . exact hbefore name target
    . intro f hf hplace
      exact hdone ⟨f, hf, by simpa using hplace⟩

theorem IsAfter.append_singleton {f : GeneratedFile} {q : Progress} {content : Text}
    (h : w.IsAfter o directory before done) (hname : ∀ g ∈ done, g.name = f.name → g = f)
    (hcontent : finalContent? o f = some content) (hreach : Disk.CanReach o.target f.name)
    (hnode : ∀ place, q.disk.node? place
      = if place = directory ++ [f.name] then some (.file content)
        else w.progress.disk.node? place) :
    IsAfter o directory before (done ++ [f])
      { w with progress := q, recorded := w.recorded.insert f.name (digest content) } := by
  have hwritten : HasWritten o directory
      { w with progress := q, recorded := w.recorded.insert f.name (digest content) } f := by
    refine ⟨content, hcontent, hreach, ?_, ?_⟩
    . rw [hnode, if_pos rfl]
    . rw [FileTable.get?_insert, if_pos rfl]
  refine ⟨?_, ?_, ?_⟩
  . intro g hg
    rcases List.mem_append.1 hg with hg | hg
    . by_cases heq : g.name = f.name
      . rw [hname g hg heq]
        exact hwritten
      . obtain ⟨other, hother, hreach, hplace, hrecorded⟩ := h.written g hg
        refine ⟨other, hother, hreach, ?_, ?_⟩
        . rw [hnode, if_neg (by simpa using heq)]
          exact hplace
        . rw [FileTable.get?_insert, if_neg heq]
          exact hrecorded
    . rw [List.mem_singleton.1 hg]
      exact hwritten
  . intro place hplace
    rw [hnode, if_neg (hplace f (by simp))]
    exact h.unchanged place fun g hg => hplace g (List.mem_append_left _ hg)
  . intro name hnew
    rw [FileTable.get?_insert, if_neg (hnew f (by simp))]
    exact h.unrecorded name fun g hg => hnew g (List.mem_append_left _ hg)

-- The way to the directory is known after the turn only, but no turn adds to the directories and
-- links that it leads through.
theorem turn_isAfter {next : Nat × Start} (hready : IsReady o files directory before)
    (hdone : ∀ f ∈ done, f ∈ files) (h : w.IsAfter o directory before done)
    (hleads : (turn o previous files w next).progress.disk.LeadsTo o.target directory)
    (hnone : (turn o previous files w next).failure? = none) :
    (turn o previous files w next).IsAfter o directory before
      (done ++ files[next.1]?.toList) := by
  have hbefore := (turn_keeps o previous files w next).leadsTo hleads
  obtain ⟨-, ⟨hfile, hturn⟩ | ⟨f, q, hash, hfile, hwrite, hturn⟩⟩ := turn_cases hnone
  . rw [hturn, hfile, Option.toList_none, List.append_nil]
    exact h
  . have hf := List.mem_of_getElem? hfile
    obtain ⟨content, hcontent, rfl, hreach, hnode⟩ :=
      writeFile_ok (h.isEntry hready hdone hbefore hf) (h.digestTells hready hdone hf) hwrite
    rw [hturn, hfile, Option.toList_some]
    apply h.append_singleton _ hcontent hreach hnode
    intro g hg hname
    exact hready.name_inj g (hdone g hg) f hf hname

theorem foldl_turn_keeps (o : Options) (previous : Manifest) (files : List GeneratedFile)
    (schedule : Schedule) (w : Writing) :
    (schedule.foldl (turn o previous files) w).progress.disk.Keeps w.progress.disk := by
  induction schedule generalizing w with
  | nil => exact Disk.Keeps.refl _
  | cons next schedule ih => exact (ih _).trans (turn_keeps o previous files w next)

theorem failure?_of_foldl_turn {schedule : Schedule}
    (h : (schedule.foldl (turn o previous files) w).failure? = none) : w.failure? = none := by
  induction schedule generalizing w with
  | nil => exact h
  | cons next schedule ih => exact (turn_cases (ih h)).1

theorem foldl_turn_isAfter {schedule : Schedule} (hready : IsReady o files directory before)
    (hdone : ∀ f ∈ done, f ∈ files) (h : w.IsAfter o directory before done)
    (hleads : (schedule.foldl (turn o previous files) w).progress.disk.LeadsTo o.target directory)
    (hnone : (schedule.foldl (turn o previous files) w).failure? = none) :
    (schedule.foldl (turn o previous files) w).IsAfter o directory before
      (done ++ schedule.flatMap fun next => files[next.1]?.toList) := by
  induction schedule generalizing w done with
  | nil =>
    rw [List.flatMap_nil, List.append_nil]
    exact h
  | cons next schedule ih =>
    rw [List.foldl_cons] at hleads hnone ⊢
    have hturn := turn_isAfter hready hdone h
      ((foldl_turn_keeps o previous files schedule _).leadsTo hleads) (failure?_of_foldl_turn hnone)
    have hmore : ∀ f ∈ done ++ files[next.1]?.toList, f ∈ files := by
      intro f hf
      rcases List.mem_append.1 hf with hf | hf
      . exact hdone f hf
      . rw [Option.mem_toList] at hf
        exact List.mem_of_getElem? hf
    rw [List.flatMap_cons, ← List.append_assoc]
    exact ih hmore hturn hleads hnone

theorem flatMap_range_getElem? (files : List GeneratedFile) :
    (List.range files.length).flatMap (fun i => files[i]?.toList) = files := by
  induction files with
  | nil => rfl
  | cons f files ih =>
    rw [List.length_cons, List.range_succ_eq_map, List.flatMap_cons, List.flatMap_map]
    simp only [List.getElem?_cons_zero, Option.toList_some, List.getElem?_cons_succ,
      List.singleton_append, ih]

-- The tasks that run are those of the files.
theorem flatMap_perm_of_covers {schedule : Schedule} (h : schedule.Covers files.length) :
    (schedule.flatMap fun next => files[next.1]?.toList).Perm files := by
  have hperm := h.flatMap_right fun i => files[i]?.toList
  rw [List.flatMap_map, flatMap_range_getElem?] at hperm
  exact hperm

-- If all tasks ran and none of them failed, all files are written, whatever the order of the tasks.
theorem run_isAfter {schedule : Schedule} {p : Progress}
    (hready : IsReady o files directory p.disk) (hcovers : schedule.Covers files.length)
    (hleads : (run o previous files schedule p).progress.disk.LeadsTo o.target directory)
    (hnone : (run o previous files schedule p).failure? = none) :
    (run o previous files schedule p).IsAfter o directory p.disk files := by
  have hafter := foldl_turn_isAfter hready (by simp) (isAfter_nil o directory p) hleads hnone
  apply hafter.of_mem_iff
  intro f
  rw [List.nil_append]
  exact (flatMap_perm_of_covers hcovers).mem_iff.symm

end Writing

end Writer

end ValueGen
