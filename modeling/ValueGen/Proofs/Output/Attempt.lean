import Mathlib.Data.List.Nodup
import ValueGen.Proofs.Output.FileName
import ValueGen.Proofs.Output.Writing

/-!
This module contains what the tasks that write files do to the disk also when some of them fail. At
any moment the recorded files are there with the recorded digests, and besides them only files of
the batch, and the contents that could not be formatted, may have been written.
-/

namespace ValueGen

theorem Text.join_append_last (sep : Text) (ts : List Text) (t more : Text) :
    Text.join sep (ts ++ [t ++ more]) = Text.join sep (ts ++ [t]) ++ more := by
  induction ts with
  | nil => rfl
  | cons first ts ih =>
    cases ts with
    | nil => simp [Text.join]
    | cons second ts =>
      simp only [List.cons_append] at ih
      simp only [List.cons_append, Text.join, ih, List.append_assoc]

theorem Path.join_append {p name more : Text} (hp : p ≠ []) (hname : IsPlain name)
    (hmore : IsPlain (name ++ more)) : join p (name ++ more) = join p name ++ more := by
  have hrooted (name : Text) : isRooted (p ++ separator :: name) = isRooted p := by
    unfold isRooted
    rw [List.head?_append, Option.or_of_isSome (by simpa using hp)]
  unfold join
  rw [clean_eq, clean_eq (p ++ separator :: name), hrooted, hrooted,
    cleanSteps_append_cons hp hmore, cleanSteps_append_cons hp hname, Text.join_append_last]
  split
  . rfl
  . simp

namespace Writer

variable {o : Options} {previous : Manifest}

/--
The name of the file that holds what could not be formatted.
-/
def rejectName (name : Text) : Text := name ++ ".error"

theorem isOwnName_rejectName (name : Text) : isOwnName (rejectName name) = false := by
  unfold isOwnName rejectName Text.endsWith
  rw [Bool.and_eq_false_iff]
  right
  rw [Bool.eq_false_iff, ne_eq, List.isSuffixOf_iff_suffix]
  intro hsuffix
  have hshort : (".go" : Text) <:+ ".error" :=
    List.suffix_of_suffix_length_le hsuffix (List.suffix_append _ _) (by decide)
  exact absurd hshort (by decide)

theorem rejectName_ne_fileName (name : Text) : rejectName name ≠ Manifest.fileName := by
  intro heq
  have hsuffix : (".error" : Text) <:+ Manifest.fileName := by
    rw [← heq]
    exact List.suffix_append _ _
  exact absurd hsuffix (by decide)

theorem isPlain_rejectName {name : Text} (h : Path.IsPlain name) :
    Path.IsPlain (rejectName name) := by
  have hlength : 6 ≤ (rejectName name).length := by
    unfold rejectName
    rw [List.length_append]
    exact Nat.le_add_left 6 _
  refine ⟨⟨?_, ?_⟩, ?_, ?_⟩
  . intro hnil
    rw [hnil] at hlength
    exact absurd hlength (by decide)
  . unfold rejectName
    rw [List.mem_append, not_or]
    exact ⟨h.not_mem, by decide⟩
  . intro hdot
    rw [hdot] at hlength
    exact absurd hlength (by decide)
  . intro hdots
    rw [hdots] at hlength
    exact absurd hlength (by decide)

theorem rejectPath_join {target name : Text} (htarget : target ≠ []) (hname : Path.IsPlain name) :
    rejectPath (Path.join target name) = Path.join target (rejectName name) := by
  unfold rejectPath rejectName
  rw [Path.join_append htarget hname (isPlain_rejectName hname)]

/-! What one task does. -/

/--
What the task of a file does to the disk, and how it ends.
-/
inductive TaskEnd (o : Options) (f : GeneratedFile) (directory : Place) (d : Disk) :
    Disk → Except Failure Text → Prop where
  /-- The file is left as it was, since what it holds has the digest of the final content. -/
  | skipped {content held : Text} (hcontent : finalContent? o f = some content)
      (hreach : Disk.CanReach o.target f.name)
      (hnode : d.node? (directory ++ [f.name]) = some (.file held))
      (hdigest : digest held = digest content) : TaskEnd o f directory d d (.ok (digest content))
  /-- The file gets its final content. -/
  | written {content : Text} (hcontent : finalContent? o f = some content)
      (hreach : Disk.CanReach o.target f.name)
      (hfree : d.node? (directory ++ [f.name]) ≠ some .directory) :
      TaskEnd o f directory d (d.put (directory ++ [f.name]) (.file content))
        (.ok (digest content))
  /-- The content could not be formatted and is left beside the file. -/
  | rejected {failure : Failure} (hcontent : finalContent? o f = none)
      (hfree : d.node? (directory ++ [rejectName f.name]) ≠ some .directory) :
      TaskEnd o f directory d (d.put (directory ++ [rejectName f.name]) (.file f.printed.content))
        (.error failure)
  /-- Nothing could be written. -/
  | refused {failure : Failure} : TaskEnd o f directory d d (.error failure)

theorem writeFile_taskEnd (previous : Manifest) {directory : Place} {f : GeneratedFile}
    {p : Progress} (hentry : p.disk.IsEntry o.target directory f.name)
    (hreject : p.disk.IsNoLink (directory ++ [rejectName f.name])) :
    TaskEnd o f directory p.disk (writeFile o previous f p).1.disk
      (writeFile o previous f p).2 := by
  unfold writeFile
  dsimp only
  split
  . next hcontent =>
    have hbeside : p.disk.IsEntry o.target directory (rejectName f.name) :=
      ⟨hentry.path_ne, hentry.leadsTo, isPlain_rejectName hentry.plain, hreject⟩
    rw [rejectPath_join hentry.path_ne hentry.plain]
    split
    . next disk hwrite =>
      obtain ⟨-, hfree, rfl⟩ := hbeside.write_join hwrite
      exact .rejected hcontent hfree
    . exact .refused
  . next content hcontent =>
    split
    . next hskip =>
      rw [Bool.and_eq_true] at hskip
      have hsame := hskip.2
      unfold hasDigest at hsame
      split at hsame
      . next held hread =>
        obtain ⟨hreach, hnode⟩ := hentry.read_join hread
        exact .skipped hcontent hreach hnode (by simpa using hsame)
      . cases hsame
    . split
      . next disk hwrite =>
        obtain ⟨hreach, hfree, rfl⟩ := hentry.write_join hwrite
        exact .written hcontent hreach hfree
      . exact .refused

/--
A task may leave the content at the place: it is the final content of one of the files, or one that
could not be formatted.
-/
inductive IsOutput (o : Options) (files : List GeneratedFile) (directory : Place) :
    Place → Text → Prop where
  | final {f : GeneratedFile} {content : Text} (hf : f ∈ files)
      (hcontent : finalContent? o f = some content) :
      IsOutput o files directory (directory ++ [f.name]) content
  | rejected {f : GeneratedFile} (hf : f ∈ files) (hcontent : finalContent? o f = none) :
      IsOutput o files directory (directory ++ [rejectName f.name]) f.printed.content

section

variable {files : List GeneratedFile} {directory : Place} {name content : Text}

theorem IsOutput.cases_of_entry (h : IsOutput o files directory (directory ++ [name]) content) :
    (∃ f ∈ files, f.name = name ∧ finalContent? o f = some content)
      ∨ ∃ f ∈ files, rejectName f.name = name ∧ finalContent? o f = none
        ∧ content = f.printed.content := by
  generalize hplace : directory ++ [name] = place at h
  cases h with
  | final hf hcontent => exact .inl ⟨_, hf, by simpa using hplace.symm, hcontent⟩
  | rejected hf hcontent => exact .inr ⟨_, hf, by simpa using hplace.symm, hcontent, rfl⟩

-- Only its final content is ever written to a source file.
theorem IsOutput.of_isOwnName (h : IsOutput o files directory (directory ++ [name]) content)
    (hown : isOwnName name = true) :
    ∃ f ∈ files, f.name = name ∧ finalContent? o f = some content := by
  rcases h.cases_of_entry with hfinal | ⟨f, -, rfl, -⟩
  . exact hfinal
  . rw [isOwnName_rejectName] at hown
    cases hown

theorem not_isOutput_manifest (hown : ∀ f ∈ files, isOwnName f.name = true) (content : Text) :
    ¬ IsOutput o files directory (directory ++ [Manifest.fileName]) content := by
  intro h
  rcases h.cases_of_entry with ⟨f, hf, hname, -⟩ | ⟨f, -, hname, -⟩
  . exact ne_fileName_of_isOwnName (hown f hf) hname
  . exact rejectName_ne_fileName f.name hname

end

/--
What the file holds in the directory has the digest of its final content.
-/
def IsUpToDate (o : Options) (directory : Place) (d : Disk) (f : GeneratedFile) (hash : Text) :
    Prop :=
  ∃ content held, finalContent? o f = some content ∧ Disk.CanReach o.target f.name
    ∧ d.node? (directory ++ [f.name]) = some (.file held)
    ∧ digest content = hash ∧ digest held = hash

namespace TaskEnd

variable {f : GeneratedFile} {files : List GeneratedFile} {directory : Place} {d e : Disk}
  {result : Except Failure Text}

theorem keeps (h : TaskEnd o f directory d e result) (hlinks : d.HasNoLinks directory) :
    d.Keeps e := by
  have hput (name content : Text) (hfree : d.node? (directory ++ [name]) ≠ some .directory) :
      d.Keeps (d.put (directory ++ [name]) (.file content)) := by
    refine Disk.keeps_put (by simp) ?_ _
    intro n hn
    cases n with
    | file content => exact ⟨content, rfl⟩
    | directory => exact absurd hn hfree
    | link target => exact absurd hn (hlinks name target)
  cases h with
  | skipped => exact Disk.Keeps.refl d
  | written _ _ hfree => exact hput _ _ hfree
  | rejected _ hfree => exact hput _ _ hfree
  | refused => exact Disk.Keeps.refl d

theorem places (h : TaskEnd o f directory d e result) (hf : f ∈ files) (place : Place) :
    e.node? place = d.node? place
      ∨ ∃ content, e.node? place = some (.file content)
        ∧ IsOutput o files directory place content := by
  cases h with
  | skipped => exact .inl rfl
  | written hcontent _ _ =>
    rw [Disk.node?_put d (by simp)]
    split
    . next hplace => exact .inr ⟨_, rfl, hplace ▸ .final hf hcontent⟩
    . exact .inl rfl
  | rejected hcontent _ =>
    rw [Disk.node?_put d (by simp)]
    split
    . next hplace => exact .inr ⟨_, rfl, hplace ▸ .rejected hf hcontent⟩
    . exact .inl rfl
  | refused => exact .inl rfl

theorem isUpToDate {hash : Text} (h : TaskEnd o f directory d e (.ok hash)) :
    IsUpToDate o directory e f hash := by
  cases h with
  | skipped hcontent hreach hnode hdigest =>
    exact ⟨_, _, hcontent, hreach, hnode, rfl, hdigest⟩
  | written hcontent hreach _ =>
    refine ⟨_, _, hcontent, hreach, ?_, rfl, rfl⟩
    rw [Disk.node?_put d (by simp), if_pos rfl]

-- A source file that is not the one of the task is as before, and so is the one of the task if it
-- failed.
theorem node?_of_isOwnName (h : TaskEnd o f directory d e result) {name : Text}
    (hown : isOwnName name = true) (hname : name = f.name → ∃ failure, result = .error failure) :
    e.node? (directory ++ [name]) = d.node? (directory ++ [name]) := by
  cases h with
  | skipped => rfl
  | written _ _ _ =>
    rw [Disk.node?_put d (by simp), if_neg]
    intro hplace
    obtain ⟨failure, hfailure⟩ := hname (by simpa using hplace)
    cases hfailure
  | rejected _ _ =>
    rw [Disk.node?_put d (by simp), if_neg]
    intro hplace
    have heq : name = rejectName f.name := by simpa using hplace
    rw [heq, isOwnName_rejectName] at hown
    cases hown
  | refused => rfl

end TaskEnd

/-! What several tasks do. -/

namespace Writing

/--
Some of the tasks have run since the disk was `before`, with or without success. They have taken no
directory and no link away, all that they left are outputs, and the files that they recorded are up
to date.
-/
structure Tracks (o : Options) (files : List GeneratedFile) (directory : Place) (before : Disk)
    (w : Writing) : Prop where
  keeps : before.Keeps w.progress.disk
  places : ∀ place, w.progress.disk.node? place = before.node? place
    ∨ ∃ content, w.progress.disk.node? place = some (.file content)
      ∧ IsOutput o files directory place content
  recorded : ∀ name hash, w.recorded.get? name = some hash
    → ∃ f ∈ files, f.name = name ∧ IsUpToDate o directory w.progress.disk f hash

variable {files : List GeneratedFile} {directory : Place} {before : Disk} {w : Writing}

theorem tracks_start (o : Options) (files : List GeneratedFile) (directory : Place)
    (p : Progress) : Tracks o files directory p.disk ⟨p, .empty, none⟩ where
  keeps := Disk.Keeps.refl _
  places := fun _ => .inl rfl
  recorded := by
    intro name hash hget
    cases hget

theorem Tracks.hasNoLinks (h : w.Tracks o files directory before)
    (hlinks : before.HasNoLinks directory) : w.progress.disk.HasNoLinks directory := by
  intro name target
  rcases h.places (directory ++ [name]) with hsame | ⟨content, hnode, -⟩
  . rw [hsame]
    exact hlinks name target
  . rw [hnode]
    simp

theorem Tracks.recorded_eq_none (h : w.Tracks o files directory before) {name : Text}
    (hname : ∀ f ∈ files, name ≠ f.name) : w.recorded.get? name = none := by
  cases hget : w.recorded.get? name with
  | none => rfl
  | some hash =>
    obtain ⟨f, hf, heq, -⟩ := h.recorded name hash hget
    exact absurd heq.symm (hname f hf)

theorem Tracks.exists_recorded (h : w.Tracks o files directory before)
    (hnodup : (files.map GeneratedFile.name).Nodup) {f : GeneratedFile} (hf : f ∈ files)
    (hsome : (w.recorded.get? f.name).isSome = true) :
    ∃ hash, w.recorded.get? f.name = some hash
      ∧ IsUpToDate o directory w.progress.disk f hash := by
  obtain ⟨hash, hget⟩ := Option.isSome_iff_exists.1 hsome
  obtain ⟨g, hg, hname, hupToDate⟩ := h.recorded f.name hash hget
  obtain rfl := List.inj_on_of_nodup_map hnodup hg hf hname
  exact ⟨hash, hget, hupToDate⟩

-- The file of the task that ended is either among the recorded ones now, or the task failed.
theorem Tracks.taskEnd {f : GeneratedFile} {q : Progress} {result : Except Failure Text}
    {recorded : FileTable} (failure? : Option Failure) (h : w.Tracks o files directory before)
    (hlinks : before.HasNoLinks directory) (hown : ∀ f ∈ files, isOwnName f.name = true)
    (hf : f ∈ files) (hend : TaskEnd o f directory w.progress.disk q.disk result)
    (hrecorded : (∃ hash, result = .ok hash ∧ recorded = w.recorded.insert f.name hash)
      ∨ (∃ failure, result = .error failure) ∧ recorded = w.recorded) :
    Tracks o files directory before ⟨q, recorded, failure?⟩ where
  keeps := h.keeps.trans (hend.keeps (h.hasNoLinks hlinks))
  places := by
    intro place
    rcases hend.places hf place with hsame | houtput
    . dsimp only
      rw [hsame]
      exact h.places place
    . exact .inr houtput
  recorded := by
    -- What was up to date is so still if the task did not write to its place.
    have hkept {name hash : Text} (hget : w.recorded.get? name = some hash)
        (hname : name = f.name → ∃ failure, result = .error failure) :
        ∃ g ∈ files, g.name = name ∧ IsUpToDate o directory q.disk g hash := by
      obtain ⟨g, hg, rfl, content, held, hcontent, hreach, hnode, hdigests⟩ :=
        h.recorded name hash hget
      refine ⟨g, hg, rfl, content, held, hcontent, hreach, ?_, hdigests⟩
      rw [hend.node?_of_isOwnName (hown g hg) hname]
      exact hnode
    intro name hash hget
    rcases hrecorded with ⟨hash', rfl, rfl⟩ | ⟨hfailed, rfl⟩
    . dsimp only at hget
      rw [FileTable.get?_insert] at hget
      split at hget
      . next hname =>
        cases hget
        exact ⟨f, hf, hname.symm, hend.isUpToDate⟩
      . next hname => exact hkept hget fun heq => absurd heq hname
    . exact hkept hget fun _ => hfailed

theorem turn_tracks {next : Nat × Start} (htarget : o.target ≠ [])
    (hown : ∀ f ∈ files, isOwnName f.name = true) (hlinks : before.HasNoLinks directory)
    (hleads : before.LeadsTo o.target directory) (h : w.Tracks o files directory before) :
    (turn o previous files w next).Tracks o files directory before := by
  unfold turn
  split
  . exact h
  . next f hfile =>
    split
    . exact ⟨h.keeps, h.places, h.recorded⟩
    . split
      . exact h
      . have hf := List.mem_of_getElem? hfile
        have hnow := h.hasNoLinks hlinks
        have hentry : w.progress.disk.IsEntry o.target directory f.name :=
          ⟨htarget, h.keeps.leadsTo hleads, isPlain_of_isOwnName (hown f hf), hnow f.name⟩
        have hend := writeFile_taskEnd previous hentry (hnow _)
        split
        . next hwrite =>
          rw [hwrite] at hend
          exact h.taskEnd _ hlinks hown hf hend (.inl ⟨_, rfl, rfl⟩)
        . next hwrite =>
          rw [hwrite] at hend
          exact h.taskEnd _ hlinks hown hf hend (.inr ⟨⟨_, rfl⟩, rfl⟩)

-- What the tasks have left does not depend on their order, and not on how many of them have run.
theorem run_tracks {p : Progress} (schedule : Schedule) (htarget : o.target ≠ [])
    (hown : ∀ f ∈ files, isOwnName f.name = true) (hlinks : p.disk.HasNoLinks directory)
    (hleads : p.disk.LeadsTo o.target directory) :
    (run o previous files schedule p).Tracks o files directory p.disk := by
  unfold run
  have hall (w : Writing) (h : w.Tracks o files directory p.disk) :
      (schedule.foldl (turn o previous files) w).Tracks o files directory p.disk := by
    induction schedule generalizing w with
    | nil => exact h
    | cons next schedule ih => exact ih _ (turn_tracks htarget hown hlinks hleads h)
  exact hall _ (tracks_start o files directory p)

-- If all tasks ran and none of them failed, all files are recorded.
theorem foldl_turn_records {schedule : Schedule} {f : GeneratedFile}
    (hnone : (schedule.foldl (turn o previous files) w).failure? = none)
    (h : (w.recorded.get? f.name).isSome
      ∨ f ∈ schedule.flatMap fun next => files[next.1]?.toList) :
    ((schedule.foldl (turn o previous files) w).recorded.get? f.name).isSome := by
  induction schedule generalizing w with
  | nil => simpa using h
  | cons next schedule ih =>
    rw [List.foldl_cons] at hnone ⊢
    refine ih hnone ?_
    rw [List.flatMap_cons, List.mem_append, ← or_assoc] at h
    refine h.imp_left fun h => ?_
    obtain ⟨-, ⟨hfile, hturn⟩ | ⟨g, q, hash, hfile, -, hturn⟩⟩ :=
      turn_cases (failure?_of_foldl_turn hnone)
    . rw [hturn]
      simpa [hfile] using h
    . rw [hturn]
      dsimp only
      rw [FileTable.get?_insert]
      split
      . rfl
      . next hname =>
        rcases h with h | hg
        . exact h
        . rw [hfile, Option.toList_some, List.mem_singleton] at hg
          exact absurd (congrArg GeneratedFile.name hg) hname

theorem run_records {schedule : Schedule} {p : Progress} {f : GeneratedFile} (hf : f ∈ files)
    (hcovers : schedule.Covers files.length)
    (hnone : (run o previous files schedule p).failure? = none) :
    ((run o previous files schedule p).recorded.get? f.name).isSome :=
  foldl_turn_records hnone (.inr ((flatMap_perm_of_covers hcovers).mem_iff.2 hf))

-- A file that was up to date before is so whatever has run, since the tasks leave nothing at its
-- place but its final content.
theorem Tracks.isUpToDate {f : GeneratedFile} {hash : Text}
    (h : w.Tracks o files directory before)
    (hown : isOwnName f.name = true) (hinj : ∀ g ∈ files, g.name = f.name → g = f)
    (hbefore : IsUpToDate o directory before f hash) :
    IsUpToDate o directory w.progress.disk f hash := by
  obtain ⟨content, held, hcontent, hreach, hnode, hhash, hheld⟩ := hbefore
  rcases h.places (directory ++ [f.name]) with hsame | ⟨other, hother, houtput⟩
  . exact ⟨content, held, hcontent, hreach, hsame.trans hnode, hhash, hheld⟩
  . obtain ⟨g, hg, hname, hfinal⟩ := houtput.of_isOwnName hown
    obtain rfl := hinj g hg hname
    rw [hcontent] at hfinal
    cases hfinal
    exact ⟨content, content, hcontent, hreach, hother, hhash, hhash⟩

end Writing

end Writer

end ValueGen
