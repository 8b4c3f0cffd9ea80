import Mathlib.Algebra.Ring.Nat
import ValueGen.Proofs.Disk.Reading
import ValueGen.Proofs.Output.Exit
import ValueGen.Proofs.Output.Stale
import ValueGen.Proofs.Output.Writing

/-!
This module contains what a run does deed by deed. Each deed takes the disk one step further, and
the metrics count it. A run that reports no more than why messages could not be generated does one
deed for each generated file, whatever the order of the tasks, then one for each stale file, and
saves the manifest.
-/

namespace ValueGen

/--
One thing that a run does once the target directory is there.
-/
inductive Deed where
  /-- A generated file is left as it is. -/
  | skip (f : GeneratedFile)
  /-- A generated file is written. -/
  | write (f : GeneratedFile) (content : Text)
  /-- A stale file is removed. -/
  | remove (name : Text)
  /-- A stale file is to be removed, but there is nothing in its place. -/
  | miss (name : Text)
  /-- The manifest is saved. -/
  | save (m : Manifest)

namespace Deed

/--
The generated file that the deed is about.
-/
def file? : Deed → Option GeneratedFile
  | .skip f => some f
  | .write f _ => some f
  | .remove _ => none
  | .miss _ => none
  | .save _ => none

/--
The generated file that the deed leaves as it is.
-/
def skipped? : Deed → Option GeneratedFile
  | .skip f => some f
  | .write _ _ => none
  | .remove _ => none
  | .miss _ => none
  | .save _ => none

/--
The content that the deed writes to a generated file.
-/
def content? : Deed → Option Text
  | .skip _ => none
  | .write _ content => some content
  | .remove _ => none
  | .miss _ => none
  | .save _ => none

/--
The stale file that the deed is about, whether it is there or not.
-/
def stale? : Deed → Option Text
  | .skip _ => none
  | .write _ _ => none
  | .remove name => some name
  | .miss name => some name
  | .save _ => none

/--
The stale file that the deed removes.
-/
def removed? : Deed → Option Text
  | .skip _ => none
  | .write _ _ => none
  | .remove name => some name
  | .miss _ => none
  | .save _ => none

-- Each generated file is left as it is or written.
theorem length_filterMap_file? (deeds : List Deed) :
    (deeds.filterMap file?).length
      = (deeds.filterMap content?).length + (deeds.filterMap skipped?).length := by
  induction deeds with
  | nil => rfl
  | cons deed deeds ih =>
    cases deed
    all_goals
      simp only [List.filterMap_cons, file?, content?, skipped?, List.length_cons, ih]
      try omega

end Deed

/--
The metrics after one more deed.
-/
def Metrics.count (m : Metrics) : Deed → Metrics
  | .skip _ => { m with skipped := m.skipped + 1 }
  | .write _ content => { m with written := m.written + 1, bytes := m.bytes + content.length }
  | .remove _ => { m with removed := m.removed + 1 }
  | .miss _ => { m with removed := m.removed + 1 }
  | .save _ => m

theorem Metrics.foldl_count (m : Metrics) (deeds : List Deed) :
    deeds.foldl count m =
      { written := m.written + (deeds.filterMap Deed.content?).length
        skipped := m.skipped + (deeds.filterMap Deed.skipped?).length
        removed := m.removed + (deeds.filterMap Deed.stale?).length
        bytes := m.bytes + ((deeds.filterMap Deed.content?).map List.length).sum } := by
  induction deeds generalizing m with
  | nil => rfl
  | cons deed deeds ih =>
    rw [List.foldl_cons, ih]
    cases deed
    all_goals
      simp [count, List.filterMap_cons, Deed.content?, Deed.skipped?, Deed.stale?, Nat.add_assoc,
        Nat.add_comm 1]

namespace Writer

/--
The deed takes a run with the options from the disk `d` to the disk `e`.
-/
inductive Does (o : Options) (d : Disk) : Deed → Disk → Prop where
  | skip {f : GeneratedFile} {content : Text} (hcontent : finalContent? o f = some content)
      (hsame : hasDigest d (Path.join o.target f.name) (digest content) = true) :
      Does o d (.skip f) d
  | write {f : GeneratedFile} {content : Text} {e : Disk}
      (hcontent : finalContent? o f = some content)
      (h : d.write (Path.join o.target f.name) content = .ok e) : Does o d (.write f content) e
  | remove {name : Text} {e : Disk} (h : d.remove (Path.join o.target name) = .ok e) :
      Does o d (.remove name) e
  | miss {name : Text} {f : Failure} (h : d.remove (Path.join o.target name) = .error f)
      (hf : f.is .notFound = true) : Does o d (.miss name) d
  | save {m : Manifest} {e : Disk} (h : d.write (manifestPath o) m.encode = .ok e) :
      Does o d (.save m) e

/--
The deeds, one after the other, take a run with the options from a disk to another one.
-/
inductive DoesAll (o : Options) : Disk → List Deed → Disk → Prop where
  | nil (d : Disk) : DoesAll o d [] d
  | cons {d e f : Disk} {deed : Deed} {deeds : List Deed} (h : Does o d deed e)
      (hrest : DoesAll o e deeds f) : DoesAll o d (deed :: deeds) f

variable {o : Options} {d e f : Disk} {deed : Deed} {deeds more : List Deed}

/-! What the deeds do to the disk. -/

theorem DoesAll.append (h : DoesAll o d deeds e) (hmore : DoesAll o e more f) :
    DoesAll o d (deeds ++ more) f := by
  induction h with
  | nil => exact hmore
  | cons hdeed _ ih => exact .cons hdeed (ih hmore)

theorem Does.keeps (h : Does o d deed e) : e.Keeps d := by
  cases h with
  | skip => exact .refl d
  | write _ h => exact Disk.write_keeps h
  | remove h => exact Disk.remove_keeps h
  | miss => exact .refl d
  | save h => exact Disk.write_keeps h

theorem DoesAll.keeps (h : DoesAll o d deeds e) : e.Keeps d := by
  induction h with
  | nil d => exact .refl d
  | cons hdeed _ ih => exact ih.trans hdeed.keeps

-- Nothing disappears unless it is removed.
theorem Does.gainsFiles (h : Does o d deed e) (hdeed : deed.removed? = none) : d.GainsFiles e := by
  cases h with
  | skip => exact .refl d
  | write _ h => exact Disk.write_gainsFiles h
  | remove h => cases hdeed
  | miss => exact .refl d
  | save h => exact Disk.write_gainsFiles h

-- What a run misses was missing from the start: the stale files have different names, and files are
-- added but not taken away until each of them has its turn. As the way to the target directory is
-- there in the end, it was there all the time.
theorem DoesAll.node?_of_miss {directory : Place} {name : Text} (htarget : o.target ≠ [])
    (h : DoesAll o d deeds e) (hleads : e.LeadsTo o.target directory)
    (hown : ∀ name ∈ deeds.filterMap Deed.stale?, isOwnName name = true)
    (hnodup : (deeds.filterMap Deed.stale?).Nodup) (hmiss : Deed.miss name ∈ deeds) :
    d.node? (directory ++ [name]) = none := by
  induction h with
  | nil => cases hmiss
  | @cons d e f deed deeds hdeed hrest ih =>
    have hnow := hdeed.keeps.leadsTo (hrest.keeps.leadsTo hleads)
    have hlater (hother : Deed.miss name ∈ deeds) : e.node? (directory ++ [name]) = none := by
      have hfewer := (List.sublist_cons_self deed deeds).filterMap Deed.stale?
      exact ih hleads (fun other hmem => hown other (hfewer.subset hmem)) (hnodup.sublist hfewer)
        hother
    by_cases hremoved : deed.removed? = none
    . rcases List.mem_cons.1 hmiss with rfl | hother
      . cases hdeed with
        | miss hremove hmissing =>
          have hplain := isPlain_of_isOwnName (hown name (by simp [Deed.stale?]))
          exact hnow.node?_of_remove_notFound htarget hplain hremove hmissing
      . by_contra hnode
        exact (hdeed.gainsFiles hremoved).stays _ hnode (hlater hother)
    . cases hdeed with
      | @remove other _ hremove =>
        have hmem : Deed.miss name ∈ deeds := by simpa using hmiss
        have hplain := isPlain_of_isOwnName (hown other (by simp [Deed.stale?]))
        have hne : name ≠ other := by
          rintro rfl
          rw [List.filterMap_cons_some (f := Deed.stale?) rfl, List.nodup_cons] at hnodup
          exact hnodup.1 (List.mem_filterMap.2 ⟨_, hmem, rfl⟩)
        have hgone := hlater hmem
        rw [(hnow.remove_join htarget hplain hremove).2, Disk.node?_erase d (by simp),
          if_neg (by simpa using hne)] at hgone
        exact hgone
      | _ => exact absurd rfl hremoved

/-! The deeds of a run. -/

/--
The deeds take a run from `p` to `q`, and the metrics count them.
-/
structure Performs (o : Options) (p : Progress) (deeds : List Deed) (q : Progress) : Prop where
  disk : DoesAll o p.disk deeds q.disk
  metrics : q.metrics = deeds.foldl Metrics.count p.metrics

/--
On the way from `p` to `q` there is one deed for each of the generated files and one for each of the
names of stale files.
-/
def Treats (o : Options) (p : Progress) (files : List GeneratedFile) (names : List Text)
    (q : Progress) : Prop :=
  ∃ deeds, Performs o p deeds q ∧ deeds.filterMap Deed.file? = files
    ∧ deeds.filterMap Deed.stale? = names

variable {schema : Schema} {batch : Batch} {previous : Manifest} {files : List GeneratedFile}
  {names : List Text} {p q r : Progress}

theorem treats_of_eq (hdisk : q.disk = p.disk) (hmetrics : q.metrics = p.metrics) :
    Treats o p [] [] q := by
  refine ⟨[], ⟨?_, hmetrics⟩, rfl, rfl⟩
  rw [hdisk]
  exact .nil p.disk

theorem treats_of_does (h : Does o p.disk deed q.disk)
    (hcount : q.metrics = p.metrics.count deed) :
    Treats o p deed.file?.toList deed.stale?.toList q :=
  ⟨[deed], ⟨.cons h (.nil q.disk), hcount⟩, by cases deed <;> rfl, by cases deed <;> rfl⟩

theorem Treats.append {moreFiles : List GeneratedFile} {moreNames : List Text}
    (h : Treats o p files names q) (hmore : Treats o q moreFiles moreNames r) :
    Treats o p (files ++ moreFiles) (names ++ moreNames) r := by
  obtain ⟨first, hfirst, rfl, rfl⟩ := h
  obtain ⟨second, hsecond, rfl, rfl⟩ := hmore
  refine ⟨first ++ second, ⟨hfirst.disk.append hsecond.disk, ?_⟩, List.filterMap_append,
    List.filterMap_append⟩
  rw [List.foldl_append, ← hfirst.metrics]
  exact hsecond.metrics

-- What is logged does not matter.
theorem Treats.of_eq (h : Treats o p files names q) (hdisk : r.disk = q.disk)
    (hmetrics : r.metrics = q.metrics) : Treats o p files names r := by
  have hall := h.append (treats_of_eq hdisk hmetrics)
  rw [List.append_nil, List.append_nil] at hall
  exact hall

theorem writeFile_treats {f : GeneratedFile} {hash : Text}
    (h : writeFile o previous f p = (q, .ok hash)) : Treats o p [f] [] q := by
  unfold writeFile at h
  dsimp only at h
  split at h
  . split at h
    all_goals cases h
  . next content hcontent =>
    split at h
    . next hskip =>
      cases h
      rw [Bool.and_eq_true] at hskip
      exact treats_of_does (p := p) (q := p.skip f.name) (.skip hcontent hskip.2) rfl
    . split at h
      . next disk hwrite =>
        cases h
        exact treats_of_does (p := p) (q := p.wrote f content disk) (.write hcontent hwrite) rfl
      . cases h

theorem turn_treats {w : Writing} {next : Nat × Start}
    (h : (Writing.turn o previous files w next).failure? = none) :
    Treats o w.progress files[next.1]?.toList [] (Writing.turn o previous files w next).progress := by
  obtain ⟨-, ⟨hfile, hturn⟩ | ⟨f, q, hash, hfile, hwrite, hturn⟩⟩ := Writing.turn_cases h
  . rw [hturn, hfile]
    exact treats_of_eq rfl rfl
  . rw [hturn, hfile]
    exact writeFile_treats hwrite

-- No task failed in the end, so none has failed on the way.
theorem foldl_turn_treats {schedule : Schedule} {w : Writing}
    (h : (schedule.foldl (Writing.turn o previous files) w).failure? = none) :
    Treats o w.progress (schedule.flatMap fun next => files[next.1]?.toList) []
      (schedule.foldl (Writing.turn o previous files) w).progress := by
  induction schedule generalizing w with
  | nil => exact treats_of_eq rfl rfl
  | cons next schedule ih =>
    rw [List.foldl_cons] at h ⊢
    exact (turn_treats (Writing.failure?_of_foldl_turn h)).append (ih h)

theorem run_treats {schedule : Schedule}
    (h : (Writing.run o previous files schedule p).failure? = none) :
    Treats o p (schedule.flatMap fun next => files[next.1]?.toList) []
      (Writing.run o previous files schedule p).progress :=
  foldl_turn_treats h

theorem removeStale_treats {kept : FileTable}
    (h : removeStale o.target kept names p = (q, none)) :
    Treats o p [] (staleNames kept names) q := by
  induction names generalizing p with
  | nil =>
    cases h
    exact treats_of_eq rfl rfl
  | cons name names ih =>
    unfold removeStale at h
    unfold staleNames
    split at h
    . next hkept =>
      rw [List.filter_cons_of_neg (by rw [hkept]; simp)]
      exact ih h
    . next hkept =>
      rw [List.filter_cons_of_pos (by rw [Bool.not_eq_true']; exact Bool.eq_false_iff.2 hkept)]
      split at h
      . next disk hremove =>
        exact (treats_of_does (p := p) (q := p.removed name disk) (.remove hremove) rfl).append
          (ih h)
      . next f hremove =>
        split at h
        . next hmissing =>
          exact (treats_of_does (p := p) (q := p.removed name p.disk) (.miss hremove hmissing)
            rfl).append (ih h)
        . cases h

-- The manifest could be saved, so there is a way to the target directory in the end.
theorem finish_treats {start : Metrics} {recorded : FileTable} (htarget : o.target ≠ [])
    (h : finish o schema batch previous start recorded p = (q, batch.failure?)) :
    Treats o p [] (staleNames (keepFailed schema previous batch.failedNames recorded)
        previous.files.names) q
      ∧ ∃ directory, q.disk.LeadsTo o.target directory := by
  unfold finish at h
  dsimp only at h
  split at h
  . next f _ => exact absurd (congrArg Prod.snd h).symm (failure?_ne_stopped batch f)
  . next t hremove =>
    split at h
    . next f _ => exact absurd (congrArg Prod.snd h).symm (failure?_ne_stopped batch f)
    . next disk hsave =>
      have hwrite := Manifest.write_of_save hsave
      obtain ⟨-, directory, hleads⟩ :=
        Disk.exists_leadsTo_of_write htarget Manifest.isPlain_fileName hwrite
      have hsaved : Treats o t [] [] q := by
        cases h
        exact treats_of_does (.save hwrite) rfl
      have hall := (removeStale_treats hremove).append hsaved
      rw [List.append_nil, List.append_nil] at hall
      refine ⟨hall, directory, ?_⟩
      cases h
      exact (Disk.write_gainsFiles hwrite).ways.1.keeps.leadsTo hleads

end Writer

end ValueGen
