import ValueGen.Proofs.Disk.Making

/-!
This module contains which places the operations on a disk without links change. There the words of
a path alone say which place an entry of its directory has, whatever is on the disk.
-/

namespace ValueGen

namespace Disk

variable {d e f : Disk} {path name content : Text} {p : Place}

/-! Changes that leave only certain nodes behind. -/

/--
Wherever the disks differ, the second one has a node, or none, that may be left at the place.
-/
def ChangesTo (d e : Disk) (mayLeave : Place → Option Node → Prop) : Prop :=
  ∀ place, e.node? place = d.node? place ∨ mayLeave place (e.node? place)

section ChangesTo

variable {mayLeave : Place → Option Node → Prop}

theorem ChangesTo.refl (d : Disk) (mayLeave : Place → Option Node → Prop) :
    d.ChangesTo d mayLeave := fun _ => .inl rfl

theorem ChangesTo.trans (hde : d.ChangesTo e mayLeave) (hef : e.ChangesTo f mayLeave) :
    d.ChangesTo f mayLeave := by
  intro place
  rcases hef place with hsame | hleft
  . rw [hsame]
    exact hde place
  . exact .inr hleft

theorem changesTo_put (hp : p ≠ []) {n : Node} (h : mayLeave p (some n)) :
    d.ChangesTo (d.put p n) mayLeave := by
  intro place
  rw [node?_put d hp]
  split
  . next heq => exact .inr (heq ▸ h)
  . exact .inl rfl

theorem changesTo_erase (hp : p ≠ []) (h : mayLeave p none) : d.ChangesTo (d.erase p) mayLeave := by
  intro place
  rw [node?_erase d hp]
  split
  . next heq => exact .inr (heq ▸ h)
  . exact .inl rfl

-- Links stay away if none is left behind.
theorem ChangesTo.isLinkFree (h : d.ChangesTo e mayLeave) (hd : d.IsLinkFree)
    (hlink : ∀ place target, ¬ mayLeave place (some (.link target))) : e.IsLinkFree := by
  intro place target hnode
  rcases h place with hsame | hleft
  . rw [hsame] at hnode
    exact hd place target hnode
  . rw [hnode] at hleft
    exact hlink place target hleft

end ChangesTo

/-! The entries of a directory. -/

/--
The place of an entry of the directory that a path leads to if there are no links.
-/
def entryPlace (path name : Text) : Place := destination [] (Path.pieces path) ++ [name]

theorem entryPlace_ne_nil (path name : Text) : entryPlace path name ≠ [] := by
  simp [entryPlace]

theorem IsLinkFree.eq_entryPlace (hlinks : d.IsLinkFree) (hpath : path ≠ [])
    (hname : Path.IsPlain name) {follow : Bool}
    (h : d.locate follow (Path.join path name) = .ok p) : p = entryPlace path name := by
  rw [(hlinks.reaches_of_locate h).2.eq_destination, Path.steps_join_entry hpath hname,
    destination_append_singleton, destination_cleanSteps,
    stepFrom_of_ne _ hname.ne_dot hname.ne_dots, entryPlace]

theorem IsLinkFree.node?_of_read (hlinks : d.IsLinkFree) (hpath : path ≠ [])
    (hname : Path.IsPlain name) (h : d.read (Path.join path name) = .ok content) :
    d.node? (entryPlace path name) = some (.file content) := by
  unfold read at h
  split at h
  . cases h
  . next p hlocate =>
    rw [← hlinks.eq_entryPlace hpath hname hlocate]
    split at h
    . next hnode =>
      cases h
      exact hnode
    all_goals cases h

theorem IsLinkFree.eq_put_of_write (hlinks : d.IsLinkFree) (hpath : path ≠ [])
    (hname : Path.IsPlain name) (h : d.write (Path.join path name) content = .ok e) :
    e = d.put (entryPlace path name) (.file content) := by
  obtain ⟨p, hlocate, -, rfl⟩ := (write_eq_ok_iff _ _ _ _).1 h
  rw [hlinks.eq_entryPlace hpath hname hlocate]

theorem IsLinkFree.eq_erase_of_remove (hlinks : d.IsLinkFree) (hpath : path ≠ [])
    (hname : Path.IsPlain name) (h : d.remove (Path.join path name) = .ok e) :
    e = d.erase (entryPlace path name) := by
  obtain ⟨p, hlocate, -, rfl⟩ := remove_eq_ok h
  rw [hlinks.eq_entryPlace hpath hname hlocate]

/-! The directories of a path. -/

/--
The disks differ only in directories that were made at some of the places, where nothing was.
-/
def MakesAt (d : Disk) (places : List Place) (e : Disk) : Prop :=
  ∀ place, e.node? place = d.node? place
    ∨ place ∈ places ∧ d.node? place = none ∧ e.node? place = some .directory

theorem MakesAt.refl (d : Disk) (places : List Place) : d.MakesAt places d := fun _ => .inl rfl

theorem MakesAt.mono {places more : List Place} (h : d.MakesAt places e) (hmore : places ⊆ more) :
    d.MakesAt more e :=
  fun place => (h place).imp_right (And.imp_left (@hmore place))

theorem MakesAt.trans {places : List Place} (hde : d.MakesAt places e) (hef : e.MakesAt places f) :
    d.MakesAt places f := by
  intro place
  rcases hef place with hsame | ⟨hplace, hnone, hmade⟩
  . rw [hsame]
    exact hde place
  . rcases hde place with hsame | ⟨-, -, hdirectory⟩
    . exact .inr ⟨hplace, hsame ▸ hnone, hmade⟩
    . rw [hdirectory] at hnone
      cases hnone

theorem makeDirectory_makesAt (hlinks : d.IsLinkFree) (h : d.makeDirectory path = .ok e) :
    d.MakesAt (trail [] (Path.pieces path)) e := by
  unfold makeDirectory at h
  split at h
  . cases h
  . next p hlocate =>
    split at h
    . next hnone =>
      cases h
      have hp : p ≠ [] := by
        rintro rfl
        cases hnone
      have hdestination := (hlinks.reaches_of_locateNew hlocate).2.eq_destination
      have hsteps : Path.pieces path ≠ [] := by
        intro hnil
        rw [hnil, destination_nil] at hdestination
        exact hp hdestination
      intro place
      rw [node?_put d hp]
      split
      . next heq =>
        refine .inr ⟨?_, heq ▸ hnone, rfl⟩
        rw [heq, hdestination]
        exact destination_mem_trail [] hsteps
      . exact .inl rfl
    . cases h

theorem ensureDirectory_makesAt (hlinks : d.IsLinkFree) (path : Text) :
    d.MakesAt (trail [] (Path.pieces path)) (d.ensureDirectory path).1 := by
  unfold ensureDirectory
  split
  . next hmade => exact makeDirectory_makesAt hlinks hmade
  . repeat' split
    all_goals exact MakesAt.refl d _

-- The path above has the same steps but the last, so its places are among those of the path.
theorem makeDirectories_makesAt (hlinks : d.IsLinkFree) (path : Text) :
    d.MakesAt (trail [] (Path.pieces path)) (d.makeDirectories path).1 := by
  have habove {path parent : Text} (hparent : Path.parent? path = some parent) :
      trail [] (Path.pieces parent) ⊆ trail [] (Path.pieces path) := by
    obtain ⟨last, hlast⟩ := Path.pieces_of_parent?_some hparent
    rw [hlast, trail_append]
    exact List.subset_append_left _ _
  fun_induction makeDirectories d path with
  | case1 => exact MakesAt.refl _ _
  | case2 => exact MakesAt.refl _ _
  | case3 path => exact ensureDirectory_makesAt hlinks path
  | case4 path hnode parent hparent e f hfailed ih =>
    rw [hfailed] at ih
    exact ih.mono (habove hparent)
  | case5 path hnode parent hparent e hmade ih =>
    rw [hmade] at ih
    have hadds := makeDirectories_addsDirectories d parent
    rw [hmade] at hadds
    exact (ih.mono (habove hparent)).trans
      (ensureDirectory_makesAt (hadds.isLinkFree hlinks) path)

end Disk

end ValueGen
