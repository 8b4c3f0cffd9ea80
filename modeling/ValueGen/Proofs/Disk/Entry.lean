import ValueGen.Proofs.Disk.Walk

/-!
This module contains the operations on the entries of a directory that a path leads to. If there is
no link at an entry, reading, writing and removing it act on its place and on nothing else.
-/

namespace ValueGen

theorem Failure.is_notFound_disk_iff (operation path : Text) (fault : DiskFault) :
    (Failure.disk operation path fault).is .notFound = true ↔ fault = .notFound := by
  unfold Failure.is Failure.anyNode
  cases fault
  all_goals simp [Failure.matchesAlone]

namespace Path

theorem join_append_singleton {ts : List Text} (hne : ts ≠ []) (t : Text) :
    Text.join [separator] (ts ++ [t]) = Text.join [separator] ts ++ separator :: t := by
  induction ts with
  | nil => exact absurd rfl hne
  | cons first ts ih =>
    cases ts with
    | nil => simp [Text.join]
    | cons second ts =>
      have hrest := ih (by simp)
      simp only [List.cons_append] at hrest
      simp only [List.cons_append, Text.join, hrest, List.append_assoc, List.nil_append]

-- The cleaned path of a directory is the start of the path of an entry, or the way to stay.
theorem clean_eq_dot_or_isPrefix {p name : Text} (hp : p ≠ []) (hname : IsPlain name) :
    clean p = "." ∨ clean p <+: join p name := by
  have hrooted : isRooted (p ++ separator :: name) = isRooted p := by
    unfold isRooted
    rw [List.head?_append, Option.or_of_isSome (by simpa using hp)]
  unfold join
  rw [clean_eq p, clean_eq (p ++ separator :: name), hrooted, cleanSteps_append_cons hp hname]
  by_cases hnil : cleanSteps p = []
  . rw [hnil]
    split
    . exact .inr (by simp [Text.join])
    . exact .inl rfl
  . rw [join_append_singleton hnil]
    right
    split
    . simp [List.cons_prefix_cons]
    . simp [hnil]

end Path

namespace Disk

/--
The cleaned path leads to a directory at a place.
-/
def LeadsTo (d : Disk) (path : Text) (directory : Place) : Prop :=
  d.walkLinks true mostLinks [] (Path.cleanSteps path) = .ok directory
    ∧ d.isDirectory directory = true

variable {d e : Disk} {path name : Text} {directory : Place}

theorem Keeps.leadsTo (hkeeps : d.Keeps e) (h : d.LeadsTo path directory) :
    e.LeadsTo path directory :=
  ⟨hkeeps.walkLinks h.2 mostLinks h.1, hkeeps.isDirectory h.2⟩

theorem LeadsTo.unique {other : Place} (h : d.LeadsTo path directory)
    (hother : d.LeadsTo path other) : other = directory := by
  have heq := hother.1.symm.trans h.1
  cases heq
  rfl

/--
A path that can be followed at all: it is not empty, not too long, and has no zero byte.
-/
def CanFollow (path : Text) : Prop :=
  path ≠ [] ∧ path.contains 0 = false ∧ path.length ≤ longestPath

theorem pathFault?_eq_none_iff (path : Text) : pathFault? path = none ↔ CanFollow path := by
  unfold pathFault? CanFollow
  by_cases hempty : path = []
  . simp [hempty]
  . by_cases hzero : 0 ∈ path
    all_goals simp [hempty, hzero]

theorem locate_of_canFollow (follow : Bool) (h : CanFollow path) :
    d.locate follow path = d.walkLinks follow mostLinks [] (Path.steps path) := by
  unfold locate
  rw [(pathFault?_eq_none_iff path).2 h]

theorem canFollow_of_locate {follow : Bool} {p : Place} (h : d.locate follow path = .ok p) :
    CanFollow path := by
  unfold locate at h
  split at h
  . cases h
  . next hfault => exact (pathFault?_eq_none_iff path).1 hfault

theorem locate_of_not_canFollow (follow : Bool) (hne : path ≠ []) (h : ¬ CanFollow path) :
    ∃ f, d.locate follow path = .error f ∧ f ≠ .notFound := by
  unfold locate
  split
  . next f hfault =>
    refine ⟨f, rfl, ?_⟩
    unfold pathFault? at hfault
    rintro rfl
    simp only [List.isEmpty_iff, hne, ↓reduceIte] at hfault
    repeat' split at hfault
    all_goals cases hfault
  . next hfault => exact absurd ((pathFault?_eq_none_iff path).1 hfault) h

theorem join_ne_nil (hpath : path ≠ []) (hname : Path.IsPlain name) : Path.join path name ≠ [] := by
  intro hnil
  have hsteps := Path.steps_join_entry hpath hname
  rw [hnil] at hsteps
  have hempty : Path.steps [] = [] := rfl
  rw [hempty] at hsteps
  simp at hsteps

def HasNoLinks (d : Disk) (directory : Place) : Prop := ∀ name, d.IsNoLink (directory ++ [name])

theorem hasNoLinks_of_entries (h : ∀ e ∈ d.entries, ∀ target, e.2 ≠ .link target) :
    d.HasNoLinks directory := by
  intro name target hnode
  unfold node? at hnode
  split at hnode
  . cases hnode
  . obtain ⟨before, after, hentries, -⟩ := List.lookup_eq_some_iff.1 hnode
    refine h (directory ++ [name], .link target) ?_ target rfl
    rw [hentries]
    simp

theorem AddsDirectories.hasNoLinks (h : d.AddsDirectories e) (hd : d.HasNoLinks directory) :
    e.HasNoLinks directory := by
  intro name target
  rcases h (directory ++ [name]) with hsame | ⟨-, hmade⟩
  . rw [hsame]
    exact hd name target
  . rw [hmade]
    simp

/--
The name is one that an entry of the directory can have, and there is no link at its place. The path
leads to the directory.
-/
structure IsEntry (d : Disk) (path : Text) (directory : Place) (name : Text) : Prop where
  path_ne : path ≠ []
  leadsTo : d.LeadsTo path directory
  plain : Path.IsPlain name
  noLink : d.IsNoLink (directory ++ [name])

/--
The entry of a name can be reached by its path: the path can be followed, and the name is not too
long.
-/
structure CanReach (path name : Text) : Prop where
  path : CanFollow (Path.join path name)
  name : nameFault? name = none

section LeadsTo

variable {follow : Bool} (h : d.LeadsTo path directory) (hpath : path ≠ [])
  (hname : Path.IsPlain name) (hlink : follow = true → d.IsNoLink (directory ++ [name]))

include h hpath hname hlink

theorem LeadsTo.locate_join (hfollow : CanFollow (Path.join path name)) :
    d.locate follow (Path.join path name) = enter directory name := by
  rw [locate_of_canFollow follow hfollow, Path.steps_join_entry hpath hname]
  exact walkLinks_append_of_ok h.2 hname hlink mostLinks h.1

theorem LeadsTo.canReach_of_locate {p : Place}
    (hlocate : d.locate follow (Path.join path name) = .ok p) :
    CanReach path name ∧ p = directory ++ [name] := by
  have hfollow := canFollow_of_locate hlocate
  rw [h.locate_join hpath hname hlink hfollow] at hlocate
  unfold enter at hlocate
  split at hlocate
  . cases hlocate
  . next hfault =>
    cases hlocate
    exact ⟨⟨hfollow, hfault⟩, rfl⟩

-- The path of an entry leads to its place or cannot be followed. It never gets lost on the way.
theorem LeadsTo.ne_notFound_of_locate {fault : DiskFault}
    (hlocate : d.locate follow (Path.join path name) = .error fault) : fault ≠ .notFound := by
  by_cases hfollow : CanFollow (Path.join path name)
  . rw [h.locate_join hpath hname hlink hfollow] at hlocate
    unfold enter nameFault? at hlocate
    rintro rfl
    split at hlocate
    . next hfault =>
      cases hlocate
      split at hfault
      all_goals cases hfault
    . cases hlocate
  . have hne := join_ne_nil hpath hname
    obtain ⟨f, herror, hf⟩ := locate_of_not_canFollow (d := d) follow hne hfollow
    rw [herror] at hlocate
    cases hlocate
    exact hf

end LeadsTo

theorem IsEntry.locate_join_of_canReach (h : d.IsEntry path directory name) (follow : Bool)
    (hreach : CanReach path name) :
    d.locate follow (Path.join path name) = .ok (directory ++ [name]) := by
  rw [h.leadsTo.locate_join h.path_ne h.plain (fun _ => h.noLink) hreach.path]
  unfold enter
  rw [hreach.name]

theorem IsEntry.canReach_of_locate (h : d.IsEntry path directory name) {follow : Bool} {p : Place}
    (hlocate : d.locate follow (Path.join path name) = .ok p) :
    CanReach path name ∧ p = directory ++ [name] :=
  h.leadsTo.canReach_of_locate h.path_ne h.plain (fun _ => h.noLink) hlocate

theorem IsEntry.ne_notFound_of_locate (h : d.IsEntry path directory name) {follow : Bool}
    {fault : DiskFault} (hlocate : d.locate follow (Path.join path name) = .error fault) :
    fault ≠ .notFound :=
  h.leadsTo.ne_notFound_of_locate h.path_ne h.plain (fun _ => h.noLink) hlocate

-- A file could be written to an entry, so there is a way to the directory.
theorem exists_leadsTo_of_write {content : Text} (hpath : path ≠ []) (hname : Path.IsPlain name)
    (hwrite : d.write (Path.join path name) content = .ok e) :
    CanFollow (Path.join path name) ∧ ∃ directory, d.LeadsTo path directory := by
  rw [write_eq_ok_iff] at hwrite
  obtain ⟨p, hlocate, -, -⟩ := hwrite
  have hfollow := canFollow_of_locate hlocate
  rw [locate_of_canFollow true hfollow, Path.steps_join_entry hpath hname] at hlocate
  exact ⟨hfollow, walkLinks_append_ok mostLinks hlocate⟩

theorem walkLinks_dot (links : Nat) : d.walkLinks true links [] [("." : Text)] = .ok [] := by
  cases links with
  | zero => exact walk_stay rfl
  | succ links => exact walk_stay rfl

theorem LeadsTo.locate_clean (h : d.LeadsTo path directory) (hpath : path ≠ [])
    (hname : Path.IsPlain name) (hfollow : CanFollow (Path.join path name)) :
    d.locate true (Path.clean path) = .ok directory := by
  have hclean : CanFollow (Path.clean path) := by
    rcases Path.clean_eq_dot_or_isPrefix hpath hname with hdot | hstart
    . rw [hdot]
      exact ⟨by decide, by decide, by decide⟩
    . refine ⟨?_, ?_, ?_⟩
      . rw [Path.clean_eq]
        split
        . simp
        . split
          . decide
          . next hsteps =>
            apply Path.join_ne_nil
            . simpa using hsteps
            . intro t ht
              exact Path.isStep_of_mem_cleanSteps ht
      . have hzero := hfollow.2.1
        rw [List.contains_eq_mem, decide_eq_false_iff_not] at hzero ⊢
        exact fun hmem => hzero (hstart.subset hmem)
      . exact Nat.le_trans hstart.length_le hfollow.2.2
  rw [locate_of_canFollow true hclean]
  by_cases hnil : Path.cleanSteps path = []
  . have hwalk := h.1
    rw [hnil] at hwalk
    rw [Path.steps_clean_of_nil hnil, walkLinks_dot]
    cases hwalk
    rfl
  . rw [Path.steps_clean hnil]
    exact h.1

/-! The operations on an entry. -/

theorem IsEntry.read_join (h : d.IsEntry path directory name) {content : Text}
    (hread : d.read (Path.join path name) = .ok content) :
    CanReach path name ∧ d.node? (directory ++ [name]) = some (.file content) := by
  unfold read at hread
  split at hread
  . cases hread
  . next p hlocate =>
    obtain ⟨hreach, rfl⟩ := h.canReach_of_locate hlocate
    split at hread
    . next hnode =>
      cases hread
      exact ⟨hreach, hnode⟩
    all_goals cases hread

theorem IsEntry.read_join_of_node (h : d.IsEntry path directory name) {content : Text}
    (hreach : CanReach path name) (hnode : d.node? (directory ++ [name]) = some (.file content)) :
    d.read (Path.join path name) = .ok content := by
  unfold read
  rw [h.locate_join_of_canReach true hreach]
  simp only [hnode]

theorem IsEntry.write_join (h : d.IsEntry path directory name) {content : Text}
    (hwrite : d.write (Path.join path name) content = .ok e) :
    CanReach path name ∧ d.node? (directory ++ [name]) ≠ some .directory
      ∧ e = d.put (directory ++ [name]) (.file content) := by
  rw [write_eq_ok_iff] at hwrite
  obtain ⟨p, hlocate, hnot, rfl⟩ := hwrite
  obtain ⟨hreach, rfl⟩ := h.canReach_of_locate hlocate
  exact ⟨hreach, hnot, rfl⟩

theorem IsEntry.leadsTo_of_write (h : d.IsEntry path directory name) {content : Text}
    (hwrite : d.write (Path.join path name) content = .ok e) : e.LeadsTo path directory := by
  obtain ⟨-, hnot, rfl⟩ := h.write_join hwrite
  refine (keeps_put (by simp) ?_ _).leadsTo h.leadsTo
  intro n hn
  cases n with
  | file content => exact ⟨content, rfl⟩
  | directory => exact absurd hn hnot
  | link target => exact absurd hn (h.noLink target)

-- Removing follows no link at the entry itself.
theorem LeadsTo.remove_join (h : d.LeadsTo path directory) (hpath : path ≠ [])
    (hname : Path.IsPlain name) (hremove : d.remove (Path.join path name) = .ok e) :
    d.node? (directory ++ [name]) ≠ none ∧ e = d.erase (directory ++ [name]) := by
  obtain ⟨p, hlocate, hnode, rfl⟩ := remove_eq_ok hremove
  obtain ⟨-, rfl⟩ := h.canReach_of_locate hpath hname (by simp) hlocate
  exact ⟨hnode, rfl⟩

theorem LeadsTo.node?_of_remove_notFound (h : d.LeadsTo path directory) (hpath : path ≠ [])
    (hname : Path.IsPlain name) {f : Failure}
    (hremove : d.remove (Path.join path name) = .error f) (hf : f.is .notFound = true) :
    d.node? (directory ++ [name]) = none := by
  unfold remove refuse at hremove
  split at hremove
  . next fault hlocate =>
    cases hremove
    rw [Failure.is_notFound_disk_iff] at hf
    exact absurd hf (h.ne_notFound_of_locate hpath hname (by simp) hlocate)
  . next p hlocate =>
    obtain ⟨-, rfl⟩ := h.canReach_of_locate hpath hname (by simp) hlocate
    split at hremove
    . next hnode => exact hnode
    . split at hremove
      . cases hremove
      . cases hremove
        simp [Failure.is_notFound_disk_iff] at hf
    . cases hremove

end Disk

end ValueGen
