import Mathlib.Data.List.Basic
import Mathlib.Data.List.TakeWhile
import ValueGen.Proofs.Disk.Trail

/-!
This module contains when the directories of a path can be made on a disk without links: exactly if
the path can be followed and nothing but directories is in its way. Afterwards the path is open.
-/

namespace ValueGen

namespace Path

variable {p parent : Text}

/-! The steps of a path and those of the path above it. -/

theorem pieces_append_replicate (p : Text) (n : Nat) :
    pieces (p ++ List.replicate n separator) = pieces p := by
  induction n with
  | zero => rw [List.replicate_zero, List.append_nil]
  | succ n ih =>
    rw [List.replicate_succ', ← List.append_assoc, pieces_append_cons, ih]
    exact List.append_nil _

theorem exists_eq_trimRight_append (p : Text) :
    ∃ n, p = Text.trimRight (· == separator) p ++ List.replicate n separator := by
  refine ⟨(p.reverse.takeWhile (· == separator)).length, ?_⟩
  have htail : (p.reverse.takeWhile (· == separator)).reverse
      = List.replicate (p.reverse.takeWhile (· == separator)).length separator := by
    rw [List.eq_replicate_iff]
    refine ⟨List.length_reverse, ?_⟩
    intro b hb
    rw [List.mem_reverse] at hb
    simpa using List.mem_takeWhile_imp hb
  unfold Text.trimRight
  rw [← htail, ← List.reverse_append, List.takeWhile_append_dropWhile, List.reverse_reverse]

theorem pieces_trimRight (p : Text) : pieces (Text.trimRight (· == separator) p) = pieces p := by
  obtain ⟨n, hn⟩ := exists_eq_trimRight_append p
  conv =>
    rhs
    rw [hn]
  rw [pieces_append_replicate]

theorem steps_eq (p : Text) :
    steps p = pieces p ++ if p.getLast? == some separator then [("." : Text)] else [] := rfl

theorem steps_trimRight (p : Text) : steps (Text.trimRight (· == separator) p) = pieces p := by
  have hlast : (Text.trimRight (· == separator) p).getLast? ≠ some separator := by
    unfold Text.trimRight
    rw [List.getLast?_reverse]
    intro hhead
    have hnot := List.head?_dropWhile_not (· == separator) p.reverse
    rw [hhead] at hnot
    simp at hnot
  rw [steps_eq, pieces_trimRight, if_neg (by simpa using hlast), List.append_nil]

/--
The part of a path up to its last separator, those at its end aside.
-/
def upper (p : Text) : Text :=
  ((p.reverse.dropWhile (· == separator)).dropWhile (· != separator)).reverse

theorem parent?_eq (p : Text) :
    parent? p = if 1 < (upper p).length then some (upper p).dropLast else none := rfl

theorem upper_isPrefix (p : Text) : upper p <+: p := by
  unfold upper
  rw [← List.reverse_suffix, List.reverse_reverse]
  exact (List.dropWhile_suffix _).trans (List.dropWhile_suffix _)

theorem exists_trimRight_eq (p : Text) :
    ∃ last, separator ∉ last ∧ Text.trimRight (· == separator) p = upper p ++ last
      ∧ (upper p = [] ∨ ∃ above, upper p = above ++ [separator] ∧ last ≠ []) := by
  unfold upper Text.trimRight
  generalize htrimmed : p.reverse.dropWhile (· == separator) = trimmed
  refine ⟨(trimmed.takeWhile (· != separator)).reverse, ?_, ?_, ?_⟩
  . intro hmem
    rw [List.mem_reverse] at hmem
    simpa using List.mem_takeWhile_imp hmem
  . rw [← List.reverse_append, List.takeWhile_append_dropWhile]
  . cases hdrop : trimmed.dropWhile (· != separator) with
    | nil => exact .inl rfl
    | cons b above =>
      have hb := List.head?_dropWhile_not (· != separator) trimmed
      rw [hdrop] at hb
      have heq : b = separator := by simpa using hb
      refine .inr ⟨above.reverse, by rw [heq, List.reverse_cons], ?_⟩
      -- What is left without the separators at the end does not end with one.
      rw [ne_eq, List.reverse_eq_nil_iff]
      cases htrimmed' : trimmed with
      | nil =>
        rw [htrimmed'] at hdrop
        cases hdrop
      | cons c rest =>
        have hc := List.head?_dropWhile_not (· == separator) p.reverse
        rw [htrimmed, htrimmed'] at hc
        have hne : (c != separator) = true := by simpa using hc
        rw [List.takeWhile_cons, if_pos hne]
        simp

theorem pieces_of_parent?_some (h : parent? p = some parent) :
    ∃ last, pieces p = pieces parent ++ [last] := by
  rw [parent?_eq] at h
  obtain ⟨last, hlast, htrim, hupper⟩ := exists_trimRight_eq p
  split at h
  . next hlong =>
    cases h
    rcases hupper with hnil | ⟨above, habove, hne⟩
    . rw [hnil] at hlong
      cases hlong
    . refine ⟨last, ?_⟩
      rw [← pieces_trimRight, htrim, habove, List.dropLast_concat, List.append_assoc,
        List.singleton_append, pieces_append_cons, pieces_of_isStep ⟨hne, hlast⟩]
  . cases h

theorem pieces_of_parent?_none (h : parent? p = none) : (pieces p).length ≤ 1 := by
  have hshort {last : Text} (hlast : separator ∉ last) : (pieces last).length ≤ 1 := by
    unfold pieces
    rw [Text.splitOn_of_not_mem hlast]
    exact List.length_filter_le _ _
  rw [parent?_eq] at h
  obtain ⟨last, hlast, htrim, hupper⟩ := exists_trimRight_eq p
  rw [← pieces_trimRight, htrim]
  rcases hupper with hnil | ⟨above, habove, -⟩
  . rw [hnil, List.nil_append]
    exact hshort hlast
  . split at h
    . cases h
    . next hlong =>
      rw [habove, List.length_append, List.length_singleton] at hlong
      have hnil : above = [] := List.eq_nil_of_length_eq_zero (by omega)
      rw [habove, hnil, List.append_assoc, List.singleton_append, pieces_append_cons]
      exact hshort hlast

theorem canFollow_of_parent? (h : parent? p = some parent) (hp : Disk.CanFollow p) :
    Disk.CanFollow parent := by
  rw [parent?_eq] at h
  split at h
  . next hlong =>
    cases h
    have hstart : (upper p).dropLast <+: p := (List.dropLast_prefix _).trans (upper_isPrefix p)
    obtain ⟨-, hzero, hlength⟩ := hp
    refine ⟨?_, ?_, Nat.le_trans hstart.length_le hlength⟩
    . intro hnil
      have := congrArg List.length hnil
      rw [List.length_dropLast, List.length_nil] at this
      omega
    . rw [List.contains_eq_mem, decide_eq_false_iff_not] at hzero ⊢
      exact fun hmem => hzero (hstart.subset hmem)
  . cases h

end Path

namespace Disk

variable {d e : Disk} {path : Text} {p : Place}

/-! The steps of a path, with or without a separator at its end. -/

theorem isOpen_steps_iff (d : Disk) (path : Text) :
    d.IsOpen [] (Path.steps path) ↔ d.IsOpen [] (Path.pieces path) := by
  rw [Path.steps_eq, isOpen_append_iff]
  constructor
  . exact And.left
  . intro h
    refine ⟨h, ?_⟩
    split
    . rw [isOpen_singleton_iff]
      exact ⟨by decide, h.isDirectory_destination (isDirectory_nil d)⟩
    . exact isOpen_nil d _

theorem destination_steps (path : Text) :
    destination [] (Path.steps path) = destination [] (Path.pieces path) := by
  rw [Path.steps_eq]
  split
  . rw [destination_append_singleton, stepFrom_dot]
  . rw [List.append_nil]

theorem IsOpen.locate_eq (h : d.IsOpen [] (Path.pieces path)) (hlinks : d.IsLinkFree)
    (hfollow : CanFollow path) (follow : Bool) :
    d.locate follow path = .ok (destination [] (Path.pieces path)) := by
  rw [locate_of_canFollow follow hfollow, hlinks.walkLinks_eq, ← destination_steps]
  exact ((isOpen_steps_iff d path).2 h).walk_eq (isDirectory_nil d)

theorem IsLinkFree.reaches_of_locate {follow : Bool} (hlinks : d.IsLinkFree)
    (h : d.locate follow path = .ok p) :
    CanFollow path ∧ d.Reaches [] (Path.steps path) p := by
  have hfollow := canFollow_of_locate h
  rw [locate_of_canFollow follow hfollow, hlinks.walkLinks_eq] at h
  exact ⟨hfollow, hlinks.reaches_of_walk h⟩

theorem locateNew_of_canFollow (hlinks : d.IsLinkFree) (hfollow : CanFollow path) :
    d.locateNew path = d.walk true (fun _ _ => .error .linkLoop) [] (Path.pieces path) := by
  unfold locateNew
  rw [(pathFault?_eq_none_iff path).2 hfollow]
  dsimp only
  rw [Path.steps_trimRight, hlinks.walkLinks_eq]

theorem IsLinkFree.reaches_of_locateNew (hlinks : d.IsLinkFree) (h : d.locateNew path = .ok p) :
    CanFollow path ∧ d.Reaches [] (Path.pieces path) p := by
  have hfollow : CanFollow path := by
    unfold locateNew at h
    split at h
    . cases h
    . next hfault => exact (pathFault?_eq_none_iff path).1 hfault
  rw [locateNew_of_canFollow hlinks hfollow] at h
  exact ⟨hfollow, hlinks.reaches_of_walk h⟩

/-! After directories have been made. -/

-- The last step led to nothing, and there is a directory now.
theorem Reaches.isOpen_put {steps : List Text} (h : d.Reaches [] steps p)
    (hnone : d.node? p = none) : (d.put p .directory).IsOpen [] steps := by
  have hp : p ≠ [] := by
    rintro rfl
    cases hnone
  refine ⟨h.names, ?_⟩
  intro place hplace
  rw [isDirectory_iff, node?_put d hp]
  split
  . rfl
  . next hne =>
    rw [← isDirectory_iff]
    exact (h.places place hplace).resolve_left hne

theorem isOpen_of_ensureDirectory (hlinks : d.IsLinkFree)
    (h : d.ensureDirectory path = (e, none)) : CanFollow path ∧ e.IsOpen [] (Path.pieces path) := by
  unfold ensureDirectory at h
  split at h
  . next made hmade =>
    cases h
    unfold makeDirectory at hmade
    split at hmade
    . cases hmade
    . next p hlocate =>
      split at hmade
      . next hnone =>
        cases hmade
        obtain ⟨hfollow, hreaches⟩ := hlinks.reaches_of_locateNew hlocate
        exact ⟨hfollow, hreaches.isOpen_put hnone⟩
      . cases hmade
  . split at h
    . next p hlocate =>
      split at h
      . next hdirectory =>
        cases h
        obtain ⟨hfollow, hreaches⟩ := hlinks.reaches_of_locate hlocate
        exact ⟨hfollow, (isOpen_steps_iff _ path).1 (hreaches.isOpen hdirectory)⟩
      . cases h
    . cases h

theorem isOpen_of_nodeAt? (hlinks : d.IsLinkFree) (h : d.nodeAt? path = some .directory) :
    CanFollow path ∧ d.IsOpen [] (Path.pieces path) := by
  unfold nodeAt? at h
  split at h
  . next p hlocate =>
    obtain ⟨hfollow, hreaches⟩ := hlinks.reaches_of_locate hlocate
    rw [← isDirectory_iff] at h
    exact ⟨hfollow, (isOpen_steps_iff d path).1 (hreaches.isOpen h)⟩
  . cases h

theorem isOpen_of_makeDirectories (hlinks : d.IsLinkFree)
    (h : d.makeDirectories path = (e, none)) : CanFollow path ∧ e.IsOpen [] (Path.pieces path) := by
  unfold makeDirectories at h
  split at h
  . next hnode =>
    cases h
    exact isOpen_of_nodeAt? hlinks hnode
  . cases h
  . split at h
    . exact isOpen_of_ensureDirectory hlinks h
    . next parent _ =>
      split at h
      . cases h
      . next made hmade =>
        have hadds := makeDirectories_addsDirectories d parent
        rw [hmade] at hadds
        exact isOpen_of_ensureDirectory (hadds.isLinkFree hlinks) h

/-! Whether directories can be made. -/

-- If there is a way to the directory above, only the last step can lead to nothing.
theorem ensureDirectory_of_isClear (hlinks : d.IsLinkFree) (hfollow : CanFollow path)
    (hclear : d.IsClear [] (Path.pieces path))
    (habove : ∀ steps last, Path.pieces path = steps ++ [last] → d.IsOpen [] steps) :
    (d.ensureDirectory path).2 = none := by
  have hlocate : d.locateNew path = .ok (destination [] (Path.pieces path)) := by
    rw [locateNew_of_canFollow hlinks hfollow]
    rcases List.eq_nil_or_concat' (Path.pieces path) with hnil | ⟨steps, last, hlast⟩
    . rw [hnil]
      rfl
    . rw [hlast]
      apply (habove steps last hlast).walk_append_singleton (isDirectory_nil d) _ hlinks
      apply hclear.names
      rw [hlast]
      simp
  unfold ensureDirectory makeDirectory
  rw [hlocate]
  dsimp only
  cases hnode : d.node? (destination [] (Path.pieces path)) with
  | none => rfl
  | some n =>
    -- There is a directory already, so the path is open.
    have hopen : d.IsOpen [] (Path.pieces path) := by
      rcases List.eq_nil_or_concat' (Path.pieces path) with hnil | ⟨steps, last, hlast⟩
      . rw [hnil]
        exact isOpen_nil d []
      . have hfree := hclear.free _ (destination_mem_trail [] (by rw [hlast]; simp))
        rw [hnode] at hfree
        have hdirectory := hfree.resolve_left (by simp)
        rw [hlast, isOpen_append_iff, isOpen_singleton_iff, ← destination_append_singleton,
          ← hlast]
        refine ⟨habove steps last hlast, ?_, hdirectory⟩
        apply hclear.names
        rw [hlast]
        simp
    simp [refuse, hopen.locate_eq hlinks hfollow,
      hopen.isDirectory_destination (isDirectory_nil d)]

theorem makeDirectories_of_isClear (hlinks : d.IsLinkFree) (hfollow : CanFollow path)
    (hclear : d.IsClear [] (Path.pieces path)) : (d.makeDirectories path).2 = none := by
  fun_induction makeDirectories d path with
  | case1 => rfl
  | case2 path n hdirectory hnode =>
    -- What is in the way is the last place of the trail.
    unfold nodeAt? at hnode
    split at hnode
    . next p hlocate =>
      have hp := (hlinks.reaches_of_locate hlocate).2.eq_destination
      rw [destination_steps] at hp
      by_cases hnil : Path.pieces path = []
      . rw [hp, hnil, destination_nil, node?_nil] at hnode
        exact absurd hnode.symm (by simpa using hdirectory)
      . have hfree := hclear.free _ (destination_mem_trail [] hnil)
        rw [← hp, isDirectory_iff, hnode] at hfree
        simp only [reduceCtorEq, Option.some.injEq, false_or] at hfree
        exact absurd hfree hdirectory
    . cases hnode
  | case3 path _ hparent =>
    apply ensureDirectory_of_isClear hlinks hfollow hclear
    intro steps last hlast
    have hlength := Path.pieces_of_parent?_none hparent
    rw [hlast, List.length_append, List.length_singleton] at hlength
    rw [List.eq_nil_of_length_eq_zero (show steps.length = 0 by omega)]
    exact isOpen_nil d []
  | case4 path _ parent hparent e f hfailed ih =>
    obtain ⟨last, hlast⟩ := Path.pieces_of_parent?_some hparent
    rw [hlast] at hclear
    have hnone := ih (Path.canFollow_of_parent? hparent hfollow) hclear.of_append
    rw [hfailed] at hnone
    cases hnone
  | case5 path _ parent hparent e hmade ih =>
    obtain ⟨last, hlast⟩ := Path.pieces_of_parent?_some hparent
    have hadds := makeDirectories_addsDirectories d parent
    rw [hmade] at hadds
    have habove := (isOpen_of_makeDirectories hlinks hmade).2
    apply ensureDirectory_of_isClear (hadds.isLinkFree hlinks) hfollow (hadds.isClear hclear)
    intro steps other hother
    rw [hlast] at hother
    rw [← (List.append_inj' hother rfl).1]
    exact habove

end Disk

end ValueGen
