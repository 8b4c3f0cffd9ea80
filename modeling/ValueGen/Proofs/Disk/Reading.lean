import ValueGen.Proofs.Disk.Ways

/-!
This module contains that what was written to a path is read from it, also if the path leads through
links.
-/

namespace ValueGen

namespace Disk

variable {d e : Disk} {onLink : Place → List Text → Except DiskFault Place} {here p : Place}
  {steps : List Text} {path content : Text} {links : Nat}

/--
All places above a place are directories.
-/
def HasAncestors (d : Disk) (place : Place) : Prop :=
  ∀ above, above <+: place → above ≠ place → d.isDirectory above = true

theorem hasAncestors_nil (d : Disk) : d.HasAncestors [] := by
  intro above habove hne
  exact absurd (List.prefix_nil.1 habove) hne

theorem HasAncestors.append_singleton (h : d.HasAncestors here)
    (hhere : d.isDirectory here = true) (step : Text) : d.HasAncestors (here ++ [step]) := by
  intro above habove hne
  rcases List.prefix_concat_iff.1 habove with heq | habove
  . exact absurd heq hne
  . by_cases heq : above = here
    . rw [heq]
      exact hhere
    . exact h above habove heq

theorem HasAncestors.dropLast (h : d.HasAncestors here) : d.HasAncestors here.dropLast := by
  intro above habove hne
  apply h above (habove.trans (List.dropLast_prefix here))
  rintro rfl
  exact hne (habove.eq_of_length_le (by simp))

theorem HasAncestors.isDirectory_dropLast (h : d.HasAncestors here)
    (hhere : d.isDirectory here = true) : d.isDirectory here.dropLast = true := by
  by_cases heq : here.dropLast = here
  . rw [heq]
    exact hhere
  . exact h _ (List.dropLast_prefix here) heq

theorem isNoLink_of_isDirectory (h : d.isDirectory p = true) : d.IsNoLink p := by
  intro target hnode
  rw [isDirectory_iff, hnode] at h
  cases h

-- A walk that follows links goes on where one stands, so it does not end there.
theorem isNoLink_of_walk (hhere : d.HasAncestors here) (hlink : d.IsNoLink here)
    (honLink : ∀ here steps, d.HasAncestors here → d.IsNoLink here → onLink here steps = .ok p
      → d.IsNoLink p)
    (h : d.walk true onLink here steps = .ok p) : d.IsNoLink p := by
  induction steps generalizing here with
  | nil =>
    cases h
    exact hlink
  | cons step rest ih =>
    obtain ⟨hdirectory, hstep⟩ := walk_cons_ok h
    cases hstep with
    | stay _ h => exact ih hhere hlink h
    | up _ h =>
      exact ih hhere.dropLast (isNoLink_of_isDirectory (hhere.isDirectory_dropLast hdirectory)) h
    | link target _ _ _ _ h =>
      unfold afterLink at h
      split at h
      . exact honLink _ _ (hasAncestors_nil d) (isNoLink_of_isDirectory (by simp [isDirectory])) h
      . exact honLink _ _ hhere hlink h
    | node n _ _ _ hnode hnot h =>
      refine ih (hhere.append_singleton hdirectory step) ?_ h
      intro target htarget
      rw [hnode, Option.some.injEq] at htarget
      exact hnot target htarget
    | last _ _ _ hnode _ hp =>
      intro target htarget
      rw [hp, hnode] at htarget
      cases htarget

theorem isNoLink_of_walkLinks (hhere : d.HasAncestors here) (hlink : d.IsNoLink here)
    (h : d.walkLinks true links here steps = .ok p) : d.IsNoLink p := by
  induction links generalizing here steps with
  | zero =>
    refine isNoLink_of_walk hhere hlink ?_ h
    intro _ _ _ _ hfault
    cases hfault
  | succ links ih =>
    refine isNoLink_of_walk hhere hlink ?_ h
    intro _ _ hhere hlink hwalk
    exact ih hhere hlink hwalk

theorem isNoLink_of_locate (h : d.locate true path = .ok p) : d.IsNoLink p := by
  rw [locate_of_canFollow true (canFollow_of_locate h)] at h
  exact isNoLink_of_walkLinks (hasAncestors_nil d)
    (isNoLink_of_isDirectory (by simp [isDirectory])) h

theorem write_gainsFiles (h : d.write path content = .ok e) : d.GainsFiles e := by
  obtain ⟨p, hlocate, hfree, rfl⟩ := (write_eq_ok_iff d e path content).1 h
  refine ⟨sameWays_put_file (isNoLink_of_locate hlocate) hfree, ?_⟩
  intro q hq
  rw [node?_put d (ne_nil_of_not_directory hfree)]
  split
  . simp
  . exact hq

theorem read_of_write (h : d.write path content = .ok e) : e.read path = .ok content := by
  have hways := (write_gainsFiles h).ways
  obtain ⟨p, hlocate, hfree, rfl⟩ := (write_eq_ok_iff d e path content).1 h
  unfold read
  rw [hways.1.locate_ok hlocate]
  dsimp only
  rw [node?_put d (ne_nil_of_not_directory hfree), if_pos rfl]

end Disk

end ValueGen
