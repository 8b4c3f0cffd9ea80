import ValueGen.Proofs.Disk.Entry

/-!
This module contains the ways on a disk: its directories and its links. They alone say where a path
leads, so it leads to the same place as long as they stay, whatever happens to the files.
-/

namespace ValueGen

namespace Disk

variable {d e f : Disk} {onLink onLink' : Place → List Text → Except DiskFault Place}
  {follow : Bool} {links : Nat} {here p : Place} {step path content : Text}
  {steps rest : List Text}

/--
All ways on the disk `d` are also there on the disk `e`: the directories and the links of `d`, and
no other links.
-/
structure KeepsWays (d e : Disk) : Prop where
  keeps : d.Keeps e
  noLink : ∀ p, d.IsNoLink p → e.IsNoLink p

theorem KeepsWays.refl (d : Disk) : d.KeepsWays d := ⟨.refl d, fun _ => id⟩

theorem KeepsWays.trans (hde : d.KeepsWays e) (hef : e.KeepsWays f) : d.KeepsWays f :=
  ⟨hde.keeps.trans hef.keeps, fun p hp => hef.noLink p (hde.noLink p hp)⟩

theorem AddsDirectories.keepsWays (h : d.AddsDirectories e) : d.KeepsWays e where
  keeps := h.keeps
  noLink := by
    intro p hp target
    rcases h p with hsame | ⟨-, hmade⟩
    . rw [hsame]
      exact hp target
    . rw [hmade]
      simp

theorem AddsDirectories.stays (h : d.AddsDirectories e) (hp : d.node? p ≠ none) :
    e.node? p ≠ none := by
  rcases h p with hsame | ⟨hnone, -⟩
  . rw [hsame]
    exact hp
  . exact absurd hnone hp

/--
The disks have the same directories and the same links.
-/
def SameWays (d e : Disk) : Prop := d.KeepsWays e ∧ e.KeepsWays d

theorem SameWays.refl (d : Disk) : d.SameWays d := ⟨.refl d, .refl d⟩

theorem SameWays.trans (hde : d.SameWays e) (hef : e.SameWays f) : d.SameWays f :=
  ⟨hde.1.trans hef.1, hef.2.trans hde.2⟩

theorem sameWays_put_file (hlink : d.IsNoLink p) (hfree : d.node? p ≠ some .directory) :
    d.SameWays (d.put p (.file content)) := by
  have hp := ne_nil_of_not_directory hfree
  have hfile (n : Node) (hn : d.node? p = some n) : ∃ content, n = .file content := by
    cases n with
    | file content => exact ⟨content, rfl⟩
    | directory => exact absurd hn hfree
    | link target => exact absurd hn (hlink target)
  refine ⟨⟨keeps_put hp hfile _, ?_⟩, ⟨keeps_put_file d hp content, ?_⟩⟩
  . intro q hq target
    rw [node?_put d hp]
    split
    . simp
    . exact hq target
  . intro q hq target hnode
    have hne : q ≠ p := by
      rintro rfl
      exact hlink target hnode
    apply hq target
    rw [node?_put d hp, if_neg hne, hnode]

/--
The disk `e` has the directories and links of the disk `d`, and something wherever `d` has something.
-/
structure GainsFiles (d e : Disk) : Prop where
  ways : d.SameWays e
  stays : ∀ p, d.node? p ≠ none → e.node? p ≠ none

theorem GainsFiles.refl (d : Disk) : d.GainsFiles d := ⟨.refl d, fun _ => id⟩

theorem GainsFiles.trans (hde : d.GainsFiles e) (hef : e.GainsFiles f) : d.GainsFiles f :=
  ⟨hde.ways.trans hef.ways, fun p hp => hef.stays p (hde.stays p hp)⟩

/-! How a walk takes a step. -/

/--
What a step from a directory is.
-/
inductive Way (d : Disk) (here : Place) (step : Text) : Prop where
  | stay (hdot : step = ".")
  | up (hdots : step = "..")
  | blocked (fault : DiskFault) (hdot : step ≠ ".") (hdots : step ≠ "..")
      (hname : nameFault? step = some fault)
  | link (target : Text) (hdot : step ≠ ".") (hdots : step ≠ "..") (hname : nameFault? step = none)
      (hnode : d.node? (here ++ [step]) = some (.link target))
  | entry (hdot : step ≠ ".") (hdots : step ≠ "..") (hname : nameFault? step = none)
      (hlink : d.IsNoLink (here ++ [step]))

theorem way (d : Disk) (here : Place) (step : Text) : d.Way here step := by
  by_cases hdot : step = "."
  . exact .stay hdot
  by_cases hdots : step = ".."
  . exact .up hdots
  cases hname : nameFault? step with
  | some fault => exact .blocked fault hdot hdots hname
  | none =>
    cases hnode : d.node? (here ++ [step]) with
    | none => exact .entry hdot hdots hname (by simp [IsNoLink, hnode])
    | some n =>
      cases n with
      | link target => exact .link target hdot hdots hname hnode
      | file content => exact .entry hdot hdots hname (by simp [IsNoLink, hnode])
      | directory => exact .entry hdot hdots hname (by simp [IsNoLink, hnode])

theorem walk_of_not_isDirectory (hhere : ¬ d.isDirectory here = true) :
    d.walk follow onLink here (step :: rest) = .error .notDirectory := by
  unfold walk
  simp [hhere]

theorem walk_blocked {fault : DiskFault} (hhere : d.isDirectory here = true) (hdot : step ≠ ".")
    (hdots : step ≠ "..") (hname : nameFault? step = some fault) :
    d.walk follow onLink here (step :: rest) = .error fault := by
  unfold walk
  simp [hhere, hdot, hdots, hname]

theorem walk_last_link {target : Text} (hhere : d.isDirectory here = true) (hdot : step ≠ ".")
    (hdots : step ≠ "..") (hname : nameFault? step = none)
    (hnode : d.node? (here ++ [step]) = some (.link target)) :
    d.walk false onLink here [step] = .ok (here ++ [step]) := by
  unfold walk
  simp [hhere, hdot, hdots, hname, hnode]

theorem walk_entry (hhere : d.isDirectory here = true) (hdot : step ≠ ".") (hdots : step ≠ "..")
    (hname : nameFault? step = none) (hlink : d.IsNoLink (here ++ [step])) :
    d.walk follow onLink here (step :: rest)
      = if d.node? (here ++ [step]) = none ∧ rest ≠ [] then .error .notFound
        else d.walk follow onLink (here ++ [step]) rest := by
  cases hnode : d.node? (here ++ [step]) with
  | some n =>
    rw [walk_node hhere hdot hdots hname hnode, if_neg (by simp)]
    rintro target rfl
    exact hlink target hnode
  | none =>
    conv =>
      lhs
      unfold walk
    cases rest with
    | nil => simp [hhere, hdot, hdots, hname, hnode, walk]
    | cons next rest => simp [hhere, hdot, hdots, hname, hnode]

/--
What a walk does behind a link that it may still follow.
-/
def behindLink (d : Disk) (follow : Bool) : Nat → Place → List Text → Except DiskFault Place
  | 0 => fun _ _ => .error .linkLoop
  | links + 1 => d.walkLinks follow links

theorem walkLinks_eq_walk (d : Disk) (follow : Bool) (links : Nat) :
    d.walkLinks follow links = d.walk follow (d.behindLink follow links) := by
  cases links with
  | zero => rfl
  | succ links => rfl

-- Only the last step can lead to something else than a directory or a link.
theorem KeepsWays.walk_ok (hways : d.KeepsWays e)
    (honLink : ∀ here steps, onLink here steps = .ok p → onLink' here steps = .ok p)
    (h : d.walk true onLink here steps = .ok p) : e.walk true onLink' here steps = .ok p := by
  induction steps generalizing here with
  | nil => exact h
  | cons step rest ih =>
    have hhere := (walk_cons_ok h).1
    have hhere' := hways.keeps.isDirectory hhere
    cases d.way here step with
    | stay hdot =>
      subst hdot
      rw [walk_stay hhere] at h
      rw [walk_stay hhere']
      exact ih h
    | up hdots =>
      subst hdots
      rw [walk_up hhere] at h
      rw [walk_up hhere']
      exact ih h
    | blocked fault hdot hdots hname =>
      rw [walk_blocked hhere hdot hdots hname] at h
      cases h
    | link target hdot hdots hname hnode =>
      rw [walk_link hhere hdot hdots hname hnode (.inr rfl)] at h
      rw [walk_link hhere' hdot hdots hname (hways.keeps _ _ (by simp) hnode) (.inr rfl)]
      exact honLink _ _ h
    | entry hdot hdots hname hlink =>
      rw [walk_entry hhere hdot hdots hname hlink] at h
      rw [walk_entry hhere' hdot hdots hname (hways.noLink _ hlink)]
      split at h
      . cases h
      . cases rest with
        | nil => simpa using ih h
        | cons next rest =>
          have hnext := hways.keeps.isDirectory (walk_cons_ok h).1
          rw [isDirectory_iff] at hnext
          rw [hnext, if_neg (by simp)]
          exact ih h

theorem KeepsWays.walkLinks_ok (hways : d.KeepsWays e)
    (h : d.walkLinks true links here steps = .ok p) :
    e.walkLinks true links here steps = .ok p := by
  induction links generalizing here steps with
  | zero =>
    refine hways.walk_ok ?_ h
    intro _ _ hfault
    cases hfault
  | succ links ih =>
    refine hways.walk_ok ?_ h
    intro _ _ hbehind
    exact ih hbehind

theorem KeepsWays.locate_ok (hways : d.KeepsWays e) (h : d.locate true path = .ok p) :
    e.locate true path = .ok p := by
  have hfollow := canFollow_of_locate h
  rw [locate_of_canFollow true hfollow] at h ⊢
  exact hways.walkLinks_ok h

end Disk

end ValueGen
