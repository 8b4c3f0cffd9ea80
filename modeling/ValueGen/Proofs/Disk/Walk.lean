import ValueGen.Proofs.Disk.Node
import ValueGen.Proofs.Disk.Path

/-!
This module contains where the paths of the entries of a directory lead. As long as a disk keeps its
directories and links, a path to a directory leads to the same place, so the entries of the
directory stay where they are while files are written and removed.
-/

namespace ValueGen

namespace Disk

def IsNoLink (d : Disk) (p : Place) : Prop := ∀ target, d.node? p ≠ some (.link target)

/--
The outcome of a last step with a name from a directory.
-/
def enter (directory : Place) (name : Text) : Except DiskFault Place :=
  match nameFault? name with
  | some f => .error f
  | none => .ok (directory ++ [name])

variable {d e : Disk} {name : Text} {directory : Place}

-- A link at the last step is in the way only if it is to be followed.
theorem walk_singleton {onLink : Place → List Text → Except DiskFault Place} {follow : Bool}
    (hdirectory : d.isDirectory directory = true) (hname : Path.IsPlain name)
    (hlink : follow = true → d.IsNoLink (directory ++ [name])) :
    d.walk follow onLink directory [name] = enter directory name := by
  unfold walk enter
  simp only [hdirectory, Bool.not_true, Bool.false_eq_true, ↓reduceIte, beq_iff_eq, hname.ne_dot,
    hname.ne_dots]
  cases nameFault? name with
  | some f => rfl
  | none =>
    dsimp only
    split
    . next target hnode =>
      cases follow with
      | true => exact absurd hnode (hlink rfl target)
      | false => rfl
    . rfl
    . rfl

theorem isDirectory_iff (d : Disk) (p : Place) :
    d.isDirectory p = true ↔ d.node? p = some .directory := by
  unfold isDirectory
  rw [beq_iff_eq]

/-! The first step of a walk that follows links. -/

def afterLink (here : Place) (target : Text) : Place := if Path.isRooted target then [] else here

/--
How a walk to the place `p` takes its first step.
-/
inductive FirstStep (d : Disk) (onLink : Place → List Text → Except DiskFault Place) (here : Place)
    (step : Text) (rest : List Text) (p : Place) : Prop where
  | stay (hdot : step = ".") (h : d.walk true onLink here rest = .ok p)
  | up (hdots : step = "..") (h : d.walk true onLink here.dropLast rest = .ok p)
  | link (target : Text) (hdot : step ≠ ".") (hdots : step ≠ "..") (hname : nameFault? step = none)
      (hnode : d.node? (here ++ [step]) = some (.link target))
      (h : onLink (afterLink here target) (Path.steps target ++ rest) = .ok p)
  | node (n : Node) (hdot : step ≠ ".") (hdots : step ≠ "..") (hname : nameFault? step = none)
      (hnode : d.node? (here ++ [step]) = some n) (hlink : ∀ target, n ≠ .link target)
      (h : d.walk true onLink (here ++ [step]) rest = .ok p)
  | last (hdot : step ≠ ".") (hdots : step ≠ "..") (hname : nameFault? step = none)
      (hnode : d.node? (here ++ [step]) = none) (hrest : rest = []) (h : p = here ++ [step])

variable {onLink onLink' : Place → List Text → Except DiskFault Place} {follow : Bool}
  {here p : Place} {step : Text} {rest steps : List Text}

theorem walk_cons_ok (h : d.walk true onLink here (step :: rest) = .ok p) :
    d.isDirectory here = true ∧ d.FirstStep onLink here step rest p := by
  unfold walk at h
  by_cases hhere : d.isDirectory here = true
  . refine ⟨hhere, ?_⟩
    simp only [hhere, Bool.not_true, Bool.false_eq_true, ↓reduceIte, beq_iff_eq] at h
    split at h
    . next hdot => exact .stay hdot h
    . next hdot =>
      split at h
      . next hdots => exact .up hdots h
      . next hdots =>
        split at h
        . cases h
        . next hname =>
          split at h
          . next target hnode =>
            simp only [Bool.and_false, Bool.false_eq_true, ↓reduceIte] at h
            exact .link target hdot hdots hname hnode h
          . next n hlink hnode => exact .node n hdot hdots hname hnode hlink h
          . next hnode =>
            split at h
            . next hrest =>
              cases h
              exact .last hdot hdots hname hnode (List.isEmpty_iff.1 hrest) rfl
            . cases h
  . simp [hhere] at h

theorem walk_stay (hhere : d.isDirectory here = true) :
    d.walk follow onLink here ("." :: rest) = d.walk follow onLink here rest := by
  conv =>
    lhs
    unfold walk
  simp [hhere]

theorem walk_up (hhere : d.isDirectory here = true) :
    d.walk follow onLink here (".." :: rest) = d.walk follow onLink here.dropLast rest := by
  have hne : ((".." : Text) == ".") = false := by decide
  conv =>
    lhs
    unfold walk
  simp [hhere, hne]

theorem walk_link {target : Text} (hhere : d.isDirectory here = true) (hdot : step ≠ ".")
    (hdots : step ≠ "..") (hname : nameFault? step = none)
    (hnode : d.node? (here ++ [step]) = some (.link target)) (hgo : rest ≠ [] ∨ follow = true) :
    d.walk follow onLink here (step :: rest)
      = onLink (afterLink here target) (Path.steps target ++ rest) := by
  have hgo : (rest.isEmpty && !follow) = false := by
    rcases hgo with hrest | hfollow
    . simp [hrest]
    . simp [hfollow]
  unfold walk afterLink
  simp [hhere, hdot, hdots, hname, hnode, hgo]

theorem walk_node {n : Node} (hhere : d.isDirectory here = true) (hdot : step ≠ ".")
    (hdots : step ≠ "..") (hname : nameFault? step = none)
    (hnode : d.node? (here ++ [step]) = some n) (hlink : ∀ target, n ≠ .link target) :
    d.walk follow onLink here (step :: rest) = d.walk follow onLink (here ++ [step]) rest := by
  conv =>
    lhs
    unfold walk
  cases n with
  | link target => exact absurd rfl (hlink target)
  | file content => simp [hhere, hdot, hdots, hname, hnode]
  | directory => simp [hhere, hdot, hdots, hname, hnode]

theorem not_isDirectory_of_node?_eq_none (h : d.node? p = none) : ¬ d.isDirectory p = true := by
  rw [isDirectory_iff, h]
  simp

-- A walk that ends at a directory goes on from there. What is left to do behind a link is longer by
-- the same last step.
theorem walk_append_of_ok (hdirectory : d.isDirectory directory = true)
    (hname : Path.IsPlain name) (hlink : follow = true → d.IsNoLink (directory ++ [name]))
    (honLink : ∀ here steps, onLink here steps = .ok directory
      → onLink' here (steps ++ [name]) = enter directory name)
    (h : d.walk true onLink here steps = .ok directory) :
    d.walk follow onLink' here (steps ++ [name]) = enter directory name := by
  induction steps generalizing here with
  | nil =>
    cases h
    exact walk_singleton hdirectory hname hlink
  | cons step rest ih =>
    rw [List.cons_append]
    obtain ⟨hhere, hstep⟩ := walk_cons_ok h
    cases hstep with
    | stay hdot h =>
      rw [hdot, walk_stay hhere]
      exact ih h
    | up hdots h =>
      rw [hdots, walk_up hhere]
      exact ih h
    | link target hdot hdots hfault hnode h =>
      rw [walk_link hhere hdot hdots hfault hnode (.inl (by simp)), ← List.append_assoc]
      exact honLink _ _ h
    | node n hdot hdots hfault hnode hnotLink h =>
      rw [walk_node hhere hdot hdots hfault hnode hnotLink]
      exact ih h
    | last _ _ _ hnode hrest hp =>
      rw [hp] at hdirectory
      exact absurd hdirectory (not_isDirectory_of_node?_eq_none hnode)

theorem walkLinks_append_of_ok (hdirectory : d.isDirectory directory = true)
    (hname : Path.IsPlain name) (hlink : follow = true → d.IsNoLink (directory ++ [name]))
    (links : Nat) (h : d.walkLinks true links here steps = .ok directory) :
    d.walkLinks follow links here (steps ++ [name]) = enter directory name := by
  induction links generalizing here steps with
  | zero =>
    refine walk_append_of_ok hdirectory hname hlink ?_ h
    intro _ _ hfault
    cases hfault
  | succ links ih =>
    refine walk_append_of_ok hdirectory hname hlink ?_ h
    intro here steps hwalk
    exact ih hwalk

-- The last step of a walk is taken from a directory.
theorem walk_append_ok
    (honLink : ∀ here steps p, onLink' here (steps ++ [name]) = .ok p
      → ∃ directory, onLink here steps = .ok directory ∧ d.isDirectory directory = true)
    (h : d.walk true onLink' here (steps ++ [name]) = .ok p) :
    ∃ directory, d.walk true onLink here steps = .ok directory
      ∧ d.isDirectory directory = true := by
  induction steps generalizing here with
  | nil =>
    obtain ⟨hhere, -⟩ := walk_cons_ok h
    exact ⟨here, rfl, hhere⟩
  | cons step rest ih =>
    rw [List.cons_append] at h
    obtain ⟨hhere, hstep⟩ := walk_cons_ok h
    cases hstep with
    | stay hdot h =>
      rw [hdot, walk_stay hhere]
      exact ih h
    | up hdots h =>
      rw [hdots, walk_up hhere]
      exact ih h
    | link target hdot hdots hfault hnode h =>
      rw [walk_link hhere hdot hdots hfault hnode (.inr rfl)]
      rw [← List.append_assoc] at h
      exact honLink _ _ _ h
    | node n hdot hdots hfault hnode hnotLink h =>
      rw [walk_node hhere hdot hdots hfault hnode hnotLink]
      exact ih h
    | last _ _ _ hnode hrest hp => simp at hrest

theorem walkLinks_append_ok (links : Nat)
    (h : d.walkLinks true links here (steps ++ [name]) = .ok p) :
    ∃ directory, d.walkLinks true links here steps = .ok directory
      ∧ d.isDirectory directory = true := by
  induction links generalizing here steps p with
  | zero =>
    refine walk_append_ok ?_ h
    intro _ _ _ hfault
    cases hfault
  | succ links ih =>
    refine walk_append_ok ?_ h
    intro here steps p hwalk
    exact ih hwalk

-- A walk to a directory meets directories and links only.
theorem Keeps.walk (hkeeps : d.Keeps e) (hdirectory : d.isDirectory directory = true)
    (honLink : ∀ here steps, onLink here steps = .ok directory → onLink' here steps = .ok directory)
    (h : d.walk true onLink here steps = .ok directory) :
    e.walk true onLink' here steps = .ok directory := by
  induction steps generalizing here with
  | nil => exact h
  | cons step rest ih =>
    obtain ⟨hhere, hstep⟩ := walk_cons_ok h
    have hhere := hkeeps.isDirectory hhere
    cases hstep with
    | stay hdot h =>
      rw [hdot, walk_stay hhere]
      exact ih h
    | up hdots h =>
      rw [hdots, walk_up hhere]
      exact ih h
    | link target hdot hdots hfault hnode h =>
      rw [walk_link hhere hdot hdots hfault (hkeeps _ _ (by simp) hnode) (.inr rfl)]
      exact honLink _ _ h
    | node n hdot hdots hfault hnode hnotLink h =>
      have hnext : d.isDirectory (here ++ [step]) = true := by
        -- Otherwise the walk would end here, or take a step from a file.
        cases rest with
        | nil =>
          cases h
          exact hdirectory
        | cons next rest => exact (walk_cons_ok h).1
      rw [isDirectory_iff] at hnext
      rw [walk_node hhere hdot hdots hfault (hkeeps _ _ (by simp) hnext) (by simp)]
      exact ih h
    | last _ _ _ hnode hrest hp =>
      rw [hp] at hdirectory
      exact absurd hdirectory (not_isDirectory_of_node?_eq_none hnode)

theorem Keeps.walkLinks (hkeeps : d.Keeps e) (hdirectory : d.isDirectory directory = true)
    (links : Nat) (h : d.walkLinks true links here steps = .ok directory) :
    e.walkLinks true links here steps = .ok directory := by
  induction links generalizing here steps with
  | zero =>
    refine hkeeps.walk hdirectory ?_ h
    intro _ _ hfault
    cases hfault
  | succ links ih =>
    refine hkeeps.walk hdirectory ?_ h
    intro here steps hwalk
    exact ih hwalk

end Disk

end ValueGen
