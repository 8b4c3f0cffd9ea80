import ValueGen.Proofs.Disk.Entry

/-!
This module contains walks on a disk without links. There the steps of a path alone say which places
a walk comes by, so a path and its cleaned form lead to the same place once all these places are
directories.
-/

namespace ValueGen

namespace Disk

/--
There are no links on the disk.
-/
def IsLinkFree (d : Disk) : Prop := ∀ place, d.IsNoLink place

variable {d e : Disk} {onLink onLink' : Place → List Text → Except DiskFault Place}
  {follow : Bool} {here p : Place} {step last path : Text} {steps rest : List Text}

theorem isLinkFree_of_entries (h : ∀ entry ∈ d.entries, ∀ target, entry.2 ≠ .link target) :
    d.IsLinkFree := by
  intro place target hnode
  unfold node? at hnode
  split at hnode
  . cases hnode
  . obtain ⟨before, after, hentries, -⟩ := List.lookup_eq_some_iff.1 hnode
    refine h (place, .link target) ?_ target rfl
    rw [hentries]
    simp

theorem IsLinkFree.hasNoLinks (h : d.IsLinkFree) (directory : Place) : d.HasNoLinks directory :=
  fun name => h (directory ++ [name])

theorem AddsDirectories.isLinkFree (h : d.AddsDirectories e) (hd : d.IsLinkFree) :
    e.IsLinkFree := by
  intro place target
  rcases h place with hsame | ⟨-, hmade⟩
  . rw [hsame]
    exact hd place target
  . rw [hmade]
    simp

/-! The places that a walk comes by. -/

/--
The place that a step leads to.
-/
def stepFrom (here : Place) (step : Text) : Place :=
  if step = "." then
    here
  else if step = ".." then
    here.dropLast
  else
    here ++ [step]

/--
The places that steps lead to, one after the other.
-/
def trail (here : Place) : List Text → List Place
  | [] => []
  | step :: rest => stepFrom here step :: trail (stepFrom here step) rest

/--
The place that steps lead to in the end.
-/
def destination (here : Place) (steps : List Text) : Place := steps.foldl stepFrom here

@[simp]
theorem stepFrom_dot (here : Place) : stepFrom here "." = here := rfl

@[simp]
theorem stepFrom_dots (here : Place) : stepFrom here ".." = here.dropLast := rfl

theorem stepFrom_of_ne (here : Place) (hdot : step ≠ ".") (hdots : step ≠ "..") :
    stepFrom here step = here ++ [step] := by
  unfold stepFrom
  rw [if_neg hdot, if_neg hdots]

@[simp]
theorem destination_nil (here : Place) : destination here [] = here := rfl

theorem destination_cons (here : Place) (step : Text) (rest : List Text) :
    destination here (step :: rest) = destination (stepFrom here step) rest := rfl

theorem destination_append_singleton (here : Place) (steps : List Text) (last : Text) :
    destination here (steps ++ [last]) = stepFrom (destination here steps) last := by
  unfold destination
  rw [List.foldl_append]
  rfl

theorem trail_append (here : Place) (steps rest : List Text) :
    trail here (steps ++ rest) = trail here steps ++ trail (destination here steps) rest := by
  induction steps generalizing here with
  | nil => rfl
  | cons step steps ih =>
    rw [List.cons_append, trail, trail, ih, destination_cons]
    rfl

theorem destination_mem_trail (here : Place) (hsteps : steps ≠ []) :
    destination here steps ∈ trail here steps := by
  induction steps generalizing here with
  | nil => exact absurd rfl hsteps
  | cons step rest ih =>
    rw [destination_cons, trail, List.mem_cons]
    cases rest with
    | nil => exact .inl rfl
    | cons next rest => exact .inr (ih _ (by simp))

/--
All steps have names that fit, and each one leads to a directory.
-/
structure IsOpen (d : Disk) (here : Place) (steps : List Text) : Prop where
  names : ∀ step ∈ steps, nameFault? step = none
  directories : ∀ place ∈ trail here steps, d.isDirectory place = true

/--
All steps have names that fit, and none of them leads to anything but a directory.
-/
structure IsClear (d : Disk) (here : Place) (steps : List Text) : Prop where
  names : ∀ step ∈ steps, nameFault? step = none
  free : ∀ place ∈ trail here steps, d.node? place = none ∨ d.isDirectory place = true

theorem isOpen_nil (d : Disk) (here : Place) : d.IsOpen here [] :=
  ⟨by simp, by simp [trail]⟩

theorem isOpen_append_iff (d : Disk) (here : Place) (steps rest : List Text) :
    d.IsOpen here (steps ++ rest)
      ↔ d.IsOpen here steps ∧ d.IsOpen (destination here steps) rest := by
  constructor
  . rintro ⟨hnames, hdirectories⟩
    rw [List.forall_mem_append] at hnames
    rw [trail_append, List.forall_mem_append] at hdirectories
    exact ⟨⟨hnames.1, hdirectories.1⟩, ⟨hnames.2, hdirectories.2⟩⟩
  . rintro ⟨⟨hnames, hdirectories⟩, ⟨hnames', hdirectories'⟩⟩
    refine ⟨List.forall_mem_append.2 ⟨hnames, hnames'⟩, ?_⟩
    rw [trail_append]
    exact List.forall_mem_append.2 ⟨hdirectories, hdirectories'⟩

theorem isOpen_singleton_iff (d : Disk) (here : Place) (step : Text) :
    d.IsOpen here [step]
      ↔ nameFault? step = none ∧ d.isDirectory (stepFrom here step) = true := by
  constructor
  . intro h
    exact ⟨h.names step (by simp), h.directories _ (by simp [trail])⟩
  . rintro ⟨hname, hdirectory⟩
    exact ⟨by simpa using hname, by simpa [trail] using hdirectory⟩

theorem isOpen_cons_iff (d : Disk) (here : Place) (step : Text) (rest : List Text) :
    d.IsOpen here (step :: rest)
      ↔ (nameFault? step = none ∧ d.isDirectory (stepFrom here step) = true)
        ∧ d.IsOpen (stepFrom here step) rest := by
  rw [← isOpen_singleton_iff, ← List.singleton_append, isOpen_append_iff]
  rfl

theorem IsClear.of_append (h : d.IsClear here (steps ++ rest)) : d.IsClear here steps := by
  refine ⟨fun step hstep => h.names step (List.mem_append_left _ hstep), ?_⟩
  intro place hplace
  apply h.free
  rw [trail_append]
  exact List.mem_append_left _ hplace

-- Directories may be taken away and made while the way stays clear.
theorem IsOpen.isClear_of (h : d.IsOpen here steps)
    (hdirectory : ∀ place, d.isDirectory place = true
      → e.node? place = none ∨ e.isDirectory place = true) : e.IsClear here steps :=
  ⟨h.names, fun place hplace => hdirectory place (h.directories place hplace)⟩

theorem AddsDirectories.isClear (hadds : d.AddsDirectories e) (h : d.IsClear here steps) :
    e.IsClear here steps := by
  refine ⟨h.names, ?_⟩
  intro place hplace
  rcases hadds place with hsame | ⟨-, hmade⟩
  . unfold isDirectory
    rw [hsame]
    exact h.free place hplace
  . right
    rw [isDirectory_iff]
    exact hmade

/-! Walks. -/

theorem walk_cons_of_isDirectory (hhere : d.isDirectory here = true)
    (hname : nameFault? step = none) (hnext : d.isDirectory (stepFrom here step) = true) :
    d.walk follow onLink here (step :: rest) = d.walk follow onLink (stepFrom here step) rest := by
  by_cases hdot : step = "."
  . rw [hdot, walk_stay hhere, stepFrom_dot]
  . by_cases hdots : step = ".."
    . rw [hdots, walk_up hhere, stepFrom_dots]
    . rw [stepFrom_of_ne here hdot hdots] at hnext ⊢
      rw [walk_node hhere hdot hdots hname ((isDirectory_iff d _).1 hnext) (by simp)]

theorem IsOpen.walk_eq (h : d.IsOpen here steps) (hhere : d.isDirectory here = true) :
    d.walk follow onLink here steps = .ok (destination here steps) := by
  induction steps generalizing here with
  | nil => rfl
  | cons step rest ih =>
    obtain ⟨⟨hname, hnext⟩, hrest⟩ := (isOpen_cons_iff d here step rest).1 h
    rw [walk_cons_of_isDirectory hhere hname hnext, destination_cons]
    exact ih hrest hnext

-- Behind directories the last step may lead to anything but a link.
theorem IsOpen.walk_append_singleton (h : d.IsOpen here steps) (hhere : d.isDirectory here = true)
    (hname : nameFault? last = none) (hlinks : d.IsLinkFree) :
    d.walk follow onLink here (steps ++ [last]) = .ok (destination here (steps ++ [last])) := by
  induction steps generalizing here with
  | nil =>
    rw [List.nil_append, destination_cons, destination_nil]
    by_cases hdot : last = "."
    . rw [hdot, walk_stay hhere, stepFrom_dot]
      rfl
    . by_cases hdots : last = ".."
      . rw [hdots, walk_up hhere, stepFrom_dots]
        rfl
      . rw [stepFrom_of_ne here hdot hdots]
        unfold walk
        simp only [hhere, hdot, hdots, hname, Bool.not_true, Bool.false_eq_true, ↓reduceIte,
          beq_iff_eq]
        split
        . next target hnode => exact absurd hnode (hlinks _ target)
        . rfl
        . rfl
  | cons step rest ih =>
    obtain ⟨⟨hstep, hnext⟩, hrest⟩ := (isOpen_cons_iff d here step rest).1 h
    rw [List.cons_append, walk_cons_of_isDirectory hhere hstep hnext, destination_cons]
    exact ih hrest hnext

-- Whether links are followed, and how, does not matter if there are none.
theorem IsLinkFree.walk_eq (h : d.IsLinkFree) :
    d.walk follow onLink here steps = d.walk true onLink' here steps := by
  induction steps generalizing here with
  | nil => rfl
  | cons step rest ih =>
    unfold walk
    simp only [ih]
    split
    . rfl
    . split
      . rfl
      . split
        . rfl
        . split
          . rfl
          . split
            . next target hnode => exact absurd hnode (h _ target)
            . rfl
            . rfl

theorem IsLinkFree.walkLinks_eq (h : d.IsLinkFree) (links : Nat) :
    d.walkLinks follow links here steps = d.walk true (fun _ _ => .error .linkLoop) here steps := by
  cases links with
  | zero => exact h.walk_eq
  | succ links => exact h.walk_eq

/--
A walk leads to the place, and comes by directories only on the way.
-/
structure Reaches (d : Disk) (here : Place) (steps : List Text) (p : Place) : Prop where
  eq_destination : p = destination here steps
  names : ∀ step ∈ steps, nameFault? step = none
  places : ∀ place ∈ trail here steps, place = p ∨ d.isDirectory place = true

theorem Reaches.isOpen (h : d.Reaches here steps p) (hp : d.isDirectory p = true) :
    d.IsOpen here steps := by
  refine ⟨h.names, ?_⟩
  intro place hplace
  rcases h.places place hplace with rfl | hdirectory
  . exact hp
  . exact hdirectory

theorem Reaches.cons (h : d.Reaches (stepFrom here step) rest p) (hname : nameFault? step = none)
    (hnext : stepFrom here step = p ∨ d.isDirectory (stepFrom here step) = true) :
    d.Reaches here (step :: rest) p where
  eq_destination := h.eq_destination
  names := List.forall_mem_cons.2 ⟨hname, h.names⟩
  places := List.forall_mem_cons.2 ⟨hnext, h.places⟩

theorem IsLinkFree.reaches_of_walk (hlinks : d.IsLinkFree)
    (h : d.walk true onLink here steps = .ok p) : d.Reaches here steps p := by
  induction steps generalizing here with
  | nil =>
    cases h
    exact ⟨rfl, by simp, by simp [trail]⟩
  | cons step rest ih =>
    -- A step from a place needs a directory there, so only the last place may be anything else.
    have hnext {next : Place} (hwalk : d.walk true onLink next rest = .ok p) :
        next = p ∨ d.isDirectory next = true := by
      cases rest with
      | nil =>
        cases hwalk
        exact .inl rfl
      | cons second rest => exact .inr (walk_cons_ok hwalk).1
    obtain ⟨-, hstep⟩ := walk_cons_ok h
    cases hstep with
    | stay hdot hwalk =>
      rw [hdot]
      exact (ih hwalk).cons (by decide) (hnext hwalk)
    | up hdots hwalk =>
      rw [hdots]
      exact (ih hwalk).cons (by decide) (hnext hwalk)
    | link target _ _ _ hnode _ => exact absurd hnode (hlinks _ target)
    | node n hdot hdots hname _ _ hwalk =>
      rw [← stepFrom_of_ne here hdot hdots] at hwalk
      exact (ih hwalk).cons hname (hnext hwalk)
    | last hdot hdots hname _ hrest hp =>
      subst hrest
      rw [← stepFrom_of_ne here hdot hdots] at hp
      exact Reaches.cons ⟨hp, by simp, by simp [trail]⟩ hname (.inl hp.symm)

/-! Cleaned paths. -/

theorem dot_not_mem_push {taken : List Text} (hdot : ("." : Text) ∉ taken) (rooted : Bool)
    (step : Text) : ("." : Text) ∉ Path.clean.push rooted taken step := by
  have hdots : ("." : Text) ≠ ".." := by
    decide
  unfold Path.clean.push
  split
  . exact hdot
  . next hstep =>
    split
    . split
      . split
        all_goals simp [hdots]
      . rw [List.mem_cons, not_or] at hdot
        split
        . simp [hdot.1, hdot.2, hdots]
        . exact hdot.2
    . rw [List.mem_cons, not_or]
      exact ⟨fun heq => hstep (by simp [heq]), hdot⟩

-- While a path is cleaned, the steps that are left lead to the place that all steps so far lead to.
theorem destination_push {taken : List Text} (hdot : ("." : Text) ∉ taken) (rooted : Bool)
    (step : Text) :
    destination [] (Path.clean.push rooted taken step).reverse
      = stepFrom (destination [] taken.reverse) step := by
  have hlonger :
      destination [] (step :: taken).reverse = stepFrom (destination [] taken.reverse) step := by
    rw [List.reverse_cons, destination_append_singleton]
  unfold Path.clean.push
  by_cases hstep : step = "."
  . rw [if_pos (by simpa using hstep), hstep]
    rfl
  . rw [if_neg (by simpa using hstep)]
    by_cases hdots : step = ".."
    . rw [if_pos (by simpa using hdots)]
      subst hdots
      cases taken with
      | nil =>
        cases rooted
        all_goals rfl
      | cons last before =>
        dsimp only
        split
        . exact hlonger
        . next hlast =>
          -- The step up undoes the last step, which leads down.
          have hdown : last ≠ "." := by
            rintro rfl
            exact hdot List.mem_cons_self
          rw [List.reverse_cons, destination_append_singleton,
            stepFrom_of_ne _ hdown (by simpa using hlast), stepFrom_dots, List.dropLast_concat]
    . rw [if_neg (by simpa using hdots)]
      exact hlonger

theorem destination_foldl_push {taken : List Text} (hdot : ("." : Text) ∉ taken) (rooted : Bool)
    (steps : List Text) :
    destination [] (steps.foldl (Path.clean.push rooted) taken).reverse
      = destination (destination [] taken.reverse) steps := by
  induction steps generalizing taken with
  | nil => rfl
  | cons step rest ih =>
    rw [List.foldl_cons, ih (dot_not_mem_push hdot rooted step), destination_push hdot]
    rfl

theorem destination_cleanSteps (path : Text) :
    destination [] (Path.cleanSteps path) = destination [] (Path.pieces path) :=
  destination_foldl_push (by simp) _ _

theorem IsOpen.push {taken : List Text} (h : d.IsOpen [] taken.reverse) (rooted : Bool)
    (hname : nameFault? step = none)
    (hnext : d.isDirectory (stepFrom (destination [] taken.reverse) step) = true) :
    d.IsOpen [] (Path.clean.push rooted taken step).reverse := by
  have hlonger : d.IsOpen [] (step :: taken).reverse := by
    rw [List.reverse_cons, isOpen_append_iff, isOpen_singleton_iff]
    exact ⟨h, hname, hnext⟩
  unfold Path.clean.push
  split
  . exact h
  . split
    . next hdots =>
      have heq : step = ".." := by simpa using hdots
      subst heq
      cases taken with
      | nil =>
        cases rooted with
        | true => exact isOpen_nil d []
        | false => exact hlonger
      | cons last before =>
        dsimp only
        split
        . exact hlonger
        . rw [List.reverse_cons, isOpen_append_iff] at h
          exact h.1
    . exact hlonger

theorem IsOpen.foldl_push {taken : List Text} (h : d.IsOpen [] taken.reverse)
    (hdot : ("." : Text) ∉ taken) (rooted : Bool)
    (hsteps : d.IsOpen (destination [] taken.reverse) steps) :
    d.IsOpen [] (steps.foldl (Path.clean.push rooted) taken).reverse := by
  induction steps generalizing taken with
  | nil => exact h
  | cons step rest ih =>
    obtain ⟨⟨hname, hnext⟩, hrest⟩ := (isOpen_cons_iff d _ step rest).1 hsteps
    rw [List.foldl_cons]
    apply ih (h.push rooted hname hnext) (dot_not_mem_push hdot rooted step)
    rw [destination_push hdot]
    exact hrest

theorem isDirectory_nil (d : Disk) : d.isDirectory [] = true := by
  rw [isDirectory_iff, node?_nil]

theorem IsOpen.isDirectory_destination (h : d.IsOpen here steps)
    (hhere : d.isDirectory here = true) : d.isDirectory (destination here steps) = true := by
  by_cases hsteps : steps = []
  . rw [hsteps]
    exact hhere
  . exact h.directories _ (destination_mem_trail here hsteps)

theorem IsOpen.leadsTo_destination (h : d.IsOpen [] (Path.pieces path)) :
    d.LeadsTo path (destination [] (Path.pieces path)) := by
  have hclean : d.IsOpen [] (Path.cleanSteps path) :=
    IsOpen.foldl_push (isOpen_nil d []) (by simp) (Path.isRooted path) h
  rw [← destination_cleanSteps]
  refine ⟨?_, hclean.isDirectory_destination (isDirectory_nil d)⟩
  cases hlinks : mostLinks with
  | zero => exact hclean.walk_eq (isDirectory_nil d)
  | succ links => exact hclean.walk_eq (isDirectory_nil d)

theorem IsOpen.leadsTo (h : d.IsOpen [] (Path.pieces path)) :
    ∃ directory, d.LeadsTo path directory :=
  ⟨_, h.leadsTo_destination⟩

end Disk

end ValueGen
