import ValueGen.Proofs.Disk.Making
import ValueGen.Proofs.Disk.Ways

/-!
This module contains what a single file means for the paths on a disk. A path that takes a step from
the file, as if it were a directory, cannot be followed, whether the file is there or not, but it
fails for another reason if it is not. Every other path leads to the same place with the file and
without it.
-/

namespace ValueGen

namespace Disk

variable {d e f : Disk} {onLink onLink' : Place → List Text → Except DiskFault Place}
  {follow : Bool} {links : Nat} {here place p : Place} {step t path content : Text}
  {steps rest : List Text}

/-! The steps that are taken from a place. -/

/--
A walk that follows at most so many links takes a step from the place.
-/
inductive StepsFrom (d : Disk) (place : Place) : Nat → Place → List Text → Prop where
  | now {links : Nat} {step : Text} {rest : List Text} :
      StepsFrom d place links place (step :: rest)
  | stay {links : Nat} {here : Place} {rest : List Text} (hhere : d.isDirectory here = true)
      (h : StepsFrom d place links here rest) : StepsFrom d place links here ("." :: rest)
  | up {links : Nat} {here : Place} {rest : List Text} (hhere : d.isDirectory here = true)
      (h : StepsFrom d place links here.dropLast rest) : StepsFrom d place links here (".." :: rest)
  | link {links : Nat} {here : Place} {step target : Text} {rest : List Text}
      (hhere : d.isDirectory here = true) (hdot : step ≠ ".") (hdots : step ≠ "..")
      (hname : nameFault? step = none) (hnode : d.node? (here ++ [step]) = some (.link target))
      (h : StepsFrom d place links (afterLink here target) (Path.steps target ++ rest)) :
      StepsFrom d place (links + 1) here (step :: rest)
  | entry {links : Nat} {here : Place} {step : Text} {rest : List Text}
      (hhere : d.isDirectory here = true) (hdot : step ≠ ".") (hdots : step ≠ "..")
      (hname : nameFault? step = none) (hlink : d.IsNoLink (here ++ [step]))
      (h : StepsFrom d place links (here ++ [step]) rest) :
      StepsFrom d place links here (step :: rest)

theorem KeepsWays.stepsFrom (hways : d.KeepsWays e) (h : d.StepsFrom place links here steps) :
    e.StepsFrom place links here steps := by
  induction h with
  | now => exact .now
  | stay hhere _ ih => exact .stay (hways.keeps.isDirectory hhere) ih
  | up hhere _ ih => exact .up (hways.keeps.isDirectory hhere) ih
  | link hhere hdot hdots hname hnode _ ih =>
    exact .link (hways.keeps.isDirectory hhere) hdot hdots hname
      (hways.keeps _ _ (by simp) hnode) ih
  | entry hhere hdot hdots hname hlink _ ih =>
    exact .entry (hways.keeps.isDirectory hhere) hdot hdots hname (hways.noLink _ hlink) ih

-- Steps that stay do not count, and others may stand for them and follow them.
theorem StepsFrom.replace {xs ys : List Text} (h : d.StepsFrom place links here (xs ++ ys))
    (hys : ∀ y ∈ ys, y = ".") (z : Text) (zs : List Text) :
    d.StepsFrom place links here (xs ++ z :: zs) := by
  generalize hall : xs ++ ys = all at h
  induction h generalizing xs ys with
  | now =>
    cases xs with
    | nil => exact .now
    | cons x xs => exact .now
  | stay hhere _ ih =>
    cases xs with
    | nil =>
      rw [List.nil_append] at hall
      subst hall
      have hrest := fun y hy => hys y (List.mem_cons_of_mem _ hy)
      exact ih hrest (List.nil_append _)
    | cons x xs =>
      cases hall
      exact .stay hhere (ih hys rfl)
  | up hhere _ ih =>
    cases xs with
    | nil =>
      rw [List.nil_append] at hall
      subst hall
      exact absurd (hys ".." List.mem_cons_self) (by decide)
    | cons x xs =>
      cases hall
      exact .up hhere (ih hys rfl)
  | link hhere hdot hdots hname hnode _ ih =>
    cases xs with
    | nil =>
      rw [List.nil_append] at hall
      subst hall
      exact absurd (hys _ List.mem_cons_self) hdot
    | cons x xs =>
      cases hall
      have hbehind := ih hys (List.append_assoc _ _ _)
      rw [List.append_assoc] at hbehind
      exact .link hhere hdot hdots hname hnode hbehind
  | entry hhere hdot hdots hname hlink _ ih =>
    cases xs with
    | nil =>
      rw [List.nil_append] at hall
      subst hall
      exact absurd (hys _ List.mem_cons_self) hdot
    | cons x xs =>
      cases hall
      exact .entry hhere hdot hdots hname hlink (ih hys rfl)

-- No step can be taken from what is not a directory.
theorem StepsFrom.walkLinks_error (h : d.StepsFrom place links here steps)
    (hplace : ¬ d.isDirectory place = true) :
    ∃ fault, d.walkLinks true links here steps = .error fault := by
  induction h with
  | now =>
    rw [walkLinks_eq_walk]
    exact ⟨_, walk_of_not_isDirectory hplace⟩
  | stay hhere _ ih =>
    rw [walkLinks_eq_walk] at ih ⊢
    rw [walk_stay hhere]
    exact ih
  | up hhere _ ih =>
    rw [walkLinks_eq_walk] at ih ⊢
    rw [walk_up hhere]
    exact ih
  | link hhere hdot hdots hname hnode _ ih =>
    rw [walkLinks_eq_walk, walk_link hhere hdot hdots hname hnode (.inr rfl)]
    exact ih
  | entry hhere hdot hdots hname hlink _ ih =>
    rw [walkLinks_eq_walk] at ih ⊢
    rw [walk_entry hhere hdot hdots hname hlink]
    split
    . exact ⟨_, rfl⟩
    . exact ih

-- A walk that ends at a place could take a step from it.
theorem stepsFrom_of_walk (hlink : d.IsNoLink place)
    (honLink : ∀ here steps, onLink here steps = .ok place
      → ∃ n, links = n + 1 ∧ d.StepsFrom place n here (steps ++ [("." : Text)]))
    (h : d.walk follow onLink here steps = .ok place) :
    d.StepsFrom place links here (steps ++ [("." : Text)]) := by
  induction steps generalizing here with
  | nil =>
    cases h
    exact .now
  | cons step rest ih =>
    by_cases hhere : d.isDirectory here = true
    . cases d.way here step with
      | stay hdot =>
        subst hdot
        rw [walk_stay hhere] at h
        exact .stay hhere (ih h)
      | up hdots =>
        subst hdots
        rw [walk_up hhere] at h
        exact .up hhere (ih h)
      | blocked fault hdot hdots hname =>
        rw [walk_blocked hhere hdot hdots hname] at h
        cases h
      | link target hdot hdots hname hnode =>
        by_cases hgo : rest ≠ [] ∨ follow = true
        . rw [walk_link hhere hdot hdots hname hnode hgo] at h
          obtain ⟨n, rfl, hbehind⟩ := honLink _ _ h
          rw [List.append_assoc] at hbehind
          exact .link hhere hdot hdots hname hnode hbehind
        . rw [not_or, not_not, Bool.not_eq_true] at hgo
          rw [hgo.1, hgo.2, walk_last_link hhere hdot hdots hname hnode] at h
          cases h
          exact absurd hnode (hlink target)
      | entry hdot hdots hname hnoLink =>
        rw [walk_entry hhere hdot hdots hname hnoLink] at h
        split at h
        . cases h
        . exact .entry hhere hdot hdots hname hnoLink (ih h)
    . rw [walk_of_not_isDirectory hhere] at h
      cases h

theorem stepsFrom_of_walkLinks (hlink : d.IsNoLink place)
    (h : d.walkLinks follow links here steps = .ok place) :
    d.StepsFrom place links here (steps ++ [("." : Text)]) := by
  induction links generalizing here steps with
  | zero =>
    refine stepsFrom_of_walk hlink ?_ h
    intro _ _ hfault
    cases hfault
  | succ links ih =>
    refine stepsFrom_of_walk hlink ?_ h
    intro here steps hwalk
    exact ⟨links, rfl, ih hwalk⟩

/-! Paths that lead to a place or through it. -/

/--
The path takes a step from the place, as if there were a directory.
-/
def LeadsThrough (d : Disk) (place : Place) (path : Text) : Prop :=
  d.StepsFrom place mostLinks [] (Path.steps path)

/--
The path leads to the place or through it, so that a step is taken from the place on the way into
the directory that the path stands for.
-/
def LeadsInto (d : Disk) (place : Place) (path : Text) : Prop :=
  d.StepsFrom place mostLinks [] (Path.pieces path ++ [("." : Text)])

theorem leadsInto_iff (d : Disk) (place : Place) (path : Text) :
    d.LeadsInto place path ↔ d.LeadsThrough place (path ++ Path.separator :: ".") := by
  have hsteps :
      Path.steps (path ++ Path.separator :: ".") = Path.pieces path ++ [("." : Text)] := by
    rw [Path.steps_eq, Path.pieces_append_cons, List.getLast?_append, Option.or_of_isSome rfl,
      if_neg (by decide), List.append_nil]
    rfl
  unfold LeadsInto LeadsThrough
  rw [hsteps]

theorem KeepsWays.leadsInto (hways : d.KeepsWays e) (h : d.LeadsInto place path) :
    e.LeadsInto place path := hways.stepsFrom h

-- A separator at the end of a path is a step that stays.
theorem leadsInto_of_steps {dots : List Text} (hdots : ∀ y ∈ dots, y = ".")
    (h : d.StepsFrom place mostLinks [] (Path.steps path ++ dots)) : d.LeadsInto place path := by
  rw [Path.steps_eq, List.append_assoc] at h
  refine h.replace ?_ "." []
  intro y hy
  rcases List.mem_append.1 hy with hlast | hy
  . split at hlast
    . exact List.mem_singleton.1 hlast
    . cases hlast
  . exact hdots y hy

theorem LeadsThrough.leadsInto (h : d.LeadsThrough place path) : d.LeadsInto place path := by
  have hsteps : d.StepsFrom place mostLinks [] (Path.steps path ++ []) := by
    rw [List.append_nil]
    exact h
  exact leadsInto_of_steps (by simp) hsteps

theorem leadsInto_of_pieces (h : d.StepsFrom place mostLinks [] (Path.pieces path)) :
    d.LeadsInto place path := by
  rw [← List.append_nil (Path.pieces path)] at h
  exact h.replace (by simp) "." []

-- The way into the directory above is the start of the way to the path.
theorem LeadsInto.of_parent? {parent : Text} (hparent : Path.parent? path = some parent)
    (h : d.LeadsInto place parent) : d.LeadsInto place path := by
  obtain ⟨last, hlast⟩ := Path.pieces_of_parent?_some hparent
  unfold LeadsInto
  rw [hlast, List.append_assoc]
  exact h.replace (by simp) last ["."]

theorem LeadsThrough.locate_error (h : d.LeadsThrough place path)
    (hplace : ¬ d.isDirectory place = true) : ∃ fault, d.locate true path = .error fault := by
  unfold locate
  split
  . exact ⟨_, rfl⟩
  . exact h.walkLinks_error hplace

theorem not_leadsThrough_of_locate (hplace : ¬ d.isDirectory place = true)
    (h : d.locate true path = .ok p) : ¬ d.LeadsThrough place path := by
  intro hthrough
  obtain ⟨fault, herror⟩ := hthrough.locate_error hplace
  rw [h] at herror
  cases herror

-- The equation of the definition without what its termination needs.
theorem makeDirectories_eq (d : Disk) (path : Text) :
    d.makeDirectories path =
      match d.nodeAt? path with
      | some .directory => (d, none)
      | some _ => (d, some (.disk "mkdir" path .notDirectory))
      | none =>
        match Path.parent? path with
        | none => d.ensureDirectory path
        | some parent =>
          match d.makeDirectories parent with
          | (made, some f) => (made, some f)
          | (made, none) => made.ensureDirectory path := by
  rw [makeDirectories]
  cases d.nodeAt? path with
  | some n =>
    cases n
    all_goals rfl
  | none =>
    dsimp only
    split
    . next hparent => rw [hparent]
    . next hparent => exact hparent ▸ rfl

/-! Disks that differ in one file. -/

/--
The disks are alike except at one place. There the first one has a file with the text `t` and the
second one nothing, or both have the same file.
-/
structure DiffersAt (place : Place) (t : Text) (d e : Disk) : Prop where
  same : ∀ p, p ≠ place → e.node? p = d.node? p
  place : d.node? place = some (.file t) ∧ e.node? place = none
    ∨ ∃ content, d.node? place = some (.file content) ∧ e.node? place = some (.file content)

theorem ne_nil_of_file (h : d.node? place = some (.file t)) : place ≠ [] := by
  rintro rfl
  cases h

theorem node?_erase_of_file (h : d.node? place = some (.file t)) :
    (d.erase place).node? place = none := by
  rw [node?_erase d (ne_nil_of_file h), if_pos rfl]

theorem differsAt_erase (h : d.node? place = some (.file t)) :
    d.DiffersAt place t (d.erase place) := by
  refine ⟨?_, .inl ⟨h, node?_erase_of_file h⟩⟩
  intro p hp
  rw [node?_erase d (ne_nil_of_file h), if_neg hp]

namespace DiffersAt

theorem exists_content (h : DiffersAt place t d e) :
    ∃ content, d.node? place = some (.file content) := by
  rcases h.place with ⟨hfile, -⟩ | ⟨content, hfile, -⟩
  . exact ⟨t, hfile⟩
  . exact ⟨content, hfile⟩

theorem isNoLink (h : DiffersAt place t d e) : d.IsNoLink place := by
  intro target hnode
  obtain ⟨content, hfile⟩ := h.exists_content
  rw [hfile] at hnode
  cases hnode

theorem not_isDirectory (h : DiffersAt place t d e) : ¬ d.isDirectory place = true := by
  obtain ⟨content, hfile⟩ := h.exists_content
  rw [isDirectory_iff, hfile]
  simp

theorem node?_eq_iff (h : DiffersAt place t d e) {n : Node} (hn : ∀ content, n ≠ .file content)
    (p : Place) : e.node? p = some n ↔ d.node? p = some n := by
  by_cases hp : p = place
  . rw [hp]
    rcases h.place with ⟨hfirst, hsecond⟩ | ⟨content, hfirst, hsecond⟩
    . simp [hfirst, hsecond, (hn _).symm]
    . simp [hfirst, hsecond]
  . rw [h.same p hp]

theorem sameWays (h : DiffersAt place t d e) : d.SameWays e := by
  refine ⟨⟨?_, ?_⟩, ⟨?_, ?_⟩⟩
  . exact fun p n hn => (h.node?_eq_iff hn p).2
  . exact fun p hp target hnode => hp target ((h.node?_eq_iff (by simp) p).1 hnode)
  . exact fun p n hn => (h.node?_eq_iff hn p).1
  . exact fun p hp target hnode => hp target ((h.node?_eq_iff (by simp) p).2 hnode)

theorem node?_eq_none (h : DiffersAt place t d e) (hadds : f.AddsDirectories e)
    (hnone : f.node? place = none) : e.node? place = none := by
  rcases hadds place with hsame | ⟨-, hmade⟩
  . rw [hsame, hnone]
  . rcases h.place with ⟨-, hnone⟩ | ⟨content, -, hfile⟩
    . exact hnone
    . rw [hmade] at hfile
      cases hfile

theorem isDirectory_eq (h : DiffersAt place t d e) (p : Place) :
    e.isDirectory p = d.isDirectory p := by
  rw [Bool.eq_iff_iff, isDirectory_iff, isDirectory_iff]
  exact h.node?_eq_iff (by simp) p

theorem put (h : DiffersAt place t d e) (hp : p ≠ []) {n : Node}
    (hn : p = place → ∃ content, n = .file content) :
    DiffersAt place t (d.put p n) (e.put p n) := by
  constructor
  . intro q hq
    rw [node?_put d hp, node?_put e hp, h.same q hq]
  . rw [node?_put d hp, node?_put e hp]
    split
    . next heq =>
      obtain ⟨content, rfl⟩ := hn heq.symm
      exact .inr ⟨content, rfl, rfl⟩
    . exact h.place

-- The same file at the place leaves no difference.
theorem node?_put_file (h : DiffersAt place t d e) (hplace : place ≠ []) (content : Text)
    (p : Place) :
    (e.put place (.file content)).node? p = (d.put place (.file content)).node? p := by
  rw [node?_put d hplace, node?_put e hplace]
  split
  . rfl
  . next hp => exact h.same p hp

theorem walk_eq (h : DiffersAt place t d e)
    (honLink : ∀ here steps, (∀ n, links = n + 1 → ¬ d.StepsFrom place n here steps)
      → onLink' here steps = onLink here steps)
    (hnot : ¬ d.StepsFrom place links here steps) :
    e.walk follow onLink' here steps = d.walk follow onLink here steps := by
  induction steps generalizing here with
  | nil => rfl
  | cons step rest ih =>
    by_cases hhere : d.isDirectory here = true
    . have hhere' : e.isDirectory here = true := by
        rw [h.isDirectory_eq]
        exact hhere
      cases d.way here step with
      | stay hdot =>
        subst hdot
        rw [walk_stay hhere, walk_stay hhere']
        exact ih fun hrest => hnot (.stay hhere hrest)
      | up hdots =>
        subst hdots
        rw [walk_up hhere, walk_up hhere']
        exact ih fun hrest => hnot (.up hhere hrest)
      | blocked fault hdot hdots hname =>
        rw [walk_blocked hhere hdot hdots hname, walk_blocked hhere' hdot hdots hname]
      | link target hdot hdots hname hnode =>
        have hnode' := (h.node?_eq_iff (by simp) _).2 hnode
        by_cases hgo : rest ≠ [] ∨ follow = true
        . rw [walk_link hhere hdot hdots hname hnode hgo,
            walk_link hhere' hdot hdots hname hnode' hgo]
          apply honLink
          rintro n rfl hrest
          exact hnot (.link hhere hdot hdots hname hnode hrest)
        . rw [not_or, not_not, Bool.not_eq_true] at hgo
          rw [hgo.1, hgo.2, walk_last_link hhere hdot hdots hname hnode,
            walk_last_link hhere' hdot hdots hname hnode']
      | entry hdot hdots hname hlink =>
        have hlink' := h.sameWays.1.noLink _ hlink
        have hrest := ih fun hrest => hnot (.entry hhere hdot hdots hname hlink hrest)
        rw [walk_entry hhere hdot hdots hname hlink, walk_entry hhere' hdot hdots hname hlink']
        cases rest with
        | nil => simpa using hrest
        | cons next rest =>
          -- Otherwise the next step would be taken from the place.
          have hne : here ++ [step] ≠ place := by
            rintro rfl
            exact hnot (.entry hhere hdot hdots hname hlink .now)
          rw [h.same _ hne, hrest]
    . have hhere' : ¬ e.isDirectory here = true := by
        rw [h.isDirectory_eq]
        exact hhere
      rw [walk_of_not_isDirectory hhere, walk_of_not_isDirectory hhere']

theorem walkLinks_eq (h : DiffersAt place t d e) (hnot : ¬ d.StepsFrom place links here steps) :
    e.walkLinks follow links here steps = d.walkLinks follow links here steps := by
  induction links generalizing here steps with
  | zero => exact h.walk_eq (fun _ _ _ => rfl) hnot
  | succ links ih =>
    refine h.walk_eq ?_ hnot
    intro here steps hbehind
    exact ih (hbehind links rfl)

theorem locate_eq (h : DiffersAt place t d e) (hnot : ¬ d.LeadsThrough place path) :
    e.locate follow path = d.locate follow path := by
  unfold locate
  rw [h.walkLinks_eq hnot]

end DiffersAt

/-! The operations on two disks that differ in one file. -/

/--
Both operations fail for the same reason, or both succeed, and the disks still differ only at the
place.
-/
inductive EndAlike (place : Place) (t : Text) : Except Failure Disk → Except Failure Disk → Prop
  where
  | error (f : Failure) : EndAlike place t (.error f) (.error f)
  | ok {d e : Disk} (h : DiffersAt place t d e) : EndAlike place t (.ok d) (.ok e)

namespace DiffersAt

theorem write (h : DiffersAt place t d e) (hnot : ¬ d.LeadsThrough place path) (content : Text) :
    EndAlike place t (d.write path content) (e.write path content) := by
  cases hlocate : d.locate true path with
  | error fault =>
    unfold Disk.write
    rw [h.locate_eq hnot, hlocate]
    exact .error _
  | ok p =>
    have hlocate' : e.locate true path = .ok p := by rw [h.locate_eq hnot, hlocate]
    by_cases hdirectory : d.node? p = some .directory
    . unfold Disk.write
      simp only [hlocate, hlocate', hdirectory, (h.node?_eq_iff (by simp) p).2 hdirectory]
      exact .error _
    . have hdirectory' : e.node? p ≠ some .directory :=
        fun hnode => hdirectory ((h.node?_eq_iff (by simp) p).1 hnode)
      rw [(write_eq_ok_iff d _ path content).2 ⟨p, hlocate, hdirectory, rfl⟩,
        (write_eq_ok_iff e _ path content).2 ⟨p, hlocate', hdirectory', rfl⟩]
      exact .ok (h.put (ne_nil_of_not_directory hdirectory) fun _ => ⟨content, rfl⟩)

-- Through the place nothing can be written, whether there is a file or not.
theorem write_cases (h : DiffersAt place t d e) (path content : Text) :
    EndAlike place t (d.write path content) (e.write path content)
      ∨ (∃ f, d.write path content = .error f) ∧ ∃ f, e.write path content = .error f := by
  by_cases hthrough : d.LeadsThrough place path
  . right
    have hplace : ¬ e.isDirectory place = true := by
      rw [h.isDirectory_eq]
      exact h.not_isDirectory
    obtain ⟨fault, herror⟩ := hthrough.locate_error h.not_isDirectory
    obtain ⟨fault', herror'⟩ :=
      LeadsThrough.locate_error (h.sameWays.1.stepsFrom hthrough) hplace
    unfold Disk.write
    rw [herror, herror']
    exact ⟨⟨_, rfl⟩, _, rfl⟩
  . exact .inl (h.write hthrough content)

/-! The making of directories, if the path does not lead to the place or through it. -/

section

variable (h : DiffersAt place t d e) (hnot : ¬ d.LeadsInto place path)

include h hnot

theorem locate_eq_of_not_leadsInto (follow : Bool) :
    e.locate follow path = d.locate follow path :=
  h.locate_eq fun hthrough => hnot hthrough.leadsInto

theorem ne_place_of_locate (hlocate : d.locate follow path = .ok p) : p ≠ place := by
  rintro rfl
  rw [locate_of_canFollow follow (canFollow_of_locate hlocate)] at hlocate
  exact hnot (leadsInto_of_steps (by simp) (stepsFrom_of_walkLinks h.isNoLink hlocate))

theorem nodeAt?_eq : e.nodeAt? path = d.nodeAt? path := by
  unfold nodeAt?
  rw [h.locate_eq_of_not_leadsInto hnot]
  cases hlocate : d.locate true path with
  | error fault => rfl
  | ok p => exact h.same p (h.ne_place_of_locate hnot hlocate)

theorem locateNew_eq : e.locateNew path = d.locateNew path := by
  unfold locateNew
  rw [Path.steps_trimRight, h.walkLinks_eq fun hpieces => hnot (leadsInto_of_pieces hpieces)]

theorem ne_place_of_locateNew (hlocate : d.locateNew path = .ok p) : p ≠ place := by
  rintro rfl
  unfold locateNew at hlocate
  split at hlocate
  . cases hlocate
  . rw [Path.steps_trimRight] at hlocate
    exact hnot (stepsFrom_of_walkLinks h.isNoLink hlocate)

theorem makeDirectory : EndAlike place t (d.makeDirectory path) (e.makeDirectory path) := by
  unfold Disk.makeDirectory
  rw [h.locateNew_eq hnot]
  cases hlocate : d.locateNew path with
  | error fault => exact .error _
  | ok p =>
    have hne := h.ne_place_of_locateNew hnot hlocate
    simp only [h.same p hne]
    cases hnode : d.node? p with
    | some n => exact .error _
    | none =>
      have hp : p ≠ [] := by
        rintro rfl
        cases hnode
      exact .ok (h.put hp fun heq => absurd heq hne)

theorem ensureDirectory :
    (e.ensureDirectory path).2 = (d.ensureDirectory path).2
      ∧ DiffersAt place t (d.ensureDirectory path).1 (e.ensureDirectory path).1 := by
  unfold Disk.ensureDirectory
  have hmake := h.makeDirectory hnot
  generalize d.makeDirectory path = first, e.makeDirectory path = second at hmake
  cases hmake with
  | ok h => exact ⟨rfl, h⟩
  | error f =>
    simp only [h.locate_eq_of_not_leadsInto hnot, h.isDirectory_eq]
    split
    . split
      all_goals exact ⟨rfl, h⟩
    . exact ⟨rfl, h⟩

end

theorem makeDirectories (h : DiffersAt place t d e)
    (hnot : ¬ (d.makeDirectories path).1.LeadsInto place path) :
    (e.makeDirectories path).2 = (d.makeDirectories path).2
      ∧ DiffersAt place t (d.makeDirectories path).1 (e.makeDirectories path).1 := by
  have hnode {path : Text} (hnot : ¬ (d.makeDirectories path).1.LeadsInto place path) :
      e.nodeAt? path = d.nodeAt? path :=
    h.nodeAt?_eq fun hinto =>
      hnot ((makeDirectories_addsDirectories d path).keepsWays.leadsInto hinto)
  -- What leads to the place stays while more directories are made.
  have hbefore {made : Disk} {path : Text}
      (hnot : ¬ (made.ensureDirectory path).1.LeadsInto place path) :
      ¬ made.LeadsInto place path := fun hinto =>
    hnot ((ensureDirectory_addsDirectories made path).keepsWays.leadsInto hinto)
  have hsame := hnode hnot
  fun_induction Disk.makeDirectories d path with
  | case1 path hdirectory =>
    rw [makeDirectories_eq, hsame, hdirectory]
    exact ⟨rfl, h⟩
  | case2 path n hne hother =>
    rw [makeDirectories_eq, hsame, hother]
    cases n with
    | directory => exact absurd rfl hne
    | file content => exact ⟨rfl, h⟩
    | link target => exact ⟨rfl, h⟩
  | case3 path hnone hparent =>
    rw [makeDirectories_eq, hsame, hnone, hparent]
    exact h.ensureDirectory (hbefore hnot)
  | case4 path hnone parent hparent made f hfailed ih =>
    have habove : ¬ (d.makeDirectories parent).1.LeadsInto place parent := by
      rw [hfailed]
      exact fun hinto => hnot (hinto.of_parent? hparent)
    obtain ⟨hfailure, hdisk⟩ := ih habove (hnode habove)
    rw [hfailed] at hfailure hdisk
    have hother : e.makeDirectories parent = ((e.makeDirectories parent).1, some f) :=
      Prod.ext rfl hfailure
    rw [makeDirectories_eq, hsame, hnone, hparent]
    dsimp only
    rw [hother]
    exact ⟨rfl, hdisk⟩
  | case5 path hnone parent hparent made hmade ih =>
    have habove : ¬ (d.makeDirectories parent).1.LeadsInto place parent := by
      rw [hmade]
      exact fun hinto => hbefore hnot (hinto.of_parent? hparent)
    obtain ⟨hfailure, hdisk⟩ := ih habove (hnode habove)
    rw [hmade] at hfailure hdisk
    have hother : e.makeDirectories parent = ((e.makeDirectories parent).1, none) :=
      Prod.ext rfl hfailure
    rw [makeDirectories_eq, hsame, hnone, hparent]
    dsimp only
    rw [hother]
    exact hdisk.ensureDirectory (hbefore hnot)

end DiffersAt

end Disk

end ValueGen
