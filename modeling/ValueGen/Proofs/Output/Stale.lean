import ValueGen.Output.Writer
import ValueGen.Proofs.Disk.Entry
import ValueGen.Proofs.Output.FileName

/-!
This module contains the removal of stale files: which manifest a run starts from, and that of the
files it names exactly those are gone afterwards that a writer could have written and that are not
kept.
-/

namespace ValueGen

/--
There is nothing at the entries of the names, and all else is as before.
-/
structure Disk.IsCleared (directory : Place) (names : List Text) (before after : Disk) : Prop where
  absent : ∀ name ∈ names, after.node? (directory ++ [name]) = none
  unchanged : ∀ place, (∀ name ∈ names, place ≠ directory ++ [name])
    → after.node? place = before.node? place

namespace Disk

variable {directory : Place} {name : Text} {names : List Text} {d e before after : Disk}

theorem isCleared_nil (directory : Place) (d : Disk) : IsCleared directory [] d d :=
  ⟨by simp, fun _ _ => rfl⟩

theorem IsCleared.cons (h : IsCleared directory names d after)
    (hnode : ∀ place, d.node? place
      = if place = directory ++ [name] then none else before.node? place) :
    IsCleared directory (name :: names) before after := by
  refine ⟨?_, ?_⟩
  . intro other hother
    by_cases hnames : other ∈ names
    . exact h.absent other hnames
    . have heq : other = name := by simpa [hnames] using hother
      subst heq
      rw [h.unchanged, hnode, if_pos rfl]
      intro third hthird hplace
      have hthird' : other = third := by simpa using hplace
      exact hnames (hthird' ▸ hthird)
  . intro place hplace
    rw [h.unchanged place fun other hother => hplace other (List.mem_cons_of_mem _ hother), hnode,
      if_neg (hplace name List.mem_cons_self)]

theorem IsCleared.node?_cases (h : IsCleared directory names before after) (place : Place) :
    after.node? place = none ∨ after.node? place = before.node? place := by
  by_cases hcleared : ∃ name ∈ names, place = directory ++ [name]
  . obtain ⟨name, hname, rfl⟩ := hcleared
    exact .inl (h.absent name hname)
  . refine .inr (h.unchanged place fun name hname hplace => ?_)
    exact hcleared ⟨name, hname, hplace⟩

theorem IsCleared.hasNoLinks (h : IsCleared directory names before after)
    (hbefore : before.HasNoLinks directory) : after.HasNoLinks directory := by
  intro name target
  rcases h.node?_cases (directory ++ [name]) with hnone | hsame
  . rw [hnone]
    simp
  . rw [hsame]
    exact hbefore name target

end Disk

/--
The directory holds a manifest that can be read.
-/
def Disk.HoldsManifest (d : Disk) (directory : Place) (m : Manifest) : Prop :=
  ∃ t, d.node? (directory ++ [Manifest.fileName]) = some (.file t) ∧ Manifest.ofText? t = some m

/--
What the manifest of a directory says of a file, if there is one that can be read.
-/
def Disk.recorded? (d : Disk) (directory : Place) (name : Text) : Option Text :=
  match d.node? (directory ++ [Manifest.fileName]) with
  | some (.file t) => (Manifest.ofText? t).bind fun m => m.files.get? name
  | _ => none

theorem FileTable.mem_names_iff (t : FileTable) (name : Text) :
    name ∈ t.names ↔ (t.get? name).isSome = true := by
  unfold names get?
  induction t.entries with
  | nil => simp [find?]
  | cons e es ih =>
    rw [List.map_cons, List.mem_cons, ih, eq_comm, find?]
    split
    . next heq => simp [heq]
    . next hne => simp [hne]

namespace Disk

variable {d : Disk} {directory : Place}

theorem HoldsManifest.recorded?_eq {m : Manifest} (h : d.HoldsManifest directory m) (name : Text) :
    d.recorded? directory name = m.files.get? name := by
  obtain ⟨t, hnode, htext⟩ := h
  unfold recorded?
  rw [hnode]
  dsimp only
  rw [htext]
  rfl

theorem isSome_recorded?_iff (d : Disk) (directory : Place) (name : Text) :
    (d.recorded? directory name).isSome = true
      ↔ ∃ m, d.HoldsManifest directory m ∧ name ∈ m.files.names := by
  constructor
  . intro hsome
    unfold recorded? at hsome
    split at hsome
    . next t hnode =>
      cases htext : Manifest.ofText? t with
      | none => simp [htext] at hsome
      | some m =>
        refine ⟨m, ⟨t, hnode, htext⟩, ?_⟩
        rw [FileTable.mem_names_iff]
        simpa [htext] using hsome
    . cases hsome
  . rintro ⟨m, hm, hname⟩
    rw [hm.recorded?_eq, ← FileTable.mem_names_iff]
    exact hname

theorem AddsDirectories.recorded?_eq {e : Disk} (h : d.AddsDirectories e) (directory : Place)
    (name : Text) : e.recorded? directory name = d.recorded? directory name := by
  unfold recorded?
  rcases h (directory ++ [Manifest.fileName]) with hsame | ⟨hnone, hmade⟩
  . rw [hsame]
  . rw [hnone, hmade]

end Disk

namespace Writer

theorem previousManifest_cases {o : Options} {previous : Manifest} {p q : Progress}
    (hmanifest : o.manifest = true) (h : previousManifest o p = .ok (previous, q)) :
    q.disk = p.disk
      ∧ ((∃ t, p.disk.read (manifestPath o) = .ok t ∧ Manifest.ofText? t = some previous)
        ∨ (previous.files = .empty
          ∧ ∀ t, p.disk.read (manifestPath o) = .ok t → Manifest.ofText? t = none)) := by
  unfold previousManifest Manifest.load at h
  rw [hmanifest] at h
  simp only [Bool.not_true, Bool.false_eq_true, ↓reduceIte] at h
  cases hread : p.disk.read (manifestPath o) with
  | error f =>
    cases hmissing : f.is .notFound with
    | true =>
      simp only [hread, hmissing, ↓reduceIte] at h
      cases h
      exact ⟨rfl, .inr ⟨rfl, by simp⟩⟩
    | false =>
      simp only [hread, hmissing, Bool.false_eq_true, ↓reduceIte] at h
      split at h
      all_goals cases h
      exact ⟨rfl, .inr ⟨rfl, by simp⟩⟩
  | ok t =>
    cases htext : Manifest.ofText? t with
    | none =>
      simp only [hread, htext] at h
      split at h
      all_goals cases h
      exact ⟨rfl, .inr ⟨rfl, by simp [htext]⟩⟩
    | some m =>
      simp only [hread, htext] at h
      cases h
      exact ⟨rfl, .inl ⟨t, rfl, htext⟩⟩

-- Reading the manifest changes nothing but the log.
theorem progress_of_previousManifest {o : Options} {previous : Manifest} {p q : Progress}
    (h : previousManifest o p = .ok (previous, q)) :
    q = p ∨ ∃ facts, q = p.report .warning "protoval: ignoring unreadable manifest" facts := by
  unfold previousManifest at h
  split at h
  . cases h
    exact .inl rfl
  . split at h
    . cases h
      exact .inl rfl
    . split at h
      . cases h
        exact .inr ⟨_, rfl⟩
      . cases h
    . cases h
      exact .inl rfl

theorem disk_of_previousManifest {o : Options} {previous : Manifest} {p q : Progress}
    (h : previousManifest o p = .ok (previous, q)) : q.disk = p.disk := by
  rcases progress_of_previousManifest h with rfl | ⟨facts, rfl⟩
  . rfl
  . rfl

theorem metrics_of_previousManifest {o : Options} {previous : Manifest} {p q : Progress}
    (h : previousManifest o p = .ok (previous, q)) : q.metrics = p.metrics := by
  rcases progress_of_previousManifest h with rfl | ⟨facts, rfl⟩
  . rfl
  . rfl

-- A manifest that is missing, of another version or not readable names no files, so only one that
-- the directory holds matters.
theorem get?_of_previousManifest {o : Options} {previous : Manifest} {p q : Progress}
    {directory : Place} (hmanifest : o.manifest = true)
    (hentry : p.disk.IsEntry o.target directory Manifest.fileName)
    (hreach : Disk.CanReach o.target Manifest.fileName)
    (h : previousManifest o p = .ok (previous, q)) (name : Text) :
    previous.files.get? name = p.disk.recorded? directory name := by
  obtain ⟨-, ⟨t, hread, htext⟩ | ⟨hempty, hnone⟩⟩ := previousManifest_cases hmanifest h
  . have hholds : p.disk.HoldsManifest directory previous :=
      ⟨t, (hentry.read_join hread).2, htext⟩
    exact (hholds.recorded?_eq name).symm
  . rw [hempty]
    unfold Disk.recorded?
    split
    . next t hnode =>
      rw [hnone t (hentry.read_join_of_node hreach hnode)]
      rfl
    . rfl

theorem previousManifest_ok {o : Options} {previous : Manifest} {p q : Progress}
    {directory : Place} (hmanifest : o.manifest = true)
    (hentry : p.disk.IsEntry o.target directory Manifest.fileName)
    (hreach : Disk.CanReach o.target Manifest.fileName)
    (h : previousManifest o p = .ok (previous, q)) :
    q.disk = p.disk
      ∧ ∀ name, name ∈ previous.files.names
          ↔ ∃ m, p.disk.HoldsManifest directory m ∧ name ∈ m.files.names := by
  refine ⟨(previousManifest_cases hmanifest h).1, fun name => ?_⟩
  rw [← Disk.isSome_recorded?_iff, ← get?_of_previousManifest hmanifest hentry hreach h,
    FileTable.mem_names_iff]

def staleNames (kept : FileTable) (names : List Text) : List Text :=
  names.filter fun name => !(kept.has name || !isOwnName name)

theorem mem_staleNames_iff {kept : FileTable} {names : List Text} {name : Text} :
    name ∈ staleNames kept names
      ↔ name ∈ names ∧ kept.get? name = none ∧ isOwnName name = true := by
  unfold staleNames FileTable.has
  simp [List.mem_filter]

theorem removeStale_keeps {target : Text} {kept : FileTable} {names : List Text}
    {p q : Progress} {failure? : Option Failure}
    (h : removeStale target kept names p = (q, failure?)) : q.disk.Keeps p.disk := by
  induction names generalizing p with
  | nil =>
    cases h
    exact Disk.Keeps.refl q.disk
  | cons name names ih =>
    unfold removeStale at h
    split at h
    . exact ih h
    . split at h
      . next disk hremove =>
        have hrest := ih h
        exact hrest.trans (Disk.remove_keeps hremove)
      . split at h
        . have hrest := ih h
          exact hrest
        . cases h
          exact Disk.Keeps.refl q.disk

theorem removeStale_isCleared {target : Text} {kept : FileTable} {names : List Text}
    {p q : Progress} {directory : Place} (htarget : target ≠ [])
    (h : removeStale target kept names p = (q, none)) (hleads : q.disk.LeadsTo target directory) :
    Disk.IsCleared directory (staleNames kept names) p.disk q.disk := by
  induction names generalizing p with
  | nil =>
    cases h
    exact Disk.isCleared_nil directory q.disk
  | cons name names ih =>
    have hnow := (removeStale_keeps h).leadsTo hleads
    unfold removeStale at h
    unfold staleNames
    split at h
    . next hkept =>
      rw [List.filter_cons_of_neg (by rw [hkept]; simp)]
      exact ih h
    . next hkept =>
      rw [List.filter_cons_of_pos (by rw [Bool.not_eq_true']; exact Bool.eq_false_iff.2 hkept)]
      have hown : isOwnName name = true := by
        rw [Bool.or_eq_true, not_or] at hkept
        simpa using hkept.2
      have hplain := isPlain_of_isOwnName hown
      split at h
      . next disk hremove =>
        apply (ih h).cons
        intro place
        change disk.node? place = _
        rw [(hnow.remove_join htarget hplain hremove).2, Disk.node?_erase p.disk (by simp)]
      . next f hremove =>
        split at h
        . next hmissing =>
          refine (ih (p := p.removed name p.disk) h).cons fun place => ?_
          change p.disk.node? place = _
          split
          . next hplace =>
            rw [hplace]
            exact hnow.node?_of_remove_notFound htarget hplain hremove hmissing
          . rfl
        . cases h

end Writer

end ValueGen
