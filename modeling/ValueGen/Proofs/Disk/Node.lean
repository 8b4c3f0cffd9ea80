import ValueGen.Disk.Basic

/-!
This module contains what the operations of a disk do to its nodes. No operation but the making of
directories adds a directory, and none adds a link.
-/

namespace ValueGen

namespace Disk

theorem lookup_filter_ne (p q : Place) (entries : List (Place × Node)) :
    (entries.filter fun e => e.1 != p).lookup q = if q = p then none else entries.lookup q := by
  induction entries with
  | nil => simp
  | cons e entries ih =>
    obtain ⟨place, node⟩ := e
    by_cases hp : place = p
    . rw [List.filter_cons_of_neg (by simp [hp]), ih, List.lookup_cons]
      by_cases hq : q = p
      . rw [if_pos hq, if_pos hq]
      . have hbeq : (q == place) = false := beq_eq_false_iff_ne.2 fun h => hq (h.trans hp)
        rw [hbeq]
    . rw [List.filter_cons_of_pos (by simp [hp]), List.lookup_cons, List.lookup_cons, ih]
      by_cases hq : q = place
      . have hne : q ≠ p := fun h => hp (hq.symm.trans h)
        rw [if_neg hne, if_neg hne]
      . have hbeq : (q == place) = false := beq_eq_false_iff_ne.2 hq
        rw [hbeq]

@[simp]
theorem node?_nil (d : Disk) : d.node? [] = some .directory := rfl

theorem node?_erase (d : Disk) {p : Place} (hp : p ≠ []) (q : Place) :
    (d.erase p).node? q = if q = p then none else d.node? q := by
  unfold node? erase
  cases q with
  | nil => simp [Ne.symm hp]
  | cons step q => exact lookup_filter_ne p (step :: q) d.entries

theorem node?_put (d : Disk) {p : Place} (hp : p ≠ []) (n : Node) (q : Place) :
    (d.put p n).node? q = if q = p then some n else d.node? q := by
  have herase := node?_erase d hp q
  unfold node? at herase ⊢
  unfold put
  cases q with
  | nil => simp [Ne.symm hp]
  | cons step q =>
    simp only [List.isEmpty_cons, Bool.false_eq_true, ↓reduceIte] at herase ⊢
    rw [List.lookup_append, herase]
    by_cases hq : step :: q = p
    . simp [hq]
    . have hbeq : (step :: q == p) = false := beq_eq_false_iff_ne.2 hq
      rw [if_neg hq, if_neg hq, List.lookup_cons, hbeq, List.lookup_nil, Option.or_none]

/--
Every directory and every link of the disk `d` is also one of the disk `e`.
-/
def Keeps (d e : Disk) : Prop :=
  ∀ p n, (∀ content, n ≠ .file content) → d.node? p = some n → e.node? p = some n

theorem Keeps.refl (d : Disk) : d.Keeps d := by
  intro p n _ h
  exact h

theorem Keeps.trans {d e f : Disk} (hde : d.Keeps e) (hef : e.Keeps f) : d.Keeps f := by
  intro p n hn h
  exact hef p n hn (hde p n hn h)

theorem Keeps.isDirectory {d e : Disk} (h : d.Keeps e) {p : Place} (hp : d.isDirectory p = true) :
    e.isDirectory p = true := by
  unfold Disk.isDirectory at hp ⊢
  rw [beq_iff_eq] at hp ⊢
  exact h p .directory (by simp) hp

theorem keeps_erase (d : Disk) (p : Place) : (d.erase p).Keeps d := by
  intro q n _ h
  unfold node? at h ⊢
  unfold erase at h
  rw [lookup_filter_ne] at h
  split at h
  . next hempty => rw [if_pos hempty, h]
  . next hempty =>
    rw [if_neg hempty]
    split at h
    . cases h
    . exact h

theorem keeps_put_file (d : Disk) {p : Place} (hp : p ≠ []) (content : Text) :
    (d.put p (.file content)).Keeps d := by
  intro q n hn h
  rw [node?_put d hp] at h
  split at h
  . cases h
    exact absurd rfl (hn content)
  . exact h

-- A node that is put where no directory and no link is takes nothing from the disk.
theorem keeps_put {d : Disk} {p : Place} (hp : p ≠ [])
    (hfree : ∀ n, d.node? p = some n → ∃ content, n = .file content) (n : Node) :
    d.Keeps (d.put p n) := by
  intro q other hother h
  rw [node?_put d hp]
  split
  . next heq =>
    subst heq
    obtain ⟨content, hfile⟩ := hfree other h
    exact absurd hfile (hother content)
  . exact h

theorem ne_nil_of_not_directory {d : Disk} {p : Place} (h : d.node? p ≠ some .directory) :
    p ≠ [] := by
  rintro rfl
  exact h rfl

theorem write_eq_ok_iff (d e : Disk) (path content : Text) :
    d.write path content = .ok e
      ↔ ∃ p, d.locate true path = .ok p ∧ d.node? p ≠ some .directory
        ∧ e = d.put p (.file content) := by
  unfold write
  cases hlocate : d.locate true path with
  | error f => simp [refuse]
  | ok p =>
    simp only [Except.ok.injEq]
    split
    . next hdirectory => simp [refuse, hdirectory]
    . next hnot =>
      constructor
      . intro h
        cases h
        exact ⟨p, rfl, hnot, rfl⟩
      . rintro ⟨p, rfl, -, rfl⟩
        rfl

theorem write_keeps {d e : Disk} {path content : Text} (h : d.write path content = .ok e) :
    e.Keeps d := by
  rw [write_eq_ok_iff] at h
  obtain ⟨p, -, hnot, rfl⟩ := h
  exact keeps_put_file d (ne_nil_of_not_directory hnot) content

theorem remove_eq_ok {d e : Disk} {path : Text} (h : d.remove path = .ok e) :
    ∃ p, d.locate false path = .ok p ∧ d.node? p ≠ none ∧ e = d.erase p := by
  unfold remove at h
  cases hlocate : d.locate false path with
  | error f => simp [hlocate, refuse] at h
  | ok p =>
    simp only [hlocate] at h
    split at h
    . cases h
    . next hdirectory =>
      split at h
      . cases h
        exact ⟨p, rfl, by simp [hdirectory], rfl⟩
      . cases h
    . next hsome =>
      cases h
      exact ⟨p, rfl, by simp [hsome], rfl⟩

theorem remove_keeps {d e : Disk} {path : Text} (h : d.remove path = .ok e) : e.Keeps d := by
  obtain ⟨p, -, -, rfl⟩ := remove_eq_ok h
  exact keeps_erase d p

/-! The making of directories. -/

/--
The disk `e` has directories at some places at which the disk `d` has nothing, and is otherwise like
it.
-/
def AddsDirectories (d e : Disk) : Prop :=
  ∀ p, e.node? p = d.node? p ∨ (d.node? p = none ∧ e.node? p = some .directory)

theorem AddsDirectories.refl (d : Disk) : d.AddsDirectories d := by
  intro p
  exact .inl rfl

theorem AddsDirectories.trans {d e f : Disk} (hde : d.AddsDirectories e)
    (hef : e.AddsDirectories f) : d.AddsDirectories f := by
  intro p
  rcases hef p with hsame | ⟨hnone, hdirectory⟩
  . rw [hsame]
    exact hde p
  . rcases hde p with hsame | ⟨-, hmade⟩
    . rw [← hsame]
      exact .inr ⟨hnone, hdirectory⟩
    . rw [hmade] at hnone
      cases hnone

theorem AddsDirectories.node?_eq_file_iff {d e : Disk} (h : d.AddsDirectories e) (p : Place)
    (content : Text) : e.node? p = some (.file content) ↔ d.node? p = some (.file content) := by
  rcases h p with hsame | ⟨hnone, hmade⟩
  . rw [hsame]
  . rw [hnone, hmade]
    simp

theorem AddsDirectories.keeps {d e : Disk} (h : d.AddsDirectories e) : d.Keeps e := by
  intro p n _ hnode
  rcases h p with hsame | ⟨hnone, -⟩
  . rw [hsame]
    exact hnode
  . rw [hnone] at hnode
    cases hnode

theorem makeDirectory_addsDirectories {d e : Disk} {path : Text}
    (h : d.makeDirectory path = .ok e) : d.AddsDirectories e := by
  unfold makeDirectory at h
  split at h
  . cases h
  . next p _ =>
    split at h
    . next hnone =>
      cases h
      have hp : p ≠ [] := by
        apply ne_nil_of_not_directory
        rw [hnone]
        simp
      intro q
      rw [node?_put d hp]
      split
      . next heq => exact .inr ⟨heq ▸ hnone, rfl⟩
      . exact .inl rfl
    . cases h

theorem ensureDirectory_addsDirectories (d : Disk) (path : Text) :
    d.AddsDirectories (d.ensureDirectory path).1 := by
  unfold ensureDirectory
  split
  . next hmade => exact makeDirectory_addsDirectories hmade
  . repeat' split
    all_goals exact AddsDirectories.refl d

theorem makeDirectories_addsDirectories (d : Disk) (path : Text) :
    d.AddsDirectories (d.makeDirectories path).1 := by
  fun_induction makeDirectories d path with
  | case1 => exact AddsDirectories.refl _
  | case2 => exact AddsDirectories.refl _
  | case3 path => exact ensureDirectory_addsDirectories _ path
  | case4 path hnode parent hparent e f hfailed ih =>
    rw [hfailed] at ih
    exact ih
  | case5 path hnode parent hparent e hmade ih =>
    rw [hmade] at ih
    exact ih.trans (ensureDirectory_addsDirectories e path)

/-! The contents of files. -/

/--
What the file at a place holds, if there is one.
-/
def content? (d : Disk) (p : Place) : Option Text :=
  match d.node? p with
  | some (.file content) => some content
  | _ => none

theorem content?_eq_some_iff (d : Disk) (p : Place) (content : Text) :
    d.content? p = some content ↔ d.node? p = some (.file content) := by
  unfold content?
  split
  . next hnode => simp [hnode]
  . next hnode =>
    simp only [reduceCtorEq, false_iff]
    exact hnode content

theorem content?_of_node?_eq {d e : Disk} {p : Place} (h : e.node? p = d.node? p) :
    e.content? p = d.content? p := by
  unfold content?
  rw [h]

theorem AddsDirectories.content?_eq {d e : Disk} (h : d.AddsDirectories e) (p : Place) :
    e.content? p = d.content? p := by
  apply Option.ext
  intro content
  rw [content?_eq_some_iff, content?_eq_some_iff, h.node?_eq_file_iff]

end Disk

end ValueGen
