import Mathlib.Data.List.Basic
import ValueGen.Source.Token

/-!
This module contains what cursors do with the characters of a source: they take them one by one and
in order, and they look at no more than the next one. So what comes later in the source has no
influence on a token, as long as something comes after it.
-/

namespace ValueGen

namespace Cursor

/--
The characters that are left, the next one included.
-/
def left (c : Cursor) : List Glyph := c.ahead.toList ++ c.rest

theorem size_eq_length_left (c : Cursor) : c.size = c.left.length := by
  unfold size left
  cases c.ahead
  all_goals simp

@[simp]
theorem left_report (c : Cursor) (fault : Text) : (c.report fault).left = c.left := rfl

@[simp]
theorem taken_report (c : Cursor) (fault : Text) : (c.report fault).taken = c.taken := rfl

@[simp]
theorem left_load (c : Cursor) (first : Bool) : (c.load first).left = c.rest := by
  unfold load
  split
  . next h => simp [left, h]
  . next h =>
    repeat' split
    all_goals simp [left, report, h]

@[simp]
theorem taken_load (c : Cursor) (first : Bool) : (c.load first).taken = c.taken := by
  unfold load
  repeat' split
  all_goals rfl

theorem left_advance (c : Cursor) : c.advance.left = c.rest := left_load _ _

theorem taken_advance (c : Cursor) : c.advance.taken = c.ahead.toList ++ c.taken := taken_load _ _

/-! Places. -/

/--
The line and the column of the next character are known. They are not before anything was loaded.
-/
def IsPlaced (c : Cursor) : Prop := 0 < c.place.1 ∧ 0 < c.place.2

theorem isPlaced_load {c : Cursor} {g : Glyph} (hline : 0 < c.line) (hrest : g ∈ c.rest)
    (first : Bool) : (c.load first).IsPlaced := by
  unfold load
  split
  . next hnil =>
    rw [hnil] at hrest
    cases hrest
  . repeat' split
    all_goals simp [IsPlaced, place, report, hline]

theorem IsPlaced.load {c : Cursor} (h : c.IsPlaced) (first : Bool) : (c.load first).IsPlaced := by
  have hline : 0 < c.line := by
    unfold IsPlaced place at h
    split at h
    . exact h.1
    . exact Nat.lt_of_lt_of_le h.1 (Nat.sub_le _ _)
  cases hrest : c.rest with
  | cons g gs => exact isPlaced_load (g := g) hline (by simp [hrest]) first
  | nil =>
    unfold Cursor.load
    rw [hrest]
    simp only
    split
    . exact h
    . simp [IsPlaced, place, hline]

/-! Taking characters. -/

/--
The cursor `d` comes after `c`, and what stands between them was taken. If it is known where `c` is, it
is known where `d` is.
-/
structure Takes (c d : Cursor) : Prop where
  left : ∃ gs, c.left = gs ++ d.left ∧ d.taken = gs.reverse ++ c.taken
  place : c.IsPlaced → d.IsPlaced

namespace Takes

variable {c d e : Cursor}

theorem refl (c : Cursor) : c.Takes c := ⟨⟨[], rfl, rfl⟩, id⟩

theorem trans (h : c.Takes d) (h' : d.Takes e) : c.Takes e := by
  obtain ⟨⟨gs, hleft, htaken⟩, hplace⟩ := h
  obtain ⟨⟨gs', hleft', htaken'⟩, hplace'⟩ := h'
  refine ⟨⟨gs ++ gs', ?_, ?_⟩, hplace' ∘ hplace⟩
  . rw [hleft, hleft', List.append_assoc]
  . rw [htaken', htaken, List.reverse_append, List.append_assoc]

theorem advance (c : Cursor) : c.Takes c.advance := by
  refine ⟨⟨c.ahead.toList, ?_, ?_⟩, fun h => ?_⟩
  . rw [left_advance]
    rfl
  . rw [taken_advance]
    cases c.ahead
    all_goals rfl
  . have hmoved : IsPlaced { c with taken := c.ahead.toList ++ c.taken } := h
    exact hmoved.load false

theorem size_le (h : c.Takes d) : d.size ≤ c.size := by
  obtain ⟨⟨gs, hleft, -⟩, -⟩ := h
  rw [size_eq_length_left, size_eq_length_left, hleft]
  simp

theorem left_ne_nil (h : c.Takes d) (hne : d.left ≠ []) : c.left ≠ [] := by
  obtain ⟨⟨gs, hleft, -⟩, -⟩ := h
  simp [hleft, hne]

end Takes

/-! Actions that look at no more than the next character. -/

/--
The cursor `d` is where `c` is, but in a source that goes on with `more`. The counting of lines and
columns may differ.
-/
structure Prolongs (more : List Glyph) (c d : Cursor) : Prop where
  ahead : d.ahead = c.ahead
  rest : d.rest = c.rest ++ more
  taken : d.taken = c.taken
  faults : d.faults = c.faults

/--
An action at `c` came to `x`, and in a source that goes on with `more` it came to `y`. It took
characters and did nothing else, and if it did not come to the end of the source, it did the same
in both.
-/
structure Agree {α : Type} (more : List Glyph) (c : Cursor) (x y : α × Cursor) : Prop where
  takes : c.Takes x.2
  prolongs : x.2.left ≠ [] → y.1 = x.1 ∧ Prolongs more x.2 y.2

/--
The action looks at no more than the next character.
-/
structure IsLocal {α : Type} (f : Cursor → α × Cursor) : Prop where
  agree : ∀ {more : List Glyph} {c d : Cursor}, Prolongs more c d → Agree more c (f c) (f d)

/--
A local action without a result.
-/
def IsLocalMove (f : Cursor → Cursor) : Prop := IsLocal fun c => ((), f c)

namespace Prolongs

variable {more : List Glyph} {c d : Cursor}

theorem refl (c : Cursor) : Prolongs [] c c := ⟨rfl, (List.append_nil _).symm, rfl, rfl⟩

theorem size_le (h : Prolongs more c d) : c.size ≤ d.size := by
  simp only [size, h.ahead, h.rest, List.length_append]
  omega

theorem report (h : Prolongs more c d) (fault : Text) :
    Prolongs more (c.report fault) (d.report fault) where
  ahead := h.ahead
  rest := h.rest
  taken := h.taken
  faults := by simp only [Cursor.report, h.faults]

theorem load (h : Prolongs more c d) (hne : c.rest ≠ []) (first : Bool) :
    Prolongs more (c.load first) (d.load first) := by
  obtain ⟨g, gs, hrest⟩ := List.exists_cons_of_ne_nil hne
  have hrest' : d.rest = g :: (gs ++ more) := by rw [h.rest, hrest, List.cons_append]
  unfold Cursor.load
  simp only [hrest, hrest']
  repeat' split
  all_goals exact ⟨rfl, rfl, h.taken, by simp [Cursor.report, h.faults]⟩

theorem advance (h : Prolongs more c d) (hne : c.advance.left ≠ []) :
    Prolongs more c.advance d.advance := by
  rw [left_advance] at hne
  have htaken : d.ahead.toList ++ d.taken = c.ahead.toList ++ c.taken := by rw [h.ahead, h.taken]
  have hmoved : Prolongs more { c with taken := c.ahead.toList ++ c.taken }
      { d with taken := d.ahead.toList ++ d.taken } := ⟨h.ahead, h.rest, htaken, h.faults⟩
  exact hmoved.load hne false

theorem sees (h : Prolongs more c d) (p : Char → Bool) : d.sees p = c.sees p := by
  simp only [Cursor.sees, h.ahead]

theorem text (h : Prolongs more c d) : d.text = c.text := by simp only [Cursor.text, h.taken]

end Prolongs

namespace IsLocal

variable {α β : Type} {f : Cursor → α × Cursor}

theorem takes (h : IsLocal f) (c : Cursor) : c.Takes (f c).2 :=
  (h.agree (Prolongs.refl c)).takes

theorem pure (a : α) : IsLocal fun c => (a, c) :=
  ⟨fun h => ⟨.refl _, fun _ => ⟨rfl, h⟩⟩⟩

theorem advance : IsLocalMove Cursor.advance :=
  ⟨fun h => ⟨.advance _, fun hne => ⟨rfl, h.advance hne⟩⟩⟩

theorem report (fault : Text) : IsLocalMove (·.report fault) :=
  ⟨fun h => ⟨⟨⟨[], rfl, rfl⟩, id⟩, fun _ => ⟨rfl, h.report fault⟩⟩⟩

theorem bind {g : α → Cursor → β × Cursor} (hf : IsLocal f) (hg : ∀ a, IsLocal (g a)) :
    IsLocal fun c => g (f c).1 (f c).2 := by
  constructor
  intro more c d h
  have hfirst := hf.agree h
  refine ⟨hfirst.takes.trans ((hg _).takes _), ?_⟩
  intro hne
  obtain ⟨hresult, hcursor⟩ := hfirst.prolongs (((hg _).takes _).left_ne_nil hne)
  simp only [hresult]
  exact ((hg _).agree hcursor).prolongs hne

theorem after {g : Cursor → Cursor} (hf : IsLocal f) (hg : IsLocalMove g) :
    IsLocal fun c => f (g c) :=
  bind hg fun _ => hf

end IsLocal

theorem IsLocalMove.ite {p : Cursor → Bool} {f g : Cursor → Cursor}
    (hp : ∀ {more : List Glyph} {c d : Cursor}, Prolongs more c d → p d = p c)
    (hf : IsLocalMove f) (hg : IsLocalMove g) :
    IsLocalMove fun c => if p c then f c else g c := by
  constructor
  intro more c d h
  simp only [hp h]
  cases p c
  . exact hg.agree h
  . exact hf.agree h

theorem Agree.ite {α : Type} {more : List Glyph} {c : Cursor} {p : Prop} [Decidable p]
    {x x' y y' : α × Cursor} (h : Agree more c x y) (h' : Agree more c x' y') :
    Agree more c (if p then x else x') (if p then y else y') := by
  split
  . exact h
  . exact h'

/-! The loops of the scanner. -/

/--
A loop with a bound on the number of its rounds does not depend on the bound, if each round makes
something smaller and the bound is not below that.
-/
theorem eq_of_le_fuel {σ β : Type} (size : σ → Nat) (go : Nat → σ → β)
    (hstep : ∀ n m s, (∀ s', size s' < size s → go n s' = go m s') → go (n + 1) s = go (m + 1) s)
    (hstop : ∀ n s, size s = 0 → go n s = go 0 s) {n m : Nat} {s : σ} (hn : size s ≤ n)
    (hm : size s ≤ m) : go n s = go m s := by
  induction n generalizing m s with
  | zero => rw [hstop m s (Nat.le_zero.1 hn)]
  | succ n ih =>
    cases m with
    | zero => rw [hstop _ s (Nat.le_zero.1 hm)]
    | succ m =>
      apply hstep
      intro s' hlt
      exact ih (by omega) (by omega)

theorem ahead_eq_none_of_size {c : Cursor} (h : c.size = 0) : c.ahead = none := by
  cases hahead : c.ahead with
  | none => rfl
  | some g => simp [size, hahead] at h

theorem size_advance_lt_of_ahead {c : Cursor} {g : Glyph} (h : c.ahead = some g) :
    c.advance.size < c.size := by
  rw [size_eq_length_left, left_advance]
  simp [size, h]

theorem size_advance_lt_of_sees {c : Cursor} {p : Char → Bool} (h : c.sees p = true) :
    c.advance.size < c.size := by
  cases hahead : c.ahead with
  | none => simp [sees, hahead] at h
  | some g => exact size_advance_lt_of_ahead hahead

/--
A loop that may run as often as there are characters left.
-/
theorem IsLocal.fueled {α : Type} {f : Nat → Cursor → α × Cursor} (hf : ∀ n, IsLocal (f n))
    (hfuel : ∀ {n m : Nat} {c : Cursor}, c.size ≤ n → c.size ≤ m → f n c = f m c) :
    IsLocal fun c => f c.size c := by
  constructor
  intro more c d h
  simp only [hfuel (Nat.le_refl _) h.size_le]
  exact (hf d.size).agree h

theorem takeWhile.go_congr {p : Char → Bool} {n m : Nat} {c : Cursor} (hn : c.size ≤ n)
    (hm : c.size ≤ m) : go p n c = go p m c := by
  apply eq_of_le_fuel size (go p) _ _ hn hm
  . intro n m c ih
    unfold go
    split
    . next hsees => exact ih c.advance (size_advance_lt_of_sees hsees)
    . rfl
  . intro n c hsize
    cases n with
    | zero => rfl
    | succ n => simp [go, sees, ahead_eq_none_of_size hsize]

theorem isLocalMove_takeWhile (p : Char → Bool) : IsLocalMove (takeWhile p) := by
  apply IsLocal.fueled (f := fun n c => ((), takeWhile.go p n c))
  . intro n
    induction n with
    | zero => exact .pure ()
    | succ n ih =>
      have hall := IsLocalMove.ite (·.sees p) (ih.after .advance) (.pure ())
      exact hall
  . intro n m c hn hm
    rw [takeWhile.go_congr hn hm]

end Cursor

end ValueGen
