import ValueGen.Disk.Path

/-!
This module contains the steps of cleaned paths. The path of an entry of a directory takes the steps
of the directory's cleaned path, and then one step more.
-/

namespace ValueGen

namespace Text

theorem splitOn_ne_nil (sep : UInt8) (t : Text) : splitOn sep t ≠ [] := by
  induction t with
  | nil => simp [splitOn]
  | cons b t ih =>
    unfold splitOn
    split
    . simp
    . split
      all_goals simp

theorem splitOn_append_cons (sep : UInt8) (s t : Text) :
    splitOn sep (s ++ sep :: t) = splitOn sep s ++ splitOn sep t := by
  induction s with
  | nil => simp [splitOn]
  | cons b s ih =>
    rw [List.cons_append, splitOn, splitOn, ih]
    split
    . rfl
    . cases h : splitOn sep s with
      | nil => exact absurd h (splitOn_ne_nil sep s)
      | cons p ps => rfl

theorem splitOn_of_not_mem {sep : UInt8} {t : Text} (h : sep ∉ t) : splitOn sep t = [t] := by
  induction t with
  | nil => rfl
  | cons b t ih =>
    rw [List.mem_cons, not_or] at h
    unfold splitOn
    rw [ih h.2]
    simp [Ne.symm h.1]

theorem not_mem_of_mem_splitOn {sep : UInt8} {t p : Text} (h : p ∈ splitOn sep t) : sep ∉ p := by
  induction t generalizing p with
  | nil =>
    simp only [splitOn, List.mem_singleton] at h
    simp [h]
  | cons b t ih =>
    unfold splitOn at h
    split at h
    . rcases List.mem_cons.1 h with rfl | h
      . simp
      . exact ih h
    . next hb =>
      rw [beq_iff_eq] at hb
      split at h
      . rw [List.mem_singleton] at h
        simp [h, Ne.symm hb]
      . next q qs hsplit =>
        rw [hsplit] at ih
        rcases List.mem_cons.1 h with rfl | h
        . simp [Ne.symm hb, ih List.mem_cons_self]
        . exact ih (List.mem_cons_of_mem _ h)

end Text

namespace Path

structure IsStep (t : Text) : Prop where
  ne_nil : t ≠ []
  not_mem : separator ∉ t

/--
The name of an entry of a directory: a step that does not lead to the directory itself or upwards.
-/
structure IsPlain (name : Text) : Prop extends IsStep name where
  ne_dot : name ≠ "."
  ne_dots : name ≠ ".."

def pieces (p : Text) : List Text := (p.splitOn separator).filter (!·.isEmpty)

theorem isStep_of_mem_pieces {p t : Text} (h : t ∈ pieces p) : IsStep t := by
  unfold pieces at h
  rw [List.mem_filter] at h
  exact ⟨by simpa using h.2, Text.not_mem_of_mem_splitOn h.1⟩

theorem pieces_append_cons (p q : Text) : pieces (p ++ separator :: q) = pieces p ++ pieces q := by
  unfold pieces
  rw [Text.splitOn_append_cons, List.filter_append]

theorem pieces_of_isStep {t : Text} (h : IsStep t) : pieces t = [t] := by
  unfold pieces
  rw [Text.splitOn_of_not_mem h.not_mem]
  simp [h.ne_nil]

theorem pieces_join {ts : List Text} (h : ∀ t ∈ ts, IsStep t) :
    pieces (Text.join [separator] ts) = ts := by
  induction ts with
  | nil => rfl
  | cons t ts ih =>
    have ht := h t List.mem_cons_self
    have hrest := ih fun u hu => h u (List.mem_cons_of_mem _ hu)
    cases ts with
    | nil => exact pieces_of_isStep ht
    | cons u ts =>
      unfold Text.join
      rw [List.append_assoc, List.singleton_append, pieces_append_cons, pieces_of_isStep ht, hrest]
      rfl

theorem join_ne_nil {ts : List Text} (hne : ts ≠ []) (h : ∀ t ∈ ts, IsStep t) :
    Text.join [separator] ts ≠ [] := by
  intro hnil
  have hpieces := pieces_join h
  rw [hnil] at hpieces
  exact hne hpieces.symm

theorem getLast?_join_ne {ts : List Text} (h : ∀ t ∈ ts, IsStep t) :
    (Text.join [separator] ts).getLast? ≠ some separator := by
  induction ts with
  | nil => simp [Text.join]
  | cons t ts ih =>
    have hrest : ∀ u ∈ ts, IsStep u := fun u hu => h u (List.mem_cons_of_mem _ hu)
    cases ts with
    | nil =>
      intro hlast
      exact (h t List.mem_cons_self).not_mem (List.mem_of_getLast? hlast)
    | cons u ts =>
      unfold Text.join
      have hjoin := join_ne_nil (by simp) hrest
      rw [List.getLast?_append, Option.or_of_isSome]
      . exact ih hrest
      . simpa using hjoin

theorem steps_join {ts : List Text} (h : ∀ t ∈ ts, IsStep t) :
    steps (Text.join [separator] ts) = ts := by
  have hpieces := pieces_join h
  unfold pieces at hpieces
  unfold steps
  rw [hpieces]
  simp [getLast?_join_ne h]

theorem steps_cons_join {ts : List Text} (hne : ts ≠ []) (h : ∀ t ∈ ts, IsStep t) :
    steps (separator :: Text.join [separator] ts) = ts := by
  have hpieces := pieces_join h
  have hlast := getLast?_join_ne h
  have hjoin := join_ne_nil hne h
  unfold pieces at hpieces
  unfold steps Text.splitOn
  rw [List.getLast?_cons_of_ne_nil hjoin]
  simp [hpieces, hlast]

/-! The steps of a cleaned path. -/

/--
The steps that are left when a path is cleaned.
-/
def cleanSteps (p : Text) : List Text :=
  ((pieces p).foldl (clean.push (isRooted p)) []).reverse

theorem clean_eq (p : Text) :
    clean p =
      if isRooted p then
        separator :: Text.join [separator] (cleanSteps p)
      else if (cleanSteps p).isEmpty then
        "."
      else
        Text.join [separator] (cleanSteps p) := by
  have hfold : (steps p).foldl (clean.push (isRooted p)) []
      = (pieces p).foldl (clean.push (isRooted p)) [] := by
    unfold steps pieces
    rw [List.foldl_append]
    split
    . simp [clean.push]
    . rfl
  unfold clean cleanSteps
  rw [hfold]

theorem isStep_of_mem_push {rooted : Bool} {taken : List Text} {step t : Text}
    (htaken : ∀ u ∈ taken, IsStep u) (hstep : IsStep step) (h : t ∈ clean.push rooted taken step) :
    IsStep t := by
  have hup : IsStep ".." := ⟨by decide, by decide⟩
  unfold clean.push at h
  split at h
  . exact htaken t h
  . split at h
    . split at h
      . split at h
        . cases h
        . rw [List.mem_singleton] at h
          exact h ▸ hup
      . split at h
        . rcases List.mem_cons.1 h with rfl | h
          . exact hup
          . exact htaken t h
        . exact htaken t (List.mem_cons_of_mem _ h)
    . rcases List.mem_cons.1 h with rfl | h
      . exact hstep
      . exact htaken t h

theorem isStep_of_mem_foldl_push {rooted : Bool} {ps taken : List Text}
    (hps : ∀ p ∈ ps, IsStep p) (htaken : ∀ t ∈ taken, IsStep t) :
    ∀ t ∈ ps.foldl (clean.push rooted) taken, IsStep t := by
  induction ps generalizing taken with
  | nil => exact htaken
  | cons p ps ih =>
    apply ih
    . intro q hq
      exact hps q (List.mem_cons_of_mem _ hq)
    . intro t ht
      exact isStep_of_mem_push htaken (hps p List.mem_cons_self) ht

theorem isStep_of_mem_cleanSteps {p t : Text} (h : t ∈ cleanSteps p) : IsStep t := by
  unfold cleanSteps at h
  rw [List.mem_reverse] at h
  refine isStep_of_mem_foldl_push ?_ ?_ t h
  . intro q hq
    exact isStep_of_mem_pieces hq
  . simp

theorem steps_clean {p : Text} (h : cleanSteps p ≠ []) : steps (clean p) = cleanSteps p := by
  have hsteps : ∀ t ∈ cleanSteps p, IsStep t := fun t ht => isStep_of_mem_cleanSteps ht
  rw [clean_eq]
  split
  . exact steps_cons_join h hsteps
  . rw [if_neg (by simpa using h)]
    exact steps_join hsteps

theorem steps_clean_of_nil {p : Text} (h : cleanSteps p = []) :
    steps (clean p) = [("." : Text)] := by
  rw [clean_eq, h]
  split
  all_goals decide

theorem cleanSteps_append_cons {p name : Text} (hp : p ≠ []) (h : IsPlain name) :
    cleanSteps (p ++ separator :: name) = cleanSteps p ++ [name] := by
  have hrooted : isRooted (p ++ separator :: name) = isRooted p := by
    unfold isRooted
    rw [List.head?_append, Option.or_of_isSome (by simpa using hp)]
  have hpush (rooted : Bool) (taken : List Text) :
      clean.push rooted taken name = name :: taken := by
    unfold clean.push
    simp [h.ne_dot, h.ne_dots]
  unfold cleanSteps
  rw [pieces_append_cons, hrooted, pieces_of_isStep h.toIsStep, List.foldl_append]
  simp [hpush]

theorem steps_join_entry {p name : Text} (hp : p ≠ []) (h : IsPlain name) :
    steps (join p name) = cleanSteps p ++ [name] := by
  have hsteps := cleanSteps_append_cons hp h
  unfold join
  rw [steps_clean, hsteps]
  rw [hsteps]
  simp

end Path

end ValueGen
