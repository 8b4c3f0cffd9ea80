import Mathlib.Data.List.Basic
import ValueGen.Proofs.Text.Numeral
import ValueGen.Source.Report

/-!
This module contains where a place is found in the text of a report: behind the shortest name in front
of a colon, two numbers with colons behind them and a blank. So a name is told from the place behind
it unless such a place is a part of the name.
-/

namespace ValueGen

/--
The text consists of decimal digits, and there is at least one.
-/
structure Text.IsNumeral (t : Text) : Prop where
  ne_nil : t ≠ []
  digit : ∀ b ∈ t, 48 ≤ b ∧ b ≤ 57

namespace Text

theorem isNumeral_ofNat (n : Nat) : (ofNat n).IsNumeral :=
  ⟨ofNat_ne_nil n, fun _ => digit_of_mem_ofNat⟩

namespace IsNumeral

variable {t : Text}

theorem not_mem (h : t.IsNumeral) {b : UInt8} (hb : b < 48 ∨ 57 < b) : b ∉ t := by
  intro hmem
  obtain ⟨hlow, hhigh⟩ := h.digit b hmem
  obtain hb | hb := hb
  . exact absurd hlow (UInt8.not_le.2 hb)
  . exact absurd hhigh (UInt8.not_le.2 hb)

theorem isDigit (h : t.IsNumeral) : ∀ b ∈ t, Ascii.isDigit b = true := by
  intro b hb
  simpa [Ascii.isDigit] using h.digit b hb

theorem digits?_eq (h : t.IsNumeral) : digits? t = some (digitsValue t) :=
  (digits?_eq_some_iff _ _).2 ⟨h.ne_nil, h.digit, rfl⟩

end IsNumeral

end Text

namespace Report

/-! Places at the start of a text. -/

/--
The text is a place: a line and a column with colons behind them, and a blank.
-/
def IsPlace (p : Text) : Prop :=
  ∃ line column : Text, line.IsNumeral ∧ column.IsNumeral ∧ p = line ++ 58 :: (column ++ [58, 32])

theorem numberColon?_eq_some_iff (t : Text) (n : Nat) (rest : Text) :
    numberColon? t = some (n, rest)
      ↔ ∃ digits : Text, digits.IsNumeral ∧ t = digits ++ 58 :: rest ∧ n = digits.digitsValue := by
  constructor
  . intro h
    unfold numberColon? at h
    split at h
    . next rest' hdrop =>
      rw [Option.map_eq_some_iff] at h
      obtain ⟨k, hk, hpair⟩ := h
      cases hpair
      obtain ⟨hne, hdigit, hvalue⟩ := (Text.digits?_eq_some_iff _ _).1 hk
      refine ⟨t.takeWhile Ascii.isDigit, ⟨hne, hdigit⟩, ?_, hvalue⟩
      rw [← hdrop, List.takeWhile_append_dropWhile]
    . cases h
  . rintro ⟨digits, hdigits, rfl, rfl⟩
    have htake : (digits ++ 58 :: rest).takeWhile Ascii.isDigit = digits := by
      rw [List.takeWhile_append_of_pos hdigits.isDigit, List.takeWhile_cons_of_neg (by decide),
        List.append_nil]
    have hdrop : (digits ++ 58 :: rest).dropWhile Ascii.isDigit = 58 :: rest := by
      rw [List.dropWhile_append_of_pos hdigits.isDigit, List.dropWhile_cons_of_neg (by decide)]
    unfold numberColon?
    rw [htake, hdrop, hdigits.digits?_eq]
    rfl

theorem place?_eq_some_iff (t : Text) (line column : Nat) (message : Text) :
    place? t = some (line, column, message)
      ↔ ∃ l c : Text, l.IsNumeral ∧ c.IsNumeral ∧ t = l ++ 58 :: (c ++ 58 :: 32 :: message)
        ∧ line = l.digitsValue ∧ column = c.digitsValue := by
  constructor
  . intro h
    unfold place? at h
    split at h
    . cases h
    . next n rest hline =>
      split at h
      . next k message' hcolumn =>
        cases h
        obtain ⟨l, hl, rfl, rfl⟩ := (numberColon?_eq_some_iff _ _ _).1 hline
        obtain ⟨c, hc, rfl, rfl⟩ := (numberColon?_eq_some_iff _ _ _).1 hcolumn
        exact ⟨l, c, hl, hc, rfl, rfl, rfl⟩
      . cases h
  . rintro ⟨l, c, hl, hc, rfl, rfl, rfl⟩
    have hline : numberColon? (l ++ 58 :: (c ++ 58 :: 32 :: message))
        = some (l.digitsValue, c ++ 58 :: 32 :: message) :=
      (numberColon?_eq_some_iff _ _ _).2 ⟨l, hl, rfl, rfl⟩
    have hcolumn : numberColon? (c ++ 58 :: 32 :: message) = some (c.digitsValue, 32 :: message) :=
      (numberColon?_eq_some_iff _ _ _).2 ⟨c, hc, rfl, rfl⟩
    unfold place?
    rw [hline]
    simp only
    rw [hcolumn]
    rfl

/-! Names in front of a place. -/

/--
There is a place in the text, and a colon in front of it.
-/
def HoldsPlace (t : Text) : Prop := ∃ before p after, IsPlace p ∧ t = before ++ 58 :: (p ++ after)

/--
The text starts with a place, and perhaps a colon in front of it.
-/
def StartsWithPlace (t : Text) : Prop := ∃ p, IsPlace p ∧ (p <+: t ∨ 58 :: p <+: t)

theorem HoldsPlace.cons {t : Text} (h : HoldsPlace t) (b : UInt8) : HoldsPlace (b :: t) := by
  obtain ⟨before, p, after, hp, rfl⟩ := h
  exact ⟨b :: before, p, after, hp, rfl⟩

theorem StartsWithPlace.append {t : Text} (h : StartsWithPlace t) (u : Text) :
    StartsWithPlace (t ++ u) := by
  obtain ⟨p, hp, hstart | hstart⟩ := h
  . exact ⟨p, hp, .inl (hstart.trans (List.prefix_append t u))⟩
  . exact ⟨p, hp, .inr (hstart.trans (List.prefix_append t u))⟩

theorem exists_isPlace_of_place? {t : Text} {line column : Nat} {message : Text}
    (h : place? t = some (line, column, message)) : ∃ p, IsPlace p ∧ t = p ++ message := by
  obtain ⟨l, c, hl, hc, rfl, -, -⟩ := (place?_eq_some_iff _ _ _ _).1 h
  exact ⟨_, ⟨l, c, hl, hc, rfl⟩, by simp⟩

theorem isSome_place?_append {p : Text} (h : IsPlace p) (t : Text) : (place? (p ++ t)).isSome = true := by
  obtain ⟨l, c, hl, hc, rfl⟩ := h
  have hplace : place? (l ++ 58 :: (c ++ 58 :: 32 :: t)) = some (l.digitsValue, c.digitsValue, t) :=
    (place?_eq_some_iff _ _ _ _).2 ⟨l, c, hl, hc, rfl, rfl, rfl⟩
  have happend : l ++ 58 :: (c ++ [58, 32]) ++ t = l ++ 58 :: (c ++ 58 :: 32 :: t) := by simp
  rw [happend, hplace]
  rfl

/--
Two texts that go on with a blank start with the same text in front of the first blank.
-/
theorem eq_of_append_blank {x y u v : Text} (hx : 32 ∉ x) (hy : 32 ∉ y)
    (h : x ++ 32 :: u = y ++ 32 :: v) : x = y := by
  have hfirst {x : Text} (hx : 32 ∉ x) (u : Text) : (x ++ 32 :: u).takeWhile (· != 32) = x := by
    have hpass : ∀ b ∈ x, (b != 32) = true := by
      intro b hb
      rw [bne_iff_ne]
      rintro rfl
      exact hx hb
    rw [List.takeWhile_append_of_pos hpass, List.takeWhile_cons_of_neg (by decide), List.append_nil]
  rw [← hfirst hx u, h, hfirst hy v]

namespace IsPlace

variable {p t u : Text}

/--
The only blank of a place is at its end, and it has two colons.
-/
theorem exists_eq_append_blank (h : IsPlace p) :
    ∃ x : Text, p = x ++ [32] ∧ 32 ∉ x ∧ x.count 58 = 2 := by
  obtain ⟨l, c, hl, hc, rfl⟩ := h
  have hlblank := hl.not_mem (b := 32) (.inl (by decide))
  have hcblank := hc.not_mem (b := 32) (.inl (by decide))
  have hlcolon := hl.not_mem (b := 58) (.inr (by decide))
  have hccolon := hc.not_mem (b := 58) (.inr (by decide))
  refine ⟨l ++ 58 :: (c ++ [58]), by simp, ?_, ?_⟩
  . simp [hlblank, hcblank]
  . simp [List.count_append, List.count_eq_zero_of_not_mem hlcolon,
      List.count_eq_zero_of_not_mem hccolon]

-- A place that starts a text with a blank in it ends with the first blank.
theorem isPrefix_of_mem (h : IsPlace p) (ht : 32 ∈ t) (hp : p <+: t ++ u) : p <+: t := by
  obtain ⟨x, rfl, hx, -⟩ := h.exists_eq_append_blank
  obtain ⟨v, hv⟩ := hp
  obtain ⟨t₁, t₂, rfl, ht₁⟩ := List.eq_append_cons_of_mem ht
  have heq : x ++ 32 :: v = t₁ ++ 32 :: (t₂ ++ u) := by simpa using hv
  obtain rfl := eq_of_append_blank hx ht₁ heq
  exact ⟨t₂, by simp⟩

theorem cons_isPrefix_of_mem (h : IsPlace p) (ht : 32 ∈ t) (hp : 58 :: p <+: t ++ u) :
    58 :: p <+: t := by
  cases t with
  | nil => cases ht
  | cons b t =>
    rw [List.cons_append] at hp
    obtain ⟨rfl, hrest⟩ := List.cons_prefix_cons.1 hp
    have hblank : 32 ∈ t := by simpa using ht
    exact List.cons_prefix_cons.2 ⟨rfl, h.isPrefix_of_mem hblank hrest⟩

-- The place behind a text without a blank is not found too early, as it has too few colons for that.
theorem blank_mem_of_append (h : IsPlace p) {q v : Text} (hq : IsPlace q)
    (hp : p <+: t ++ 58 :: (q ++ v)) : 32 ∈ t := by
  obtain ⟨x, rfl, hx, hxcolons⟩ := h.exists_eq_append_blank
  obtain ⟨y, rfl, hy, hycolons⟩ := hq.exists_eq_append_blank
  obtain ⟨w, hw⟩ := hp
  by_contra ht
  have heq : x ++ 32 :: w = (t ++ 58 :: y) ++ 32 :: v := by simpa using hw
  obtain rfl := eq_of_append_blank hx (by simp [ht, hy]) heq
  simp [List.count_append, hycolons] at hxcolons

end IsPlace

theorem StartsWithPlace.of_append {t u : Text} (h : StartsWithPlace (t ++ u)) (ht : 32 ∈ t) :
    StartsWithPlace t := by
  obtain ⟨p, hp, hstart | hstart⟩ := h
  . exact ⟨p, hp, .inl (hp.isPrefix_of_mem ht hstart)⟩
  . exact ⟨p, hp, .inr (hp.cons_isPrefix_of_mem ht hstart)⟩

theorem IsPlace.digit_head? {p t : Text} (h : IsPlace p) {b : UInt8} (hhead : (p ++ t).head? = some b) :
    48 ≤ b ∧ b ≤ 57 := by
  obtain ⟨l, c, hl, -, rfl⟩ := h
  rw [List.append_assoc, List.head?_append_of_ne_nil _ hl.ne_nil] at hhead
  exact hl.digit b (List.mem_of_mem_head? hhead)

theorem StartsWithPlace.head? {t : Text} (h : StartsWithPlace t) {b : UInt8}
    (hhead : t.head? = some b) : 48 ≤ b ∧ b ≤ 58 := by
  obtain ⟨p, hp, ⟨u, rfl⟩ | ⟨u, rfl⟩⟩ := h
  . obtain ⟨hlow, hhigh⟩ := hp.digit_head? hhead
    exact ⟨hlow, UInt8.le_trans hhigh (by decide)⟩
  . cases hhead
    decide

theorem HoldsPlace.blank_mem {t : Text} (h : HoldsPlace t) : 32 ∈ t := by
  obtain ⟨before, p, after, hp, rfl⟩ := h
  obtain ⟨x, rfl, -, -⟩ := hp.exists_eq_append_blank
  simp

/-! Finding the name. -/

theorem named?_of_not_holdsPlace {name : Text} (hname : ¬ HoldsPlace name) {l c : Text}
    (hl : l.IsNumeral) (hc : c.IsNumeral) (message done : Text) :
    named? done (name ++ 58 :: (l ++ 58 :: (c ++ 58 :: 32 :: message)))
      = some (done.reverse ++ name, l.digitsValue, c.digitsValue, message) := by
  have hplace : place? (l ++ 58 :: (c ++ 58 :: 32 :: message))
      = some (l.digitsValue, c.digitsValue, message) :=
    (place?_eq_some_iff _ _ _ _).2 ⟨l, c, hl, hc, rfl, rfl, rfl⟩
  induction name generalizing done with
  | nil =>
    rw [List.nil_append, named?]
    simp [hplace]
  | cons b name ih =>
    have hrest : ¬ HoldsPlace name := fun h => hname (h.cons b)
    have hnone : (if b == 58 then
        place? (name ++ 58 :: (l ++ 58 :: (c ++ 58 :: 32 :: message))) else none) = none := by
      split
      . next hb =>
        obtain rfl : b = 58 := by simpa using hb
        rw [Option.eq_none_iff_forall_ne_some]
        rintro ⟨line, column, message'⟩ hfound
        obtain ⟨p, hp, heq⟩ := exists_isPlace_of_place? hfound
        have hq : IsPlace (l ++ 58 :: (c ++ [58, 32])) := ⟨l, c, hl, hc, rfl⟩
        have hprefix : p <+: name ++ 58 :: ((l ++ 58 :: (c ++ [58, 32])) ++ message) :=
          ⟨message', by simp [← heq]⟩
        obtain ⟨after, rfl⟩ := hp.isPrefix_of_mem (hp.blank_mem_of_append hq hprefix) hprefix
        exact hname ⟨[], p, after, hp, rfl⟩
      . rfl
    rw [List.cons_append, named?, hnone]
    simp only
    rw [ih hrest]
    simp

theorem named?_eq_some {done t name : Text} {found : Nat × Nat × Text}
    (h : named? done t = some (name, found)) :
    ∃ before rest, t = before ++ 58 :: rest ∧ name = done.reverse ++ before
      ∧ place? rest = some found := by
  induction t generalizing done with
  | nil => cases h
  | cons b t ih =>
    rw [named?] at h
    split at h
    . next found' hfound =>
      cases h
      split at hfound
      . next hb =>
        obtain rfl : b = 58 := by simpa using hb
        exact ⟨[], t, rfl, by simp, hfound⟩
      . cases hfound
    . obtain ⟨before, rest, rfl, rfl, hrest⟩ := ih h
      exact ⟨b :: before, rest, rfl, by simp, hrest⟩

-- The name ends no later than in front of the first colon with a place behind it.
theorem exists_named?_of_place? (done before : Text) {rest : Text}
    (h : (place? rest).isSome = true) :
    ∃ name found, named? done (before ++ 58 :: rest) = some (name, found)
      ∧ name.length ≤ done.length + before.length := by
  induction before generalizing done with
  | nil =>
    obtain ⟨found, hfound⟩ := Option.isSome_iff_exists.1 h
    refine ⟨done.reverse, found, ?_, by simp⟩
    rw [List.nil_append, named?]
    simp [hfound]
  | cons b before ih =>
    rw [List.cons_append, named?]
    split
    . next found hfound => exact ⟨done.reverse, found, rfl, by simp⟩
    . obtain ⟨name, found, hnamed, hlength⟩ := ih (b :: done)
      refine ⟨name, found, hnamed, ?_⟩
      simp only [List.length_cons] at hlength ⊢
      omega

/-! What is told from a report. -/

/--
The name of a file can be told from the place behind it.
-/
structure IsTold (name : Text) : Prop where
  ne_nil : name ≠ []
  line : 10 ∉ name
  place : ¬ HoldsPlace name

theorem split?_of_isTold {name : Text} (h : IsTold name) {l c : Text} (hl : l.IsNumeral)
    (hc : c.IsNumeral) {message : Text} (hmessage : 10 ∉ message) :
    split? (name ++ 58 :: (l ++ 58 :: (c ++ 58 :: 32 :: message)))
      = some (name, l.digitsValue, c.digitsValue, message) := by
  have hlline := hl.not_mem (b := 10) (.inl (by decide))
  have hcline := hc.not_mem (b := 10) (.inl (by decide))
  have hsingle : (name ++ 58 :: (l ++ 58 :: (c ++ 58 :: 32 :: message))).contains 10 = false := by
    simp [h.line, hlline, hcline, hmessage]
  unfold split?
  rw [hsingle, named?_of_not_holdsPlace h.place hl hc]
  rfl

theorem split?_eq_some {report name : Text} {found : Nat × Nat × Text}
    (h : split? report = some (name, found)) :
    10 ∉ report ∧ (named? [] report = some (name, found)
      ∨ named? [] report = none ∧ name = [] ∧ place? report = some found) := by
  unfold split? at h
  split at h
  . cases h
  . next hline =>
    refine ⟨by simpa using hline, ?_⟩
    split at h
    . next hnamed =>
      cases h
      exact .inl hnamed
    . next hnamed =>
      rw [Option.map_eq_some_iff] at h
      obtain ⟨found, hplace, hpair⟩ := h
      cases hpair
      exact .inr ⟨hnamed, rfl, hplace⟩

theorem startsWithPlace_of_split? {report : Text} {found : Nat × Nat × Text}
    (h : split? report = some ([], found)) : StartsWithPlace report := by
  obtain ⟨line, column, message⟩ := found
  obtain ⟨-, hnamed | ⟨-, -, hplace⟩⟩ := split?_eq_some h
  . obtain ⟨before, rest, rfl, hnil, hrest⟩ := named?_eq_some hnamed
    obtain rfl : before = [] := by simpa using hnil.symm
    obtain ⟨p, hp, rfl⟩ := exists_isPlace_of_place? hrest
    exact ⟨p, hp, .inr (List.prefix_append _ _)⟩
  . obtain ⟨p, hp, rfl⟩ := exists_isPlace_of_place? hplace
    exact ⟨p, hp, .inl (List.prefix_append _ _)⟩

-- A place inside the name ends it too early.
theorem name_ne_of_holdsPlace {file rest name : Text} (hfile : HoldsPlace file)
    {found : Nat × Nat × Text} (h : split? (file ++ rest) = some (name, found)) : name ≠ file := by
  obtain ⟨before, p, after, hp, rfl⟩ := hfile
  have hplace := isSome_place?_append hp (after ++ rest)
  obtain ⟨name', found', hnamed, hlength⟩ :=
    exists_named?_of_place? [] before hplace
  have hreport : before ++ 58 :: (p ++ after) ++ rest = before ++ 58 :: (p ++ (after ++ rest)) := by
    simp
  rw [← hreport] at hnamed
  obtain ⟨-, hname | ⟨hnone, -, -⟩⟩ := split?_eq_some h
  . rw [hnamed] at hname
    cases hname
    rintro rfl
    simp at hlength
  . rw [hnamed] at hnone
    cases hnone

theorem one_le_bounded_iff (n : Nat) : 1 ≤ bounded n ↔ 1 ≤ n := by
  unfold bounded
  split
  . omega
  . next h =>
    rw [Text.holds_iff] at h
    have hgreatest : 1 ≤ Word.greatest 64 := by decide
    omega

end Report

namespace Failure

/--
The file, the line and the column that the failure of a malformed source names.
-/
def place? : Failure → Option (Text × Int × Int)
  | .malformed file line column _ => some (file, line, column)
  | _ => none

/--
The failure names the file, a line and a column.
-/
def IsPositioned (file : Text) (e : Failure) : Prop :=
  ∃ line column, e.place? = some (file, line, column) ∧ 1 ≤ line ∧ 1 ≤ column

theorem isPositioned_iff {file name : Text} {line column : Int} {e : Failure}
    (h : e.place? = some (name, line, column)) :
    e.IsPositioned file ↔ name = file ∧ 1 ≤ line ∧ 1 ≤ column := by
  simp [IsPositioned, h, and_assoc]

theorem isPositioned_malformed_iff (file name : Text) (line column : Int) (text : Text) :
    (malformed name line column text).IsPositioned file
      ↔ name = file ∧ 1 ≤ line ∧ 1 ≤ column :=
  isPositioned_iff rfl

instance (file : Text) (e : Failure) : Decidable (e.IsPositioned file) :=
  match h : e.place? with
  | none => isFalse (by simp [IsPositioned, h])
  | some (_, _, _) => decidable_of_iff _ (isPositioned_iff h).symm

end Failure

namespace Report

theorem isPositioned_toFailure_iff (file report : Text) : (toFailure file report).IsPositioned file
    ↔ ∃ name line column message, split? report = some (name, line, column, message)
      ∧ (name = [] ∨ name = file) ∧ 1 ≤ line ∧ 1 ≤ column := by
  unfold toFailure
  split
  . next hnone => simp [hnone, Failure.isPositioned_malformed_iff]
  . next name line column message hsome =>
    simp only [hsome, Failure.isPositioned_malformed_iff, one_le_bounded_iff]
    cases name
    all_goals simp

end Report

end ValueGen
