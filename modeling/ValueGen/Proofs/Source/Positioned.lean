import ValueGen.Proofs.Source.Grammar
import ValueGen.Proofs.Source.Refusal
import ValueGen.Proofs.Source.Report
import ValueGen.Proofs.Text.Quoted

/-!
This module contains which sources are refused with a place. What is not supported is refused where it
starts, except for an edition. For a token that is out of place it depends on two things: the place of
the token has to be known, and it has to be told again from the text of the report. What is wrong
inside tokens is never told from the report.
-/

namespace ValueGen

/-! The start of a source. -/

theorem Cursor.isPlaced_start {source : List Glyph} (h : source ≠ []) : (start source).IsPlaced := by
  obtain ⟨g, gs, rfl⟩ := List.exists_cons_of_ne_nil h
  have hload : (load ⟨none, g :: gs, 1, 0, 0, [], []⟩ true).IsPlaced :=
    isPlaced_load (g := g) Nat.one_pos List.mem_cons_self true
  simp only [start]
  split
  . split
    . exact (Takes.advance _).place hload
    . exact hload
  . exact hload

theorem Reader.isPlacedIn_start (file : Text) {source : Text} (h : source ≠ []) :
    (start file source).IsPlacedIn file := by
  have hnew : IsPlacedIn file ⟨file, Cursor.start source.glyphs, (0, 0), none, .strict, []⟩ :=
    ⟨rfl, Cursor.isPlaced_start (Text.glyphs_ne_nil h), nofun, id, by simp⟩
  exact hnew.collect (0, 0)

/-! What is told from the place of a reader. -/

namespace Reader

variable {file : Text} {place : Nat × Nat}

theorem placeText_of_known (hfile : file ≠ []) (hline : 0 < place.1) (message : Text) :
    placeText file place ++ ": " ++ message
      = file ++ 58 :: (Text.ofNat place.1 ++ 58 :: (Text.ofNat place.2 ++ 58 :: 32 :: message)) := by
  have hempty : file.isEmpty = false := by simpa using hfile
  have hcolon : (":" : Text) = [58] := rfl
  have hend : (": " : Text) = [58, 32] := rfl
  unfold placeText
  rw [hempty, if_neg Bool.false_ne_true, if_pos hline, hcolon, hend]
  simp

theorem placeText_of_unknown (hfile : file ≠ []) (hline : ¬ 0 < place.1) :
    placeText file place = file := by
  have hempty : file.isEmpty = false := by simpa using hfile
  unfold placeText
  rw [hempty, if_neg Bool.false_ne_true, if_neg hline]

-- The input has a name that starts with no digit and no colon.
theorem head?_placeText_nil (place : Nat × Nat) : (placeText [] place).head? = some 60 := by
  unfold placeText
  rw [List.isEmpty_nil, if_pos rfl]
  simp only
  split
  all_goals rfl

end Reader

namespace Report

variable {file message : Text} {place : Nat × Nat}

theorem isPositioned_of_isTold (h : IsTold file) (hline : 0 < place.1) (hcolumn : 0 < place.2)
    (hmessage : 10 ∉ message) :
    (toFailure file (Reader.placeText file place ++ ": " ++ message)).IsPositioned file := by
  have hsplit := split?_of_isTold h (Text.isNumeral_ofNat place.1) (Text.isNumeral_ofNat place.2)
    hmessage
  rw [Text.digitsValue_ofNat, Text.digitsValue_ofNat] at hsplit
  rw [Reader.placeText_of_known h.ne_nil hline, isPositioned_toFailure_iff]
  exact ⟨file, place.1, place.2, message, hsplit, .inr rfl, hline, hcolumn⟩

theorem isTold_of_isPositioned
    (h : (toFailure file (Reader.placeText file place ++ ": " ++ message)).IsPositioned file) :
    0 < place.1 ∧ IsTold file ∨ StartsWithPlace (file ++ ": ") := by
  obtain ⟨name, line, column, found, hsplit, hname, -, -⟩ := (isPositioned_toFailure_iff _ _).1 h
  by_cases hfile : file = []
  . exfalso
    have hnil : name = [] := by
      rw [hfile, or_self] at hname
      exact hname
    rw [hfile, hnil] at hsplit
    obtain ⟨hlow, hhigh⟩ := (startsWithPlace_of_split? hsplit).head? (b := 60) (by
      rw [List.append_assoc, List.head?_append, Reader.head?_placeText_nil]
      rfl)
    exact absurd hhigh (by decide)
  . by_cases hline : 0 < place.1
    . rw [Reader.placeText_of_known hfile hline] at hsplit
      by_cases hholds : HoldsPlace file
      . right
        obtain rfl : name = [] := hname.resolve_right (name_ne_of_holdsPlace hholds hsplit)
        exact ((startsWithPlace_of_split? hsplit).of_append hholds.blank_mem).append _
      . left
        obtain ⟨hnewline, -⟩ := split?_eq_some hsplit
        exact ⟨hline, hfile, fun hmem => hnewline (List.mem_append_left _ hmem), hholds⟩
    . right
      have hblank : 32 ∈ file ++ ": " := List.mem_append_right _ (by decide)
      rw [Reader.placeText_of_unknown hfile hline] at hsplit
      obtain rfl | rfl := hname
      . exact (startsWithPlace_of_split? hsplit).of_append hblank
      . exfalso
        obtain ⟨-, hnamed | ⟨-, hnil, -⟩⟩ := split?_eq_some hsplit
        . obtain ⟨before, rest, hreport, rfl, hrest⟩ := named?_eq_some hnamed
          obtain rfl : rest = 32 :: message := by
            rw [List.append_assoc] at hreport
            exact (List.cons.inj (List.append_cancel_left hreport)).2.symm
          obtain ⟨p, hp, heq⟩ := exists_isPlace_of_place? hrest
          have hhead := hp.digit_head? (t := found) (b := 32) (by rw [← heq]; rfl)
          exact absurd hhead.1 (by decide)
        . exact hfile hnil

end Report

/-! What is told from a refusal. -/

theorem Outline.isPositioned_unsupported_iff (file : Text) (line column : Nat) (what : Text) :
    (unsupported file line column what).IsPositioned file ↔ 0 < line ∧ 0 < column := by
  simp [unsupported, Failure.isPositioned_malformed_iff, Nat.one_le_iff_ne_zero, Nat.pos_iff_ne_zero]

theorem Member.Offends.isPositioned {file : Text} {m : Member} {e : Failure} (h : m.Offends file e)
    (hm : m.IsPlaced) : e.IsPositioned file := by
  cases h with
  | options | construct => exact (Outline.isPositioned_unsupported_iff _ _ _ _).2 hm

theorem Statement.Offends.isPositioned_iff {file : Text} {packaged : Prop} {s : Statement}
    {e : Failure} (h : s.Offends file packaged e) (hs : s.IsPlaced) :
    e.IsPositioned file ↔ s ≠ .edition := by
  cases h with
  | edition => simp [Outline.isPositioned_unsupported_iff]
  | construct | package =>
    exact iff_of_true ((Outline.isPositioned_unsupported_iff _ _ _ _).2 hs) nofun
  | extension => exact iff_of_true ((Outline.isPositioned_unsupported_iff _ _ _ _).2 hs.1) nofun
  | member _ hm => exact iff_of_true (hm.isPositioned (hs.2 _ (by simp))) nofun

namespace Source

variable {file source : Text}

/--
There is a place to tell where the source is refused: the first statement that is not supported is no
edition, or reading stops behind a token whose place is known and told from the report.
-/
inductive ShowsPlace (file source : Text) : Prop
  | statement {before after : List Statement} {s : Statement} {e : Failure} :
      statements file source = .ok (before ++ s :: after) → Outline.AreSupported before
      → s.Offends file (Outline.packages before ≠ []) e → s ≠ .edition → ShowsPlace file source
  | token {place found expected : Text} {r : Reader} :
      (Parse.statements (Reader.start file source).budget).Stops (Reader.start file source)
        (.unexpected place found expected) r
      → r.reports = [] → 0 < r.place.1 → Report.IsTold file → ShowsPlace file source

theorem ends_statements (hsource : source ≠ []) :
    (Parse.statements (Reader.start file source).budget).Ends file (Reader.start file source)
      fun ss r => (∀ s ∈ ss, s.IsPlaced) ∧ r.IsPlacedIn file :=
  Parse.places_statements _ (Reader.isPlacedIn_start file hsource)

theorem isPlaced_of_statements {ss : List Statement} (hsource : source ≠ [])
    (h : statements file source = .ok ss) : ∀ s ∈ ss, s.IsPlaced := by
  obtain ⟨r, hyields, -⟩ := (statements_eq_ok_iff file source ss).1 h
  exact ((ends_statements hsource).of_yields hyields).1

-- Behind the place, the report of a stop is a single line.
theorem stopReport_eq (place found expected : Text) : stopReport place found expected
    = place ++ ": " ++ ("found " ++ found.quote ++ " but expected [" ++ expected ++ "]") := by
  have hfound : (": found " : Text) = (": " : Text) ++ "found " := rfl
  unfold stopReport
  rw [hfound]
  simp

theorem newline_not_mem_of_stop (found : Text) {expected : Text} (h : 10 ∉ expected) :
    10 ∉ ("found " : Text) ++ found.quote ++ " but expected [" ++ expected ++ "]" := by
  have hquote : 10 ∉ found.quote := fun hmem => absurd (Text.le_of_mem_quote hmem) (by decide)
  have hrest : 10 ∉ ("found " : Text) ++ " but expected [" ++ "]" := by decide
  simp only [List.mem_append, not_or] at hrest ⊢
  exact ⟨⟨⟨⟨hrest.1.1, hquote⟩, hrest.1.2⟩, h⟩, hrest.2⟩

theorem not_isPositioned_of_reports {r : Reader} (h : r.IsPlacedIn file) (hreports : r.reports ≠ []) :
    ¬ (Report.toFailure file r.reports.flatten).IsPositioned file := by
  obtain ⟨line, lines, heq⟩ := List.exists_cons_of_ne_nil hreports
  have hline : 10 ∈ line := h.reports line (by simp [heq])
  rw [Report.isPositioned_toFailure_iff]
  rintro ⟨name, line', column, message, hsplit, -⟩
  obtain ⟨hnone, -⟩ := Report.split?_eq_some hsplit
  apply hnone
  rw [heq, List.flatten_cons]
  exact List.mem_append_left _ hline

theorem statements_of_stop {place found expected : Text} {r : Reader}
    (hrun : (Parse.statements (Reader.start file source).budget).Stops (Reader.start file source)
      (.unexpected place found expected) r) (hreports : r.reports = []) :
    statements file source = .error (Report.toFailure file (stopReport place found expected)) := by
  unfold statements
  simp only
  rw [hrun]
  simp [hreports]

theorem isPositioned_iff_of_statements {ss : List Statement} {e : Failure} (hsource : source ≠ [])
    (hss : statements file source = .ok ss) (h : outline file source = .error e) :
    e.IsPositioned file ↔ ShowsPlace file source := by
  have houtline : outline file source = Outline.ofStatements file ss := by rw [outline, hss]
  have hjudges := Outline.judges_ofStatements (hasName_of_statements hss) file
  have hplaced := isPlaced_of_statements hsource hss
  rw [houtline] at h
  constructor
  . intro hpositioned
    obtain ⟨before, s, after, rfl, hbefore, hs⟩ := (hjudges.refuses e).1 h
    have hedition := (hs.isPositioned_iff (hplaced s (by simp))).1 hpositioned
    exact .statement hss hbefore hs hedition
  . rintro (⟨hss', hbefore, hs, hedition⟩ | ⟨hrun, hreports, -, -⟩)
    . obtain rfl := Except.ok.inj (hss.symm.trans hss')
      have he := (hjudges.refuses _).2 ⟨_, _, _, rfl, hbefore, hs⟩
      obtain rfl := Except.error.inj (h.symm.trans he)
      exact (hs.isPositioned_iff (hplaced _ (by simp))).2 hedition
    . rw [statements_of_stop hrun hreports] at hss
      cases hss

-- A failure with a place tells of an unexpected token, and there is nothing wrong inside tokens.
theorem exists_stop_of_isPositioned {e : Failure} (hsource : source ≠ [])
    (h : statements file source = .error e) (he : e.IsPositioned file) :
    ∃ place found expected r,
      (Parse.statements (Reader.start file source).budget).Stops (Reader.start file source)
        (.unexpected place found expected) r ∧ r.reports = [] := by
  unfold statements at h
  simp only at h
  rcases hrun : (Parse.statements (Reader.start file source).budget).run.run
    (Reader.start file source) with ⟨stop | ss, r⟩
  . obtain ⟨hplaced, -⟩ := (ends_statements hsource).of_stops hrun
    rw [hrun] at h
    cases stop with
    | brokenRange | stuck =>
      cases h
      obtain ⟨_, _, hplace, -⟩ := he
      cases hplace
    | unexpected place found expected =>
      by_cases hreports : r.reports = []
      . exact ⟨place, found, expected, r, hrun, hreports⟩
      . simp only [List.isEmpty_iff, hreports, if_false] at h
        cases h
        exact absurd he (not_isPositioned_of_reports hplaced hreports)
  . obtain ⟨-, hplaced⟩ := (ends_statements hsource).of_yields hrun
    rw [hrun] at h
    simp only [List.isEmpty_iff] at h
    split at h
    . cases h
    . next hreports =>
      cases h
      exact absurd he (not_isPositioned_of_reports hplaced hreports)

theorem place_of_stop {place found expected : Text} {r : Reader} (hsource : source ≠ [])
    (hrun : (Parse.statements (Reader.start file source).budget).Stops (Reader.start file source)
      (.unexpected place found expected) r) :
    place = Reader.placeText file r.place ∧ (0 < r.place.1 → 0 < r.place.2) ∧ 10 ∉ expected := by
  obtain ⟨hplaced, hplace, hexpected⟩ := (ends_statements hsource).of_stops hrun
  rw [hplaced.file] at hplace
  exact ⟨hplace, hplaced.place, hexpected⟩

/--
A source that is refused is refused with a place if there is one to tell. Otherwise it is not, unless
the name of the file looks like a place itself.
-/
theorem isPositioned_of_outline (file source : Text) (e : Failure)
    (h : outline file source = .error e) :
    (ShowsPlace file source → e.IsPositioned file)
      ∧ (e.IsPositioned file → ShowsPlace file source ∨ Report.StartsWithPlace (file ++ ": ")) := by
  have hsource : source ≠ [] := by
    rintro rfl
    cases h
  cases hstatements : statements file source with
  | ok ss =>
    have hiff := isPositioned_iff_of_statements hsource hstatements h
    exact ⟨hiff.2, fun he => .inl (hiff.1 he)⟩
  | error f =>
    obtain rfl : f = e := by
      rw [outline, hstatements] at h
      exact Except.error.inj h
    constructor
    . rintro (⟨hss, -, -, -⟩ | ⟨hrun, hreports, hline, htold⟩)
      . rw [hss] at hstatements
        cases hstatements
      . obtain ⟨rfl, hcolumn, hexpected⟩ := place_of_stop hsource hrun
        have hstop := statements_of_stop hrun hreports
        obtain rfl := Except.error.inj (hstatements.symm.trans hstop)
        rw [stopReport_eq]
        exact Report.isPositioned_of_isTold htold hline (hcolumn hline)
          (newline_not_mem_of_stop _ hexpected)
    . intro hpositioned
      obtain ⟨place, found, expected, r, hrun, hreports⟩ :=
        exists_stop_of_isPositioned hsource hstatements hpositioned
      obtain ⟨rfl, -, -⟩ := place_of_stop hsource hrun
      have hstop := statements_of_stop hrun hreports
      obtain rfl := Except.error.inj (hstatements.symm.trans hstop)
      rw [stopReport_eq] at hpositioned
      obtain ⟨hline, htold⟩ | hfile := Report.isTold_of_isPositioned hpositioned
      . exact .inl (.token hrun hreports hline htold)
      . exact .inr hfile

def misplaced : Text := "message A \x7b\n  int32 = 1;\n\x7d"

/--
The second token of the line is no name.
-/
theorem misplaced_stops :
    ∃ r, (Parse.statements (Reader.start "a.proto" misplaced).budget).Stops
        (Reader.start "a.proto" misplaced) (.unexpected "a.proto:2:9" "=" "field identifier") r
      ∧ r.reports = [] ∧ 0 < r.place.1 := by
  have hstop : ∃ e, ((Parse.statements (Reader.start "a.proto" misplaced).budget).run.run
        (Reader.start "a.proto" misplaced)).1 = .error e
      ∧ e = .unexpected "a.proto:2:9" "=" "field identifier" := by
    decide +kernel
  have hreader : let r := ((Parse.statements (Reader.start "a.proto" misplaced).budget).run.run
        (Reader.start "a.proto" misplaced)).2
      r.reports = [] ∧ 0 < r.place.1 := by
    decide +kernel
  obtain ⟨_, hstop, rfl⟩ := hstop
  exact ⟨_, Parse.stops_of_fst hstop, hreader⟩

theorem isPositioned_of_outline_misplaced :
    ∃ e, outline "a.proto" misplaced = .error e ∧ e.IsPositioned "a.proto" := by
  obtain ⟨r, hstop, hreports, hline⟩ := misplaced_stops
  have htold : Report.IsTold "a.proto" :=
    ⟨by decide, by decide, fun h => absurd h.blank_mem (by decide)⟩
  have he : outline "a.proto" misplaced
      = .error (Report.toFailure "a.proto" (stopReport "a.proto:2:9" "=" "field identifier")) := by
    rw [outline, statements_of_stop hstop hreports]
  exact ⟨_, he, (isPositioned_of_outline _ _ _ he).1 (.token hstop hreports hline htold)⟩

/--
The place of an edition is not known, that of a fault inside a token is part of a text that ends its
line, and the input has a name of its own in reports.
-/
theorem exists_outline_not_isPositioned :
    (∃ e, outline "a.proto" "edition = \"2023\";" = .error e ∧ ¬ e.IsPositioned "a.proto")
      ∧ (∃ e, outline "a.proto" "message A \x7b\x7d \"x" = .error e ∧ ¬ e.IsPositioned "a.proto")
      ∧ ∃ e, outline "" "message A \x7b x \x7d" = .error e ∧ ¬ e.IsPositioned "" := by
  refine ⟨?_, ?_, ?_⟩
  all_goals decide +kernel

end Source

end ValueGen
