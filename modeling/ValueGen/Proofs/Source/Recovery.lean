import ValueGen.Proofs.Source.Report

/-!
This module contains what is recovered from the text of a report. The name of a file, a place and a
message that a report is put together from are recovered as they are, also where the name holds
colons and digits or the message looks like a report itself. Exactly the reports that tell of no
place are kept whole.
-/

namespace ValueGen

namespace Report

/-! The reports that tell of a place. -/

/--
The report is a single line and consists of a start, a place and a message. The start is a name with
a colon behind it, or nothing.
-/
structure IsMadeOf (report start place message : Text) : Prop where
  single : 10 ∉ report
  start_eq : start = [] ∨ ∃ name : Text, start = name ++ ":"
  isPlace : IsPlace place
  report_eq : report = start ++ place ++ message

/--
The report tells of a place.
-/
def TellsPlace (report : Text) : Prop :=
  ∃ start place message, IsMadeOf report start place message

theorem IsMadeOf.message_ne {report start place message : Text}
    (h : IsMadeOf report start place message) : message ≠ report := by
  obtain ⟨x, hx, -, -⟩ := h.isPlace.exists_eq_append_blank
  intro heq
  have hlength := congrArg List.length h.report_eq
  rw [← heq, hx] at hlength
  simp at hlength
  omega

theorem exists_isMadeOf_of_split? {report name message : Text} {line column : Nat}
    (h : split? report = some (name, line, column, message)) :
    ∃ start place, IsMadeOf report start place message := by
  obtain ⟨hsingle, hnamed | ⟨-, -, hplace⟩⟩ := split?_eq_some h
  . obtain ⟨before, rest, heq, -, hrest⟩ := named?_eq_some hnamed
    obtain ⟨p, hp, rfl⟩ := exists_isPlace_of_place? hrest
    refine ⟨before ++ ":", p, hsingle, .inr ⟨before, rfl⟩, hp, ?_⟩
    have hcolon : (":" : Text) = [58] := rfl
    simp [heq, hcolon]
  . obtain ⟨p, hp, heq⟩ := exists_isPlace_of_place? hplace
    exact ⟨[], p, hsingle, .inl rfl, hp, heq⟩

theorem isSome_split?_of_isMadeOf {report start place message : Text}
    (h : IsMadeOf report start place message) : (split? report).isSome = true := by
  obtain ⟨hsingle, hstart, hp, heq⟩ := h
  have hplace := isSome_place?_append hp message
  unfold split?
  rw [if_neg (by simpa using hsingle)]
  split
  . rfl
  . next hnone =>
    obtain rfl | ⟨name, rfl⟩ := hstart
    . -- There is no name in front of the place.
      rw [List.nil_append] at heq
      rw [heq, Option.isSome_map, hplace]
    . -- A name would be found where this one is, if not earlier.
      obtain ⟨name', found, hnamed, -⟩ := exists_named?_of_place? [] name hplace
      have hreport : report = name ++ 58 :: (place ++ message) := by
        have hcolon : (":" : Text) = [58] := rfl
        simp [heq, hcolon]
      rw [hreport, hnamed] at hnone
      cases hnone

theorem split?_eq_none_iff (report : Text) : split? report = none ↔ ¬ TellsPlace report := by
  constructor
  . rintro hnone ⟨start, place, message, h⟩
    have hsome := isSome_split?_of_isMadeOf h
    rw [hnone] at hsome
    cases hsome
  . intro h
    rw [Option.eq_none_iff_forall_ne_some]
    rintro ⟨name, line, column, message⟩ hsome
    obtain ⟨start, place, hmade⟩ := exists_isMadeOf_of_split? hsome
    exact h ⟨start, place, message, hmade⟩

-- A message that is told from its place is shorter than the report.
theorem toFailure_eq_whole_iff (file report : Text) :
    toFailure file report = .malformed file 0 0 report ↔ ¬ TellsPlace report := by
  rw [← split?_eq_none_iff]
  unfold toFailure
  split
  . next hnone => simp [hnone]
  . next name line column message hsome =>
    obtain ⟨start, place, hmade⟩ := exists_isMadeOf_of_split? hsome
    simp [hsome, hmade.message_ne]

/-! The reports that are put together. -/

theorem bounded_of_lt {n : Nat} (h : n < 2 ^ 63) : bounded n = n := by
  have hholds : Word.holds 64 n = true := by
    rw [Text.holds_iff]
    omega
  rw [bounded, if_pos hholds]

theorem toFailure_of_isTold {name message : Text} (hname : IsTold name) {line column : Nat}
    (hline : line < 2 ^ 63) (hcolumn : column < 2 ^ 63) (hmessage : 10 ∉ message) (file : Text) :
    toFailure file
        (name ++ ":" ++ Text.ofNat line ++ ":" ++ Text.ofNat column ++ ": " ++ message)
      = .malformed name line column message := by
  have hsplit := split?_of_isTold hname (Text.isNumeral_ofNat line) (Text.isNumeral_ofNat column)
    hmessage
  have hreport : name ++ ":" ++ Text.ofNat line ++ ":" ++ Text.ofNat column ++ ": " ++ message
      = name ++ 58 :: (Text.ofNat line ++ 58 :: (Text.ofNat column ++ 58 :: 32 :: message)) := by
    have hcolon : (":" : Text) = [58] := rfl
    have hend : (": " : Text) = [58, 32] := rfl
    simp [hcolon, hend]
  have hfile : name.isEmpty = false := by simpa using hname.ne_nil
  unfold toFailure
  rw [hreport, hsplit]
  simp only
  rw [hfile, Text.digitsValue_ofNat, Text.digitsValue_ofNat, bounded_of_lt hline,
    bounded_of_lt hcolumn, if_neg Bool.false_ne_true]

/--
The name of a file, a line, a column and a message are recovered from the report that is put together
from them, unless the name holds a place itself. A report is kept whole, under the name that is given,
if and only if it tells of no place.
-/
theorem isRecovered (file : Text) :
    (∀ (name message : Text) (line column : Nat),
      IsTold name → line < 2 ^ 63 → column < 2 ^ 63 → 10 ∉ message →
        toFailure file
            (name ++ ":" ++ Text.ofNat line ++ ":" ++ Text.ofNat column ++ ": " ++ message)
          = .malformed name line column message)
      ∧ ∀ report, toFailure file report = .malformed file 0 0 report ↔ ¬ TellsPlace report :=
  ⟨fun _ _ _ _ hname hline hcolumn hmessage =>
      toFailure_of_isTold hname hline hcolumn hmessage file,
    toFailure_eq_whole_iff file⟩

/--
The name of the file ends like the start of a place, and the message looks like a report itself. The
report that is kept whole is no single line.
-/
theorem isRecovered_colons :
    let name : Text := "a:1:2:"
    let message : Text := "b.proto:3:4: x"
    let report : Text := "a.proto:1:2: x\n"
    IsTold name ∧ 9223372036854775807 < 2 ^ 63 ∧ 10 ∉ message
      ∧ toFailure "c.proto" "a:1:2::9223372036854775807:0: b.proto:3:4: x"
        = .malformed name 9223372036854775807 0 message
      ∧ ¬ TellsPlace report ∧ toFailure "c.proto" report = .malformed "c.proto" 0 0 report := by
  intro name message report
  have hname : IsTold name := ⟨by decide, by decide, fun h => absurd h.blank_mem (by decide)⟩
  have hmessage : 10 ∉ message := by decide
  have hreport : name ++ ":" ++ Text.ofNat 9223372036854775807 ++ ":" ++ Text.ofNat 0 ++ ": "
        ++ message = "a:1:2::9223372036854775807:0: b.proto:3:4: x" := by
    decide +kernel
  have htold := (isRecovered "c.proto").1 name message 9223372036854775807 0 hname (by decide)
    (by decide) hmessage
  rw [hreport] at htold
  have hwhole : ¬ TellsPlace report := (split?_eq_none_iff _).1 (by decide +kernel)
  exact ⟨hname, by decide, hmessage, htold, hwhole, ((isRecovered "c.proto").2 report).2 hwhole⟩

end Report

end ValueGen
