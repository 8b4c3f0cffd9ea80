import ValueGen.Proofs.Source.Cursor

/-!
This module contains that tokens are found by looking at no more than the next character. The lemmas
follow the parts of the scanner, one for each.
-/

namespace ValueGen

namespace Cursor

/-! Numbers. -/

theorem takeDigits.go_congr {base : Nat} {n m : Nat} {run : DigitRun} {c : Cursor}
    (hn : c.size ≤ n) (hm : c.size ≤ m) : go base n run c = go base m run c := by
  apply eq_of_le_fuel (fun s => s.2.size) (fun n (s : DigitRun × Cursor) => go base n s.1 s.2) _ _
    (s := (run, c)) hn hm
  . rintro n m ⟨run, c⟩ ih
    simp only [go]
    split
    . rfl
    . next g hahead =>
      have hnext run' := ih (run', c.advance) (size_advance_lt_of_ahead hahead)
      simp only at hnext
      simp only [hnext]
  . rintro n ⟨run, c⟩ hsize
    have hahead : c.ahead = none := ahead_eq_none_of_size hsize
    cases n with
    | zero => rfl
    | succ n => simp only [go, hahead]

theorem isLocal_takeDigits (base : Nat) (run : DigitRun) : IsLocal (takeDigits base run) := by
  apply IsLocal.fueled (f := fun n c => takeDigits.go base n run c) _ takeDigits.go_congr
  intro n
  induction n generalizing run with
  | zero => exact .pure run
  | succ n ih =>
    constructor
    intro more c d h
    simp only [takeDigits.go, h.ahead]
    split
    . exact (IsLocal.pure run).agree h
    . split
      . exact ((ih _).after .advance).agree h
      . split
        . exact ((ih _).after .advance).agree h
        . exact (IsLocal.pure run).agree h

theorem isLocal_takeBaseLetter : IsLocal takeBaseLetter := by
  constructor
  intro more c d h
  have hletter (base : Base) : Agree more c (base, c.advance) (base, d.advance) :=
    ((IsLocal.pure base).after .advance).agree h
  simp only [takeBaseLetter, h.sees]
  exact .ite (hletter _) (.ite (hletter _) (.ite (hletter _) ((IsLocal.pure _).agree h)))

theorem isLocal_takeBase : IsLocal takeBase := by
  constructor
  intro more c d h
  simp only [takeBase, seesChar, h.sees]
  exact .ite ((isLocal_takeBaseLetter.after .advance).agree h) ((IsLocal.pure _).agree h)

theorem isLocalMove_reportIf (b : Bool) (fault : Text) :
    IsLocalMove fun c => if b then c.report fault else c := by
  cases b
  . exact .pure ()
  . exact .report fault

theorem isLocalMove_reportUnless (b : Bool) (fault : Text) :
    IsLocalMove fun c => if b then c else c.report fault := by
  cases b
  . exact .report fault
  . exact .pure ()

theorem isLocal_takeExponentDigits : IsLocal takeExponentDigits := by
  have hsign := IsLocalMove.ite (·.sees fun x => x == '+' || x == '-') .advance (.pure ())
  have hreport (run : DigitRun) : IsLocal fun c =>
      (run, if run.digit then c else c.report "exponent has no digits") :=
    .bind (isLocalMove_reportUnless _ _) fun _ => .pure run
  have hdigits := IsLocal.bind (isLocal_takeDigits 10 ⟨false, false, none⟩) hreport
  have hall := hdigits.after hsign
  exact hall

theorem isLocal_takeExponent (base : Base) : IsLocal (takeExponent base) := by
  have hdigits : IsLocal fun c => ((true, (takeExponentDigits c).1), (takeExponentDigits c).2) :=
    .bind isLocal_takeExponentDigits fun run => .pure (true, run)
  constructor
  intro more c d h
  unfold takeExponent
  rw [h.ahead]
  split
  . exact (IsLocal.pure _).agree h
  . dsimp only
    split
    . split
      . exact ((hdigits.after .advance).after (.report _)).agree h
      . split
        . exact ((hdigits.after .advance).after (.report _)).agree h
        . exact (hdigits.after .advance).agree h
    . exact (IsLocal.pure _).agree h

theorem isLocalMove_closeNumber (base : Base) (fraction : Bool) (run : DigitRun)
    (scientific : Bool) (tail : DigitRun) :
    IsLocalMove (closeNumber base fraction run scientific tail) := by
  have hexponent := isLocalMove_reportIf (!scientific && base == .hexadecimal && fraction)
    "hexadecimal mantissa requires a 'p' exponent"
  have hunderscore : IsLocalMove fun c =>
      if (run.underscore || tail.underscore) && !underscoresFit c.text then
        c.report "'_' must separate successive digits"
      else
        c := by
    constructor
    intro more c d h
    simp only [h.text]
    exact (isLocalMove_reportIf _ _).agree h
  rcases run with ⟨digit, underscore, _ | x⟩
  . have hall := hunderscore.after hexponent
    exact hall
  . have hinvalid := isLocalMove_reportUnless (fraction || scientific)
      ("invalid digit '" ++ Text.ofChar x ++ "' in " ++ base.literal)
    have hall := (hunderscore.after hinvalid).after hexponent
    exact hall

theorem isLocalMove_endNumber (base : Base) (fraction : Bool) (run : DigitRun) :
    IsLocalMove (endNumber base fraction run) := by
  have hend := IsLocal.bind (isLocal_takeExponent base) fun e =>
    isLocalMove_closeNumber base fraction run e.1 e.2
  have hall := hend.after (isLocalMove_reportUnless run.digit (base.literal ++ " has no digits"))
  exact hall

theorem isLocalMove_takeFraction (base : Base) (run : DigitRun) :
    IsLocalMove (takeFraction base run) := by
  have hdigits := IsLocal.bind (isLocal_takeDigits base.radix run) (isLocalMove_endNumber base true)
  have hall := hdigits.after (isLocalMove_reportIf (base == .octal || base == .binary)
    ("invalid radix point in " ++ base.literal))
  exact hall

theorem isLocalMove_takeWhole (base : Base) : IsLocalMove (takeWhole base) := by
  have hpoint (run : DigitRun) := IsLocalMove.ite (·.sees (· == '.'))
    ((isLocalMove_takeFraction base run).after .advance) (isLocalMove_endNumber base false run)
  have hall := IsLocal.bind
    (isLocal_takeDigits base.radix ⟨base == .leadingZero, false, none⟩) hpoint
  exact hall

theorem isLocalMove_takeNumber (dotted : Bool) : IsLocalMove (takeNumber dotted) := by
  cases dotted with
  | true => exact isLocalMove_takeFraction _ _
  | false =>
    have hall := IsLocal.bind isLocal_takeBase isLocalMove_takeWhole
    exact hall

/-! Quoted texts and comments. -/

theorem isLocalMove_takeEscapeDigits (base n : Nat) : IsLocalMove (takeEscapeDigits base n) := by
  induction n with
  | zero => exact .pure ()
  | succ n ih =>
    have hall := IsLocalMove.ite (·.sees fun x => digitValue x < base) (ih.after .advance)
      (.report "invalid char escape")
    exact hall

theorem isLocalMove_takeEscape : IsLocalMove takeEscape := by
  constructor
  intro more c d h
  have hdigits (base n : Nat) := isLocalMove_takeEscapeDigits base n
  simp only [takeEscape, h.ahead]
  split
  . exact (IsLocal.report _).agree h
  . split
    . exact IsLocal.advance.agree h
    . split
      . exact (hdigits 8 3).agree h
      . split
        . exact ((hdigits 16 2).after .advance).agree h
        . split
          . exact ((hdigits 16 4).after .advance).agree h
          . split
            . exact ((hdigits 16 8).after .advance).agree h
            . exact (IsLocal.report _).agree h

theorem takeQuoted.go_congr {n m : Nat} {c : Cursor} (hn : c.size ≤ n) (hm : c.size ≤ m) :
    go n c = go m c := by
  apply eq_of_le_fuel size go _ _ hn hm
  . intro n m c ih
    simp only [go]
    split
    . rfl
    . next g hahead =>
      have hlt := size_advance_lt_of_ahead hahead
      have hle := (isLocalMove_takeEscape.takes c.advance).size_le
      rw [ih c.advance hlt, ih c.advance.takeEscape (Nat.lt_of_le_of_lt hle hlt)]
  . intro n c hsize
    have hahead : c.ahead = none := ahead_eq_none_of_size hsize
    cases n with
    | zero => rfl
    | succ n => simp only [go, hahead]

theorem isLocalMove_takeQuoted : IsLocalMove takeQuoted := by
  have hloop : IsLocalMove fun c => takeQuoted.go c.size c := by
    apply IsLocal.fueled (f := fun n c => ((), takeQuoted.go n c))
    . intro n
      induction n with
      | zero => exact .report _
      | succ n ih =>
        constructor
        intro more c d h
        simp only [takeQuoted.go, h.ahead]
        split
        . exact (IsLocal.report _).agree h
        . split
          . exact IsLocal.advance.agree h
          . split
            . exact (IsLocal.after .advance (.report _)).agree h
            . split
              . exact ((ih.after isLocalMove_takeEscape).after .advance).agree h
              . exact (ih.after .advance).agree h
    . intro n m c hn hm
      rw [takeQuoted.go_congr hn hm]
  have hall := hloop.after .advance
  have heq (c : Cursor) : takeQuoted.go c.advance.size c.advance = takeQuoted c :=
    takeQuoted.go_congr (Nat.le_refl _) (Takes.advance c).size_le
  simp only [heq] at hall
  exact hall

theorem isLocalMove_takeRaw : IsLocalMove takeRaw := by
  have hend : IsLocalMove fun c =>
      if c.ahead.isSome then c.advance else c.report "literal not terminated" :=
    .ite (fun h => by rw [h.ahead]) .advance (.report _)
  have hall := (hend.after (isLocalMove_takeWhile (·.toNat != 0x60))).after .advance
  exact hall

theorem takeBlockComment.go_congr {n m : Nat} {c : Cursor} (hn : c.size ≤ n) (hm : c.size ≤ m) :
    go n c = go m c := by
  apply eq_of_le_fuel size go _ _ hn hm
  . intro n m c ih
    simp only [go]
    split
    . rfl
    . next g hahead => rw [ih c.advance (size_advance_lt_of_ahead hahead)]
  . intro n c hsize
    have hahead : c.ahead = none := ahead_eq_none_of_size hsize
    cases n with
    | zero => rfl
    | succ n => simp only [go, hahead]

theorem isLocalMove_takeBlockComment : IsLocalMove takeBlockComment := by
  have hloop : IsLocalMove fun c => takeBlockComment.go c.size c := by
    apply IsLocal.fueled (f := fun n c => ((), takeBlockComment.go n c))
    . intro n
      induction n with
      | zero => exact .report _
      | succ n ih =>
        have hnext (star : Bool) : IsLocalMove fun c =>
            if star && c.seesChar '/' then c.advance else takeBlockComment.go n c :=
          .ite (fun h => by rw [seesChar, seesChar, h.sees]) .advance ih
        constructor
        intro more c d h
        simp only [takeBlockComment.go, h.ahead]
        split
        . exact (IsLocal.report _).agree h
        . exact ((hnext _).after .advance).agree h
    . intro n m c hn hm
      rw [takeBlockComment.go_congr hn hm]
  have hall := hloop.after .advance
  have heq (c : Cursor) : takeBlockComment.go c.advance.size c.advance = takeBlockComment c :=
    takeBlockComment.go_congr (Nat.le_refl _) (Takes.advance c).size_le
  simp only [heq] at hall
  exact hall

/--
What comes after a token and the character behind it has no influence on the token.
-/
theorem isLocalMove_takeToken : IsLocalMove takeToken := by
  have hdot : IsLocalMove fun c => if c.sees isDecimal then takeNumber true c else c :=
    .ite (·.sees isDecimal) (isLocalMove_takeNumber true) (.pure ())
  have hslash : IsLocalMove fun c =>
      if c.seesChar '/' then
        c.takeWhile (· != '\n')
      else if c.seesChar '*' then
        takeBlockComment c
      else
        c :=
    .ite (·.sees (· == '/')) (isLocalMove_takeWhile _)
      (.ite (·.sees (· == '*')) isLocalMove_takeBlockComment (.pure ()))
  constructor
  intro more c d h
  simp only [takeToken, h.ahead]
  split
  . exact (IsLocal.pure ()).agree h
  . split
    . exact ((isLocalMove_takeWhile _).after .advance).agree h
    . split
      . exact (isLocalMove_takeNumber false).agree h
      . split
        . exact isLocalMove_takeQuoted.agree h
        . split
          . exact isLocalMove_takeRaw.agree h
          . split
            . exact (hdot.after .advance).agree h
            . split
              . exact (hslash.after .advance).agree h
              . exact IsLocal.advance.agree h

end Cursor

end ValueGen
