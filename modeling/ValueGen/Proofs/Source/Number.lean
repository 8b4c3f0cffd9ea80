import ValueGen.Proofs.Source.Spelling
import ValueGen.Proofs.Text.Numeral

/-!
This module contains that the decimal digits of a number are one token, which is a number.
-/

namespace ValueGen

/-! Scanning digits. -/

namespace Cursor

theorem takeDigits_of_digit {c : Cursor} {g : Glyph} (h : c.ahead = some g)
    (hunderscore : (g.char == '_') = false) (hvalue : digitValue g.char < 10)
    {underscore : Bool} {digit : Bool} :
    takeDigits 10 ⟨digit, underscore, none⟩ c
      = takeDigits 10 ⟨true, underscore, none⟩ c.advance := by
  have hlt := size_advance_lt_of_ahead h
  obtain ⟨n, hn⟩ : ∃ n, c.size = n + 1 := ⟨c.size - 1, by omega⟩
  have hgo : takeDigits 10 ⟨digit, underscore, none⟩ c
      = takeDigits.go 10 n ⟨true, underscore, none⟩ c.advance := by
    have hfits : ¬ 10 ≤ digitValue g.char := by omega
    simp [takeDigits, hn, takeDigits.go, h, hunderscore, hvalue, hfits]
  rw [hgo]
  exact takeDigits.go_congr (by omega) (Nat.le_refl _)

theorem takeDigits_of_other {c : Cursor} {g : Glyph} (h : c.ahead = some g)
    (hunderscore : (g.char == '_') = false) (hvalue : ¬ digitValue g.char < 10) (run : DigitRun) :
    takeDigits 10 run c = (run, c) := by
  unfold takeDigits
  cases c.size with
  | zero => rfl
  | succ n => simp [takeDigits.go, h, hunderscore, hvalue]

end Cursor

/--
The byte is a decimal digit.
-/
def Ascii.IsDigit (b : UInt8) : Prop := 48 ≤ b ∧ b ≤ 57

theorem Ascii.IsDigit.exists_eq {b : UInt8} (h : IsDigit b) : ∃ d < 10, b = (48 + d).toUInt8 := by
  obtain ⟨hlow, hhigh⟩ := h
  rw [UInt8.le_iff_toNat_le] at hlow hhigh
  change 48 ≤ b.toNat at hlow
  change b.toNat ≤ 57 at hhigh
  refine ⟨b.toNat - 48, by omega, ?_⟩
  rw [Nat.add_sub_cancel' hlow]
  simp

theorem Ascii.IsDigit.lt {b : UInt8} (h : IsDigit b) : b < 0x80 := by
  have hall : ∀ d < 10, (48 + d).toUInt8 < 0x80 := by decide
  obtain ⟨d, hd, rfl⟩ := h.exists_eq
  exact hall d hd

theorem Ascii.IsDigit.isSound {b : UInt8} (h : IsDigit b) :
    (Glyph.ofAscii b).isSound = true := by
  have hall : ∀ d < 10, (Glyph.ofAscii (48 + d).toUInt8).isSound = true := by decide
  obtain ⟨d, hd, rfl⟩ := h.exists_eq
  exact hall d hd

namespace Cursor

theorem IsAt.exists_takeDigits {c : Cursor} {t w : Text} (h : c.IsAt (t ++ 59 :: w))
    (ht : ∀ b ∈ t, Ascii.IsDigit b) (digit : Bool) :
    ∃ c', takeDigits 10 ⟨digit, false, none⟩ c = (⟨digit || !t.isEmpty, false, none⟩, c')
      ∧ c'.IsAt (59 :: w) := by
  induction t generalizing c digit with
  | nil =>
    refine ⟨c, ?_, h⟩
    have hahead : c.ahead = some (Glyph.ofAscii 59) := by
      rw [h.ahead, List.nil_append, Text.glyphs_cons (by decide), List.head?_cons]
    rw [takeDigits_of_other hahead (by decide) (by decide)]
    simp
  | cons b t ih =>
    have hall : ∀ d < 10, ((Glyph.ofAscii (48 + d).toUInt8).char == '_') = false
        ∧ digitValue (Glyph.ofAscii (48 + d).toUInt8).char < 10 := by decide
    rw [List.forall_mem_cons] at ht
    have hahead : c.ahead = some (Glyph.ofAscii b) := by
      rw [h.ahead, List.cons_append, Text.glyphs_cons ht.1.lt, List.head?_cons]
    have hnext : c.advance.IsAt (t ++ 59 :: w) := by
      refine IsAt.advance (t := t ++ 59 :: w) h ht.1.lt ?_
      cases t with
      | nil =>
        rw [List.nil_append, Text.glyphs_cons (by decide)]
        rfl
      | cons b t =>
        have hb := ht.2 b List.mem_cons_self
        rw [List.cons_append, Text.glyphs_cons hb.lt, List.head?_cons, Option.all_some]
        exact hb.isSound
    obtain ⟨c', htake, hc'⟩ := ih hnext ht.2 true
    refine ⟨c', ?_, hc'⟩
    obtain ⟨d, hd, hb⟩ := ht.1.exists_eq
    rw [takeDigits_of_digit hahead (by rw [hb]; exact (hall d hd).1) (by rw [hb]; exact (hall d hd).2),
      htake]
    simp

-- A number without a point is its digits, as long as no exponent follows.
theorem IsAt.takeWhole_digits {c : Cursor} {t w : Text} (h : c.IsAt (t ++ 59 :: w))
    (ht : ∀ b ∈ t, Ascii.IsDigit b) (hne : t ≠ []) : (takeWhole .decimal c).IsAt (59 :: w) := by
  obtain ⟨c', htake, hc'⟩ := h.exists_takeDigits ht false
  have hahead : c'.ahead = some (Glyph.ofAscii 59) := by
    rw [hc'.ahead, Text.glyphs_cons (by decide), List.head?_cons]
  have hpoint : c'.seesChar '.' = false := by
    rw [seesChar, sees, hahead]
    decide
  have hexponent : takeExponent .decimal c' = ((false, ⟨false, false, none⟩), c') := by
    unfold takeExponent
    rw [hahead]
    rfl
  have hsome : (false || !t.isEmpty) = true := by simpa using hne
  have heq : takeWhole .decimal c = c' := by
    have hrun : (⟨Base.decimal == .leadingZero, false, none⟩ : DigitRun) = ⟨false, false, none⟩ := rfl
    simp only [takeWhole, Base.radix, hrun, htake, hsome, hpoint, Bool.false_eq_true,
      if_false, endNumber, if_true, hexponent, closeNumber]
    simp
  rw [heq]
  exact hc'

theorem IsAt.takeToken_digits {c : Cursor} {t w : Text} (h : c.IsAt (t ++ 59 :: w))
    (ht : ∀ b ∈ t, Ascii.IsDigit b) (hne : t ≠ []) (hzero : t.head? ≠ some 48) :
    c.takeToken.IsAt (59 :: w) := by
  have hall : ∀ d < 10, Identifier.isStart (Glyph.ofAscii (48 + d).toUInt8).char = false
      ∧ isDecimal (Glyph.ofAscii (48 + d).toUInt8).char = true
      ∧ ((48 + d).toUInt8 ≠ 48 → ((Glyph.ofAscii (48 + d).toUInt8).char == '0') = false) := by
    decide
  obtain ⟨b, u, rfl⟩ := List.exists_cons_of_ne_nil hne
  obtain ⟨hb, -⟩ := List.forall_mem_cons.1 ht
  have hahead : c.ahead = some (Glyph.ofAscii b) := by
    rw [h.ahead, List.cons_append, Text.glyphs_cons hb.lt, List.head?_cons]
  obtain ⟨d, hd, hdigit⟩ := hb.exists_eq
  have hchar := hall d hd
  rw [← hdigit] at hchar
  obtain ⟨hstart, hdecimal, hnonzero⟩ := hchar
  have hbase : takeBase c = (.decimal, c) := by
    have hsees : c.seesChar '0' = false := by
      rw [seesChar, sees, hahead]
      exact hnonzero (by simpa using hzero)
    simp [takeBase, hsees]
  have heq : c.takeToken = takeWhole .decimal c := by
    simp [takeToken, hahead, hstart, hdecimal, takeNumber, hbase]
  rw [heq]
  exact h.takeWhole_digits ht hne

end Cursor

namespace Token

-- A text is one token if the cursor comes to its end and finds nothing wrong.
theorem stands_of_takeToken {t u : Text} (hne : t ≠ []) (hquote : t ≠ "'")
    (hcut : (t ++ u).glyphs = t.glyphs ++ u.glyphs)
    (hopens : t.glyphs.head?.all Glyph.opensToken = true)
    (h : ∀ c : Cursor, c.IsAt (t ++ u) → c.takeToken.IsAt u) : stands t u = true := by
  have hstart : Option.all Glyph.opensToken (t ++ u).glyphs.head? = true := by
    rwa [hcut, List.head?_append_of_ne_nil _ (Text.glyphs_ne_nil hne)]
  have hskip : (Reader.over (t ++ u)).skipSpace.IsAt (t ++ u) :=
    (Reader.isAt_over (t ++ u)).skipSpace (s := []) Text.isBlank_nil hstart
  have hscan : (Reader.over (t ++ u)).scan.2.IsAt u :=
    hskip.scanToken_of_takeToken (h _ hskip.cursor.mark)
  have htext : (Reader.over (t ++ u)).scan.1 = t := by
    obtain ⟨gs, hleft, htext⟩ := Reader.exists_left_scanToken (Reader.over (t ++ u)).skipSpace
    rw [hskip.left, hcut] at hleft
    have hend := hscan.left
    rw [Reader.scan] at hend ⊢
    rw [hend, List.append_cancel_right_eq] at hleft
    rw [htext, ← hleft, Text.ofGlyphs_glyphs]
  rw [stands_iff]
  generalize hr : (Reader.over (t ++ u)).scan.2 = r at hscan
  refine ⟨hne, hstart, ⟨classify t, t, r.place.1, r.place.2⟩, r, ?_, rfl, hscan⟩
  rw [Parse.yields_next_iff_of_ne_nil rfl hne, htext, hr]
  exact .inl ⟨hquote, Parse.yields_tokenHere_iff.2 ⟨rfl, rfl⟩⟩

/--
The digits of a number are one token in front of a semicolon.
-/
theorem stands_ofNat (n : Nat) : stands (Text.ofNat n) ";" = true := by
  by_cases hzero : n = 0
  . rw [hzero]
    decide
  . have hall : ∀ d < 10, (Glyph.ofAscii (48 + d).toUInt8).opensToken = true
        ∧ (48 + d).toUInt8 ≠ 39 := by decide
    have hdigits : ∀ b ∈ Text.ofNat n, Ascii.IsDigit b := fun b hb => Text.digit_of_mem_ofNat hb
    have hne := Text.ofNat_ne_nil n
    obtain ⟨b, t, ht⟩ := List.exists_cons_of_ne_nil hne
    have hb : Ascii.IsDigit b := hdigits b (by simp [ht])
    obtain ⟨d, hd, hbd⟩ := hb.exists_eq
    apply stands_of_takeToken hne
    . rw [ht, hbd]
      intro hquote
      exact (hall d hd).2 (List.cons.inj hquote).1
    . exact (Text.glyphs_append_cons (Text.ofNat n) (by decide) []).trans rfl
    . rw [ht, Text.glyphs_cons hb.lt, List.head?_cons, Option.all_some, hbd]
      exact (hall d hd).1
    . intro c hc
      exact hc.takeToken_digits hdigits hne (Text.head?_ofNat_ne hzero)

end Token

/-! The class of digits. -/

namespace Numeral

theorem readDigits_of_digits {t : Text} (ht : ∀ b ∈ t, Ascii.IsDigit b) (value : Nat)
    (any : Bool) :
    readDigits 10 ⟨value, 0, false, any⟩ t
      = (⟨t.foldl (fun n b => n * 10 + (b.toNat - 48)) value, 0, false, any || !t.isEmpty⟩, []) := by
  induction t generalizing value any with
  | nil => simp [readDigits]
  | cons b t ih =>
    have hall : ∀ d < 10, (48 + d).toUInt8 ≠ 95 ∧ (48 + d).toUInt8 ≠ 46
        ∧ digit? 10 (48 + d).toUInt8 = some ((48 + d).toUInt8.toNat - 48) := by decide
    rw [List.forall_mem_cons] at ht
    obtain ⟨d, hd, hb⟩ := ht.1.exists_eq
    have hdigit := hall d hd
    rw [← hb] at hdigit
    simp [readDigits, hdigit, ih ht.2]

theorem underscoresFit_of_digits {t : Text} (ht : ∀ b ∈ t, Ascii.IsDigit b) (seen : Seen)
    (hseen : seen ≠ .underscore) : underscoresFit false seen t = true := by
  induction t generalizing seen with
  | nil => simpa [underscoresFit] using hseen
  | cons b t ih =>
    rw [List.forall_mem_cons] at ht
    have hdigit : Ascii.isDigit b = true := by simpa [Ascii.isDigit] using And.intro ht.1.1 ht.1.2
    simp [underscoresFit, hdigit, ih ht.2]

end Numeral

namespace Floating

theorem unitExponent_one_le {n : Nat} (h : n.log2 < 63) : unitExponent .double n 1 ≤ 11 := by
  have hone : Nat.log2 1 = 0 := rfl
  simp only [unitExponent, FloatFormat.double, hone]
  split
  all_goals omega

-- The exponent is kept as a variable, so that it is never computed.
theorem isSome_round?_of_eq {n : Nat} {e : Int} (he : unitExponent .double n 1 = e) (h : e ≤ 11) :
    (round? .double false n 1).isSome = true := by
  have hgreatest : FloatFormat.double.greatest = 971 := rfl
  have hfits (p : Prop) [Decidable p] (x y : Nat) :
      (if p then (x, e + 1) else (y, e)).2 ≤ 971 := by
    split
    . exact (by omega : e + 1 ≤ 971)
    . exact (by omega : e ≤ 971)
  unfold round?
  rw [he]
  split
  . rfl
  . simpa [hgreatest] using hfits _ _ _

theorem isSome_round? {n : Nat} (h : n < 2 ^ 63) : (round? .double false n 1).isSome = true := by
  by_cases hzero : n = 0
  . simp [hzero, round?]
  . exact isSome_round?_of_eq rfl (unitExponent_one_le ((Nat.log2_lt hzero).2 h))

end Floating

namespace Token

/--
The text starts with a decimal digit.
-/
theorem exists_ofNat_eq (n : Nat) : ∃ d < 10, ∃ t, Text.ofNat n = (48 + d).toUInt8 :: t := by
  obtain ⟨b, t, ht⟩ := List.exists_cons_of_ne_nil (Text.ofNat_ne_nil n)
  have hb : Ascii.IsDigit b := Text.digit_of_mem_ofNat (by rw [ht]; exact List.mem_cons_self)
  obtain ⟨d, hd, rfl⟩ := hb.exists_eq
  exact ⟨d, hd, t, ht⟩

-- No text of the list starts with a digit, so none is the digits of a number.
theorem contains_ofNat {ts : List Text}
    (h : ∀ t ∈ ts, ∀ d < 10, t.head? ≠ some (48 + d).toUInt8) (n : Nat) :
    ts.contains (Text.ofNat n) = false := by
  rw [List.contains_eq_mem, decide_eq_false_iff_not]
  intro hmem
  obtain ⟨d, hd, t, ht⟩ := exists_ofNat_eq n
  apply h _ hmem d hd
  rw [ht, List.head?_cons]

theorem not_mem_ofNat {b : UInt8} (h : ¬ (48 ≤ b ∧ b ≤ 57)) (n : Nat) : b ∉ Text.ofNat n :=
  fun hmem => h (Text.digit_of_mem_ofNat hmem)

theorem isHex_ofNat (n : Nat) : isHex (Text.ofNat n) = false := by
  rw [isHex, Bool.or_eq_false_iff, ← Bool.not_eq_true, ← Bool.not_eq_true, Text.startsWith,
    Text.startsWith, List.isPrefixOf_iff_prefix, List.isPrefixOf_iff_prefix]
  constructor
  . intro h
    exact not_mem_ofNat (b := 120) (by decide) n (h.subset (by decide))
  . intro h
    exact not_mem_ofNat (b := 88) (by decide) n (h.subset (by decide))

theorem spells_ofNat (word : Text) (h : ∀ d < 10, word.head? ≠ some (48 + d).toUInt8) (n : Nat) :
    Numeral.spells (Text.ofNat n) word = false := by
  have hlower : ∀ d < 10, Ascii.toLower (48 + d).toUInt8 = (48 + d).toUInt8 := by decide
  obtain ⟨d, hd, t, ht⟩ := exists_ofNat_eq n
  rw [Numeral.spells, ht, List.map_cons, hlower d hd, beq_eq_false_iff_ne]
  rintro rfl
  exact h d hd rfl

theorem readUnsigned_ofNat (n : Nat) :
    Numeral.readUnsigned false (Text.ofNat n) = some (.finite false n 1) := by
  have hdigits : ∀ b ∈ Text.ofNat n, Ascii.IsDigit b := fun b hb => Text.digit_of_mem_ofNat hb
  have hdecimal : Numeral.readUnsigned.decimal false (Text.ofNat n) = some (.finite false n 1) := by
    have hread := Numeral.readDigits_of_digits hdigits 0 false
    rw [Text.foldl_digits_eq_digitsValue, Text.digitsValue_ofNat] at hread
    have hfit := Numeral.underscoresFit_of_digits hdigits .start (by decide)
    have hne := Text.ofNat_ne_nil n
    simp [Numeral.readUnsigned.decimal, hread, hfit, hne, Numeral.scaled]
  unfold Numeral.readUnsigned
  split
  . next x u ht =>
    have hx : (x == 120 || x == 88) = false := by
      rw [Bool.or_eq_false_iff, beq_eq_false_iff_ne, beq_eq_false_iff_ne]
      have hmem : x ∈ Text.ofNat n := by simp [ht]
      constructor
      all_goals
        rintro rfl
        exact absurd hmem (not_mem_ofNat (by decide) n)
    rw [hx, Bool.false_and, if_neg Bool.false_ne_true]
    exact hdecimal
  . exact hdecimal

theorem numeral_ofNat (n : Nat) : Numeral.ofText? (Text.ofNat n) = some (.finite false n 1) := by
  unfold Numeral.ofText?
  split
  . next t ht => exact absurd (by simp [ht]) (not_mem_ofNat (b := 43) (by decide) n)
  . next t ht => exact absurd (by simp [ht]) (not_mem_ofNat (b := 45) (by decide) n)
  . have hinf := spells_ofNat "inf" (by decide) n
    have hinfinity := spells_ofNat "infinity" (by decide) n
    have hnan := spells_ofNat "nan" (by decide) n
    simpa only [hinf, hinfinity, hnan, Bool.or_self, Bool.false_eq_true, if_false] using
      readUnsigned_ofNat n

/--
The digits of a number are a number, at least up to 63 bits.
-/
theorem classify_ofNat {n : Nat} (h : n < 2 ^ 63) : classify (Text.ofNat n) = .number := by
  have hnumber : isNumber (Text.ofNat n) = true := by
    rw [isNumber, contains_ofNat (by decide), isHex_ofNat, Floating.ofText?, numeral_ofNat]
    exact Floating.isSome_round? h
  have hcomment : ((Text.ofNat n).startsWith "//" || (Text.ofNat n).startsWith "/*") = false := by
    rw [Bool.or_eq_false_iff, ← Bool.not_eq_true, ← Bool.not_eq_true, Text.startsWith,
      Text.startsWith, List.isPrefixOf_iff_prefix, List.isPrefixOf_iff_prefix]
    constructor
    all_goals
      intro h
      exact not_mem_ofNat (b := 47) (by decide) n (h.subset (by decide))
  have hempty : (Text.ofNat n).isEmpty = false := by simpa using Text.ofNat_ne_nil n
  rw [classify, hempty, contains_ofNat (by decide), contains_ofNat (by decide), hcomment, hnumber]
  rfl

end Token

end ValueGen
