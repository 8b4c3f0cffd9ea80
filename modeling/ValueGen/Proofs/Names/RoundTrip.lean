import ValueGen.Proofs.Names.Snake
import ValueGen.Proofs.Names.Words

/-!
This module contains that the words of a camel-case name can be found again. If no two initialisms
are neighbours, a name of words in lower case is the snake-case form of its camel-case form.
-/

namespace ValueGen

namespace Text

theorem join_cons_eq (sep t : Text) (ts : List Text) :
    join sep (t :: ts) = t ++ ts.flatMap (sep ++ ·) := by
  induction ts generalizing t with
  | nil => rw [join, List.flatMap_nil, List.append_nil]
  | cons u ts ih => rw [join, ih, List.flatMap_cons, List.append_assoc, List.append_assoc]

theorem glyphs_of_ascii {t : Text} (h : ∀ b ∈ t, b < 0x80) : t.glyphs = t.map Glyph.ofAscii := by
  induction t with
  | nil => rfl
  | cons b t ih =>
    rw [List.forall_mem_cons] at h
    rw [glyphs_cons h.1, ih h.2, List.map_cons]

end Text

namespace Ascii

variable {b : UInt8}

theorem lt_of_isLower (h : isLower b = true) : b < 0x80 := by
  apply lt_of_isLetter
  rw [isLetter, h, Bool.or_true]

theorem isUpper_toUpper_of_isLower (h : isLower b = true) : isUpper (toUpper b) = true := by
  apply isUpper_toUpper
  rw [isLetter, h, Bool.or_true]

theorem toLower_toUpper (h : isLower b = true) : toLower (toUpper b) = b := by
  grind [isLower, isUpper, toLower, toUpper]

theorem not_isSeparator_of_isLower (h : isLower b = true) : Camel.isSeparator b = false := by
  grind [Camel.isSeparator, isLower]

end Ascii

namespace Camel

/--
The word has at least two letters, all of them in lower case.
-/
structure IsLowerWord (w : Text) : Prop where
  two_le : 2 ≤ w.length
  lower : ∀ b ∈ w, Ascii.isLower b = true

instance (w : Text) : Decidable (IsLowerWord w) :=
  decidable_of_iff (2 ≤ w.length ∧ w.all Ascii.isLower = true)
    ⟨fun h => ⟨h.1, List.all_eq_true.1 h.2⟩, fun h => ⟨h.two_le, List.all_eq_true.2 h.lower⟩⟩

theorem IsLowerWord.exists_cons {w : Text} (h : IsLowerWord w) :
    ∃ b c t, w = b :: c :: t ∧ Ascii.isLower b = true ∧ Ascii.isLower c = true
      ∧ ∀ d ∈ t, Ascii.isLower d = true := by
  obtain ⟨hlength, hlower⟩ := h
  rcases w with _ | ⟨b, _ | ⟨c, t⟩⟩
  . exact absurd hlength (by decide)
  . exact absurd hlength (by simp)
  . rw [List.forall_mem_cons, List.forall_mem_cons] at hlower
    exact ⟨b, c, t, rfl, hlower⟩

/-! The words of a name. -/

theorem words_of_isLowerWord {w : Text} (h : IsLowerWord w) : words w = [w] := by
  obtain ⟨b, c, t, rfl, -⟩ := h.exists_cons
  exact words_eq_singleton (by simp) fun d hd => Ascii.not_isSeparator_of_isLower (h.lower d hd)

theorem words_join {ws : List Text} (hws : ∀ w ∈ ws, IsLowerWord w) :
    words (Text.join "_" ws) = ws := by
  induction ws with
  | nil => rfl
  | cons w ws ih =>
    rw [List.forall_mem_cons] at hws
    have hword := words_of_isLowerWord hws.1
    cases ws with
    | nil => exact hword
    | cons v ws =>
      have hunder : ("_" : Text) = [95] := rfl
      rw [Text.join, hunder, List.append_assoc, List.singleton_append,
        words_append_cons (by decide), hword, ← hunder, ih hws.2, List.singleton_append]

theorem spelling_of_isLowerWord {w : Text} (h : IsLowerWord w) :
    Initialism.spelling w = w.map Ascii.toUpper := by
  rw [Initialism.spelling, Text.glyphs_of_ascii fun b hb => Ascii.lt_of_isLower (h.lower b hb),
    List.flatMap_map]
  exact List.flatMap_pure_eq_map _ w

theorem inner_of_isSpelledBy {w : Text} (h : IsLowerWord w)
    (hspelled : Initialism.isSpelledBy w = true) : inner w = w.map Ascii.toUpper := by
  cases hword : Initialism.ofWord? w with
  | none =>
    rw [Initialism.ofWord?_eq_none_iff, hspelled] at hword
    cases hword
  | some k =>
    have hk : (k == Initialism.spelling w) = true :=
      List.find?_some (p := (· == Initialism.spelling w)) hword
    rw [inner, hword, Option.getD_some, beq_iff_eq.1 hk, spelling_of_isLowerWord h]

theorem inner_of_not_isSpelledBy {b : UInt8} {t : Text} (hb : Ascii.isLower b = true)
    (hspelled : Initialism.isSpelledBy (b :: t) = false) :
    inner (b :: t) = Ascii.toUpper b :: t := by
  rw [inner, (Initialism.ofWord?_eq_none_iff _).2 hspelled, Option.getD_none, capitalize,
    if_pos (Ascii.lt_of_isLower hb)]

end Camel

namespace Snake

open Camel (IsLowerWord inner)

variable {b before : UInt8} {split : Bool}

theorem isUpper_of_isUpper (h : Ascii.isUpper b = true) : isUpper b = true := by
  rw [isUpper, h, Bool.true_or]

theorem not_isLower_of_isUpper (h : Ascii.isUpper b = true) : isLower b = false := by
  grind [isLower, Ascii.isLower, Ascii.isUpper]

theorem isLower_of_isLower (h : Ascii.isLower b = true) : isLower b = true := by
  rw [isLower, h, Bool.true_or, Bool.true_or]

theorem not_isUpper_of_isLower (h : Ascii.isLower b = true) : isUpper b = false := by
  grind [isUpper, Ascii.isLower, Ascii.isUpper]

theorem render_of_isLower (h : Ascii.isLower b = true) : render b = [b] := by
  rw [render_of_ascii (Ascii.lt_of_isLower h), Ascii.toLower_of_not_isUpper]
  rw [← isUpper_of_ascii (Ascii.lt_of_isLower h)]
  exact not_isUpper_of_isLower h

theorem render_toUpper (h : Ascii.isLower b = true) : render (Ascii.toUpper b) = [b] := by
  rw [render_of_ascii (Ascii.lt_of_isUpper (Ascii.isUpper_toUpper_of_isLower h)),
    Ascii.toLower_toUpper h]

/-! The run of the bytes of one word. -/

/--
The text does not begin with a letter in lower case.
-/
def BeginsFresh (t : Text) : Prop := ∀ b ∈ t.head?, isLower b = false

theorem beginsFresh_cons (h : Ascii.isUpper b = true) (t : Text) : BeginsFresh (b :: t) := by
  intro c hc
  rw [List.head?_cons, Option.mem_some_iff] at hc
  rw [← hc, not_isLower_of_isUpper h]

theorem beginsFresh_map_append {u t : Text} (hu : ∀ b ∈ u, Ascii.isLower b = true)
    (ht : BeginsFresh t) : BeginsFresh (u.map Ascii.toUpper ++ t) := by
  cases u with
  | nil => exact ht
  | cons b u =>
    rw [List.forall_mem_cons] at hu
    exact beginsFresh_cons (Ascii.isUpper_toUpper_of_isLower hu.1) _

theorem go_cons {t : Text} (h : ∀ c ∈ t.head?, startsWord before b c split = false) :
    ofCamel.go before split (b :: t) = render b ++ ofCamel.go b false t := by
  cases t with
  | nil => simp [ofCamel.go]
  | cons c t => rw [ofCamel.go, if_neg (by simp [h c rfl])]

-- A word does not start at a letter in lower case.
theorem go_cons_lower (hb : Ascii.isLower b = true) (t : Text) :
    ofCamel.go before split (b :: t) = b :: ofCamel.go b false t := by
  rw [go_cons, render_of_isLower hb]
  . rfl
  . intro c _
    simp [startsWord, not_isUpper_of_isLower hb]

-- A word does not start at a capital between two others.
theorem go_cons_capital {t : Text} (hb : Ascii.isLower b = true)
    (hbefore : Ascii.isUpper before = true) (ht : BeginsFresh t) :
    ofCamel.go before split (Ascii.toUpper b :: t) = b :: ofCamel.go (Ascii.toUpper b) false t := by
  rw [go_cons, render_toUpper hb]
  . rfl
  . intro c hc
    simp [startsWord, not_isLower_of_isUpper hbefore, ht c hc]

theorem go_lower {u : Text} (hu : ∀ b ∈ u, Ascii.isLower b = true)
    (hbefore : isLower before = true) :
    ∃ last, isLower last = true
      ∧ ∀ t, ofCamel.go before false (u ++ t) = u ++ ofCamel.go last false t := by
  induction u generalizing before with
  | nil => exact ⟨before, hbefore, fun t => rfl⟩
  | cons b u ih =>
    rw [List.forall_mem_cons] at hu
    obtain ⟨last, hlast, hgo⟩ := ih hu.2 (isLower_of_isLower hu.1)
    refine ⟨last, hlast, fun t => ?_⟩
    rw [List.cons_append, go_cons_lower hu.1, hgo]
    rfl

theorem go_capitals {u : Text} (hu : ∀ b ∈ u, Ascii.isLower b = true)
    (hbefore : Ascii.isUpper before = true) :
    ∃ last, Ascii.isUpper last = true ∧ ∀ t, BeginsFresh t
      → ofCamel.go before false (u.map Ascii.toUpper ++ t) = u ++ ofCamel.go last false t := by
  induction u generalizing before with
  | nil => exact ⟨before, hbefore, fun t _ => rfl⟩
  | cons b u ih =>
    rw [List.forall_mem_cons] at hu
    obtain ⟨last, hlast, hgo⟩ := ih hu.2 (Ascii.isUpper_toUpper_of_isLower hu.1)
    refine ⟨last, hlast, fun t ht => ?_⟩
    rw [List.map_cons, List.cons_append,
      go_cons_capital hu.1 hbefore (beginsFresh_map_append hu.2 ht), hgo t ht]
    rfl

/-! The run from word to word. -/

/--
The byte may be the last one of a word in the camel-case form of a name. It is in lower case unless
the word is an initialism.
-/
def MayEnd (w : Text) (last : UInt8) : Prop :=
  isLower last = true ∨ Ascii.isUpper last = true ∧ Initialism.isSpelledBy w = true

/--
The camel-case form of the word begins with a capital, behind which no new word starts up to the
last byte. The byte behind the capital is in lower case unless the word is an initialism.
-/
inductive IsRun (w : Text) : Prop where
  | mk {b c : UInt8} {t u : Text} (word_eq : w = b :: t)
      (inner_eq : inner w = Ascii.toUpper b :: c :: u) (lower : Ascii.isLower b = true)
      (second : Initialism.isSpelledBy w = false → isLower c = true)
      (run : ∃ last, MayEnd w last ∧ ∀ rest, BeginsFresh rest
        → ofCamel.go (Ascii.toUpper b) true (c :: u ++ rest) = t ++ ofCamel.go last false rest)

theorem isRun {w : Text} (hw : IsLowerWord w) : IsRun w := by
  obtain ⟨b, c, t, rfl, hb, hc, ht⟩ := hw.exists_cons
  cases hspelled : Initialism.isSpelledBy (b :: c :: t) with
  | true =>
    obtain ⟨last, hlast, hgo⟩ := go_capitals ht (Ascii.isUpper_toUpper_of_isLower hc)
    refine .mk rfl (Camel.inner_of_isSpelledBy hw hspelled) hb (by simp [hspelled])
      ⟨last, .inr ⟨hlast, hspelled⟩, fun rest hrest => ?_⟩
    rw [List.cons_append, go_cons_capital hc (Ascii.isUpper_toUpper_of_isLower hb)
      (beginsFresh_map_append ht hrest), hgo rest hrest]
    rfl
  | false =>
    obtain ⟨last, hlast, hgo⟩ := go_lower ht (isLower_of_isLower hc)
    refine .mk rfl (Camel.inner_of_not_isSpelledBy hb hspelled) hb
      (fun _ => isLower_of_isLower hc) ⟨last, .inl hlast, fun rest _ => ?_⟩
    rw [List.cons_append, go_cons_lower hc, hgo]
    rfl

theorem beginsFresh_flatMap_inner {ws : List Text} (hws : ∀ w ∈ ws, IsLowerWord w) :
    BeginsFresh (ws.flatMap inner) := by
  cases ws with
  | nil =>
    intro b hb
    cases hb
  | cons w ws =>
    obtain ⟨-, hinner, hb, -, -⟩ := isRun (hws w List.mem_cons_self)
    rw [List.flatMap_cons, hinner]
    exact beginsFresh_cons (Ascii.isUpper_toUpper_of_isLower hb) _

-- A word starts at its capital, since it stands behind a letter in lower case, or behind an
-- initialism and in front of a letter in lower case.
theorem startsWord_of_mayEnd {v w : Text} {last c : UInt8} (hlast : MayEnd v last)
    (hb : Ascii.isLower b = true) (hc : Initialism.isSpelledBy w = false → isLower c = true)
    (happart : ¬ (Initialism.isSpelledBy v = true ∧ Initialism.isSpelledBy w = true)) :
    startsWord last (Ascii.toUpper b) c false = true := by
  have hupper := isUpper_of_isUpper (Ascii.isUpper_toUpper_of_isLower hb)
  rcases hlast with hlower | ⟨hlast, hspelled⟩
  . simp [startsWord, hupper, hlower]
  . have hw : Initialism.isSpelledBy w = false :=
      Bool.eq_false_iff.2 fun hw => happart ⟨hspelled, hw⟩
    simp [startsWord, hupper, hc hw, isLetter, isUpper_of_isUpper hlast]

theorem go_flatMap_inner {v : Text} {ws : List Text} {last : UInt8} (hlast : MayEnd v last)
    (hws : ∀ w ∈ ws, IsLowerWord w) (happart : (v :: ws).IsChain fun u w =>
      ¬ (Initialism.isSpelledBy u = true ∧ Initialism.isSpelledBy w = true)) :
    ofCamel.go last false (ws.flatMap inner) = ws.flatMap (("_" : Text) ++ ·) := by
  induction ws generalizing v last with
  | nil => rfl
  | cons w ws ih =>
    rw [List.forall_mem_cons] at hws
    rw [List.isChain_cons_cons] at happart
    obtain ⟨hword, hinner, hb, hsecond, next, hnext, hgo⟩ := isRun hws.1
    rw [List.flatMap_cons, hinner, List.cons_append, List.cons_append, ofCamel.go,
      if_pos (startsWord_of_mayEnd hlast hb hsecond happart.1), render_toUpper hb,
      ← List.cons_append, hgo _ (beginsFresh_flatMap_inner hws.2), ih hnext hws.2 happart.2,
      List.flatMap_cons, hword]
    simp

/--
The camel-case form of a name of words in lower case tells its words, so that its snake-case form is
the name again, if no two neighbours among the words are initialisms.
-/
theorem ofCamel_upper_join (ws : List Text) (hws : ∀ w ∈ ws, IsLowerWord w)
    (happart : ws.IsChain fun v w =>
      ¬ (Initialism.isSpelledBy v = true ∧ Initialism.isSpelledBy w = true)) :
    ofCamel (Camel.upper (Text.join "_" ws)) = Text.join "_" ws := by
  rw [Camel.upper, Camel.words_join hws]
  cases ws with
  | nil => rfl
  | cons w ws =>
    rw [List.forall_mem_cons] at hws
    obtain ⟨hword, hinner, hb, -, last, hlast, hgo⟩ := isRun hws.1
    rw [List.flatMap_cons, hinner, List.cons_append, ofCamel,
      hgo _ (beginsFresh_flatMap_inner hws.2), go_flatMap_inner hlast hws.2 happart,
      render_toUpper hb, Text.join_cons_eq, hword]
    simp

/--
There is an initialism at the start, one in the middle and one at the end.
-/
theorem ofCamel_upper_join_initialisms :
    let ws : List Text := ["http", "code", "id", "of", "ui"]
    (∀ w ∈ ws, IsLowerWord w)
      ∧ (ws.IsChain fun v w =>
        ¬ (Initialism.isSpelledBy v = true ∧ Initialism.isSpelledBy w = true))
      ∧ Camel.upper (Text.join "_" ws) = "HTTPCodeIDOfUI"
      ∧ ofCamel (Camel.upper (Text.join "_" ws)) = "http_code_id_of_ui" := by
  intro ws
  have hws : ∀ w ∈ ws, IsLowerWord w := by decide
  have happart : ws.IsChain fun v w =>
      ¬ (Initialism.isSpelledBy v = true ∧ Initialism.isSpelledBy w = true) := by
    decide
  exact ⟨hws, happart, by decide +kernel, ofCamel_upper_join ws hws happart⟩

end Snake

end ValueGen
