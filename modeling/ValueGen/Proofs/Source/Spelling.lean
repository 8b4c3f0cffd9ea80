import ValueGen.Proofs.Source.Reader

/-!
This module contains the texts that are read as one token wherever they stand, and how a reader in
front of a known text gets on.
-/

namespace ValueGen

/-! Readers at a known text. -/

namespace Glyph

/--
A glyph that is no fault by itself.
-/
def isSound (g : Glyph) : Bool := !g.isStray && g.char.toNat != 0

/--
A token can start with the glyph.
-/
def opensToken (g : Glyph) : Bool := g.isSound && !Cursor.isSpace g.char

end Glyph

/--
The cursor is in front of the text, and nothing is wrong.
-/
structure Cursor.IsAt (c : Cursor) (t : Text) : Prop where
  ahead : c.ahead = t.glyphs.head?
  rest : c.rest = t.glyphs.tail
  faults : c.faults = []

/--
The reader is in front of the text, no token was put back, and nothing is wrong.
-/
structure Reader.IsAt (r : Reader) (t : Text) : Prop where
  cursor : r.cursor.IsAt t
  pushed : r.pushed = none
  care : r.care = .strict
  reports : r.reports = []

instance (c : Cursor) (t : Text) : Decidable (c.IsAt t) :=
  decidable_of_iff (c.ahead = t.glyphs.head? ∧ c.rest = t.glyphs.tail ∧ c.faults = [])
    ⟨fun ⟨ha, hr, hf⟩ => ⟨ha, hr, hf⟩, fun ⟨ha, hr, hf⟩ => ⟨ha, hr, hf⟩⟩

instance (r : Reader) (t : Text) : Decidable (r.IsAt t) :=
  decidable_of_iff (r.cursor.IsAt t ∧ r.pushed = none ∧ r.care = .strict ∧ r.reports = [])
    ⟨fun ⟨ha, hp, hc, hr⟩ => ⟨ha, hp, hc, hr⟩, fun ⟨ha, hp, hc, hr⟩ => ⟨ha, hp, hc, hr⟩⟩

/--
A reader of the text alone.
-/
def Reader.over (t : Text) : Reader :=
  ⟨[], ⟨t.glyphs.head?, t.glyphs.tail, 1, 0, 0, [], []⟩, (0, 0), none, .strict, []⟩

/--
Is the text read as one token if `rest` follows, and nothing of `rest` with it?
-/
def Token.stands (t rest : Text) : Bool :=
  !t.isEmpty && Option.all Glyph.opensToken (t ++ rest).glyphs.head? &&
    match Parse.next.run.run (Reader.over (t ++ rest)) with
    | (.ok token, r) => token.text == t && decide (r.IsAt rest)
    | (.error _, _) => false

theorem Token.stands_iff (t rest : Text) :
    Token.stands t rest = true ↔ t ≠ [] ∧ Option.all Glyph.opensToken (t ++ rest).glyphs.head? = true
      ∧ ∃ token r, Parse.next.Yields (Reader.over (t ++ rest)) token r ∧ token.text = t
        ∧ r.IsAt rest := by
  have hrun : (match Parse.next.run.run (Reader.over (t ++ rest)) with
      | (.ok token, r) => token.text == t && decide (r.IsAt rest)
      | (.error _, _) => false) = true
      ↔ ∃ token r, Parse.next.Yields (Reader.over (t ++ rest)) token r ∧ token.text = t
        ∧ r.IsAt rest := by
    unfold Parse.Yields
    split
    . next token r hnext =>
      rw [hnext, Bool.and_eq_true, beq_iff_eq, decide_eq_true_eq]
      constructor
      . intro h
        exact ⟨token, r, rfl, h⟩
      . rintro ⟨_, _, ⟨⟩, h⟩
        exact h
    . next hnext =>
      rw [hnext]
      refine ⟨fun h => absurd h Bool.false_ne_true, ?_⟩
      rintro ⟨_, _, ⟨⟩, -⟩
  rw [Token.stands, Bool.and_eq_true, Bool.and_eq_true, hrun, and_assoc]
  simp

/-! Blanks. -/

namespace Cursor

theorem takeWhile_of_sees {p : Char → Bool} {c : Cursor} (h : c.sees p = true) :
    c.takeWhile p = c.advance.takeWhile p := by
  have hlt := size_advance_lt_of_sees h
  obtain ⟨n, hn⟩ : ∃ n, c.size = n + 1 := ⟨c.size - 1, by omega⟩
  have hgo : c.takeWhile p = takeWhile.go p n c.advance := by
    simp only [takeWhile, hn, takeWhile.go, h, if_true]
  rw [hgo]
  exact takeWhile.go_congr (by omega) (Nat.le_refl _)

theorem takeWhile_of_not_sees {p : Char → Bool} {c : Cursor} (h : c.sees p = false) :
    c.takeWhile p = c := by
  unfold takeWhile
  cases c.size with
  | zero => rfl
  | succ n => simp [takeWhile.go, h]

theorem IsAt.mark {c : Cursor} {t : Text} (h : c.IsAt t) : c.mark.IsAt t := ⟨h.ahead, h.rest, rfl⟩

theorem load_of_isSound {c : Cursor} (h : c.rest.head?.all Glyph.isSound = true) (first : Bool) :
    (c.load first).ahead = c.rest.head? ∧ (c.load first).rest = c.rest.tail
      ∧ (c.load first).faults = c.faults := by
  unfold Cursor.load
  cases hrest : c.rest with
  | nil => exact ⟨rfl, rfl, rfl⟩
  | cons g gs =>
    simp only [hrest, List.head?_cons, Option.all_some, Glyph.isSound, Bool.and_eq_true,
      Bool.not_eq_true', bne_iff_ne, ne_eq] at h
    simp only [h.1, Bool.false_eq_true, if_false, beq_iff_eq, h.2]
    split
    all_goals exact ⟨rfl, rfl, rfl⟩

theorem IsAt.load {c : Cursor} {t : Text} (hrest : c.rest = t.glyphs) (hfaults : c.faults = [])
    (ht : t.glyphs.head?.all Glyph.isSound = true) (first : Bool) : (c.load first).IsAt t := by
  rw [← hrest] at ht
  obtain ⟨hahead, htail, hsame⟩ := load_of_isSound ht first
  exact ⟨by rw [hahead, hrest], by rw [htail, hrest], by rw [hsame, hfaults]⟩

theorem IsAt.advance {c : Cursor} {b : UInt8} {t : Text} (h : c.IsAt (b :: t)) (hb : b < 0x80)
    (ht : t.glyphs.head?.all Glyph.isSound = true) : c.advance.IsAt t := by
  have hrest : c.rest = t.glyphs := by rw [h.rest, Text.glyphs_cons hb, List.tail_cons]
  exact IsAt.load (c := { c with taken := c.ahead.toList ++ c.taken }) hrest h.faults ht false

-- The characters that are taken need not be texts of one byte.
theorem isAt_takeWhile {p : Char → Bool} {t : Text}
    (ht : t.glyphs.head?.all (fun g => g.isSound && !p g.char) = true) {gs : List Glyph}
    (hgs : ∀ g ∈ gs, g.isSound = true ∧ p g.char = true) {c : Cursor}
    (hahead : c.ahead = (gs ++ t.glyphs).head?) (hrest : c.rest = (gs ++ t.glyphs).tail)
    (hfaults : c.faults = []) : (c.takeWhile p).IsAt t := by
  induction gs generalizing c with
  | nil =>
    have hsees : c.sees p = false := by
      simp only [sees, hahead, List.nil_append]
      cases hglyphs : t.glyphs.head? with
      | none => rfl
      | some g =>
        rw [hglyphs, Option.all_some, Bool.and_eq_true, Bool.not_eq_true'] at ht
        exact ht.2
    rw [takeWhile_of_not_sees hsees]
    exact ⟨hahead, hrest, hfaults⟩
  | cons g gs ih =>
    obtain ⟨⟨hsound, hg⟩, hgs⟩ := List.forall_mem_cons.1 hgs
    have hsees : c.sees p = true := by
      rw [sees, hahead]
      exact hg
    have hnext : c.rest.head?.all Glyph.isSound = true := by
      rw [hrest, List.cons_append, List.tail_cons]
      cases gs with
      | nil =>
        cases hglyphs : t.glyphs.head? with
        | none => simp [hglyphs]
        | some g' =>
          rw [hglyphs, Option.all_some, Bool.and_eq_true] at ht
          simpa [hglyphs] using ht.1
      | cons g' gs => exact (hgs g' List.mem_cons_self).1
    rw [takeWhile_of_sees hsees]
    obtain ⟨hahead', htail, hsame⟩ :=
      load_of_isSound (c := { c with taken := c.ahead.toList ++ c.taken }) hnext false
    exact ih hgs (hahead'.trans (by rw [hrest]; rfl)) (htail.trans (by rw [hrest]; rfl))
      (hsame.trans hfaults)

end Cursor

/--
The text consists of blanks and line breaks.
-/
def Text.IsBlank (t : Text) : Prop := ∀ b ∈ t, b = 32 ∨ b = 10

theorem Text.isBlank_nil : Text.IsBlank [] := by simp [Text.IsBlank]

theorem Text.glyphs_append_of_isBlank {s : Text} (hs : s.IsBlank) (t : Text) :
    (s ++ t).glyphs = s.map Glyph.ofAscii ++ t.glyphs := by
  induction s with
  | nil => rfl
  | cons b s ih =>
    obtain ⟨hb, hs⟩ := List.forall_mem_cons.1 hs
    have hascii : b < 0x80 := by
      obtain rfl | rfl := hb
      all_goals decide
    rw [List.cons_append, glyphs_cons hascii, ih hs, List.map_cons, List.cons_append]

namespace Cursor

theorem IsAt.takeWhile {p : Char → Bool} {c : Cursor} {s t : Text} (h : c.IsAt (s ++ t))
    (hp : p ' ' = true ∧ p '\n' = true) (hs : s.IsBlank)
    (ht : t.glyphs.head?.all (fun g => g.isSound && !p g.char) = true) :
    (c.takeWhile p).IsAt t := by
  have hglyphs := Text.glyphs_append_of_isBlank hs t
  refine isAt_takeWhile ht ?_ (hglyphs ▸ h.ahead) (hglyphs ▸ h.rest) h.faults
  intro g hg
  obtain ⟨b, hb, rfl⟩ := List.mem_map.1 hg
  obtain rfl | rfl := hs b hb
  . exact ⟨rfl, hp.1⟩
  . exact ⟨rfl, hp.2⟩

end Cursor

namespace Reader

theorem IsAt.collect {r : Reader} {t : Text} (h : r.IsAt t) (p : Nat × Nat) :
    (r.collect p).IsAt t where
  cursor := ⟨h.cursor.ahead, h.cursor.rest, rfl⟩
  pushed := h.pushed
  care := h.care
  reports := by simp [Reader.collect, h.reports, h.cursor.faults]

theorem IsAt.skipSpace {r : Reader} {s t : Text} (h : r.IsAt (s ++ t)) (hs : s.IsBlank)
    (ht : t.glyphs.head?.all Glyph.opensToken = true) : r.skipSpace.IsAt t := by
  have hmoved : IsAt { r with cursor := r.cursor.mark.takeWhile Cursor.isSpace } t :=
    ⟨h.cursor.mark.takeWhile ⟨rfl, rfl⟩ hs ht, h.pushed, h.care, h.reports⟩
  exact hmoved.collect _

theorem IsAt.scanToken_of_takeToken {r : Reader} {t rest : Text} (h : r.IsAt t)
    (hcursor : r.cursor.mark.takeToken.IsAt rest) : r.scanToken.2.IsAt rest := by
  have hmoved : IsAt { r with cursor := r.cursor.mark.takeToken, place := r.cursor.place } rest :=
    ⟨hcursor, h.pushed, h.care, h.reports⟩
  exact hmoved.collect _

/--
The next token of the reader has the text `t`, and then the reader is in front of `rest`. The token
may have been put back before.
-/
def Sees (r : Reader) (t rest : Text) : Prop :=
  ∃ token r', Parse.next.Yields r token r' ∧ token.text = t ∧ token.kind = Token.classify t
    ∧ r'.IsAt rest

theorem isAt_over (t : Text) : (Reader.over t).IsAt t := ⟨⟨rfl, rfl, rfl⟩, rfl, rfl, rfl⟩

theorem IsAt.left {r : Reader} {t : Text} (h : r.IsAt t) : r.cursor.left = t.glyphs := by
  rw [Cursor.left, h.cursor.ahead, h.cursor.rest]
  cases t.glyphs
  all_goals rfl

-- A scanned token starts with a mark, so that what was taken before does not count.
theorem IsAt.scanToken {r q : Reader} {t u : Text} (hr : r.IsAt t) (hq : q.IsAt u)
    {more : List Glyph} (ht : t.glyphs ≠ []) (hu : u.glyphs = t.glyphs ++ more)
    (hne : r.scanToken.2.cursor.left ≠ []) :
    q.scanToken.1 = r.scanToken.1 ∧ r.scanToken.2.Prolongs more q.scanToken.2 := by
  obtain ⟨g, gs, hglyphs⟩ := List.exists_cons_of_ne_nil ht
  have hahead : q.cursor.ahead = r.cursor.ahead := by
    rw [hq.cursor.ahead, hr.cursor.ahead, hu, hglyphs, List.cons_append, List.head?_cons,
      List.head?_cons]
  have hrest : q.cursor.rest = r.cursor.rest ++ more := by
    rw [hq.cursor.rest, hr.cursor.rest, hu, hglyphs, List.cons_append, List.tail_cons,
      List.tail_cons]
  have hmarked : Prolongs more { r with cursor := r.cursor.mark }
      { q with cursor := q.cursor.mark } :=
    ⟨⟨hahead, hrest, rfl, rfl⟩, by rw [hq.pushed, hr.pushed], by rw [hq.care, hr.care],
      fun _ => hq.reports⟩
  exact hmarked.scanToken hne

theorem IsAt.of_prolongs {r q : Reader} {t u : Text} (hr : r.IsAt t) {more : List Glyph}
    (hq : r.Prolongs more q) (hne : t.glyphs ≠ []) (hu : u.glyphs = t.glyphs ++ more) :
    q.IsAt u where
  cursor := by
    obtain ⟨g, gs, hglyphs⟩ := List.exists_cons_of_ne_nil hne
    constructor
    . rw [hq.cursor.ahead, hr.cursor.ahead, hu, hglyphs, List.cons_append, List.head?_cons,
        List.head?_cons]
    . rw [hq.cursor.rest, hr.cursor.rest, hu, hglyphs, List.cons_append, List.tail_cons,
        List.tail_cons]
    . rw [hq.cursor.faults, hr.cursor.faults]
  pushed := by rw [hq.pushed, hr.pushed]
  care := by rw [hq.care, hr.care]
  reports := hq.reports hr.reports

/--
A token that stands in front of a text is the next token of every reader there, whatever comes
after.
-/
theorem IsAt.sees {r : Reader} {s t u w : Text} {b : UInt8}
    (h : r.IsAt (s ++ (t ++ (u ++ b :: w)))) (hs : s.IsBlank)
    (ht : Token.stands t (u ++ [b]) = true) (hb : b < 0x80) : r.Sees t (u ++ b :: w) := by
  obtain ⟨hne, hopens, token, r₁, hnext, rfl, hend⟩ := (Token.stands_iff _ _).1 ht
  have hsome (v : Text) : (v ++ [b]).glyphs ≠ [] := by
    simp [Text.glyphs_append_cons v hb []]
  have hglyphs (v : Text) : (v ++ b :: w).glyphs = (v ++ [b]).glyphs ++ w.glyphs := by
    rw [Text.glyphs_append_cons v hb w, Text.glyphs_append_cons v hb [], List.append_assoc]
    rfl
  rw [← List.append_assoc] at hopens hnext
  rw [← List.append_assoc token.text] at h
  -- Behind the blanks, both readers are in front of the token.
  have hshort := (isAt_over (token.text ++ u ++ [b])).skipSpace (s := []) Text.isBlank_nil hopens
  have hlong : r.skipSpace.IsAt (token.text ++ u ++ b :: w) := by
    apply h.skipSpace hs
    rw [hglyphs, List.head?_append_of_ne_nil _ (hsome _)]
    exact hopens
  have hleft : r₁.cursor.left ≠ [] := by
    rw [hend.left]
    exact hsome u
  obtain ⟨token', r', hnext', htext, hprolongs⟩ := Parse.Yields.next hnext rfl h.pushed h.care hne
    hleft (hshort.scanToken hlong (hsome _) (hglyphs _))
  refine ⟨token', r', hnext', htext, ?_, hend.of_prolongs hprolongs (hsome _) (hglyphs _)⟩
  rw [← htext]
  exact Parse.kind_of_yields_next h.pushed hnext'

theorem IsAt.sees_here {r : Reader} {t u w : Text} {b : UInt8}
    (h : r.IsAt (t ++ (u ++ b :: w))) (ht : Token.stands t (u ++ [b]) = true) (hb : b < 0x80) :
    r.Sees t (u ++ b :: w) :=
  h.sees (s := []) Text.isBlank_nil ht hb

end Reader

end ValueGen
