import ValueGen.Proofs.Source.Token
import ValueGen.Proofs.Text.Glyph
import ValueGen.Source.Reader

/-!
This module contains the tokens that a reader hands out, and the texts that it hands out as one token
wherever they stand.
-/

namespace ValueGen

namespace Parse

variable {α β : Type} {x : Parse α} {f : α → Parse β} {r r' : Reader}

/--
The action succeeds with `a` and leaves the reader as `r'`.
-/
def Yields (x : Parse α) (r : Reader) (a : α) (r' : Reader) : Prop := x.run.run r = (.ok a, r')

theorem yields_pure_iff {a b : α} : (pure a : Parse α).Yields r b r' ↔ b = a ∧ r' = r := by
  constructor
  . intro h
    cases h
    exact ⟨rfl, rfl⟩
  . rintro ⟨rfl, rfl⟩
    rfl

theorem yields_get_iff {s : Reader} : (get : Parse Reader).Yields r s r' ↔ s = r ∧ r' = r := by
  constructor
  . intro h
    cases h
    exact ⟨rfl, rfl⟩
  . rintro ⟨rfl, rfl⟩
    rfl

theorem yields_modify_iff {g : Reader → Reader} {u : Unit} :
    (modify g : Parse Unit).Yields r u r' ↔ r' = g r := by
  constructor
  . intro h
    cases h
    rfl
  . rintro rfl
    rfl

theorem yields_modifyGet_iff {g : Reader → α × Reader} {a : α} :
    (modifyGet g : Parse α).Yields r a r' ↔ a = (g r).1 ∧ r' = (g r).2 := by
  constructor
  . intro h
    cases h
    exact ⟨rfl, rfl⟩
  . rintro ⟨rfl, rfl⟩
    rfl

theorem run_bind (x : Parse α) (f : α → Parse β) (r : Reader) :
    (x >>= f).run.run r =
      match x.run.run r with
      | (.ok a, r') => (f a).run.run r'
      | (.error e, r') => (.error e, r') := by
  have hrun : (x >>= f).run.run r = (ExceptT.bindCont f (x.run.run r).1).run (x.run.run r).2 := rfl
  rw [hrun]
  rcases x.run.run r with ⟨_ | a, r'⟩
  all_goals rfl

theorem yields_bind_iff {b : β} :
    (x >>= f).Yields r b r' ↔ ∃ a r₁, x.Yields r a r₁ ∧ (f a).Yields r₁ b r' := by
  unfold Yields
  rw [run_bind]
  constructor
  . intro h
    rcases hx : x.run.run r with ⟨e | a, r₁⟩
    . rw [hx] at h
      cases h
    . rw [hx] at h
      exact ⟨a, r₁, rfl, h⟩
  . rintro ⟨a, r₁, hx, hf⟩
    rw [hx]
    exact hf

theorem yields_get_bind_iff {g : Reader → Parse β} {b : β} :
    ((get : Parse Reader) >>= g).Yields r b r' ↔ (g r).Yields r b r' := Iff.rfl

theorem yields_modifyGet_bind_iff {g : Reader → α × Reader} {b : β} :
    ((modifyGet g : Parse α) >>= f).Yields r b r' ↔ (f (g r).1).Yields (g r).2 b r' := Iff.rfl

theorem Yields.bind {a : α} {b : β} {r₁ : Reader} (h : x.Yields r a r₁)
    (h' : (f a).Yields r₁ b r') : (x >>= f).Yields r b r' :=
  yields_bind_iff.2 ⟨a, r₁, h, h'⟩

end Parse

/-! Scanning in a longer source. -/

namespace Cursor

theorem Prolongs.mark {more : List Glyph} {c d : Cursor} (h : Prolongs more c d) :
    Prolongs more c.mark d.mark :=
  ⟨h.ahead, h.rest, rfl, rfl⟩

end Cursor

namespace Reader

/--
The reader `q` is where `r` is, but in a source that goes on with `more`. What is reported may
differ, but not whether something is.
-/
structure Prolongs (more : List Glyph) (r q : Reader) : Prop where
  cursor : r.cursor.Prolongs more q.cursor
  pushed : q.pushed = r.pushed
  care : q.care = r.care
  reports : r.reports = [] → q.reports = []

namespace Prolongs

variable {more : List Glyph} {r q : Reader}

theorem collect (h : r.Prolongs more q) (p p' : Nat × Nat) :
    (r.collect p).Prolongs more (q.collect p') where
  cursor := ⟨h.cursor.ahead, h.cursor.rest, h.cursor.taken, rfl⟩
  pushed := h.pushed
  care := h.care
  reports := by
    simp only [Reader.collect, List.append_eq_nil_iff, List.map_eq_nil_iff, h.care,
      h.cursor.faults]
    exact fun hnil => ⟨h.reports hnil.1, hnil.2⟩

theorem skipSpace (h : r.Prolongs more q) (hne : r.skipSpace.cursor.left ≠ []) :
    r.skipSpace.Prolongs more q.skipSpace := by
  have hagree := (Cursor.isLocalMove_takeWhile Cursor.isSpace).agree h.cursor.mark
  have hmoved : Prolongs more { r with cursor := r.cursor.mark.takeWhile Cursor.isSpace }
      { q with cursor := q.cursor.mark.takeWhile Cursor.isSpace } :=
    ⟨(hagree.prolongs hne).2, h.pushed, h.care, h.reports⟩
  exact hmoved.collect _ _

theorem scanToken (h : r.Prolongs more q) (hne : r.scanToken.2.cursor.left ≠ []) :
    q.scanToken.1 = r.scanToken.1 ∧ r.scanToken.2.Prolongs more q.scanToken.2 := by
  have hcursor := ((Cursor.isLocalMove_takeToken.agree h.cursor.mark).prolongs hne).2
  have hmoved : Prolongs more
      { r with cursor := r.cursor.mark.takeToken, place := r.cursor.place }
      { q with cursor := q.cursor.mark.takeToken, place := q.cursor.place } :=
    ⟨hcursor, h.pushed, h.care, h.reports⟩
  exact ⟨hcursor.text, hmoved.collect _ _⟩

end Prolongs

-- The text of a token is what was taken for it.
theorem exists_left_scanToken (r : Reader) :
    ∃ gs, r.cursor.left = gs ++ r.scanToken.2.cursor.left ∧ r.scanToken.1 = Text.ofGlyphs gs := by
  obtain ⟨gs, hleft, htaken⟩ := (Cursor.isLocalMove_takeToken.takes r.cursor.mark).left
  refine ⟨gs, hleft, ?_⟩
  change Text.ofGlyphs r.cursor.mark.takeToken.taken.reverse = _
  rw [htaken]
  simp [Cursor.mark]

theorem exists_left_scan (r : Reader) :
    ∃ gs gs', r.cursor.left = gs ++ gs' ++ r.scan.2.cursor.left ∧ r.scan.1 = Text.ofGlyphs gs' := by
  obtain ⟨gs, hspace, -⟩ :=
    ((Cursor.isLocalMove_takeWhile Cursor.isSpace).takes r.cursor.mark).left
  obtain ⟨gs', htoken, htext⟩ := exists_left_scanToken r.skipSpace
  refine ⟨gs, gs', ?_, htext⟩
  rw [List.append_assoc, scan, ← htoken]
  exact hspace

theorem left_ne_nil_of_scan {r : Reader} (h : r.scan.2.cursor.left ≠ []) : r.cursor.left ≠ [] := by
  obtain ⟨gs, gs', hleft, -⟩ := exists_left_scan r
  simp [hleft, h]

theorem size_scan_lt {r : Reader} (h : r.scan.1 ≠ []) : r.scan.2.cursor.size < r.cursor.size := by
  obtain ⟨gs, gs', hleft, htext⟩ := exists_left_scan r
  rw [Cursor.size_eq_length_left, Cursor.size_eq_length_left, hleft]
  cases gs' with
  | nil => exact absurd htext h
  | cons g gs' =>
    simp only [List.length_append, List.length_cons]
    omega

theorem Prolongs.scan {more : List Glyph} {r q : Reader} (h : r.Prolongs more q)
    (hne : r.scan.2.cursor.left ≠ []) :
    q.scan.1 = r.scan.1 ∧ r.scan.2.Prolongs more q.scan.2 := by
  obtain ⟨gs, hleft, -⟩ := exists_left_scanToken r.skipSpace
  have hspace : r.skipSpace.cursor.left ≠ [] := by
    rw [hleft]
    exact List.append_ne_nil_of_right_ne_nil _ hne
  exact (h.skipSpace hspace).scanToken hne

end Reader

namespace Parse

/-! Texts in single quotes. -/

-- Either the next token is the closing quote, or it belongs to the text in quotes.
theorem yields_untilQuote_succ_iff {n : Nat} {done t : Text} {r r' : Reader} :
    (untilQuote (n + 1) done).Yields r (some t) r' ↔
      r.scan.1 ≠ [] ∧
        (r.scan.1 = "'" ∧ t = done ∧ r' = r.scan.2 ∨
          r.scan.1 ≠ "'" ∧ (untilQuote n (done ++ r.scan.1)).Yields r.scan.2 (some t) r') := by
  have hrun : (untilQuote (n + 1) done).run.run r =
      (if r.scan.1.isEmpty then pure none
        else if r.scan.1 == "'" then pure (some done)
        else untilQuote n (done ++ r.scan.1) : Parse (Option Text)).run.run r.scan.2 := rfl
  unfold Yields
  rw [hrun]
  by_cases hempty : r.scan.1 = []
  . rw [hempty]
    refine ⟨fun h => ?_, fun h => absurd rfl h.1⟩
    cases h
  . rw [if_neg (by simpa using hempty)]
    by_cases hquote : r.scan.1 = "'"
    . rw [if_pos (by simpa using hquote)]
      constructor
      . intro h
        cases h
        exact ⟨hempty, .inl ⟨hquote, rfl, rfl⟩⟩
      . rintro ⟨-, ⟨-, rfl, rfl⟩ | ⟨hne, -⟩⟩
        . rfl
        . exact absurd hquote hne
    . rw [if_neg (by simpa using hquote)]
      simp [hempty, hquote]

theorem left_ne_nil_of_untilQuote {n : Nat} {done t : Text} {r r' : Reader}
    (h : (untilQuote n done).Yields r (some t) r') (hne : r'.cursor.left ≠ []) :
    r.cursor.left ≠ [] := by
  induction n generalizing done r with
  | zero => cases h
  | succ n ih =>
    apply Reader.left_ne_nil_of_scan
    obtain ⟨-, ⟨-, -, rfl⟩ | ⟨-, hrest⟩⟩ := yields_untilQuote_succ_iff.1 h
    . exact hne
    . exact ih hrest

/--
A text in quotes is the same in a longer source, and the number of tokens in it is only bounded by
the length of the source.
-/
theorem Yields.untilQuote {n m : Nat} {done t : Text} {more : List Glyph} {r r' q : Reader}
    (h : (untilQuote n done).Yields r (some t) r') (hne : r'.cursor.left ≠ [])
    (hq : r.Prolongs more q) (hm : q.cursor.size < m) :
    ∃ q', (Parse.untilQuote m done).Yields q (some t) q' ∧ r'.Prolongs more q' := by
  induction n generalizing done r q m with
  | zero => cases h
  | succ n ih =>
    obtain ⟨m, rfl⟩ : ∃ k, m = k + 1 := ⟨m - 1, by omega⟩
    obtain ⟨htext, hcases⟩ := yields_untilQuote_succ_iff.1 h
    have hscan : r.scan.2.cursor.left ≠ [] := by
      obtain ⟨-, -, rfl⟩ | ⟨-, hrest⟩ := hcases
      . exact hne
      . exact left_ne_nil_of_untilQuote hrest hne
    obtain ⟨hsame, hnext⟩ := hq.scan hscan
    simp only [yields_untilQuote_succ_iff, hsame]
    obtain ⟨hquote, rfl, rfl⟩ | ⟨hquote, hrest⟩ := hcases
    . exact ⟨q.scan.2, ⟨htext, .inl ⟨hquote, rfl, rfl⟩⟩, hnext⟩
    . have hlt := Reader.size_scan_lt (r := q) (by rwa [hsame])
      obtain ⟨q', hq', hprolongs⟩ := ih (m := m) hrest hnext (by omega)
      exact ⟨q', ⟨htext, .inr ⟨hquote, hq'⟩⟩, hprolongs⟩

/-! The next token. -/

theorem yields_tokenHere_iff {r r' : Reader} {text : Text} {t : Token} :
    (tokenHere text).Yields r t r' ↔
      t = ⟨Token.classify text, text, r.place.1, r.place.2⟩ ∧ r' = r := by
  simp only [tokenHere, yields_bind_iff, yields_get_iff, yields_pure_iff]
  simp

theorem yields_putBack (t : Token) (r : Reader) :
    (putBack t).Yields r () { r with pushed := some t } := rfl

theorem yields_next_of_pushed {r : Reader} {t : Token} (h : r.pushed = some t) :
    next.Yields r t { r with pushed := none } := by
  simp only [next, yields_bind_iff, yields_get_iff]
  refine ⟨r, r, ⟨rfl, rfl⟩, ?_⟩
  rw [h]
  rfl

/--
The next token is a scanned one, or a text in single quotes, or nothing if the closing quote is
missing.
-/
theorem yields_next_iff {r r' : Reader} {t : Token} (h : r.pushed = none) :
    next.Yields r t r' ↔
      r.scan.1 ≠ "'" ∧ (tokenHere r.scan.1).Yields r.scan.2 t r' ∨
      r.scan.1 = "'" ∧ ∃ inner q,
        (untilQuote r.budget []).Yields { r.scan.2 with care := .none } inner q
          ∧ (tokenHere (inner.elim [] fun t => "'" ++ t ++ "'")).Yields { q with care := r.care } t
            r' := by
  unfold next
  rw [yields_get_bind_iff]
  simp only [h, yields_modifyGet_bind_iff]
  by_cases hquote : r.scan.1 = "'"
  . rw [if_pos (by simpa using hquote)]
    simp only [yields_bind_iff, yields_modify_iff]
    constructor
    . rintro ⟨-, _, rfl, inner, q, hinner, -, _, rfl, htoken⟩
      refine .inr ⟨hquote, inner, q, hinner, ?_⟩
      cases inner
      all_goals exact htoken
    . rintro (⟨hne, -⟩ | ⟨-, inner, q, hinner, htoken⟩)
      . exact absurd hquote hne
      . refine ⟨(), _, rfl, inner, q, hinner, (), _, rfl, ?_⟩
        cases inner
        all_goals exact htoken
  . rw [if_neg (by simpa using hquote)]
    simp [hquote]

theorem yields_next_iff_of_ne_nil {r r' : Reader} {t : Token} (h : r.pushed = none)
    (htext : t.text ≠ []) :
    next.Yields r t r' ↔
      r.scan.1 ≠ "'" ∧ (tokenHere r.scan.1).Yields r.scan.2 t r' ∨
      r.scan.1 = "'" ∧ ∃ inner q,
        (untilQuote r.budget []).Yields { r.scan.2 with care := .none } (some inner) q
          ∧ (tokenHere ("'" ++ inner ++ "'")).Yields { q with care := r.care } t r' := by
  rw [yields_next_iff h]
  apply or_congr_right
  apply and_congr_right
  intro _
  constructor
  . rintro ⟨inner, q, hinner, htoken⟩
    cases inner with
    | none =>
      obtain ⟨rfl, -⟩ := yields_tokenHere_iff.1 htoken
      exact absurd rfl htext
    | some inner => exact ⟨inner, q, hinner, htoken⟩
  . rintro ⟨inner, q, hinner, htoken⟩
    exact ⟨some inner, q, hinner, htoken⟩

theorem kind_of_yields_next {r r' : Reader} {t : Token} (h : r.pushed = none)
    (hnext : next.Yields r t r') : t.kind = Token.classify t.text := by
  obtain ⟨-, htoken⟩ | ⟨-, inner, q, -, htoken⟩ := (yields_next_iff h).1 hnext
  all_goals
    obtain ⟨rfl, -⟩ := yields_tokenHere_iff.1 htoken
    rfl

/--
The next token is the same in a longer source.
-/
theorem Yields.next {more : List Glyph} {r r' q : Reader} {t : Token}
    (h : Parse.next.Yields r t r') (hr : r.pushed = none) (hq : q.pushed = none)
    (hcare : q.care = r.care) (htext : t.text ≠ []) (hne : r'.cursor.left ≠ [])
    (hscan : r.scan.2.cursor.left ≠ []
      → q.scan.1 = r.scan.1 ∧ r.scan.2.Prolongs more q.scan.2) :
    ∃ t' q', Parse.next.Yields q t' q' ∧ t'.text = t.text ∧ r'.Prolongs more q' := by
  obtain ⟨hquote, htoken⟩ | ⟨hquote, inner, r₁, hinner, htoken⟩ := (yields_next_iff_of_ne_nil hr htext).1 h
  . obtain ⟨rfl, rfl⟩ := yields_tokenHere_iff.1 htoken
    obtain ⟨hsame, hprolongs⟩ := hscan hne
    refine ⟨⟨Token.classify q.scan.1, q.scan.1, q.scan.2.place.1, q.scan.2.place.2⟩, q.scan.2, ?_,
      hsame, hprolongs⟩
    rw [yields_next_iff_of_ne_nil hq (by rwa [hsame])]
    exact .inl ⟨by rwa [hsame], yields_tokenHere_iff.2 ⟨rfl, rfl⟩⟩
  . obtain ⟨rfl, rfl⟩ := yields_tokenHere_iff.1 htoken
    have hleft := left_ne_nil_of_untilQuote hinner hne
    obtain ⟨hsame, hprolongs⟩ := hscan hleft
    have hstart : { r.scan.2 with care := .none }.Prolongs more { q.scan.2 with care := .none } :=
      ⟨hprolongs.cursor, hprolongs.pushed, rfl, hprolongs.reports⟩
    have hsize : q.scan.2.cursor.size < q.budget := by
      have hlt := Reader.size_scan_lt (r := q) (by rw [hsame, hquote]; decide)
      unfold Reader.budget
      omega
    obtain ⟨q₁, hq₁, hend⟩ := hinner.untilQuote hne hstart hsize
    refine ⟨⟨Token.classify ("'" ++ inner ++ "'"), "'" ++ inner ++ "'", q₁.place.1, q₁.place.2⟩,
      { q₁ with care := q.care }, ?_, rfl, hend.cursor, hend.pushed, hcare, hend.reports⟩
    refine (yields_next_iff_of_ne_nil hq ?_).2 (.inr ⟨?_, inner, q₁, hq₁, yields_tokenHere_iff.2 ⟨rfl, rfl⟩⟩)
    . exact htext
    . rwa [hsame]

end Parse

end ValueGen
