import ValueGen.Proofs.Source.Spelling

/-!
This module contains the names that are read as they are written: tokens with dots between them, each
of which stands in front of what follows it.
-/

namespace ValueGen

namespace Reader

variable {r : Reader} {t rest : Text}

-- A token that was put back is the next one.
theorem IsAt.sees_pushed (h : r.IsAt rest) {token : Token} (htext : token.text = t)
    (hkind : token.kind = Token.classify t) : Sees { r with pushed := some token } t rest := by
  refine ⟨token, r, ?_, htext, hkind, h⟩
  have hnone : { r with pushed := none } = r := by rw [← h.pushed]
  simpa only [hnone] using
    Parse.yields_next_of_pushed (r := { r with pushed := some token }) (t := token) rfl

end Reader

namespace Parse

open Reader

variable {r : Reader} {t rest : Text}

theorem exists_yields_comments (h : r.Sees t rest) (ht : Token.classify t ≠ .comment) :
    ∃ r', comments.Yields r () r' ∧ r'.Sees t rest := by
  obtain ⟨token, r₁, hnext, htext, hkind, hat⟩ := h
  refine ⟨{ r₁ with pushed := some token }, ?_, hat.sees_pushed htext hkind⟩
  unfold comments
  refine (yields_get_iff.2 ⟨rfl, rfl⟩).bind (hnext.bind ?_)
  rw [if_neg (by simpa [hkind] using ht)]
  rfl

theorem exists_yields_expect (h : r.Sees t rest) (expected : Text) :
    ∃ r', (expect t expected).Yields r () r' ∧ r'.IsAt rest := by
  obtain ⟨token, r₁, hnext, rfl, -, hat⟩ := h
  refine ⟨r₁, hnext.bind ?_, hat⟩
  rw [if_neg (by simp [Token.is])]
  rfl

end Parse

/--
Can a token with this text be a name?
-/
def Token.canName (t : Text) : Bool :=
  Token.classify t == .word || Token.classify t == .keyword || Token.classify t == .number

theorem Token.isName_eq_canName {token : Token} {t : Text} (h : token.kind = Token.classify t) :
    token.isName = Token.canName t := by
  rw [Token.isName, Token.isReserved, Token.canName, h, Bool.or_assoc]

namespace Parse

open Reader

variable {r : Reader} {t rest : Text}

theorem exists_yields_name (h : r.Sees t rest) (ht : Token.canName t = true) (expected : Text) :
    ∃ r', (name expected).Yields r t r' ∧ r'.IsAt rest := by
  obtain ⟨token, r₁, hnext, htext, hkind, hat⟩ := h
  refine ⟨r₁, hnext.bind ?_, hat⟩
  rw [if_pos (by rwa [Token.isName_eq_canName hkind])]
  exact yields_pure_iff.2 ⟨htext.symm, rfl⟩

/--
Does the reader pass over the character when it looks for a dot?
-/
def isDotBlank (c : Char) : Bool := c == ' ' || c == '\t' || c == '\n'

theorem exists_yields_dotAhead {s : Text} (h : r.IsAt (s ++ t)) (hs : s.IsBlank)
    (ht : t.glyphs.head?.all (fun g => g.isSound && !isDotBlank g.char) = true) :
    ∃ r', dotAhead.Yields r (t.glyphs.head?.any (·.char == '.')) r' ∧ r'.IsAt t := by
  have hdot (c : Cursor) (hc : c.IsAt t) : c.seesChar '.' = t.glyphs.head?.any (·.char == '.') := by
    rw [Cursor.seesChar, Cursor.sees, hc.ahead]
    cases t.glyphs.head?
    all_goals rfl
  have hrun (b : Bool) (r' : Reader) : dotAhead.Yields r b r' ↔
      (if r.cursor.sees isDotBlank then do
          let cursor := r.cursor.mark.takeWhile isDotBlank
          set (Reader.collect { r with cursor := cursor, place := (0, 0) } (0, 0))
          return cursor.seesChar '.'
        else
          return r.cursor.seesChar '.' : Parse Bool).Yields r b r' := Iff.rfl
  simp only [hrun]
  cases hsees : r.cursor.sees isDotBlank with
  | true =>
    have hcursor := h.cursor.mark.takeWhile ⟨rfl, rfl⟩ hs ht
    have hmoved : { r with cursor := r.cursor.mark.takeWhile isDotBlank, place := (0, 0) }.IsAt t :=
      ⟨hcursor, h.pushed, h.care, h.reports⟩
    refine ⟨_, ?_, hmoved.collect (0, 0)⟩
    rw [← hdot _ hcursor]
    rfl
  | false =>
    obtain rfl : s = [] := by
      cases s with
      | nil => rfl
      | cons b s =>
        exfalso
        obtain rfl | rfl := hs b List.mem_cons_self
        all_goals
          rw [Cursor.sees, h.cursor.ahead, List.cons_append, Text.glyphs_cons (by decide)] at hsees
          cases hsees
    refine ⟨r, ?_, h⟩
    rw [← hdot _ h.cursor]
    rfl

/--
Behind blanks, the text `e` goes on with the token `t` and then with `rest`. The token does not start
with a dot.
-/
structure LeadsTo (e t rest : Text) : Prop where
  exists_eq : ∃ sp : Text, sp.IsBlank ∧ e = sp ++ (t ++ rest)
  stands : ∃ b more, rest = b :: more ∧ b < 0x80 ∧ Token.stands t [b] = true
  noDot : t.chars.head? ≠ some '.'

namespace LeadsTo

variable {e : Text}

theorem sees (h : LeadsTo e t rest) (hr : r.IsAt e) : r.Sees t rest := by
  obtain ⟨⟨sp, hsp, rfl⟩, ⟨b, more, rfl, hb, hstands⟩, -⟩ := h
  exact hr.sees (u := []) hsp hstands hb

theorem exists_yields_dotAhead (h : LeadsTo e t rest) (hr : r.IsAt e) :
    ∃ r', dotAhead.Yields r false r' ∧ r'.Sees t rest := by
  obtain ⟨⟨sp, hsp, rfl⟩, ⟨b, more, rfl, hb, hstands⟩, hdot⟩ := h
  obtain ⟨hne, hopens, -⟩ := (Token.stands_iff _ _).1 hstands
  obtain ⟨g, gs, hglyphs⟩ := List.exists_cons_of_ne_nil (Text.glyphs_ne_nil hne)
  have hhead (u : Text) : (t ++ b :: u).glyphs.head? = some g := by
    rw [Text.head?_glyphs_append_cons hne hb, hglyphs, List.head?_cons]
  rw [hhead, Option.all_some, Glyph.opensToken, Bool.and_eq_true, Bool.not_eq_true'] at hopens
  have hblank : isDotBlank g.char = false := by
    simp only [Cursor.isSpace, Bool.or_eq_false_iff] at hopens
    simp only [isDotBlank, hopens, Bool.or_self]
  have hchar : (g.char == '.') = false := by
    simpa [Text.chars, hglyphs] using hdot
  obtain ⟨r', hyields, hat⟩ := Parse.exists_yields_dotAhead hr hsp (by
    rw [hhead, Option.all_some, hopens.1, hblank]
    rfl)
  rw [hhead, Option.any_some, hchar] at hyields
  exact ⟨r', hyields, hat.sees_here (u := []) hstands hb⟩

end LeadsTo

end Parse

/-! Names of several tokens. -/

/--
Do the texts stand as tokens one behind the other, the last one in front of `rest`?
-/
def Token.standAll : List Text → Text → Bool
  | [], _ => true
  | t :: ts, rest => Token.stands t (ts.flatten ++ rest) && standAll ts rest

/--
The spelling of a name: a token, more of them behind dots, and a dot in front or at the end.
-/
structure Spelling where
  leading : Bool
  first : Text
  more : List Text
  trailing : Bool
  deriving DecidableEq, Repr

namespace Spelling

/--
The tokens behind the first one.
-/
def tail (trailing : Bool) : List Text → List Text
  | [] => if trailing then [("." : Text)] else []
  | t :: more => "." :: t :: tail trailing more

def tokens (s : Spelling) : List Text :=
  let body := s.first :: tail s.trailing s.more
  if s.leading then "." :: body else body

def text (s : Spelling) : Text := s.tokens.flatten

/--
The tokens stand in front of the character `c`, and all but the dots can be names.
-/
structure Stands (s : Spelling) (c : UInt8) : Prop where
  tokens : Token.standAll s.tokens [c] = true
  names : ∀ t ∈ s.first :: s.more, Token.canName t = true

end Spelling

namespace Parse

open Reader

variable {r : Reader} {u rest e : Text} {c : UInt8}

theorem exists_yields_dotAhead_dot {t : Text} (h : r.IsAt (46 :: t)) :
    ∃ r', dotAhead.Yields r true r' ∧ r'.IsAt (46 :: t) := by
  have hhead : (Text.glyphs (46 :: t)).head? = some (Glyph.ofAscii 46) := by
    rw [Text.glyphs_cons (by decide), List.head?_cons]
  have hyields := exists_yields_dotAhead (s := []) h Text.isBlank_nil (by rw [hhead]; decide)
  rwa [hhead] at hyields

-- The dot is a token of its own, and a reader in front of it finds it.
theorem exists_yields_dot {t : Text} (hr : r.IsAt (46 :: (t ++ c :: e))) (hc : c < 0x80)
    (hstands : Token.stands "." (t ++ [c]) = true) :
    ∃ r₁ token r', dotAhead.Yields r true r₁ ∧ next.Yields r₁ token r' ∧ r'.IsAt (t ++ c :: e) := by
  obtain ⟨r₁, hdot, hr₁⟩ := exists_yields_dotAhead_dot hr
  obtain ⟨token, r', hnext, -, -, hr'⟩ :=
    hr₁.sees_here (t := ".") hstands hc
  exact ⟨r₁, token, r', hdot, hnext, hr'⟩

theorem exists_yields_dottedRest (he : LeadsTo (c :: e) u rest) (hc : c < 0x80) {trailing : Bool}
    (hu : trailing = true → Token.canName u = false) {more : List Text} {n : Nat}
    (hn : more.length < n) (done : Text) (hnames : ∀ t ∈ more, Token.canName t = true)
    (hstands : Token.standAll (Spelling.tail trailing more) [c] = true)
    (hr : r.IsAt ((Spelling.tail trailing more).flatten ++ c :: e)) :
    ∃ r', (dottedRest n done).Yields r (done ++ (Spelling.tail trailing more).flatten) r'
      ∧ r'.Sees u rest := by
  obtain ⟨n, rfl⟩ : ∃ k, n = k + 1 := ⟨n - 1, by omega⟩
  induction more generalizing r n done with
  | nil =>
    cases trailing with
    | false =>
      obtain ⟨r₁, hdot, hsees⟩ := he.exists_yields_dotAhead hr
      refine ⟨r₁, hdot.bind ?_, hsees⟩
      simp [Spelling.tail, yields_pure_iff]
    | true =>
      rw [Spelling.tail, if_pos rfl, Token.standAll, Bool.and_eq_true] at hstands
      obtain ⟨r₁, dot, r₂, hdot, hnext, hr₂⟩ := exists_yields_dot (t := []) hr hc hstands.1
      obtain ⟨token, r₃, hnext', htext, hkind, hr₃⟩ := he.sees hr₂
      refine ⟨_, hdot.bind (hnext.bind (hnext'.bind ?_)), hr₃.sees_pushed htext hkind⟩
      rw [if_neg (by rw [Token.isName_eq_canName hkind, hu rfl]; exact Bool.false_ne_true)]
      rfl
  | cons t more ih =>
    rw [List.forall_mem_cons] at hnames
    rw [Spelling.tail, Token.standAll, Token.standAll, Bool.and_eq_true, Bool.and_eq_true] at hstands
    obtain ⟨hdots, ht, hmore⟩ := hstands
    rw [Spelling.tail, List.flatten_cons, List.flatten_cons, List.append_assoc] at hr
    obtain ⟨r₁, dot, r₂, hdot, hnext, hr₂⟩ := exists_yields_dot hr hc hdots
    rw [List.append_assoc] at hr₂
    obtain ⟨token, r₃, hnext', htext, hkind, hr₃⟩ :=
      hr₂.sees_here ht hc
    rw [List.length_cons] at hn
    obtain ⟨n, rfl⟩ : ∃ k, n = k + 1 := ⟨n - 1, by omega⟩
    obtain ⟨r', hrest, hsees⟩ := ih (done ++ "." ++ t) hnames.2 hmore hr₃ n (by omega)
    refine ⟨r', hdot.bind (hnext.bind (hnext'.bind ?_)), hsees⟩
    rw [if_pos (by rw [Token.isName_eq_canName hkind, hnames.1]), htext]
    simpa [Spelling.tail] using hrest

theorem asciiCount_le_size {t : Text} (h : r.IsAt t) : t.asciiCount ≤ r.cursor.size := by
  rw [Cursor.size_eq_length_left, h.left]
  exact Text.asciiCount_le_length_glyphs t

theorem length_le_asciiCount_tail (trailing : Bool) (more : List Text) :
    more.length ≤ Text.asciiCount (Spelling.tail trailing more).flatten := by
  induction more with
  | nil => exact Nat.zero_le _
  | cons t more ih =>
    have hdot : Text.asciiCount "." = 1 := rfl
    rw [Spelling.tail, List.flatten_cons, List.flatten_cons, Text.asciiCount_append,
      Text.asciiCount_append, List.length_cons]
    omega

theorem length_lt_budget {more : List Text} {trailing : Bool}
    (h : r.IsAt ((Spelling.tail trailing more).flatten ++ e)) : more.length < r.budget := by
  have hcount := length_le_asciiCount_tail trailing more
  have hsize := asciiCount_le_size h
  rw [Text.asciiCount_append] at hsize
  unfold Reader.budget
  omega

/--
A dotted name is read as it is spelled, if its first token is no keyword and no number or the
reader lets these pass.
-/
theorem exists_yields_dotted (he : LeadsTo (c :: e) u rest) (hc : c < 0x80) (reserved : Bool)
    {first : Text} {more : List Text} {trailing : Bool} {s : Text} (hs : s.IsBlank)
    (hfirst : Token.classify first = .word ∨ reserved = true)
    (hnames : ∀ t ∈ first :: more, Token.canName t = true)
    (hu : trailing = true → Token.canName u = false)
    (hstands : Token.standAll (first :: Spelling.tail trailing more) [c] = true)
    (hr : r.IsAt (s ++ ((first :: Spelling.tail trailing more).flatten ++ c :: e))) :
    ∃ token r', (dotted reserved).Yields r token r' ∧ token.kind = .word
      ∧ token.text = (first :: Spelling.tail trailing more).flatten ∧ r'.Sees u rest := by
  rw [List.forall_mem_cons] at hnames
  rw [Token.standAll, Bool.and_eq_true] at hstands
  rw [List.flatten_cons, List.append_assoc] at hr
  obtain ⟨token, r₁, hnext, htext, hkind, hr₁⟩ := hr.sees hs hstands.1 hc
  obtain ⟨r₂, hrest, hsees⟩ := exists_yields_dottedRest he hc hu (length_lt_budget hr₁) first
    hnames.2 hstands.2 hr₁
  have hname : token.isName = true := by rw [Token.isName_eq_canName hkind, hnames.1]
  have htaken : (token.kind == .word || (reserved && token.isReserved)) = true := by
    obtain hword | rfl := hfirst
    . rw [hkind, hword]
      rfl
    . exact hname
  refine ⟨{ token with kind := .word, text := first ++ (Spelling.tail trailing more).flatten }, r₂,
    hnext.bind ?_, rfl, rfl, hsees⟩
  rw [if_pos htaken, htext]
  exact (yields_get_iff.2 ⟨rfl, rfl⟩).bind (hrest.bind rfl)

-- A keyword or a number is a name of its own, and the reader does not look behind it.
theorem exists_yields_dotted_single {t : Text} (h : r.Sees t rest)
    (ht : Token.classify t ≠ .word) :
    ∃ token, ∃ r', (dotted false).Yields r token r' ∧ token.kind = Token.classify t ∧ token.text = t
      ∧ r'.IsAt rest := by
  obtain ⟨token, r₁, hnext, htext, hkind, hr₁⟩ := h
  refine ⟨token, r₁, hnext.bind ?_, hkind, htext, hr₁⟩
  rw [if_neg (by simpa [hkind] using ht)]
  rfl

-- A name that can stand on its own is read, and it is not taken for a dot in front of a name.
theorem exists_yields_dotted_name (he : LeadsTo (c :: e) u rest) (hc : c < 0x80) {first : Text}
    {more : List Text} {trailing : Bool} {s : Text} (hs : s.IsBlank)
    (hfirst : Token.classify first = .word ∨ more = [] ∧ trailing = false)
    (hnames : ∀ t ∈ first :: more, Token.canName t = true)
    (hu : trailing = true → Token.canName u = false)
    (hstands : Token.standAll (first :: Spelling.tail trailing more) [c] = true)
    (hr : r.IsAt (s ++ ((first :: Spelling.tail trailing more).flatten ++ c :: e))) :
    ∃ token r', (dotted false).Yields r token r' ∧ token.isName = true
      ∧ token.text = (first :: Spelling.tail trailing more).flatten ∧ r'.Sees u rest := by
  by_cases hword : Token.classify first = .word
  . obtain ⟨token, r', hyields, hkind, htext, hsees⟩ :=
      exists_yields_dotted he hc false hs (.inl hword) hnames hu hstands hr
    exact ⟨token, r', hyields, by simp [Token.isName, hkind], htext, hsees⟩
  . obtain ⟨rfl, rfl⟩ := hfirst.resolve_left hword
    have hfirst : r.Sees first (c :: e) := by
      rw [Token.standAll, Bool.and_eq_true] at hstands
      rw [List.flatten_cons, List.append_assoc] at hr
      exact hr.sees (u := []) hs hstands.1 hc
    obtain ⟨token, r', hyields, hkind, htext, hr'⟩ := exists_yields_dotted_single hfirst hword
    refine ⟨token, r', hyields, ?_, ?_, he.sees hr'⟩
    . rw [Token.isName_eq_canName hkind]
      exact hnames first List.mem_cons_self
    . simpa [Spelling.tail] using htext

theorem ne_dot_of_canName {t rest : Text} (hstands : Token.stands t rest = true)
    (hname : Token.canName t = true) (more : Text) : t ++ more ≠ "." := by
  intro hdot
  obtain ⟨hne, -⟩ := (Token.stands_iff _ _).1 hstands
  obtain ⟨b, t, rfl⟩ := List.exists_cons_of_ne_nil hne
  change b :: (t ++ more) = [46] at hdot
  simp only [List.cons.injEq, List.append_eq_nil_iff] at hdot
  obtain ⟨rfl, rfl, -⟩ := hdot
  exact absurd hname (by decide)

theorem exists_yields_identifier (he : LeadsTo (c :: e) u rest) (hc : c < 0x80) {s : Spelling}
    (hs : s.Stands c) {sp : Text} (hsp : sp.IsBlank)
    (hfirst : Token.classify s.first = .word ∨ s.more = [] ∧ s.trailing = false)
    (hu : s.trailing = true → Token.canName u = false) (hr : r.IsAt (sp ++ (s.text ++ c :: e))) :
    ∃ token r', identifier.Yields r token r' ∧ token.isName = true ∧ token.text = s.text
      ∧ r'.Sees u rest := by
  obtain ⟨leading, first, more, trailing⟩ := s
  obtain ⟨hstands, hnames⟩ := hs
  cases leading with
  | false =>
    obtain ⟨token, r', hyields, hname, htext, hsees⟩ :=
      exists_yields_dotted_name he hc hsp hfirst hnames hu hstands hr
    have hdot : ¬ token.is "." = true := by
      rw [Spelling.tokens, if_neg Bool.false_ne_true, Token.standAll, Bool.and_eq_true] at hstands
      rw [Token.is, beq_iff_eq, htext]
      exact ne_dot_of_canName hstands.1 (hnames first List.mem_cons_self) _
    refine ⟨token, r', hyields.bind ?_, hname, htext, hsees⟩
    rw [if_neg hdot]
    rfl
  | true =>
    rw [Spelling.tokens, if_pos rfl, Token.standAll, Bool.and_eq_true] at hstands
    rw [Spelling.text, Spelling.tokens, if_pos rfl, List.flatten_cons, List.append_assoc] at hr
    obtain ⟨dot, r₁, hdot, -, htext₁, hr₁⟩ :=
      exists_yields_dotted_single (hr.sees hsp hstands.1 hc) (by decide)
    obtain ⟨token, r', hyields, hname, htext, hsees⟩ := exists_yields_dotted_name (s := []) he hc
      Text.isBlank_nil hfirst hnames hu hstands.2 hr₁
    refine ⟨{ token with text := "." ++ token.text }, r', hdot.bind ?_, hname, ?_, hsees⟩
    . rw [if_pos (by rw [Token.is, htext₁]; rfl)]
      exact hyields.bind rfl
    . rw [htext]
      rfl

theorem exists_yields_identifierName (he : LeadsTo (c :: e) u rest) (hc : c < 0x80) {s : Spelling}
    (hs : s.Stands c) {sp : Text} (hsp : sp.IsBlank)
    (hfirst : Token.classify s.first = .word ∨ s.more = [] ∧ s.trailing = false)
    (hu : s.trailing = true → Token.canName u = false) (hr : r.IsAt (sp ++ (s.text ++ c :: e)))
    (expected : Text) :
    ∃ r', (identifierName expected).Yields r s.text r' ∧ r'.Sees u rest := by
  obtain ⟨token, r', hyields, hname, htext, hsees⟩ :=
    exists_yields_identifier he hc hs hsp hfirst hu hr
  refine ⟨r', hyields.bind ?_, hsees⟩
  rw [if_pos hname, htext]
  rfl

/-! The names of types. -/

theorem exists_yields_typeRest (he : LeadsTo (c :: e) u rest) (hc : c < 0x80) {more : List Text}
    {n : Nat} (hn : more.length < n) (token : Token)
    (hstands : Token.standAll (Spelling.tail false more) [c] = true)
    (hr : r.IsAt ((Spelling.tail false more).flatten ++ c :: e)) :
    ∃ token' r', (typeRest n token).Yields r token' r'
      ∧ token'.text = token.text ++ (Spelling.tail false more).flatten
      ∧ (token.kind = .word ∨ more ≠ [] → token'.kind = .word) ∧ r'.Sees u rest := by
  obtain ⟨n, rfl⟩ : ∃ k, n = k + 1 := ⟨n - 1, by omega⟩
  induction more generalizing r n token with
  | nil =>
    obtain ⟨r₁, hdot, hsees⟩ := he.exists_yields_dotAhead hr
    refine ⟨token, r₁, hdot.bind rfl, ?_, ?_, hsees⟩
    . simp [Spelling.tail]
    . simp
  | cons t more ih =>
    rw [Spelling.tail, Token.standAll, Token.standAll, Bool.and_eq_true, Bool.and_eq_true] at hstands
    obtain ⟨hdots, ht, hmore⟩ := hstands
    rw [Spelling.tail, List.flatten_cons, List.flatten_cons, List.append_assoc] at hr
    obtain ⟨r₁, dot, r₂, hdot, hnext, hr₂⟩ := exists_yields_dot hr hc hdots
    rw [List.append_assoc] at hr₂
    obtain ⟨part, r₃, hnext', htext, -, hr₃⟩ :=
      hr₂.sees_here ht hc
    rw [List.length_cons] at hn
    obtain ⟨n, rfl⟩ : ∃ k, n = k + 1 := ⟨n - 1, by omega⟩
    obtain ⟨token', r', hrest, htext', hkind, hsees⟩ :=
      ih { token with kind := .word, text := token.text ++ "." ++ part.text } hmore hr₃ n (by omega)
    refine ⟨token', r', hdot.bind (hnext.bind (hnext'.bind hrest)), ?_, ?_, hsees⟩
    . rw [htext', htext, Spelling.tail]
      simp
    . exact fun _ => hkind (.inl rfl)

/--
The name of a type is read as it is spelled. Its first token may have been put back before.
-/
theorem exists_yields_typeName (he : LeadsTo (c :: e) u rest) (hc : c < 0x80) {s : Spelling}
    (hs : Token.standAll s.tokens [c] = true)
    (hfirst : Token.classify s.first = .word ∨ s.more ≠ [])
    (hdot : s.leading = true ∨ s.first ≠ ".") (htrailing : s.trailing = false)
    {t : Text} {ts : List Text} (htokens : s.tokens = t :: ts)
    (hr : r.Sees t (ts.flatten ++ c :: e)) :
    ∃ token r', typeName.Yields r token r' ∧ token.text = s.text ∧ token.kind = .word
      ∧ r'.Sees u rest := by
  obtain ⟨leading, first, more, trailing⟩ := s
  obtain rfl : trailing = false := htrailing
  obtain ⟨token, r₁, hnext, htext, hkind, hr₁⟩ := hr
  rw [htokens, Token.standAll, Bool.and_eq_true] at hs
  cases leading with
  | false =>
    obtain ⟨rfl, rfl⟩ := List.cons.inj htokens
    have hdot : ¬ token.is "." = true := by
      rw [Token.is, beq_iff_eq, htext]
      exact hdot.resolve_left Bool.false_ne_true
    obtain ⟨token', r', hrest, htext', hword, hsees⟩ :=
      exists_yields_typeRest he hc (length_lt_budget hr₁) token hs.2 hr₁
    refine ⟨token', r', hnext.bind ?_, ?_, hword (hfirst.imp_left hkind.trans), hsees⟩
    . rw [if_neg hdot]
      exact (yields_pure_iff.2 ⟨rfl, rfl⟩).bind ((yields_get_iff.2 ⟨rfl, rfl⟩).bind hrest)
    . rw [htext', htext]
      rfl
  | true =>
    obtain ⟨rfl, rfl⟩ := List.cons.inj htokens
    rw [Token.standAll, Bool.and_eq_true] at hs
    rw [List.flatten_cons, List.append_assoc] at hr₁
    obtain ⟨part, r₂, hnext', htext₂, hkind₂, hr₂⟩ :=
      hr₁.sees_here hs.2.1 hc
    obtain ⟨token', r', hrest, htext', hword, hsees⟩ :=
      exists_yields_typeRest he hc (length_lt_budget hr₂)
        { token with kind := part.kind, text := "." ++ part.text } hs.2.2 hr₂
    refine ⟨token', r', hnext.bind ?_, ?_, hword (hfirst.imp_left hkind₂.trans), hsees⟩
    . rw [if_pos (by rw [Token.is, htext]; rfl)]
      refine hnext'.bind ((yields_pure_iff.2 ⟨rfl, rfl⟩).bind ?_)
      exact (yields_get_iff.2 ⟨rfl, rfl⟩).bind hrest
    . rw [htext', htext₂]
      rfl

end Parse

end ValueGen
