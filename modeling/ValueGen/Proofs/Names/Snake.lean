import ValueGen.Names.Snake
import ValueGen.Proofs.Names.Camel

/-!
This module contains where the underscores of snake-case names come from. Each one that is put
there stands between a letter and a capital behind it that is not the end of the name, so that the
name can be told from its snake-case form up to the case of its letters. Within ASCII, the
snake-case form is its own snake-case form.
-/

namespace ValueGen

namespace Ascii

theorem isUpper_toLower (b : UInt8) : isUpper (toLower b) = false := by
  grind [isUpper, toLower]

theorem toLower_of_not_isUpper {b : UInt8} (h : isUpper b = false) : toLower b = b := by
  simp [toLower, h]

theorem toLower_lt {b : UInt8} (h : b < 0x80) : toLower b < 0x80 := by
  grind [isUpper, toLower]

end Ascii

namespace Snake

/--
A piece of a snake-case name: a byte of the camel-case name, or an underscore that was put in front
of a word.
-/
inductive Piece where
  | byte (b : UInt8)
  | mark
  deriving DecidableEq, Repr

namespace Piece

/--
The byte of the camel-case name.
-/
def byte? : Piece → Option UInt8
  | .byte b => some b
  | .mark => none

/--
How a piece is written. A byte is the Latin-1 character of that number in lower case.
-/
def text : Piece → Text
  | .byte b => Text.ofChar (toLowerCase (Char.ofNat b.toNat))
  | .mark => "_"

/--
Is the piece written as an underscore?
-/
def isUnderscore : Piece → Bool
  | .byte b => b == 0x5f
  | .mark => true

end Piece

/--
The bytes of the camel-case name among the pieces.
-/
def bytes (ps : List Piece) : Text := ps.filterMap Piece.byte?

@[simp]
theorem bytes_byte (b : UInt8) (ps : List Piece) : bytes (.byte b :: ps) = b :: bytes ps := rfl

@[simp]
theorem bytes_mark (ps : List Piece) : bytes (.mark :: ps) = bytes ps := rfl

/--
The text in lower case, with every byte taken for a Latin-1 character.
-/
def lowerCase (t : Text) : Text := t.flatMap fun b => (Piece.byte b).text

/--
The pieces are the bytes of the name with underscores between them. An underscore stands in front of
a capital only, behind a letter, and not in front of the last byte. Behind a letter in lower case,
there is one in front of every such capital.
-/
structure IsSpacing (name : Text) (ps : List Piece) : Prop where
  bytes_eq : bytes ps = name
  between : ∀ front back, ps = front ++ .mark :: back → ∃ before b c d after,
    name = before ++ b :: c :: d :: after ∧ bytes front = before ++ [b]
      ∧ isLetter b = true ∧ isUpper c = true
  capital : ∀ before b c d after, name = before ++ b :: c :: d :: after
    → isLower b = true → isUpper c = true
    → ∃ front back, ps = front ++ .mark :: back ∧ bytes front = before ++ [b]

/--
No underscore that was put between the bytes is the first or the last piece or has another
underscore beside it.
-/
structure StandsApart (ps : List Piece) : Prop where
  first : ps.head? ≠ some .mark
  last : ps.getLast? ≠ some .mark
  beside : ps.IsChain fun p q =>
    (p = .mark → q.isUnderscore = false) ∧ (q = .mark → p.isUnderscore = false)

/-! The pieces of a name. -/

/--
The pieces of the snake-case form of a name.
-/
def pieces : Text → List Piece
  | [] => []
  | b :: t => .byte b :: go b true t
where
  /-- The pieces after the byte `before`. A word starts at it if `split` says so. -/
  go (before : UInt8) (split : Bool) : Text → List Piece
    | [] => []
    | [b] => [.byte b]
    | b :: after :: t =>
      if startsWord before b after split then
        .mark :: .byte b :: go b true (after :: t)
      else
        .byte b :: go b false (after :: t)

theorem isLetter_of_isUpper {b : UInt8} (h : isUpper b = true) : isLetter b = true := by
  simp [isLetter, h]

theorem text_byte (b : UInt8) : (Piece.byte b).text = render b :=
  forall_byte (p := fun b => (Piece.byte b).text = render b) (by decide +kernel) b

theorem flatMap_text_go (before : UInt8) (split : Bool) (t : Text) :
    (pieces.go before split t).flatMap Piece.text = ofCamel.go before split t := by
  fun_induction pieces.go before split t with
  | case1 => rfl
  | case2 before split b => simp [ofCamel.go, text_byte]
  | case3 before split b after t hstarts ih =>
    rw [ofCamel.go, if_pos hstarts, ← ih, List.flatMap_cons, List.flatMap_cons, text_byte,
      List.append_assoc]
    rfl
  | case4 before split b after t hstarts ih =>
    rw [ofCamel.go, if_neg hstarts, ← ih, List.flatMap_cons, text_byte]

theorem flatMap_text_pieces (t : Text) : (pieces t).flatMap Piece.text = ofCamel t := by
  cases t with
  | nil => rfl
  | cons b t => rw [pieces, List.flatMap_cons, flatMap_text_go, text_byte, ofCamel]

theorem bytes_go (before : UInt8) (split : Bool) (t : Text) :
    bytes (pieces.go before split t) = t := by
  fun_induction pieces.go before split t with
  | case1 => rfl
  | case2 => rfl
  | case3 _ _ _ _ _ _ ih => rw [bytes_mark, bytes_byte, ih]
  | case4 _ _ _ _ _ _ ih => rw [bytes_byte, ih]

/--
The pieces may stand behind the byte of a name: the underscores stand where words start, and all
that have to be there are there.
-/
inductive Continues : UInt8 → List Piece → Prop where
  | nil (b : UInt8) : Continues b []
  | byte {b c : UInt8} {ps : List Piece}
      (hcapital : isLower b = true → isUpper c = true → ps = []) (h : Continues c ps) :
      Continues b (.byte c :: ps)
  | mark {b c : UInt8} {ps : List Piece} (hletter : isLetter b = true) (hupper : isUpper c = true)
      (hne : ps ≠ []) (h : Continues c ps) : Continues b (.mark :: .byte c :: ps)

theorem continues_go (before : UInt8) (split : Bool) (t : Text) :
    Continues before (pieces.go before split t) := by
  have hne (before : UInt8) (split : Bool) (b : UInt8) (t : Text) :
      pieces.go before split (b :: t) ≠ [] := by
    intro hnil
    have hbytes := bytes_go before split (b :: t)
    rw [hnil] at hbytes
    cases hbytes
  fun_induction pieces.go before split t with
  | case1 before => exact .nil before
  | case2 before split b => exact .byte (fun _ _ => rfl) (.nil b)
  | case3 before split b after t hstarts ih =>
    unfold startsWord at hstarts
    refine .mark ?_ ?_ (hne _ _ _ _) ih
    . grind [isLetter]
    . grind
  | case4 before split b after t hstarts ih =>
    refine .byte ?_ ih
    intro hlower hupper
    simp [startsWord, hlower, hupper] at hstarts

namespace Continues

variable {b : UInt8} {ps : List Piece}

theorem exists_bytes (h : Continues b ps) (hne : ps ≠ []) : ∃ c t, bytes ps = c :: t := by
  cases h with
  | nil => exact absurd rfl hne
  | byte => exact ⟨_, _, rfl⟩
  | mark => exact ⟨_, _, rfl⟩

theorem between (h : Continues b ps) {front back : List Piece} (hps : ps = front ++ .mark :: back) :
    ∃ before a c d after, b :: bytes ps = before ++ a :: c :: d :: after
      ∧ b :: bytes front = before ++ [a] ∧ isLetter a = true ∧ isUpper c = true := by
  induction h generalizing front with
  | nil => simp at hps
  | byte hcapital h ih =>
    cases front with
    | nil => cases hps
    | cons p front =>
      cases hps
      obtain ⟨before, a, c, d, after, hname, hfront, hcase⟩ := ih rfl
      exact ⟨_ :: before, a, c, d, after, congrArg _ hname, congrArg _ hfront, hcase⟩
  | mark hletter hupper hne h ih =>
    rcases front with _ | ⟨p, _ | ⟨q, front⟩⟩
    . obtain ⟨d, after, hbytes⟩ := h.exists_bytes hne
      refine ⟨[], _, _, d, after, ?_, rfl, hletter, hupper⟩
      rw [bytes_mark, bytes_byte, hbytes]
      rfl
    . cases hps
    . cases hps
      obtain ⟨before, a, c, d, after, hname, hfront, hcase⟩ := ih rfl
      exact ⟨_ :: before, a, c, d, after, congrArg _ hname, congrArg _ hfront, hcase⟩

theorem capital (h : Continues b ps) {before after : Text} {a c d : UInt8}
    (hname : b :: bytes ps = before ++ a :: c :: d :: after) (hlower : isLower a = true)
    (hupper : isUpper c = true) :
    ∃ front back, ps = front ++ .mark :: back ∧ b :: bytes front = before ++ [a] := by
  induction h generalizing before with
  | nil b =>
    have hlength := congrArg List.length hname
    simp [bytes] at hlength
    omega
  | byte hcapital h ih =>
    rw [bytes_byte] at hname
    cases before with
    | nil =>
      simp only [List.nil_append, List.cons.injEq] at hname
      obtain ⟨rfl, rfl, hbytes⟩ := hname
      rw [hcapital hlower hupper] at hbytes
      cases hbytes
    | cons x before =>
      obtain ⟨rfl, hrest⟩ := List.cons.inj hname
      obtain ⟨front, back, rfl, hfront⟩ := ih hrest
      exact ⟨.byte _ :: front, back, rfl, congrArg _ hfront⟩
  | mark _ _ _ h ih =>
    rw [bytes_mark, bytes_byte] at hname
    cases before with
    | nil =>
      obtain ⟨rfl, -⟩ := List.cons.inj hname
      exact ⟨[], _, rfl, rfl⟩
    | cons x before =>
      obtain ⟨rfl, hrest⟩ := List.cons.inj hname
      obtain ⟨front, back, rfl, hfront⟩ := ih hrest
      exact ⟨.mark :: .byte _ :: front, back, rfl, congrArg _ hfront⟩

theorem isChain (h : Continues b ps) : (.byte b :: ps).IsChain fun p q =>
    (p = .mark → q.isUnderscore = false) ∧ (q = .mark → p.isUnderscore = false) := by
  have hunderscore {c : UInt8} (hc : isLetter c = true) : (Piece.byte c).isUnderscore = false := by
    rw [Piece.isUnderscore, beq_eq_false_iff_ne]
    rintro rfl
    exact absurd hc (by decide)
  induction h with
  | nil b => exact .singleton _
  | byte _ _ ih => exact .cons_cons (by simp) ih
  | mark hletter hupper _ _ ih =>
    refine .cons_cons (by simp [hunderscore hletter]) (.cons_cons ?_ ih)
    simp [hunderscore (isLetter_of_isUpper hupper)]

theorem getLast?_ne (h : Continues b ps) : (.byte b :: ps).getLast? ≠ some .mark := by
  induction h with
  | nil b => simp
  | byte _ _ ih => rwa [List.getLast?_cons_cons]
  | mark _ _ _ _ ih => rwa [List.getLast?_cons_cons, List.getLast?_cons_cons]

end Continues

theorem isSpacing_pieces (t : Text) : IsSpacing t (pieces t) := by
  cases t with
  | nil =>
    refine ⟨rfl, ?_, ?_⟩
    . intro front back hps
      simp [pieces] at hps
    . intro before b c d after hname
      simp at hname
  | cons b t =>
    have hcontinues := continues_go b true t
    have hbytes := bytes_go b true t
    refine ⟨congrArg _ hbytes, ?_, ?_⟩
    . intro front back hps
      cases front with
      | nil => cases hps
      | cons p front =>
        obtain ⟨rfl, hrest⟩ := List.cons.inj hps
        have hbetween := hcontinues.between hrest
        rwa [hbytes] at hbetween
    . intro before a c d after hname hlower hupper
      rw [← hbytes] at hname
      obtain ⟨front, back, hps, hfront⟩ := hcontinues.capital hname hlower hupper
      exact ⟨.byte b :: front, back, congrArg _ hps, hfront⟩

theorem standsApart_pieces (t : Text) : StandsApart (pieces t) := by
  cases t with
  | nil => exact ⟨by simp [pieces], by simp [pieces], .nil⟩
  | cons b t =>
    have hcontinues := continues_go b true t
    exact ⟨by simp [pieces], hcontinues.getLast?_ne, hcontinues.isChain⟩

-- What is left without the underscores that were put there is the name.
theorem flatMap_text_filter (ps : List Piece) :
    (ps.filter (· ≠ .mark)).flatMap Piece.text = lowerCase (bytes ps) := by
  induction ps with
  | nil => rfl
  | cons p ps ih =>
    cases p with
    | byte b => rw [List.filter_cons_of_pos (by simp), List.flatMap_cons, ih]; rfl
    | mark => rw [List.filter_cons_of_neg (by simp), ih, bytes_mark]

/-! Names within ASCII. -/

theorem isUpper_of_ascii {b : UInt8} (h : b < 0x80) : isUpper b = Ascii.isUpper b := by
  grind [isUpper, Ascii.isUpper]

theorem render_of_ascii {b : UInt8} (h : b < 0x80) : render b = [Ascii.toLower b] := by
  rw [← text_byte, Piece.text, Ascii.ofChar_toLowerCase h]

theorem mem_ofCamel {t : Text} (h : ∀ b ∈ t, b < 0x80) {c : UInt8} (hc : c ∈ ofCamel t) :
    c < 0x80 ∧ Ascii.isUpper c = false := by
  rw [← flatMap_text_pieces, List.mem_flatMap] at hc
  obtain ⟨p, hp, hc⟩ := hc
  cases p with
  | mark =>
    rw [List.mem_singleton.1 hc]
    decide
  | byte b =>
    have hb : b < 0x80 := by
      apply h
      rw [← (isSpacing_pieces t).bytes_eq]
      exact List.mem_filterMap.2 ⟨_, hp, rfl⟩
    rw [text_byte, render_of_ascii hb, List.mem_singleton] at hc
    rw [hc]
    exact ⟨Ascii.toLower_lt hb, Ascii.isUpper_toLower b⟩

theorem ofCamel_go_of_lower {before : UInt8} {split : Bool} {t : Text}
    (h : ∀ b ∈ t, b < 0x80 ∧ Ascii.isUpper b = false) : ofCamel.go before split t = t := by
  have hrender {b : UInt8} (hb : b < 0x80 ∧ Ascii.isUpper b = false) : render b = [b] := by
    rw [render_of_ascii hb.1, Ascii.toLower_of_not_isUpper hb.2]
  fun_induction ofCamel.go before split t with
  | case1 => rfl
  | case2 _ _ b => exact hrender (h b List.mem_cons_self)
  | case3 _ _ b _ _ hstarts =>
    obtain ⟨hlow, hupper⟩ := h b List.mem_cons_self
    simp [startsWord, isUpper_of_ascii hlow, hupper] at hstarts
  | case4 _ _ b _ _ _ ih =>
    rw [List.forall_mem_cons] at h
    rw [hrender h.1, ih h.2]
    rfl

theorem ofCamel_of_lower {t : Text} (h : ∀ b ∈ t, b < 0x80 ∧ Ascii.isUpper b = false) :
    ofCamel t = t := by
  cases t with
  | nil => rfl
  | cons b t =>
    rw [List.forall_mem_cons] at h
    rw [ofCamel, ofCamel_go_of_lower h.2, render_of_ascii h.1.1,
      Ascii.toLower_of_not_isUpper h.1.2]
    rfl

/--
The snake-case form of a name is the name in lower case with underscores in front of words, each of
which stands on its own and can be told from those of the name. Within ASCII, it has no capitals and
is its own snake-case form.
-/
theorem ofCamel_isSpacing (t : Text) :
    (∃ ps, ofCamel t = ps.flatMap Piece.text ∧ IsSpacing t ps ∧ StandsApart ps
      ∧ (ps.filter (· ≠ .mark)).flatMap Piece.text = lowerCase t)
    ∧ ((∀ b ∈ t, b < 0x80) → (∀ b ∈ ofCamel t, Ascii.isUpper b = false)
      ∧ ofCamel (ofCamel t) = ofCamel t) := by
  constructor
  . have hspacing := isSpacing_pieces t
    refine ⟨pieces t, (flatMap_text_pieces t).symm, hspacing, standsApart_pieces t, ?_⟩
    rw [flatMap_text_filter, hspacing.bytes_eq]
  . intro h
    exact ⟨fun b hb => (mem_ofCamel h hb).2, ofCamel_of_lower fun b hb => mem_ofCamel h hb⟩

/--
In the middle of the capitals, the underscore stands in front of the one that begins a word.
-/
theorem ofCamel_isSpacing_code :
    ofCamel "HTTPCode" = "http_code" ∧ (∀ b ∈ ("HTTPCode" : Text), b < 0x80)
      ∧ ofCamel (ofCamel "HTTPCode") = ofCamel "HTTPCode" := by
  have hascii : ∀ b ∈ ("HTTPCode" : Text), b < 0x80 := by decide +kernel
  exact ⟨by decide +kernel, hascii, ((ofCamel_isSpacing "HTTPCode").2 hascii).2⟩

end Snake

end ValueGen
