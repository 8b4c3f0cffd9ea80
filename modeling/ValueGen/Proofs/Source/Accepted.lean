import ValueGen.Proofs.Source.Reader
import ValueGen.Proofs.Text.Numeral
import ValueGen.Source.Outline

/-!
This module contains what is known about the fields of every source that is accepted: a field with a
name has a type, and the number of a field has no sign.
-/

namespace ValueGen

/-! The tokens of a source. -/

/--
The token is as it was scanned. A token that starts with a minus sign is the sign alone.
-/
structure Token.IsGenuine (t : Token) : Prop where
  kind : t.kind = Token.classify t.text
  sign : t.text.head? = some 45 → t.text = [45]

/--
What is left of the source was decoded, and a token that was put back is as it was scanned.
-/
structure Reader.IsGenuine (r : Reader) : Prop where
  left : ∀ g ∈ r.cursor.left, g.IsDecoded
  pushed : ∀ t, r.pushed = some t → t.IsGenuine

namespace Reader

variable {r r' : Reader}

theorem IsGenuine.of_left (h : r.IsGenuine) {gs : List Glyph}
    (hleft : r.cursor.left = gs ++ r'.cursor.left) (hpushed : r'.pushed = r.pushed) :
    r'.IsGenuine := by
  refine ⟨fun g hg => h.left g ?_, ?_⟩
  . rw [hleft]
    exact List.mem_append_right _ hg
  . rw [hpushed]
    exact h.pushed

theorem IsGenuine.putBack (h : r.IsGenuine) {t : Token} (ht : t.IsGenuine) :
    IsGenuine { r with pushed := some t } := by
  refine ⟨h.left, ?_⟩
  rintro _ ⟨⟩
  exact ht

theorem IsGenuine.skipSpace (h : r.IsGenuine) : r.skipSpace.IsGenuine := by
  obtain ⟨gs, hleft, -⟩ :=
    ((Cursor.isLocalMove_takeWhile Cursor.isSpace).takes r.cursor.mark).left
  have hskip : r.cursor.left = gs ++ r.skipSpace.cursor.left := hleft
  exact h.of_left hskip rfl

theorem IsGenuine.scanToken (h : r.IsGenuine) : r.scanToken.2.IsGenuine := by
  obtain ⟨gs, hleft, -⟩ := exists_left_scanToken r
  exact h.of_left hleft rfl

theorem IsGenuine.scan (h : r.IsGenuine) : r.scan.2.IsGenuine := h.skipSpace.scanToken

-- A minus sign is a token of its own, and no other character starts with its byte.
theorem IsGenuine.sign_scanToken (h : r.IsGenuine) (hsign : r.scanToken.1.head? = some 45) :
    r.scanToken.1 = [45] := by
  obtain ⟨gs, hleft, htext⟩ := exists_left_scanToken r
  cases hahead : r.cursor.ahead with
  | none =>
    have hmark : r.cursor.mark.ahead = none := hahead
    have hnil : r.scanToken.1 = [] := by
      rw [Reader.scanToken, Cursor.takeToken, hmark]
      rfl
    rw [hnil] at hsign
    cases hsign
  | some g =>
    have hdecoded := h.left g (by rw [Cursor.left, hahead]; exact List.mem_cons_self)
    have hbyte : g.bytes.head? = some 45 := by
      obtain ⟨b, t, rfl⟩ := hdecoded
      have hbytes := Glyph.head?_bytes_leading b t
      rw [Cursor.left, hahead, Option.toList_some, List.singleton_append] at hleft
      cases gs with
      | nil =>
        rw [htext] at hsign
        cases hsign
      | cons g' gs =>
        obtain ⟨rfl, -⟩ := List.cons.inj hleft
        rw [htext, Text.ofGlyphs, List.flatMap_cons,
          List.head?_append_of_ne_nil _ (Glyph.bytes_ne_nil b t)] at hsign
        exact hsign
    obtain rfl := hdecoded.eq_ofAscii (by decide) hbyte
    have hmark : r.cursor.mark.ahead = some (Glyph.ofAscii 45) := hahead
    have hstart : Identifier.isStart (Glyph.ofAscii 45).char = false := by decide
    have htoken : r.cursor.mark.takeToken = r.cursor.mark.advance := by
      simp only [Cursor.takeToken, hmark, hstart]
      rfl
    change Text.ofGlyphs r.cursor.mark.takeToken.taken.reverse = [45]
    rw [htoken, Cursor.taken_advance, hmark]
    rfl

end Reader

namespace Parse

open Reader

variable {r r' : Reader} {t : Token}

theorem left_untilQuote {n : Nat} {done : Text} {inner : Option Text}
    (h : (untilQuote n done).Yields r inner r') :
    (∃ gs, r.cursor.left = gs ++ r'.cursor.left) ∧ r'.pushed = r.pushed := by
  induction n generalizing done r with
  | zero => cases h
  | succ n ih =>
    obtain ⟨gs, gs', hleft, -⟩ := exists_left_scan r
    have hscan : (∃ gs, r.cursor.left = gs ++ r.scan.2.cursor.left) ∧ r.scan.2.pushed = r.pushed :=
      ⟨⟨_, hleft⟩, rfl⟩
    simp only [untilQuote, yields_bind_iff, yields_modifyGet_iff] at h
    obtain ⟨_, _, ⟨rfl, rfl⟩, h⟩ := h
    split at h
    . obtain ⟨-, rfl⟩ := yields_pure_iff.1 h
      exact hscan
    . split at h
      . obtain ⟨-, rfl⟩ := yields_pure_iff.1 h
        exact hscan
      . obtain ⟨⟨gs'', hrest⟩, hpushed⟩ := ih h
        refine ⟨⟨gs ++ gs' ++ gs'', ?_⟩, hpushed⟩
        rw [hleft, hrest, List.append_assoc (gs ++ gs')]

theorem Yields.unique {α : Type} {x : Parse α} {a b : α} {r₁ : Reader} (h : x.Yields r a r')
    (h' : x.Yields r b r₁) : b = a ∧ r₁ = r' := by
  have heq := Eq.trans (Eq.symm h) h'
  cases heq
  exact ⟨rfl, rfl⟩

theorem not_yields_unexpected {α : Type} {found expected : Text} {a : α} :
    ¬ (unexpected found expected : Parse α).Yields r a r' := by
  intro h
  cases h

end Parse

/-! What is asked of the parts of a source. -/

/--
The text has dots in it, or it is a token that is a word.
-/
def Text.CanBeType (t : Text) : Prop := 46 ∈ t ∨ Token.classify t = .word

theorem Text.CanBeType.ne_nil {t : Text} (h : t.CanBeType) : t ≠ [] := by
  rintro rfl
  obtain h | h := h
  all_goals cases h

/--
The number of the field has no sign, and a field with a name has a type.
-/
structure FieldStatement.IsComplete (f : FieldStatement) : Prop where
  number : ∃ n : Nat, f.number = n
  type : f.name ≠ [] → f.type.CanBeType

namespace Member

/--
The member can be part of an accepted source.
-/
def IsSupported : Member → Prop
  | .comment => True
  | .field f => f.hasOptions = false
  | .other .. => False

def IsComplete : Member → Prop
  | .field f => f.IsComplete
  | _ => True

end Member

namespace Statement

/--
The statement can be part of an accepted source.
-/
def IsSupported : Statement → Prop
  | .message _ isExtend members _ _ => isExtend = false ∧ ∀ m ∈ members, m.IsSupported
  | .edition => False
  | .other .. => False
  | _ => True

def IsComplete : Statement → Prop
  | .message _ _ members _ _ => ∀ m ∈ members, m.IsComplete
  | _ => True

end Statement

/--
The id of the field is written without a sign, and a field with a name has a type.
-/
structure FieldOutline.IsComplete (f : FieldOutline) : Prop where
  id : ∃ n : Nat, f.id = Text.ofNat n
  type : f.name ≠ [] → f.type.CanBeType

/-! What stays true while a source is read. -/

namespace Reader.IsGenuine

open Parse

variable {r r' : Reader} {t : Token}

theorem next (h : r.IsGenuine) (hx : Parse.next.Yields r t r') : t.IsGenuine ∧ r'.IsGenuine := by
  cases hpushed : r.pushed with
  | some u =>
    obtain ⟨rfl, rfl⟩ := (yields_next_of_pushed hpushed).unique hx
    refine ⟨h.pushed t hpushed, h.left, ?_⟩
    rintro _ ⟨⟩
  | none =>
    have hkind := kind_of_yields_next hpushed hx
    obtain ⟨-, htoken⟩ | ⟨-, inner, q, hinner, htoken⟩ := (yields_next_iff hpushed).1 hx
    . obtain ⟨rfl, rfl⟩ := yields_tokenHere_iff.1 htoken
      exact ⟨⟨hkind, h.skipSpace.sign_scanToken⟩, h.scan⟩
    . obtain ⟨rfl, rfl⟩ := yields_tokenHere_iff.1 htoken
      obtain ⟨⟨gs, hleft⟩, hsame⟩ := left_untilQuote hinner
      have hend : IsGenuine { q with care := r.care } := h.scan.of_left hleft hsame
      refine ⟨⟨hkind, ?_⟩, hend⟩
      intro hsign
      cases inner
      all_goals cases hsign

theorem comments_go (h : r.IsGenuine) {n : Nat} {u : Unit}
    (hx : (Parse.comments.go n).Yields r u r') : r'.IsGenuine := by
  induction n generalizing r with
  | zero => cases hx
  | succ n ih =>
    simp only [Parse.comments.go, yields_bind_iff] at hx
    obtain ⟨t, r₁, hnext, hx⟩ := hx
    obtain ⟨ht, hr₁⟩ := h.next hnext
    split at hx
    . exact ih hr₁ hx
    . cases hx
      exact hr₁.putBack ht

theorem comments (h : r.IsGenuine) {u : Unit} (hx : Parse.comments.Yields r u r') :
    r'.IsGenuine := by
  simp only [Parse.comments, yields_bind_iff, yields_get_iff] at hx
  obtain ⟨r, r, ⟨rfl, rfl⟩, hx⟩ := hx
  exact h.comments_go hx

theorem expect (h : r.IsGenuine) {text expected : Text} {u : Unit}
    (hx : (Parse.expect text expected).Yields r u r') : r'.IsGenuine := by
  simp only [Parse.expect, yields_bind_iff] at hx
  obtain ⟨t, r₁, hnext, hx⟩ := hx
  obtain ⟨-, hr₁⟩ := h.next hnext
  split at hx
  . exact absurd hx not_yields_unexpected
  . cases hx
    exact hr₁

theorem name (h : r.IsGenuine) {expected a : Text} (hx : (Parse.name expected).Yields r a r') :
    r'.IsGenuine := by
  simp only [Parse.name, yields_bind_iff] at hx
  obtain ⟨t, r₁, hnext, hx⟩ := hx
  obtain ⟨-, hr₁⟩ := h.next hnext
  split at hx
  . cases hx
    exact hr₁
  . exact absurd hx not_yields_unexpected

theorem dotAhead (h : r.IsGenuine) {b : Bool} (hx : Parse.dotAhead.Yields r b r') :
    r'.IsGenuine := by
  simp only [Parse.dotAhead, yields_bind_iff, yields_get_iff] at hx
  obtain ⟨r, r, ⟨rfl, rfl⟩, hx⟩ := hx
  split at hx
  . cases hx
    obtain ⟨gs, hleft, -⟩ := ((Cursor.isLocalMove_takeWhile _).takes r.cursor.mark).left
    exact h.of_left hleft rfl
  . cases hx
    exact h

theorem dottedRest (h : r.IsGenuine) {n : Nat} {done a : Text}
    (hx : (Parse.dottedRest n done).Yields r a r') : r'.IsGenuine := by
  induction n generalizing r done with
  | zero => cases hx
  | succ n ih =>
    simp only [Parse.dottedRest, yields_bind_iff] at hx
    obtain ⟨b, r₁, hdot, hx⟩ := hx
    have hr₁ := h.dotAhead hdot
    split at hx
    . simp only [yields_bind_iff] at hx
      obtain ⟨dot, r₂, hnext, t, r₃, hnext', hx⟩ := hx
      obtain ⟨ht, hr₃⟩ := (hr₁.next hnext).2.next hnext'
      split at hx
      . exact ih hr₃ hx
      . cases hx
        exact hr₃.putBack ht
    . cases hx
      exact hr₁

theorem dotted (h : r.IsGenuine) {reserved : Bool} (hx : (Parse.dotted reserved).Yields r t r') :
    r'.IsGenuine := by
  simp only [Parse.dotted, yields_bind_iff] at hx
  obtain ⟨t, r₁, hnext, hx⟩ := hx
  obtain ⟨-, hr₁⟩ := h.next hnext
  split at hx
  . simp only [yields_bind_iff, yields_get_iff] at hx
    obtain ⟨_, _, ⟨rfl, rfl⟩, text, r₂, hrest, hx⟩ := hx
    cases hx
    exact hr₁.dottedRest hrest
  . cases hx
    exact hr₁

theorem identifier (h : r.IsGenuine) (hx : Parse.identifier.Yields r t r') : r'.IsGenuine := by
  simp only [Parse.identifier, yields_bind_iff] at hx
  obtain ⟨t, r₁, hdotted, hx⟩ := hx
  have hr₁ := h.dotted hdotted
  split at hx
  . simp only [yields_bind_iff] at hx
    obtain ⟨u, r₂, hdotted', hx⟩ := hx
    cases hx
    exact hr₁.dotted hdotted'
  . cases hx
    exact hr₁

theorem identifierName (h : r.IsGenuine) {expected a : Text}
    (hx : (Parse.identifierName expected).Yields r a r') : r'.IsGenuine := by
  simp only [Parse.identifierName, yields_bind_iff] at hx
  obtain ⟨t, r₁, hidentifier, hx⟩ := hx
  have hr₁ := h.identifier hidentifier
  split at hx
  . cases hx
    exact hr₁
  . exact absurd hx not_yields_unexpected

theorem messageHead (h : r.IsGenuine) {kind a : Text}
    (hx : (Parse.messageHead kind).Yields r a r') : r'.IsGenuine := by
  simp only [Parse.messageHead, yields_bind_iff] at hx
  obtain ⟨name, r₁, hname, _, r₂, hcomments, _, r₃, hexpect, hx⟩ := hx
  cases hx
  exact ((h.identifierName hname).comments hcomments).expect hexpect

theorem typeRest (h : r.IsGenuine) {n : Nat} {u : Token} (hu : u.kind = .word → u.text.CanBeType)
    (hx : (Parse.typeRest n u).Yields r t r') :
    (t.kind = .word → t.text.CanBeType) ∧ r'.IsGenuine := by
  induction n generalizing r u with
  | zero => cases hx
  | succ n ih =>
    simp only [Parse.typeRest, yields_bind_iff] at hx
    obtain ⟨b, r₁, hdot, hx⟩ := hx
    have hr₁ := h.dotAhead hdot
    split at hx
    . simp only [yields_bind_iff] at hx
      obtain ⟨dot, r₂, hnext, v, r₃, hnext', hx⟩ := hx
      obtain ⟨-, hr₃⟩ := (hr₁.next hnext).2.next hnext'
      refine ih hr₃ (fun _ => .inl ?_) hx
      exact List.mem_append_left _ (List.mem_append_right _ List.mem_cons_self)
    . cases hx
      exact ⟨hu, hr₁⟩

theorem typeName (h : r.IsGenuine) (hx : Parse.typeName.Yields r t r') :
    (t.kind = .word → t.text.CanBeType) ∧ r'.IsGenuine := by
  simp only [Parse.typeName, yields_bind_iff] at hx
  obtain ⟨u, r₁, hnext, hx⟩ := hx
  obtain ⟨hu, hr₁⟩ := h.next hnext
  split at hx
  . simp only [yields_bind_iff, yields_pure_iff, yields_get_iff] at hx
    obtain ⟨v, r₂, hnext', _, r₂, ⟨rfl, rfl⟩, r₂, r₂, ⟨rfl, rfl⟩, hx⟩ := hx
    exact (hr₁.next hnext').2.typeRest (fun _ => .inl List.mem_cons_self) hx
  . simp only [yields_bind_iff, yields_pure_iff, yields_get_iff] at hx
    obtain ⟨_, r₁, ⟨rfl, rfl⟩, r₁, r₁, ⟨rfl, rfl⟩, hx⟩ := hx
    exact hr₁.typeRest (fun hword => .inr (hu.kind.symm.trans hword)) hx

/-! Fields. -/

theorem integer (h : r.IsGenuine) (ht : t.IsGenuine) (hnumber : t.kind = .number) {k : Nat} {i : Int}
    (hx : (Parse.integer (k + 1)).Yields { r with pushed := some t } (.ok i) r') :
    (∃ n : Nat, i = n) ∧ r'.IsGenuine := by
  rw [Parse.integer] at hx
  simp only [yields_bind_iff] at hx
  obtain ⟨u, r₁, hnext, hx⟩ := hx
  obtain ⟨rfl, rfl⟩ := (yields_next_of_pushed rfl).unique hnext
  obtain ⟨-, hr₁⟩ := (h.putBack ht).next hnext
  have hminus : ¬ u.is "-" = true := by
    rw [Token.is, beq_iff_eq]
    intro htext
    rw [ht.kind, htext] at hnumber
    exact absurd hnumber (by decide)
  rw [if_neg hminus, hnumber, if_neg (by decide)] at hx
  split at hx
  . cases hx
    exact ⟨⟨_, rfl⟩, hr₁⟩
  . split at hx
    . next j hread =>
      cases hx
      refine ⟨?_, hr₁⟩
      obtain ⟨⟨sign, digits, htext, hne, hdigits, ⟨-, hi⟩ | ⟨rfl, -⟩⟩, -⟩ :=
        (Text.readInteger_eq_ok_iff _ _ _).1 hread
      . exact ⟨_, hi⟩
      . have hsign := ht.sign (by rw [htext]; rfl)
        rw [htext] at hsign
        exact absurd (List.cons.inj hsign).2 hne
    . cases hx

theorem bracketed (h : r.IsGenuine) (hx : Parse.bracketed.Yields r false r') : r'.IsGenuine := by
  simp only [Parse.bracketed, yields_bind_iff] at hx
  obtain ⟨t, r₁, hnext, hx⟩ := hx
  obtain ⟨ht, hr₁⟩ := h.next hnext
  split at hx
  . simp only [yields_bind_iff] at hx
    obtain ⟨_, _, -, _, _, -, hx⟩ := hx
    cases hx
  . cases hx
    exact hr₁.putBack ht

/--
The number of a field without options has no sign.
-/
theorem fieldRest (h : r.IsGenuine) {name : Text} {i : Int}
    (hx : Parse.fieldRest.Yields r (name, i, false) r') : (∃ n : Nat, i = n) ∧ r'.IsGenuine := by
  simp only [Parse.fieldRest, yields_bind_iff] at hx
  obtain ⟨_, r₁, hcomments, name', r₂, hname, _, r₃, hcomments', _, r₄, hexpect, _, r₅, hcomments'',
    t, r₆, hnext, hx⟩ := hx
  have hr₅ := ((((h.comments hcomments).name hname).comments hcomments').expect hexpect).comments
    hcomments''
  obtain ⟨ht, hr₆⟩ := hr₅.next hnext
  split at hx
  . exact absurd hx not_yields_unexpected
  . next hkind =>
    simp only [yields_bind_iff, yields_get_iff] at hx
    obtain ⟨_, r₇, hput, r₇, r₇, ⟨rfl, rfl⟩, number, r₈, hinteger, hx⟩ := hx
    cases hput
    split at hx
    . exact absurd hx not_yields_unexpected
    . obtain ⟨hnumber, hr₈⟩ := hr₆.integer ht (by simpa using hkind) hinteger
      simp only [yields_bind_iff] at hx
      obtain ⟨_, r₉, hcomments₉, hasOptions, r₁₀, hbracketed, hx⟩ := hx
      cases hx
      exact ⟨hnumber, (hr₈.comments hcomments₉).bracketed hbracketed⟩

theorem field (h : r.IsGenuine) {n : Nat} {f g : FieldStatement} (hf : f.IsComplete)
    (hx : (Parse.field n f).Yields r g r') (hoptions : g.hasOptions = false) :
    g.IsComplete ∧ r'.IsGenuine := by
  induction n generalizing r f with
  | zero => cases hx
  | succ n ih =>
    simp only [Parse.field, yields_bind_iff] at hx
    obtain ⟨t, r₁, htype, hx⟩ := hx
    obtain ⟨ht, hr₁⟩ := h.typeName htype
    split at hx
    . exact ih hr₁ hf hx
    . split at hx
      . exact ih (f := { f with repeated := true }) hr₁ ⟨hf.number, hf.type⟩ hx
      . split at hx
        . exact ih (f := { f with optional := true }) hr₁ ⟨hf.number, hf.type⟩ hx
        . split at hx
          . next hword =>
            simp only [yields_bind_iff] at hx
            obtain ⟨⟨name, number, hasOptions⟩, r₂, hrest, hx⟩ := hx
            cases hx
            obtain rfl : hasOptions = false := hoptions
            obtain ⟨hnumber, hr₂⟩ := hr₁.fieldRest hrest
            exact ⟨⟨hnumber, fun _ => ht (by simpa using hword)⟩, hr₂⟩
          . cases hx
            exact ⟨hf, hr₁⟩

/-! Members and statements. -/

theorem labelled (h : r.IsGenuine) {b : Parse (List Member)} {m : Member}
    (hx : (Parse.labelled b t).Yields r m r') (hm : m.IsSupported) :
    m.IsComplete ∧ r'.IsGenuine := by
  simp only [Parse.labelled, yields_bind_iff] at hx
  obtain ⟨u, r₁, hnext, hx⟩ := hx
  obtain ⟨hu, hr₁⟩ := h.next hnext
  split at hx
  . simp only [yields_bind_iff] at hx
    obtain ⟨_, _, -, _, _, -, hx⟩ := hx
    cases hx
    exact absurd hm id
  . simp only [yields_bind_iff, yields_get_iff] at hx
    obtain ⟨_, r₂, hput, r₂, r₂, ⟨rfl, rfl⟩, f, r₃, hfield, hx⟩ := hx
    cases hput
    cases hx
    exact (hr₁.putBack hu).field ⟨⟨0, rfl⟩, fun hname => absurd rfl hname⟩ hfield hm

theorem member (h : r.IsGenuine) (ht : t.IsGenuine) {b : Parse (List Member)} {c : Parse Unit}
    {m : Member} (hx : (Parse.member b c t).Yields r m r') (hm : m.IsSupported) :
    m.IsComplete ∧ r'.IsGenuine := by
  simp only [Parse.member] at hx
  split at hx
  . cases hx
    exact ⟨trivial, h⟩
  . split at hx
    . simp only [yields_bind_iff] at hx
      obtain ⟨_, _, -, hx⟩ := hx
      cases hx
      exact absurd hm id
    . split at hx
      . exact h.labelled hx hm
      . simp only [yields_bind_iff, yields_get_iff] at hx
        obtain ⟨_, r₂, hput, r₂, r₂, ⟨rfl, rfl⟩, f, r₃, hfield, hx⟩ := hx
        cases hput
        cases hx
        exact (h.putBack ht).field ⟨⟨0, rfl⟩, fun hname => absurd rfl hname⟩ hfield hm

theorem body (h : r.IsGenuine) {n : Nat} {ms : List Member} (hx : (Parse.body n).Yields r ms r')
    (hms : ∀ m ∈ ms, m.IsSupported) : (∀ m ∈ ms, m.IsComplete) ∧ r'.IsGenuine := by
  induction n generalizing r ms with
  | zero =>
    rw [Parse.body] at hx
    cases hx
  | succ n ih =>
    rw [Parse.body] at hx
    simp only [yields_bind_iff] at hx
    obtain ⟨t, r₁, hnext, hx⟩ := hx
    obtain ⟨ht, hr₁⟩ := h.next hnext
    split at hx
    . cases hx
      exact ⟨by simp, hr₁⟩
    . split at hx
      . exact absurd hx not_yields_unexpected
      . split at hx
        . exact ih hr₁ hx hms
        . simp only [yields_bind_iff] at hx
          obtain ⟨m, r₂, hmember, rest, r₃, hrest, hx⟩ := hx
          cases hx
          rw [List.forall_mem_cons] at hms ⊢
          obtain ⟨hm, hr₂⟩ := hr₁.member ht hmember hms.1
          obtain ⟨hrest, hr₃⟩ := ih hr₂ hrest hms.2
          exact ⟨⟨hm, hrest⟩, hr₃⟩

theorem level (h : r.IsGenuine) {kind : Text} {u : Unit} (hx : (Parse.level kind).Yields r u r') :
    r'.IsGenuine := by
  simp only [Parse.level, yields_bind_iff] at hx
  obtain ⟨_, r₁, hexpect, t, r₂, hnext, hx⟩ := hx
  obtain ⟨-, hr₂⟩ := (h.expect hexpect).next hnext
  split at hx
  . exact absurd hx not_yields_unexpected
  . cases hx
    exact hr₂

theorem statement (h : r.IsGenuine) {n : Nat} {s : Statement}
    (hx : (Parse.statement (Parse.body n) t).Yields r s r') (hs : s.IsSupported) :
    s.IsComplete ∧ r'.IsGenuine := by
  simp only [Parse.statement] at hx
  split at hx
  . cases hx
    exact ⟨trivial, h⟩
  . split at hx
    . simp only [yields_bind_iff] at hx
      obtain ⟨_, _, -, hx⟩ := hx
      cases hx
      exact absurd hs id
    . split at hx
      . simp only [yields_bind_iff] at hx
        obtain ⟨_, r₁, hlevel, hx⟩ := hx
        cases hx
        exact ⟨trivial, h.level hlevel⟩
      . split at hx
        . simp only [yields_bind_iff] at hx
          obtain ⟨_, r₁, hlevel, hx⟩ := hx
          cases hx
          exact absurd hs id
        . split at hx
          . simp only [yields_bind_iff] at hx
            obtain ⟨name, r₁, hdotted, hx⟩ := hx
            split at hx
            . cases hx
              exact ⟨trivial, h.dotted hdotted⟩
            . exact absurd hx not_yields_unexpected
          . split at hx
            . simp only [yields_bind_iff] at hx
              obtain ⟨name, r₁, hhead, ms, r₂, hbody, hx⟩ := hx
              cases hx
              exact (h.messageHead hhead).body hbody hs.2
            . exact absurd hx not_yields_unexpected

theorem statements (h : r.IsGenuine) {n : Nat} {ss : List Statement}
    (hx : (Parse.statements n).Yields r ss r') (hss : ∀ s ∈ ss, s.IsSupported) :
    ∀ s ∈ ss, s.IsComplete := by
  induction n generalizing r ss with
  | zero => cases hx
  | succ n ih =>
    simp only [Parse.statements, yields_bind_iff] at hx
    obtain ⟨t, r₁, hnext, hx⟩ := hx
    obtain ⟨-, hr₁⟩ := h.next hnext
    split at hx
    . cases hx
      simp
    . split at hx
      . exact ih hr₁ hx hss
      . simp only [yields_bind_iff] at hx
        obtain ⟨s, r₂, hstatement, rest, r₃, hrest, hx⟩ := hx
        cases hx
        rw [List.forall_mem_cons] at hss ⊢
        obtain ⟨hs, hr₂⟩ := hr₁.statement hstatement hss.1
        exact ⟨hs, ih hr₂ hrest hss.2⟩

end Reader.IsGenuine

/-! Outlines. -/

namespace Outline

theorem isComplete_of_fields {file : Text} {ms : List Member} {fs : List FieldOutline}
    (h : fields file ms = .ok fs) : (∀ m ∈ ms, m.IsSupported)
      ∧ ((∀ m ∈ ms, m.IsComplete) → ∀ f ∈ fs, f.IsComplete) := by
  induction ms generalizing fs with
  | nil =>
    cases h
    simp
  | cons m ms ih =>
    simp only [List.forall_mem_cons]
    cases m with
    | comment =>
      obtain ⟨hsupported, hcomplete⟩ := ih h
      exact ⟨⟨trivial, hsupported⟩, fun hms => hcomplete hms.2⟩
    | other c line column => cases h
    | field f =>
      rw [fields] at h
      split at h
      . cases h
      . next hoptions =>
        cases hfields : fields file ms with
        | error e =>
          rw [hfields] at h
          cases h
        | ok gs =>
          rw [hfields] at h
          cases h
          obtain ⟨hsupported, hcomplete⟩ := ih hfields
          have hnone : f.hasOptions = false := by simpa using hoptions
          refine ⟨⟨hnone, hsupported⟩, ?_⟩
          rintro ⟨⟨⟨n, hn⟩, htype⟩, hms⟩
          rw [List.forall_mem_cons]
          exact ⟨⟨⟨n, by rw [hn]; rfl⟩, htype⟩, hcomplete hms⟩

theorem isComplete_of_addStatements {o o' : Outline} {ss : List Statement}
    (h : o.addStatements ss = .ok o') : (∀ s ∈ ss, s.IsSupported)
      ∧ ((∀ s ∈ ss, s.IsComplete) → (∀ m ∈ o.messages, ∀ f ∈ m.fields, f.IsComplete)
        → ∀ m ∈ o'.messages, ∀ f ∈ m.fields, f.IsComplete) := by
  induction ss generalizing o with
  | nil =>
    cases h
    exact ⟨by simp, fun _ ho => ho⟩
  | cons s ss ih =>
    simp only [List.forall_mem_cons]
    cases s with
    | comment | level =>
      obtain ⟨hsupported, hcomplete⟩ := ih h
      exact ⟨⟨trivial, hsupported⟩, fun hss => hcomplete hss.2⟩
    | edition | other => cases h
    | package name line column =>
      rw [addStatements] at h
      split at h
      . obtain ⟨hsupported, hcomplete⟩ := ih h
        exact ⟨⟨trivial, hsupported⟩, fun hss => hcomplete hss.2⟩
      . cases h
    | message name isExtend members line column =>
      rw [addStatements] at h
      split at h
      . cases h
      . next hextend =>
        split at h
        . cases h
        . next fs hfields =>
          obtain ⟨hsupported, hcomplete⟩ := ih h
          obtain ⟨hmembers, hfs⟩ := isComplete_of_fields hfields
          refine ⟨⟨⟨by simpa using hextend, hmembers⟩, hsupported⟩, ?_⟩
          rintro ⟨hms, hss⟩ ho
          apply hcomplete hss
          intro m hm
          obtain hm | hm := List.mem_append.1 hm
          . exact ho m hm
          . rw [List.mem_singleton] at hm
            rw [hm]
            exact hfs hms

end Outline

theorem Cursor.exists_left_start (source : List Glyph) :
    ∃ gs, source = gs ++ (start source).left := by
  have hload : (load ⟨none, source, 1, 0, 0, [], []⟩ true).left = source := left_load _ _
  simp only [start]
  split
  . split
    . obtain ⟨gs, hleft, -⟩ := (Takes.advance (load ⟨none, source, 1, 0, 0, [], []⟩ true)).left
      exact ⟨gs, hload.symm.trans hleft⟩
    . exact ⟨[], hload.symm⟩
  . exact ⟨[], hload.symm⟩

theorem Reader.isGenuine_start (file source : Text) : (start file source).IsGenuine := by
  obtain ⟨gs, hleft⟩ := Cursor.exists_left_start source.glyphs
  refine ⟨?_, ?_⟩
  . intro g hg
    have hmem : g ∈ source.glyphs := by
      rw [hleft]
      exact List.mem_append_right _ hg
    exact Text.glyphs.isDecoded_of_mem hmem
  . rintro _ ⟨⟩

instance {α : Type} [DecidableEq α] (x : Except Failure α) (a : α) : Decidable (x = .ok a) :=
  match x with
  | .ok b => decidable_of_iff (b = a) (by simp)
  | .error _ => isFalse (by simp)

instance decidableExistsError {ε α : Type} (p : ε → Prop) [DecidablePred p] (x : Except ε α) :
    Decidable (∃ e, x = .error e ∧ p e) :=
  match x with
  | .ok _ => isFalse (by simp)
  | .error e => decidable_of_iff (p e) (by simp)

namespace Source

/--
The statements of a source are what is read from start to end, if nothing is wrong inside tokens.
-/
theorem statements_eq_ok_iff (file source : Text) (ss : List Statement) :
    statements file source = .ok ss ↔
      ∃ r, (Parse.statements (Reader.start file source).budget).Yields (Reader.start file source) ss r
        ∧ r.reports = [] := by
  simp only [statements, Parse.Yields]
  generalize (Parse.statements (Reader.start file source).budget).run.run
    (Reader.start file source) = x
  obtain ⟨e | a, r⟩ := x
  . constructor
    . intro h
      cases e with
      | brokenRange | stuck => cases h
      | unexpected place found expected =>
        simp only at h
        split at h
        all_goals cases h
    . rintro ⟨r', h, -⟩
      cases h
  . constructor
    . intro h
      simp only at h
      split at h
      . next hreports =>
        cases h
        exact ⟨r, rfl, by simpa using hreports⟩
      . cases h
    . rintro ⟨r', h, hreports⟩
      cases h
      simp [hreports]

/--
All fields of a source that is accepted are complete.
-/
theorem isComplete_of_outline {file source : Text} {o : Outline} (h : outline file source = .ok o) :
    ∀ m ∈ o.messages, ∀ f ∈ m.fields, f.IsComplete := by
  unfold outline at h
  split at h
  . cases h
  . next ss hstatements =>
    obtain ⟨r, hyields, -⟩ := (statements_eq_ok_iff file source ss).1 hstatements
    obtain ⟨hsupported, hcomplete⟩ := Outline.isComplete_of_addStatements h
    exact hcomplete ((Reader.isGenuine_start file source).statements hyields hsupported) (by simp)

end Source

end ValueGen
