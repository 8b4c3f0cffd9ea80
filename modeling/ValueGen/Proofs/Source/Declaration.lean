import Mathlib.Data.List.Forall2
import ValueGen.Proofs.Source.Name
import ValueGen.Proofs.Source.Number
import ValueGen.Schema.Describe
import ValueGen.Source.Outline

/-!
This module contains that the declarations of a schema are read as what they declare, if its names
are read as they are written.
-/

namespace ValueGen

/-! Names that are read as they are written. -/

/--
The text is read as the name of a package in front of a semicolon.
-/
def Text.IsPackageName (t : Text) : Prop :=
  ∃ s : Spelling, s.text = t ∧ s.Stands 59 ∧ s.leading = false

/--
The text is read as the name of a message in front of a blank.
-/
def Text.IsMessageName (t : Text) : Prop :=
  ∃ s : Spelling, s.text = t ∧ s.Stands 32
    ∧ (Token.classify s.first = .word ∨ s.more = [] ∧ s.trailing = false)

/--
The text is read as the name of a type in front of a blank and behind a label. Behind a dot, any
token can be a part of the name.
-/
def Text.IsTypeName (t : Text) : Prop :=
  ∃ s : Spelling, s.text = t ∧ Token.standAll s.tokens [32] = true ∧ s.trailing = false
    ∧ (Token.classify s.first = .word ∨ s.more ≠ [])
    ∧ (s.leading = true ∨ s.first ≠ "." ∧ s.first ≠ "group")

/--
The text is read as the name of a field in front of a blank. A dot at its start would belong to the
type before it.
-/
structure Text.IsFieldName (t : Text) : Prop where
  stands : Token.stands t " " = true
  canName : Token.canName t = true
  noDot : t.chars.head? ≠ some '.'

structure Field.IsLegible (f : Field) : Prop where
  type : f.type.spelling.IsTypeName
  name : f.name.IsFieldName

structure Message.IsLegible (m : Message) : Prop where
  name : m.name.IsMessageName
  fields : ∀ f ∈ m.fields, f.IsLegible

/--
The names of the schema are read as they are written.
-/
structure Schema.IsLegible (s : Schema) : Prop where
  space : s.space = [] ∨ s.space.IsPackageName
  messages : ∀ m ∈ s.messages, m.IsLegible

/--
The rule of the field has a label, its type is the one that its spelling stands for, and its id is
written without a sign.
-/
structure Field.IsDeclarable (f : Field) : Prop where
  rule : f.rule.isValid = true
  type : FieldType.ofKeyword f.type.spelling = f.type
  id : ∃ n : Nat, f.id = n ∧ n < 2 ^ 63

/-! What statements declare. -/

structure FieldStatement.Declares (g : FieldStatement) (f : Field) : Prop where
  label : Outline.label g = f.rule.keyword
  type : g.type = f.type.spelling
  name : g.name = f.name
  number : g.number = f.id
  hasOptions : g.hasOptions = false

inductive Member.Declares : Member → Field → Prop where
  | field {g : FieldStatement} {f : Field} (h : g.Declares f) : Declares (.field g) f

inductive Statement.Declares : Statement → Message → Prop where
  | message {members : List Member} {m : Message} {line column : Nat}
    (h : List.Forall₂ Member.Declares members m.fields) :
    Declares (.message m.name false members line column) m

namespace Parse

open Reader

variable {r : Reader} {t e : Text}

theorem classify_ne_comment_of_canName (h : Token.canName t = true) :
    Token.classify t ≠ .comment := by
  intro hcomment
  rw [Token.canName, hcomment] at h
  cases h

theorem exists_yields_integer {n : Nat} (hn : n < 2 ^ 63) {k : Nat}
    (h : r.Sees (Text.ofNat n) e) :
    ∃ r', (integer (k + 1)).Yields r (.ok n) r' ∧ r'.IsAt e := by
  obtain ⟨token, r', hnext, htext, hkind, hat⟩ := h
  refine ⟨r', hnext.bind ?_, hat⟩
  have hminus : ¬ token.is "-" = true := by
    rw [Token.is, htext, beq_iff_eq]
    intro hdigits
    exact Token.not_mem_ofNat (b := 45) (by decide) n (by rw [hdigits]; decide)
  have hnumber : (token.kind != .number) = false := by
    rw [hkind, Token.classify_ofNat hn]
    rfl
  have hread : Text.readInteger 64 (Text.ofNat n) = .ok n := by
    rw [Text.readInteger_eq_ok_iff]
    refine ⟨Text.denotes_ofNat n, ?_, ?_⟩
    all_goals omega
  rw [if_neg hminus, hnumber, if_neg Bool.false_ne_true, htext, Token.isHex_ofNat,
    if_neg Bool.false_ne_true, hread]
  rfl

/--
A field is read behind its type as it is written, and the semicolon is put back.
-/
theorem exists_yields_fieldRest (ht : t.IsFieldName) {n : Nat} (hn : n < 2 ^ 63)
    (h : r.Sees t (" = " ++ (Text.ofNat n ++ ";\n" ++ e))) :
    ∃ r', fieldRest.Yields r (t, n, false) r' ∧ r'.Sees ";" (10 :: e) := by
  have hblank : Text.IsBlank " " := fun b hb => .inl (List.mem_singleton.1 hb)
  obtain ⟨r₁, hcomments₁, hr₁⟩ :=
    exists_yields_comments h (classify_ne_comment_of_canName ht.canName)
  obtain ⟨r₂, hname, hr₂⟩ := exists_yields_name hr₁ ht.canName "field identifier"
  have hequals : r₂.Sees "=" (" " ++ (Text.ofNat n ++ ";\n" ++ e)) :=
    hr₂.sees (s := " ") (t := "=") (u := []) (b := 32) hblank (by decide) (by decide)
  obtain ⟨r₃, hcomments₂, hr₃⟩ := exists_yields_comments hequals (by decide)
  obtain ⟨r₄, hexpect, hr₄⟩ := exists_yields_expect hr₃ "field ="
  have hdigits : r₄.Sees (Text.ofNat n) (59 :: 10 :: e) := by
    rw [List.append_assoc] at hr₄
    exact hr₄.sees (u := []) (b := 59) hblank (Token.stands_ofNat n) (by decide)
  have hclass := Token.classify_ofNat hn
  obtain ⟨r₅, hcomments₃, token, r₆, hnext, htext, hkind, hr₆⟩ :=
    exists_yields_comments hdigits (by rw [hclass]; decide)
  obtain ⟨r₇, hinteger, hr₇⟩ :=
    exists_yields_integer (k := r₆.cursor.size + 3) hn (hr₆.sees_pushed htext hkind)
  have hend : r₇.Sees ";" (10 :: e) := hr₇.sees_here (t := ";") (u := []) (by decide) (by decide)
  obtain ⟨r₈, hcomments₄, semicolon, r₉, hnext', htext', hkind', hr₉⟩ :=
    exists_yields_comments hend (by decide)
  refine ⟨_, hcomments₁.bind (hname.bind (hcomments₂.bind (hexpect.bind (hcomments₃.bind
    (hnext.bind ?_))))), hr₉.sees_pushed htext' hkind'⟩
  have hnumber : (token.kind != .number) = false := by
    rw [hkind, hclass]
    rfl
  have hbracket : ¬ semicolon.is "[" = true := by
    rw [Token.is, htext']
    decide
  rw [hnumber, if_neg Bool.false_ne_true]
  refine (yields_putBack token r₆).bind ((yields_get_iff.2 ⟨rfl, rfl⟩).bind (hinteger.bind ?_))
  refine hcomments₄.bind (Yields.bind (hnext'.bind ?_) rfl)
  rw [if_neg hbracket]
  rfl

-- A name with dots in it is no keyword, and one without them is its first token.
theorem text_ne_of_classify_first {s : Spelling}
    (hfirst : Token.classify s.first = .word ∨ s.more ≠ []) (htrailing : s.trailing = false)
    {w : Text} (hdot : 46 ∉ w) (hw : Token.classify w ≠ .word) : s.text ≠ w := by
  obtain ⟨leading, first, more, trailing⟩ := s
  obtain rfl : trailing = false := htrailing
  rintro rfl
  cases leading with
  | true => exact hdot List.mem_cons_self
  | false =>
    cases more with
    | nil =>
      apply hw
      rw [← hfirst.resolve_right (fun hne => hne rfl), Spelling.text]
      simp [Spelling.tokens, Spelling.tail]
    | cons t more =>
      apply hdot
      exact List.mem_append_right _ List.mem_cons_self

/--
The text of a field behind the name of its type.
-/
def restOf (f : Field) (e : Text) : Text :=
  f.name ++ (" = " ++ (Text.ofInt f.id ++ ";\n" ++ e))

theorem leadsTo_restOf {f : Field} (hf : f.IsLegible) (e : Text) :
    LeadsTo (32 :: restOf f e) f.name (" = " ++ (Text.ofInt f.id ++ ";\n" ++ e)) :=
  ⟨⟨" ", fun b hb => .inl (List.mem_singleton.1 hb), rfl⟩,
    ⟨32, _, rfl, by decide, hf.name.stands⟩, hf.name.noDot⟩

theorem exists_yields_field {f : Field} (hf : f.IsLegible) {n : Nat} (hid : f.id = n)
    (hn : n < 2 ^ 63) {s : Spelling} (hs : s.text = f.type.spelling)
    (hstands : Token.standAll s.tokens [32] = true)
    (hfirst : Token.classify s.first = .word ∨ s.more ≠ [])
    (hdot : s.leading = true ∨ s.first ≠ ".") (htrailing : s.trailing = false)
    {ts : List Text} (htokens : s.tokens = t :: ts) {g : FieldStatement} (hg : Outline.label g = f.rule.keyword)
    {k : Nat} (h : r.Sees t (ts.flatten ++ 32 :: restOf f e)) :
    ∃ g' r', (field (k + 1) g).Yields r g' r' ∧ g'.Declares f ∧ r'.Sees ";" (10 :: e) := by
  obtain ⟨token, r₁, htype, htext, hkind, hr₁⟩ := exists_yields_typeName (leadsTo_restOf hf e)
    (by decide) hstands hfirst hdot htrailing htokens h
  rw [hid] at hr₁
  obtain ⟨r', hrest, hr'⟩ := exists_yields_fieldRest hf.name hn hr₁
  have hne (w : Text) (hdot : 46 ∉ w) (hw : Token.classify w ≠ .word) : ¬ token.is w = true := by
    rw [Token.is, beq_iff_eq, htext]
    exact text_ne_of_classify_first hfirst htrailing hdot hw
  refine ⟨{ g with type := f.type.spelling, name := f.name, number := n, hasOptions := false }, r',
    htype.bind ?_, ⟨hg, rfl, rfl, hid.symm, rfl⟩, hr'⟩
  rw [if_neg (by rw [hkind]; decide), if_neg (hne _ (by decide) (by decide)),
    if_neg (hne _ (by decide) (by decide)), if_pos (by rw [hkind]; decide), htext, hs]
  exact hrest.bind rfl

theorem exists_yields_labelled {f : Field} (hf : f.IsLegible) (hvalid : f.rule.isValid = true)
    {n : Nat} (hid : f.id = n) (hn : n < 2 ^ 63) (label : Token)
    (hlabel : label.text = f.rule.keyword) (body : Parse (List Member))
    (h : r.IsAt (32 :: (f.type.spelling ++ 32 :: restOf f e))) :
    ∃ g r', (labelled body label).Yields r (.field g) r' ∧ g.Declares f ∧ r'.Sees ";" (10 :: e) := by
  obtain ⟨s, hs, hstands, htrailing, hfirst, hword⟩ := hf.type
  obtain ⟨t, ts, htokens, ht⟩ : ∃ t ts, s.tokens = t :: ts ∧ t ≠ "group" := by
    unfold Spelling.tokens
    cases hleading : s.leading with
    | true => exact ⟨_, _, rfl, by decide⟩
    | false =>
      rw [hleading] at hword
      exact ⟨_, _, rfl, (hword.resolve_left Bool.false_ne_true).2⟩
  have hsees : r.Sees t (ts.flatten ++ 32 :: restOf f e) := by
    rw [htokens, Token.standAll, Bool.and_eq_true] at hstands
    rw [← hs, Spelling.text, htokens, List.flatten_cons, List.append_assoc] at h
    exact h.sees (s := " ") (fun b hb => .inl (List.mem_singleton.1 hb)) hstands.1 (by decide)
  obtain ⟨u, r₁, hnext, htext, hkind, hr₁⟩ := hsees
  have hrule : Outline.label { fieldAt u with
      optional := label.is "optional"
      required := label.is "required"
      repeated := label.is "repeated"
      type := u.text } = f.rule.keyword := by
    simp only [Outline.label, Token.is, hlabel]
    revert hvalid
    cases f.rule
    all_goals decide
  obtain ⟨g, r', hfield, hdeclares, hr'⟩ := exists_yields_field (k := r₁.cursor.size + 3) hf hid hn
    hs hstands hfirst (hword.imp_right And.left) htrailing htokens hrule (hr₁.sees_pushed htext hkind)
  refine ⟨g, r', hnext.bind ?_, hdeclares, hr'⟩
  have hgroup : ¬ u.is "group" = true := by
    rw [Token.is, beq_iff_eq, htext]
    exact ht
  rw [if_neg hgroup]
  exact (yields_putBack u r₁).bind ((yields_get_iff.2 ⟨rfl, rfl⟩).bind (hfield.bind rfl))

-- A label is none of the words that start another member.
theorem member_eq_labelled {label : Token} {rule : Rule} (hvalid : rule.isValid = true)
    (hlabel : label.text = rule.keyword) (hkind : label.kind = .keyword)
    (body : Parse (List Member)) (choice : Parse Unit) :
    member body choice label = labelled body label := by
  have hnone : constructInBody body choice label.text = none := by
    rw [hlabel]
    revert hvalid
    cases rule
    . exact fun h => absurd h Bool.false_ne_true
    all_goals exact fun _ => rfl
  have hislabel : isLabel label = true := by
    unfold isLabel Token.is
    rw [hlabel]
    revert hvalid
    cases rule
    all_goals decide
  simp only [member, hkind, hnone, hislabel, if_true]
  rfl

/-! The body of a message. -/

theorem line_append (f : Field) (e : Text) :
    f.line ++ e = "  " ++ (f.rule.keyword ++ 32 :: (f.type.spelling ++ 32 :: restOf f e)) := by
  have hspace (u : Text) : 32 :: u = " " ++ u := rfl
  simp only [Field.line, Field.declaration, restOf, hspace, List.append_assoc]

/--
A field on its line is a member, and what follows the line follows the member.
-/
theorem exists_yields_line {f : Field} (hf : f.IsLegible) (hdeclarable : f.IsDeclarable) {s : Text}
    (hs : s.IsBlank) (n : Nat) (h : r.IsAt (s ++ (f.line ++ e))) :
    ∃ g r', g.Declares f ∧ r'.IsAt (10 :: e) ∧ ∀ ms r'', (body n).Yields r' ms r''
      → (body (n + 2)).Yields r (.field g :: ms) r'' := by
  have hvalid := hdeclarable.rule
  obtain ⟨k, hid, hk⟩ := hdeclarable.id
  have hindent : Text.IsBlank (s ++ "  ") := by
    intro b hb
    obtain hb | hb := List.mem_append.1 hb
    . exact hs b hb
    . change b ∈ [32, 32] at hb
      exact .inl (by simpa using hb)
  obtain ⟨hstands, hkeyword⟩ : Token.stands f.rule.keyword " " = true
      ∧ Token.classify f.rule.keyword = .keyword := by
    revert hvalid
    cases f.rule
    all_goals decide
  rw [line_append, ← List.append_assoc] at h
  obtain ⟨label, r₁, hnext, htext, hkind, hr₁⟩ :=
    h.sees (u := []) (b := 32) hindent hstands (by decide)
  obtain ⟨g, r₂, hlabelled, hdeclares, semicolon, r', hnext', htext', hkind', hr'⟩ :=
    exists_yields_labelled hf hvalid hid hk label htext (body (n + 1)) hr₁
  refine ⟨g, r', hdeclares, hr', ?_⟩
  intro ms r'' hbody
  have hmember := member_eq_labelled hvalid htext (hkind.trans hkeyword) (body (n + 1))
    (oneofBody (n + 1))
  have hother : ∀ w ∈ (["\x7d", ";"] : List Text), label.is w = false := by
    unfold Token.is
    rw [htext]
    revert hvalid
    cases f.rule
    all_goals decide
  simp only [List.forall_mem_cons] at hother
  have hsemicolon : (body (n + 1)).Yields r₂ ms r'' := by
    rw [body]
    refine hnext'.bind ?_
    rw [if_neg (by rw [Token.is, htext']; decide), if_neg (by rw [hkind']; decide),
      if_pos (by rw [Token.is, htext']; decide)]
    exact hbody
  rw [body]
  refine hnext.bind ?_
  simp only [hother, hkind, hkeyword, hmember]
  exact hlabelled.bind (hsemicolon.bind rfl)

/--
The body of a message is read as the fields that it declares.
-/
theorem exists_yields_body {fs : List Field} (hfs : ∀ f ∈ fs, f.IsLegible ∧ f.IsDeclarable) {n : Nat}
    (hn : 2 * fs.length < n) {s : Text} (hs : s.IsBlank)
    (h : r.IsAt (s ++ (fs.flatMap Field.line ++ 125 :: 10 :: e))) :
    ∃ ms r', (body n).Yields r ms r' ∧ List.Forall₂ Member.Declares ms fs ∧ r'.IsAt (10 :: e) := by
  induction fs generalizing n r s with
  | nil =>
    obtain ⟨n, rfl⟩ : ∃ k, n = k + 1 := ⟨n - 1, by omega⟩
    obtain ⟨close, r', hnext, htext, -, hr'⟩ :=
      h.sees (t := "\x7d") (u := []) (b := 10) hs (by decide) (by decide)
    refine ⟨[], r', ?_, .nil, hr'⟩
    rw [body]
    refine hnext.bind ?_
    rw [if_pos (by rw [Token.is, htext]; decide)]
    rfl
  | cons f fs ih =>
    rw [List.forall_mem_cons] at hfs
    rw [List.length_cons] at hn
    obtain ⟨n, rfl⟩ : ∃ k, n = k + 2 := ⟨n - 2, by omega⟩
    rw [List.flatMap_cons, List.append_assoc] at h
    obtain ⟨g, r₁, hg, hr₁, hbody⟩ := exists_yields_line hfs.1.1 hfs.1.2 hs n h
    obtain ⟨ms, r', hms, hdeclares, hr'⟩ := ih hfs.2 (n := n) (s := "\n") (by omega)
      (fun b hb => .inr (List.mem_singleton.1 hb)) hr₁
    exact ⟨_, r', hbody ms r' hms, .cons (.field hg) hdeclares, hr'⟩

/-! Messages and their source. -/

theorem exists_yields_messageHead (ht : t.IsMessageName) (kind : Text)
    (h : r.IsAt (32 :: (t ++ 32 :: 123 :: 10 :: e))) :
    ∃ r', (messageHead kind).Yields r t r' ∧ r'.IsAt (10 :: e) := by
  obtain ⟨s, rfl, hstands, hfirst⟩ := ht
  have hblank : Text.IsBlank " " := fun b hb => .inl (List.mem_singleton.1 hb)
  have hleads : LeadsTo (32 :: 123 :: 10 :: e) "\x7b" (10 :: e) :=
    ⟨⟨" ", hblank, rfl⟩, ⟨10, e, rfl, by decide, by decide⟩, by decide⟩
  obtain ⟨r₁, hname, hr₁⟩ := exists_yields_identifierName hleads (by decide) hstands hblank hfirst
    (fun _ => by decide) h (kind ++ " identifier")
  obtain ⟨r₂, hcomments, hr₂⟩ := exists_yields_comments hr₁ (by decide)
  obtain ⟨r₃, hexpect, hr₃⟩ := exists_yields_expect hr₂ (kind ++ " opening \x7b")
  exact ⟨r₃, hname.bind (hcomments.bind (hexpect.bind rfl)), hr₃⟩

theorem declaration_append (m : Message) (e : Text) :
    10 :: m.declaration ++ e = "\n" ++ ("message" ++ 32 :: (m.name ++ 32 :: 123 :: 10 ::
      (m.fields.flatMap Field.line ++ 125 :: 10 :: e))) := by
  have hword (u : Text) : "message" ++ 32 :: u = "message " ++ u := rfl
  have hopen (u : Text) : 32 :: 123 :: 10 :: u = " \x7b\n" ++ u := rfl
  have hclose (u : Text) : 125 :: 10 :: u = "\x7d\n" ++ u := rfl
  have hbreak (u : Text) : 10 :: u = "\n" ++ u := rfl
  rw [hword, hopen, hclose, hbreak]
  simp only [Message.declaration, List.append_assoc]

theorem length_lt_asciiCount_declaration (m : Message) :
    2 * m.fields.length < m.declaration.asciiCount := by
  have hfields : 2 * m.fields.length ≤ Text.asciiCount (m.fields.flatMap Field.line) := by
    induction m.fields with
    | nil => exact Nat.zero_le _
    | cons f fs ih =>
      have hindent : Text.asciiCount "  " = 2 := rfl
      rw [List.flatMap_cons, Text.asciiCount_append, List.length_cons, Field.line,
        Text.asciiCount_append, Text.asciiCount_append, hindent]
      omega
  have hend : Text.asciiCount "\x7d\n" = 2 := rfl
  rw [Message.declaration, Text.asciiCount_append, Text.asciiCount_append, hend]
  omega

/--
The declaration of a message is a statement of its own.
-/
theorem exists_yields_declaration {m : Message} (hname : m.name.IsMessageName)
    (hfields : ∀ f ∈ m.fields, f.IsLegible ∧ f.IsDeclarable) {n : Nat} (hn : 2 * m.fields.length < n)
    {s : Text} (hs : s.IsBlank) (h : r.IsAt (s ++ (10 :: m.declaration ++ e))) :
    ∃ st r', st.Declares m ∧ r'.IsAt (10 :: e) ∧ ∀ ss r'', (statements n).Yields r' ss r''
      → (statements (n + 1)).Yields r (st :: ss) r'' := by
  have hbreak : Text.IsBlank (s ++ "\n") := by
    intro b hb
    obtain hb | hb := List.mem_append.1 hb
    . exact hs b hb
    . exact .inr (List.mem_singleton.1 hb)
  rw [declaration_append, ← List.append_assoc] at h
  obtain ⟨token, r₁, hnext, htext, hkind, hr₁⟩ :=
    h.sees (u := []) (b := 32) hbreak (by decide) (by decide)
  obtain ⟨r₂, hhead, hr₂⟩ := exists_yields_messageHead hname "message" hr₁
  obtain ⟨ms, r', hbody, hdeclares, hr'⟩ := exists_yields_body hfields hn (s := "\n")
    (fun b hb => .inr (List.mem_singleton.1 hb)) hr₂
  refine ⟨.message m.name false ms token.line token.column, r', .message hdeclares, hr', ?_⟩
  intro ss r'' hss
  have hother : ∀ w ∈ ([";", "syntax", "edition", "package", "extend"] : List Text),
      token.is w = false := by
    unfold Token.is
    rw [htext]
    decide
  have hmessage : token.is "message" = true := by
    rw [Token.is, htext]
    decide
  have hnone : constructInSource token.text = none := by
    rw [htext]
    rfl
  simp only [List.forall_mem_cons] at hother
  rw [statements]
  refine hnext.bind ?_
  simp only [hother, hkind]
  have hst : (statement (body n) token).Yields r₁ (.message m.name false ms token.line token.column) r' := by
    simp only [statement, hkind, hnone, hmessage, hother]
    rw [htext]
    exact hhead.bind (hbody.bind rfl)
  exact hst.bind (hss.bind rfl)

-- Behind the last message there are only blanks.
theorem exists_yields_endOfSource {s : Text} (hs : s.IsBlank) (h : r.IsAt s) :
    ∃ token r', next.Yields r token r' ∧ token.kind = .endOfSource ∧ r'.IsAt [] := by
  have hskip : r.skipSpace.IsAt [] := by
    rw [← List.append_nil s] at h
    exact h.skipSpace hs rfl
  have hscan : r.scan.2.IsAt [] := by
    have hahead : r.skipSpace.cursor.mark.ahead = none := hskip.cursor.ahead
    apply hskip.scanToken_of_takeToken
    unfold Cursor.takeToken
    rw [hahead]
    exact hskip.cursor.mark
  have htext : r.scan.1 = [] := by
    obtain ⟨gs, hleft, htext⟩ := Reader.exists_left_scanToken r.skipSpace
    rw [hskip.left] at hleft
    rw [Reader.scan, htext, (List.append_eq_nil_iff.1 hleft.symm).1]
    rfl
  refine ⟨⟨Token.classify r.scan.1, r.scan.1, r.scan.2.place.1, r.scan.2.place.2⟩, r.scan.2, ?_, ?_,
    hscan⟩
  . rw [yields_next_iff h.pushed]
    exact .inl ⟨by rw [htext]; decide, yields_tokenHere_iff.2 ⟨rfl, rfl⟩⟩
  . rw [htext]
    rfl

/--
The declarations of messages are read as the statements that declare them. The number of
statements is only bounded by the length of the source.
-/
theorem exists_yields_statements {ms : List Message}
    (hms : ∀ m ∈ ms, m.IsLegible ∧ ∀ f ∈ m.fields, f.IsDeclarable) {n : Nat}
    (hn : Text.asciiCount (ms.flatMap fun m => 10 :: m.declaration) < n) {s : Text} (hs : s.IsBlank)
    (h : r.IsAt (s ++ ms.flatMap fun m => 10 :: m.declaration)) :
    ∃ ss r', (statements n).Yields r ss r' ∧ List.Forall₂ Statement.Declares ss ms
      ∧ r'.reports = [] := by
  induction ms generalizing n r s with
  | nil =>
    obtain ⟨n, rfl⟩ : ∃ k, n = k + 1 := ⟨n - 1, by omega⟩
    rw [List.flatMap_nil, List.append_nil] at h
    obtain ⟨token, r', hnext, hkind, hr'⟩ := exists_yields_endOfSource hs h
    refine ⟨[], r', ?_, .nil, hr'.reports⟩
    rw [statements]
    refine hnext.bind ?_
    rw [if_pos (by rw [hkind]; decide)]
    rfl
  | cons m ms ih =>
    obtain ⟨n, rfl⟩ : ∃ k, n = k + 1 := ⟨n - 1, by omega⟩
    obtain ⟨⟨hm, hdeclarable⟩, hms⟩ := List.forall_mem_cons.1 hms
    have hbreak : Text.asciiCount (10 :: m.declaration) = m.declaration.asciiCount + 1 := by
      simp [Text.asciiCount]
    have hlength := length_lt_asciiCount_declaration m
    rw [List.flatMap_cons, Text.asciiCount_append, hbreak] at hn
    rw [List.flatMap_cons] at h
    obtain ⟨st, r₁, hst, hr₁, hrest⟩ := exists_yields_declaration hm.name
      (fun f hf => ⟨hm.fields f hf, hdeclarable f hf⟩) (n := n) (by omega) hs h
    obtain ⟨ss, r', hss, hdeclares, hreports⟩ := ih hms (n := n) (s := "\n") (by omega)
      (fun b hb => .inr (List.mem_singleton.1 hb)) hr₁
    exact ⟨st :: ss, r', hrest ss r' hss, .cons hst hdeclares, hreports⟩

/--
The declaration of a package is a statement of its own.
-/
theorem exists_yields_package (ht : t.IsPackageName) (n : Nat)
    (h : r.IsAt ("package " ++ (t ++ 59 :: 10 :: e))) :
    ∃ line column r', r'.IsAt (10 :: e) ∧ ∀ ss r'', (statements n).Yields r' ss r''
      → (statements (n + 2)).Yields r (.package t line column :: ss) r'' := by
  obtain ⟨⟨leading, first, more, trailing⟩, rfl, ⟨hstands, hnames⟩, hleading⟩ := ht
  obtain rfl : leading = false := hleading
  have hleads : LeadsTo (59 :: 10 :: e) ";" (10 :: e) :=
    ⟨⟨[], Text.isBlank_nil, rfl⟩, ⟨10, e, rfl, by decide, by decide⟩, by decide⟩
  obtain ⟨token, r₁, hnext, htext, hkind, hr₁⟩ := h.sees (s := []) (t := "package") (u := [])
    (b := 32) Text.isBlank_nil (by decide) (by decide)
  obtain ⟨name, r₂, hdotted, hword, hname, semicolon, r', hnext', htext', hkind', hr'⟩ :=
    exists_yields_dotted (s := " ") hleads (by decide) true
      (fun b hb => .inl (List.mem_singleton.1 hb)) (.inr rfl) hnames (fun _ => by decide) hstands hr₁
  refine ⟨token.line, token.column, r', hr', ?_⟩
  intro ss r'' hss
  have hother : ∀ w ∈ ([";", "syntax", "edition"] : List Text), token.is w = false := by
    unfold Token.is
    rw [htext]
    decide
  have hpackage : token.is "package" = true := by
    rw [Token.is, htext]
    decide
  have hnone : constructInSource token.text = none := by
    rw [htext]
    rfl
  have hisName : name.isName = true := by rw [Token.isName, hword]; rfl
  simp only [List.forall_mem_cons] at hother
  have hsemicolon : (statements (n + 1)).Yields r₂ ss r'' := by
    rw [statements]
    refine hnext'.bind ?_
    rw [if_neg (by rw [hkind']; decide), if_pos (by rw [Token.is, htext']; decide)]
    exact hss
  have hst : (statement (body (n + 1)) token).Yields r₁
      (.package name.text token.line token.column) r₂ := by
    simp only [statement, hkind, hnone, hpackage, hother]
    refine hdotted.bind ?_
    rw [if_pos hisName]
    rfl
  rw [hname] at hst
  rw [statements]
  refine hnext.bind ?_
  simp only [hother, hkind]
  exact hst.bind (hsemicolon.bind rfl)

end Parse

end ValueGen
