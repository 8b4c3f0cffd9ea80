import ValueGen.Proofs.Source.Refusal

/-!
This module contains what becomes of the labels in front of the type of a field. A source may hold any
number of them. Which fields are written in a source, and with which labels, is said by relations that
follow the grammar; they know nothing of what an outline keeps. An outline keeps one label of each
field.
-/

namespace ValueGen

/--
A field as it is written: all labels in front of its type, in order and with repetitions, and what
follows them. The place is where the field starts, behind its first label.
-/
structure WrittenField where
  labels : List Text
  type : Text
  name : Text
  number : Int
  line : Nat
  column : Nat

namespace WrittenField

/--
The rule of a field with these labels: the first one of optional, required and repeated that is among
them, or nothing.
-/
def rule (labels : List Text) : Text :=
  if ("optional" : Text) ∈ labels then
    "optional"
  else if ("required" : Text) ∈ labels then
    "required"
  else if ("repeated" : Text) ∈ labels then
    "repeated"
  else
    []

/--
The field of an outline is the one that is written, and of its labels it has the rule. No label is
lost if there is at most one.
-/
structure Gives (file : Text) (w : WrittenField) (g : FieldOutline) : Prop where
  rule : g.rule = WrittenField.rule w.labels
  kept : (if g.rule = [] then [] else [g.rule]) = w.labels ↔ w.labels.length ≤ 1
  type : g.type = w.type
  name : g.name = w.name
  id : g.id = Text.ofInt w.number
  pos : g.pos = ⟨file, w.line, w.column⟩

end WrittenField

/-! The grammar of fields. -/

namespace Token

/--
The token is passed over between the parts of a source.
-/
def IsPassed (t : Token) : Prop := t.kind ≠ .endOfSource ∧ (t.text = ";" ∨ t.kind = .comment)

/--
The token is the word, and neither the end of the source nor a comment.
-/
def Opens (t : Token) (word : Text) : Prop :=
  t.kind ≠ .endOfSource ∧ t.kind ≠ .comment ∧ t.text = word

/--
The words that start a part of a message other than a field.
-/
def constructWords : List Text :=
  ["enum", "message", "extend", "option", "oneof", "map", "reserved", "extensions", "group"]

/--
The token starts a field.
-/
def OpensField (t : Token) : Prop :=
  t.kind ≠ .endOfSource ∧ t.kind ≠ .comment ∧ t.text ≠ ";" ∧ t.text ≠ "\x7d"
    ∧ t.text ∉ constructWords

instance (t : Token) : Decidable t.IsPassed := inferInstanceAs (Decidable (_ ∧ _))

instance (t : Token) (word : Text) : Decidable (t.Opens word) := inferInstanceAs (Decidable (_ ∧ _))

instance (t : Token) : Decidable t.OpensField := inferInstanceAs (Decidable (_ ∧ _))

theorem OpensField.not_isPassed {t : Token} (h : t.OpensField) : ¬ t.IsPassed := by
  obtain ⟨-, hcomment, hsemicolon, -⟩ := h
  rintro ⟨-, hpassed⟩
  exact not_or.2 ⟨hsemicolon, hcomment⟩ hpassed

theorem Opens.not_isPassed {t : Token} {word : Text} (h : t.Opens word) (hword : word ≠ ";") :
    ¬ t.IsPassed := by
  obtain ⟨-, hcomment, rfl⟩ := h
  rintro ⟨-, hpassed⟩
  exact not_or.2 ⟨hword, hcomment⟩ hpassed

end Token

namespace Parse

/--
In front of `t`, which stands where a type should be, the labels are read, with comments among them.
-/
inductive ReadsLabels : Reader → List Text → Token → Reader → Prop
  | comment {r r₁ r₂ : Reader} {ls : List Text} {t u : Token} : typeName.Yields r u r₁
      → u.kind = .comment → ReadsLabels r₁ ls t r₂ → ReadsLabels r ls t r₂
  | label {r r₁ r₂ : Reader} {ls : List Text} {t u : Token} : typeName.Yields r u r₁
      → u.kind ≠ .comment → u.text = "optional" ∨ u.text = "repeated" → ReadsLabels r₁ ls t r₂
      → ReadsLabels r (u.text :: ls) t r₂
  | type {r r₁ : Reader} {t : Token} : typeName.Yields r t r₁ → t.kind ≠ .comment
      → t.text ≠ "optional" → t.text ≠ "repeated" → ReadsLabels r [] t r₁

/--
A field is read that starts with `t`, after the labels that were read before. If no word stands where
its type should be, the field ends there: it has no name, and `ahead` is all that is known of its type.
-/
inductive ReadsField (before : List Text) (ahead : Text) (t : Token) :
    Reader → WrittenField → Reader → Prop
  | whole {r r₁ r₂ : Reader} {ls : List Text} {u : Token} {name : Text} {number : Int} :
      ReadsLabels r ls u r₁ → u.kind = .word → fieldRest.Yields r₁ (name, number, false) r₂
      → ReadsField before ahead t r ⟨before ++ ls, u.text, name, number, t.line, t.column⟩ r₂
  | cut {r r₁ : Reader} {ls : List Text} {u : Token} : ReadsLabels r ls u r₁ → u.kind ≠ .word
      → ReadsField before ahead t r ⟨before ++ ls, ahead, [], 0, t.line, t.column⟩ r₁

/--
A field is read whose first token is `t`. If that is a label, the next token tells where the field is.
-/
inductive ReadsMember (t : Token) : Reader → WrittenField → Reader → Prop
  | labelled {r r₁ r₂ : Reader} {u : Token} {w : WrittenField} : isLabel t = true
      → next.Yields r u r₁ → u.text ≠ "group"
      → ReadsField [t.text] u.text u { r₁ with pushed := some u } w r₂ → ReadsMember t r w r₂
  | plain {r r₁ : Reader} {w : WrittenField} : isLabel t = false
      → ReadsField [] [] t { r with pushed := some t } w r₁ → ReadsMember t r w r₁

/--
The fields of a message are read, up to its closing brace. There is nothing else in the message.
-/
inductive ReadsBody : Reader → List WrittenField → Reader → Prop
  | close {r r₁ : Reader} {t : Token} : next.Yields r t r₁ → t.text = "\x7d" → ReadsBody r [] r₁
  | skip {r r₁ r₂ : Reader} {t : Token} {ws : List WrittenField} : next.Yields r t r₁
      → t.text ≠ "\x7d" → t.IsPassed → ReadsBody r₁ ws r₂ → ReadsBody r ws r₂
  | field {r r₁ r₂ r₃ : Reader} {t : Token} {w : WrittenField} {ws : List WrittenField} :
      next.Yields r t r₁ → t.OpensField → ReadsMember t r₁ w r₂ → ReadsBody r₂ ws r₃
      → ReadsBody r (w :: ws) r₃

/--
A part of a source is read that starts with `t` and declares no message: a comment, the language level
or a package.
-/
inductive ReadsAside (t : Token) : Reader → Reader → Prop
  | passed {r : Reader} : t.IsPassed → ReadsAside t r r
  | level {r r₁ : Reader} : t.Opens "syntax" → (level "syntax").Yields r () r₁ → ReadsAside t r r₁
  | package {r r₁ : Reader} {u : Token} : t.Opens "package" → (dotted true).Yields r u r₁
      → ReadsAside t r r₁

/--
The fields of the messages of a source are read, up to its end.
-/
inductive ReadsSource : Reader → List (List WrittenField) → Prop
  | done {r r₁ : Reader} {t : Token} : next.Yields r t r₁ → t.kind = .endOfSource → ReadsSource r []
  | aside {r r₁ r₂ : Reader} {t : Token} {wss : List (List WrittenField)} : next.Yields r t r₁
      → ReadsAside t r₁ r₂ → ReadsSource r₂ wss → ReadsSource r wss
  | message {r r₁ r₂ r₃ : Reader} {t : Token} {name : Text} {ws : List WrittenField}
      {wss : List (List WrittenField)} : next.Yields r t r₁ → t.Opens "message"
      → (messageHead "message").Yields r₁ name r₂ → ReadsBody r₂ ws r₃ → ReadsSource r₃ wss
      → ReadsSource r (ws :: wss)

variable {r r₁ : Reader} {t : Token} {ls : List Text} {w : WrittenField} {ws : List WrittenField}

/-! What is read is determined. -/

theorem ReadsLabels.unique {ls' : List Text} {t' : Token} {r' : Reader} (h : ReadsLabels r ls t r₁)
    (h' : ReadsLabels r ls' t' r') : ls' = ls ∧ t' = t ∧ r' = r₁ := by
  induction h generalizing ls' t' r' with
  | comment hu hkind _ ih =>
    cases h' with
    | comment hu' _ h' =>
      obtain ⟨rfl, rfl⟩ := hu.unique hu'
      exact ih h'
    | label hu' hkind' _ _ | type hu' hkind' _ _ =>
      obtain ⟨rfl, rfl⟩ := hu.unique hu'
      exact absurd hkind hkind'
  | label hu hkind htext _ ih =>
    cases h' with
    | comment hu' hkind' _ =>
      obtain ⟨rfl, rfl⟩ := hu.unique hu'
      exact absurd hkind' hkind
    | label hu' _ _ h' =>
      obtain ⟨rfl, rfl⟩ := hu.unique hu'
      obtain ⟨rfl, rfl, rfl⟩ := ih h'
      exact ⟨rfl, rfl, rfl⟩
    | type hu' _ hoptional hrepeated =>
      obtain ⟨rfl, rfl⟩ := hu.unique hu'
      exact absurd htext (not_or.2 ⟨hoptional, hrepeated⟩)
  | type hu hkind hoptional hrepeated =>
    cases h' with
    | comment hu' hkind' _ =>
      obtain ⟨rfl, rfl⟩ := hu.unique hu'
      exact absurd hkind' hkind
    | label hu' _ htext _ =>
      obtain ⟨rfl, rfl⟩ := hu.unique hu'
      exact absurd htext (not_or.2 ⟨hoptional, hrepeated⟩)
    | type hu' _ _ _ =>
      obtain ⟨rfl, rfl⟩ := hu.unique hu'
      exact ⟨rfl, rfl, rfl⟩

theorem ReadsField.unique {before : List Text} {ahead : Text} {w' : WrittenField} {r' : Reader}
    (h : ReadsField before ahead t r w r₁) (h' : ReadsField before ahead t r w' r') :
    w' = w ∧ r' = r₁ := by
  cases h with
  | whole hlabels hkind hrest =>
    cases h' with
    | whole hlabels' _ hrest' =>
      obtain ⟨rfl, rfl, rfl⟩ := hlabels.unique hlabels'
      obtain ⟨hpair, rfl⟩ := hrest.unique hrest'
      cases hpair
      exact ⟨rfl, rfl⟩
    | cut hlabels' hkind' =>
      obtain ⟨rfl, rfl, rfl⟩ := hlabels.unique hlabels'
      exact absurd hkind hkind'
  | cut hlabels hkind =>
    cases h' with
    | whole hlabels' hkind' _ =>
      obtain ⟨rfl, rfl, rfl⟩ := hlabels.unique hlabels'
      exact absurd hkind' hkind
    | cut hlabels' _ =>
      obtain ⟨rfl, rfl, rfl⟩ := hlabels.unique hlabels'
      exact ⟨rfl, rfl⟩

theorem ReadsMember.unique {w' : WrittenField} {r' : Reader} (h : ReadsMember t r w r₁)
    (h' : ReadsMember t r w' r') : w' = w ∧ r' = r₁ := by
  cases h with
  | labelled hlabel hu _ hfield =>
    cases h' with
    | labelled _ hu' _ hfield' =>
      obtain ⟨rfl, rfl⟩ := hu.unique hu'
      exact hfield.unique hfield'
    | plain hplain _ => simp [hlabel] at hplain
  | plain hplain hfield =>
    cases h' with
    | labelled hlabel _ _ _ => simp [hlabel] at hplain
    | plain _ hfield' => exact hfield.unique hfield'

theorem ReadsBody.unique {ws' : List WrittenField} {r' : Reader} (h : ReadsBody r ws r₁)
    (h' : ReadsBody r ws' r') : ws' = ws ∧ r' = r₁ := by
  induction h generalizing ws' r' with
  | close ht hclose =>
    cases h' with
    | close ht' _ => exact ⟨rfl, (ht.unique ht').2⟩
    | skip ht' hopen _ _ =>
      obtain ⟨rfl, rfl⟩ := ht.unique ht'
      exact absurd hclose hopen
    | field ht' hopens _ _ =>
      obtain ⟨rfl, rfl⟩ := ht.unique ht'
      exact absurd hclose hopens.2.2.2.1
  | skip ht hopen hpassed _ ih =>
    cases h' with
    | close ht' hclose =>
      obtain ⟨rfl, rfl⟩ := ht.unique ht'
      exact absurd hclose hopen
    | skip ht' _ _ h' =>
      obtain ⟨rfl, rfl⟩ := ht.unique ht'
      exact ih h'
    | field ht' hopens _ _ =>
      obtain ⟨rfl, rfl⟩ := ht.unique ht'
      exact absurd hpassed hopens.not_isPassed
  | field ht hopens hmember _ ih =>
    cases h' with
    | close ht' hclose =>
      obtain ⟨rfl, rfl⟩ := ht.unique ht'
      exact absurd hclose hopens.2.2.2.1
    | skip ht' _ hpassed _ =>
      obtain ⟨rfl, rfl⟩ := ht.unique ht'
      exact absurd hpassed hopens.not_isPassed
    | field ht' _ hmember' h' =>
      obtain ⟨rfl, rfl⟩ := ht.unique ht'
      obtain ⟨rfl, rfl⟩ := hmember.unique hmember'
      obtain ⟨rfl, rfl⟩ := ih h'
      exact ⟨rfl, rfl⟩

namespace ReadsAside

theorem kind_ne (h : ReadsAside t r r₁) : t.kind ≠ .endOfSource := by
  cases h with
  | passed h | level h _ | package h _ => exact h.1

theorem not_opens_message (h : ReadsAside t r r₁) : ¬ t.Opens "message" := by
  intro hmessage
  cases h with
  | passed h => exact hmessage.not_isPassed (by decide) h
  | level h _ | package h _ => exact absurd (h.2.2.symm.trans hmessage.2.2) (by decide)

theorem unique {r' : Reader} (h : ReadsAside t r r₁) (h' : ReadsAside t r r') : r' = r₁ := by
  cases h with
  | passed h =>
    cases h' with
    | passed _ => rfl
    | level h' _ | package h' _ => exact absurd h (h'.not_isPassed (by decide))
  | level h hlevel =>
    cases h' with
    | passed h' => exact absurd h' (h.not_isPassed (by decide))
    | level _ hlevel' => exact (hlevel.unique hlevel').2
    | package h' _ => exact absurd (h.2.2.symm.trans h'.2.2) (by decide)
  | package h hname =>
    cases h' with
    | passed h' => exact absurd h' (h.not_isPassed (by decide))
    | level h' _ => exact absurd (h.2.2.symm.trans h'.2.2) (by decide)
    | package _ hname' => exact (hname.unique hname').2

end ReadsAside

theorem ReadsSource.unique {wss wss' : List (List WrittenField)} (h : ReadsSource r wss)
    (h' : ReadsSource r wss') : wss' = wss := by
  induction h generalizing wss' with
  | done ht hend =>
    cases h' with
    | done _ _ => rfl
    | aside ht' haside _ =>
      obtain ⟨rfl, rfl⟩ := ht.unique ht'
      exact absurd hend haside.kind_ne
    | message ht' hopens _ _ _ =>
      obtain ⟨rfl, rfl⟩ := ht.unique ht'
      exact absurd hend hopens.1
  | aside ht haside _ ih =>
    cases h' with
    | done ht' hend =>
      obtain ⟨rfl, rfl⟩ := ht.unique ht'
      exact absurd hend haside.kind_ne
    | aside ht' haside' h' =>
      obtain ⟨rfl, rfl⟩ := ht.unique ht'
      obtain rfl := haside.unique haside'
      exact ih h'
    | message ht' hopens _ _ _ =>
      obtain ⟨rfl, rfl⟩ := ht.unique ht'
      exact absurd hopens haside.not_opens_message
  | message ht hopens hhead hbody _ ih =>
    cases h' with
    | done ht' hend =>
      obtain ⟨rfl, rfl⟩ := ht.unique ht'
      exact absurd hend hopens.1
    | aside ht' haside _ =>
      obtain ⟨rfl, rfl⟩ := ht.unique ht'
      exact absurd hopens haside.not_opens_message
    | message ht' _ hhead' hbody' h' =>
      obtain ⟨rfl, rfl⟩ := ht.unique ht'
      obtain ⟨-, rfl⟩ := hhead.unique hhead'
      obtain ⟨rfl, rfl⟩ := hbody.unique hbody'
      obtain rfl := ih h'
      rfl

end Parse

/-! What becomes of a field. -/

theorem labels_ne : ("optional" : Text) ≠ "repeated" ∧ ("required" : Text) ≠ "optional"
    ∧ ("required" : Text) ≠ "repeated" := by
  decide

/--
The field with more labels in front of its type.
-/
def FieldStatement.withLabels (f : FieldStatement) (ls : List Text) : FieldStatement :=
  { f with
    optional := f.optional || ("optional" : Text) ∈ ls
    repeated := f.repeated || ("repeated" : Text) ∈ ls }

theorem FieldStatement.withLabels_nil (f : FieldStatement) : f.withLabels [] = f := by
  simp [withLabels]

theorem FieldStatement.withLabels_optional (f : FieldStatement) (ls : List Text) :
    f.withLabels ("optional" :: ls) = withLabels { f with optional := true } ls := by
  simp [withLabels, labels_ne.1.symm]

theorem FieldStatement.withLabels_repeated (f : FieldStatement) (ls : List Text) :
    f.withLabels ("repeated" :: ls) = withLabels { f with repeated := true } ls := by
  simp [withLabels, labels_ne.1]

namespace WrittenField

/--
The field that was read is the one that is written, with each of its labels.
-/
structure IsOf (w : WrittenField) (f : FieldStatement) : Prop where
  optional : f.optional = true ↔ ("optional" : Text) ∈ w.labels
  required : f.required = true ↔ ("required" : Text) ∈ w.labels
  repeated : f.repeated = true ↔ ("repeated" : Text) ∈ w.labels
  labels : ∀ l ∈ w.labels, l = "optional" ∨ l = "required" ∨ l = "repeated"
  type : f.type = w.type
  name : f.name = w.name
  number : f.number = w.number
  line : f.line = w.line
  column : f.column = w.column

variable {w : WrittenField} {f : FieldStatement}

theorem IsOf.append (h : w.IsOf f) {ls : List Text} (hls : ∀ l ∈ ls, l = "optional" ∨ l = "repeated") :
    IsOf { w with labels := w.labels ++ ls } (f.withLabels ls) := by
  have hrequired : ("required" : Text) ∉ ls :=
    fun hmem => (hls _ hmem).elim labels_ne.2.1 labels_ne.2.2
  refine ⟨?_, ?_, ?_, ?_, h.type, h.name, h.number, h.line, h.column⟩
  . simp [FieldStatement.withLabels, h.optional]
  . simp [FieldStatement.withLabels, h.required, hrequired]
  . simp [FieldStatement.withLabels, h.repeated]
  . intro l hl
    obtain hl | hl := List.mem_append.1 hl
    . exact h.labels l hl
    . exact (hls l hl).imp_right .inr

theorem rule_mem {labels : List Text} {l : Text} (hl : l ∈ labels)
    (h : l = "optional" ∨ l = "required" ∨ l = "repeated") :
    rule labels ∈ labels ∧ rule labels ≠ [] := by
  unfold rule
  split
  . next hmem => exact ⟨hmem, by decide⟩
  . next hoptional =>
    split
    . next hmem => exact ⟨hmem, by decide⟩
    . next hrequired =>
      split
      . next hmem => exact ⟨hmem, by decide⟩
      . next hrepeated =>
        exfalso
        obtain h | h | h := h
        . exact hoptional (h ▸ hl)
        . exact hrequired (h ▸ hl)
        . exact hrepeated (h ▸ hl)

/--
The rule tells all labels if there is at most one.
-/
theorem IsOf.rule_eq_iff (h : w.IsOf f) :
    (if rule w.labels = [] then [] else [rule w.labels]) = w.labels ↔ w.labels.length ≤ 1 := by
  constructor
  . intro heq
    rw [← heq]
    split
    all_goals simp
  . intro hlength
    rcases hlabels : w.labels with _ | ⟨l, _ | ⟨l', ls⟩⟩
    . rfl
    . have hl : l ∈ w.labels := by simp [hlabels]
      obtain ⟨hmem, hne⟩ := rule_mem hl (h.labels l hl)
      rw [hlabels] at hmem hne
      rw [if_neg hne, List.mem_singleton.1 hmem]
    . rw [hlabels] at hlength
      simp at hlength

theorem IsOf.gives (h : w.IsOf f) (file : Text) :
    w.Gives file ⟨Outline.label f, f.type, f.name, Text.ofInt f.number, ⟨file, f.line, f.column⟩⟩ := by
  have hrule : Outline.label f = rule w.labels := by
    simp only [Outline.label, h.optional, h.required, h.repeated, rule]
  refine ⟨hrule, ?_, h.type, h.name, ?_, ?_⟩
  . simp only [hrule]
    exact h.rule_eq_iff
  . simp only [h.number]
  . simp only [h.line, h.column]

end WrittenField

namespace Parse

variable {r r₁ : Reader} {t : Token} {f g : FieldStatement} {n : Nat}

theorem ReadsLabels.mem {ls : List Text} (h : ReadsLabels r ls t r₁) :
    ∀ l ∈ ls, l = "optional" ∨ l = "repeated" := by
  induction h with
  | comment _ _ _ ih => exact ih
  | label _ _ htext _ ih => exact List.forall_mem_cons.2 ⟨htext, ih⟩
  | type => simp

theorem exists_readsLabels (h : (field n f).Yields r g r₁) (hg : g.hasOptions = false) :
    ∃ ls u r₂, ReadsLabels r ls u r₂
      ∧ (u.kind = .word ∧ (∃ name number, fieldRest.Yields r₂ (name, number, false) r₁
          ∧ g = { f.withLabels ls with
            type := u.text, name := name, number := number, hasOptions := false })
        ∨ u.kind ≠ .word ∧ r₁ = r₂ ∧ g = f.withLabels ls) := by
  induction n generalizing r f with
  | zero => cases h
  | succ n ih =>
    simp only [field, yields_bind_iff] at h
    obtain ⟨t, r₂, htype, h⟩ := h
    split at h
    . next hcomment =>
      obtain ⟨ls, u, r₃, hlabels, hcases⟩ := ih h
      exact ⟨ls, u, r₃, .comment htype (by simpa using hcomment) hlabels, hcases⟩
    . next hcomment =>
      have hkind : t.kind ≠ .comment := by simpa using hcomment
      split at h
      . next hrepeated =>
        have htext : t.text = "repeated" := by simpa [Token.is] using hrepeated
        obtain ⟨ls, u, r₃, hlabels, hcases⟩ := ih h
        refine ⟨t.text :: ls, u, r₃, .label htype hkind (.inr htext) hlabels, ?_⟩
        rwa [htext, FieldStatement.withLabels_repeated]
      . next hrepeated =>
        split at h
        . next hoptional =>
          have htext : t.text = "optional" := by simpa [Token.is] using hoptional
          obtain ⟨ls, u, r₃, hlabels, hcases⟩ := ih h
          refine ⟨t.text :: ls, u, r₃, .label htype hkind (.inl htext) hlabels, ?_⟩
          rwa [htext, FieldStatement.withLabels_optional]
        . next hoptional =>
          have hlabels : ReadsLabels r [] t r₂ := by
            apply ReadsLabels.type htype hkind
            . simpa [Token.is] using hoptional
            . simpa [Token.is] using hrepeated
          refine ⟨[], t, r₂, hlabels, ?_⟩
          rw [FieldStatement.withLabels_nil]
          split at h
          . next hword =>
            simp only [yields_bind_iff] at h
            obtain ⟨⟨name, number, hasOptions⟩, r₃, hrest, h⟩ := h
            obtain ⟨rfl, rfl⟩ := yields_pure_iff.1 h
            obtain rfl : hasOptions = false := hg
            exact .inl ⟨by simpa using hword, name, number, hrest, rfl⟩
          . next hword =>
            obtain ⟨rfl, rfl⟩ := yields_pure_iff.1 h
            exact .inr ⟨by simpa using hword, rfl, rfl⟩

/--
A field is read with the labels in front of its type, after the ones that were read before.
-/
theorem exists_readsField {before : List Text} {ahead : Text}
    (hf : WrittenField.IsOf ⟨before, ahead, [], 0, t.line, t.column⟩ f)
    (h : (field n f).Yields r g r₁) (hg : g.hasOptions = false) :
    ∃ w, ReadsField before ahead t r w r₁ ∧ w.IsOf g := by
  obtain ⟨ls, u, r₂, hlabels, ⟨hword, name, number, hrest, rfl⟩ | ⟨hword, rfl, rfl⟩⟩ :=
    exists_readsLabels h hg
  . have hof := hf.append hlabels.mem
    exact ⟨_, .whole hlabels hword hrest, hof.optional, hof.required, hof.repeated, hof.labels, rfl,
      rfl, rfl, hof.line, hof.column⟩
  . exact ⟨_, .cut hlabels hword, hf.append hlabels.mem⟩

/-! Members and messages. -/

theorem not_mem_constructWords {b : Parse (List Member)} {c : Parse Unit} {word : Text}
    (h : constructInBody b c word = none) : word ∉ Token.constructWords := by
  unfold constructInBody at h
  repeat' split at h
  all_goals cases h
  simp_all [Token.constructWords]

theorem isOf_fieldAt (t : Token) : WrittenField.IsOf ⟨[], [], [], 0, t.line, t.column⟩ (fieldAt t) := by
  constructor
  all_goals simp [fieldAt]

theorem isOf_labelled (u : Token) (h : isLabel t = true) :
    WrittenField.IsOf ⟨[t.text], u.text, [], 0, u.line, u.column⟩
      { fieldAt u with
        optional := t.is "optional"
        required := t.is "required"
        repeated := t.is "repeated"
        type := u.text } := by
  have hmem (label : Text) : t.is label = true ↔ label ∈ [t.text] := by
    rw [Token.is, beq_iff_eq, List.mem_singleton, eq_comm]
  refine ⟨hmem _, hmem _, hmem _, ?_, rfl, rfl, rfl, rfl, rfl⟩
  intro l hl
  obtain rfl := List.mem_singleton.1 hl
  simp only [isLabel, Token.is, Bool.or_eq_true, beq_iff_eq] at h
  obtain (h | h) | h := h
  . exact .inl h
  . exact .inr (.inr h)
  . exact .inr (.inl h)

theorem yields_member_of_comment {b : Parse (List Member)} {c : Parse Unit} {m : Member}
    (ht : t.kind = .comment) (h : (member b c t).Yields r m r₁) : m = .comment ∧ r₁ = r := by
  rw [member, if_pos (by simpa using ht)] at h
  exact yields_pure_iff.1 h

theorem kind_of_yields_comment {b : Parse (List Member)} {c : Parse Unit}
    (h : (member b c t).Yields r .comment r₁) : t.kind = .comment := by
  unfold member at h
  split at h
  . next hcomment => simpa using hcomment
  . exfalso
    split at h
    . simp only [yields_bind_iff] at h
      obtain ⟨_, _, -, h⟩ := h
      cases h
    . split at h
      . simp only [labelled, yields_bind_iff] at h
        obtain ⟨_, _, -, h⟩ := h
        split at h
        . simp only [yields_bind_iff] at h
          obtain ⟨_, _, -, _, _, -, h⟩ := h
          cases h
        . simp only [yields_bind_iff] at h
          obtain ⟨_, _, -, _, _, -, _, _, -, h⟩ := h
          cases h
      . simp only [yields_bind_iff] at h
        obtain ⟨_, _, -, _, _, -, _, _, -, h⟩ := h
        cases h

theorem exists_readsMember {b : Parse (List Member)} {c : Parse Unit}
    (ht : t.kind ≠ .comment) (h : (member b c t).Yields r (.field g) r₁) (hg : g.hasOptions = false) :
    t.text ∉ Token.constructWords ∧ ∃ w, ReadsMember t r w r₁ ∧ w.IsOf g := by
  unfold member at h
  split at h
  . next hcomment => exact absurd (by simpa using hcomment) ht
  . split at h
    . simp only [yields_bind_iff] at h
      obtain ⟨_, _, -, h⟩ := h
      cases h
    . next hconstruct =>
      refine ⟨not_mem_constructWords hconstruct, ?_⟩
      split at h
      . next hlabel =>
        simp only [labelled, yields_bind_iff] at h
        obtain ⟨u, r₂, hnext, h⟩ := h
        split at h
        . simp only [yields_bind_iff] at h
          obtain ⟨_, _, -, _, _, -, h⟩ := h
          cases h
        . next hgroup =>
          simp only [yields_bind_iff, yields_get_iff] at h
          obtain ⟨_, r₃, hput, r₃, r₃, ⟨rfl, rfl⟩, f, r₄, hfield, h⟩ := h
          cases hput
          cases h
          obtain ⟨w, hw, hwof⟩ := exists_readsField (isOf_labelled u hlabel) hfield hg
          exact ⟨w, .labelled hlabel hnext (by simpa [Token.is] using hgroup) hw, hwof⟩
      . next hlabel =>
        simp only [yields_bind_iff, yields_get_iff] at h
        obtain ⟨_, r₃, hput, r₃, r₃, ⟨rfl, rfl⟩, f, r₄, hfield, h⟩ := h
        cases hput
        cases h
        obtain ⟨w, hw, hwof⟩ := exists_readsField (isOf_fieldAt t) hfield hg
        exact ⟨w, .plain (by simpa using hlabel) hw, hwof⟩

theorem exists_readsBody (file : Text) {ms : List Member} (h : (body n).Yields r ms r₁)
    (hms : ∀ m ∈ ms, m.IsSupported) :
    ∃ ws, ReadsBody r ws r₁
      ∧ List.Forall₂ (WrittenField.Gives file) ws (ms.filterMap (·.fieldOutline? file)) := by
  induction n generalizing r ms with
  | zero =>
    rw [body] at h
    cases h
  | succ n ih =>
    rw [body] at h
    simp only [yields_bind_iff] at h
    obtain ⟨t, r₂, hnext, h⟩ := h
    split at h
    . next hclose =>
      cases h
      exact ⟨[], .close hnext (by simpa [Token.is] using hclose), .nil⟩
    . next hopen =>
      have hbrace : t.text ≠ "\x7d" := by simpa [Token.is] using hopen
      split at h
      . exact absurd h not_yields_unexpected
      . next hend =>
        have hkind : t.kind ≠ .endOfSource := by simpa using hend
        split at h
        . next hsemicolon =>
          have htext : t.text = ";" := by simpa [Token.is] using hsemicolon
          obtain ⟨ws, hws, hgives⟩ := ih h hms
          exact ⟨ws, .skip hnext hbrace ⟨hkind, .inl htext⟩ hws, hgives⟩
        . next hsemicolon =>
          have htext : t.text ≠ ";" := by simpa [Token.is] using hsemicolon
          simp only [yields_bind_iff] at h
          obtain ⟨m, r₃, hmember, ms', r₄, hbody, h⟩ := h
          cases h
          obtain ⟨hm, hms'⟩ := List.forall_mem_cons.1 hms
          obtain ⟨ws, hws, hgives⟩ := ih hbody hms'
          cases m with
          | other => exact absurd hm id
          | comment =>
            have hcomment := kind_of_yields_comment hmember
            obtain ⟨-, rfl⟩ := yields_member_of_comment hcomment hmember
            exact ⟨ws, .skip hnext hbrace ⟨hkind, .inr hcomment⟩ hws, hgives⟩
          | field g =>
            have hcomment : t.kind ≠ .comment := by
              intro hcomment
              cases (yields_member_of_comment hcomment hmember).1
            obtain ⟨hconstruct, w, hw, hof⟩ := exists_readsMember hcomment hmember hm
            exact ⟨w :: ws, .field hnext ⟨hkind, hcomment, htext, hbrace, hconstruct⟩ hw hws,
              .cons (hof.gives file) hgives⟩

/-! Sources. -/

/--
A statement declares no message, or it is a message whose fields are read.
-/
theorem readsAside_or_exists_readsBody (file : Text) {s : Statement} (ht : t.kind ≠ .endOfSource)
    (h : (statement (body n) t).Yields r s r₁) (hs : s.IsSupported) :
    s.messageOutline? file = none ∧ ReadsAside t r r₁
      ∨ ∃ name r₂ ws m, t.Opens "message" ∧ (messageHead "message").Yields r name r₂
        ∧ ReadsBody r₂ ws r₁ ∧ s.messageOutline? file = some m
        ∧ List.Forall₂ (WrittenField.Gives file) ws m.fields := by
  unfold statement at h
  split at h
  . next hcomment =>
    cases h
    exact .inl ⟨rfl, .passed ⟨ht, .inr (by simpa using hcomment)⟩⟩
  . next hcomment =>
    have hopens {word : Text} (hword : t.is word = true) : t.Opens word :=
      ⟨ht, by simpa using hcomment, by simpa [Token.is] using hword⟩
    split at h
    . simp only [yields_bind_iff] at h
      obtain ⟨_, _, -, h⟩ := h
      cases h
      exact absurd hs id
    . split at h
      . next hsyntax =>
        simp only [yields_bind_iff] at h
        obtain ⟨_, r₂, hlevel, h⟩ := h
        cases h
        exact .inl ⟨rfl, .level (hopens hsyntax) hlevel⟩
      . split at h
        . simp only [yields_bind_iff] at h
          obtain ⟨_, _, -, h⟩ := h
          cases h
          exact absurd hs id
        . split at h
          . next hpackage =>
            simp only [yields_bind_iff] at h
            obtain ⟨name, r₂, hdotted, h⟩ := h
            split at h
            . cases h
              exact .inl ⟨rfl, .package (hopens hpackage) hdotted⟩
            . exact absurd h not_yields_unexpected
          . split at h
            . next hmessage =>
              simp only [yields_bind_iff] at h
              obtain ⟨name, r₂, hhead, ms, r₃, hbody, h⟩ := h
              cases h
              obtain ⟨hextend, hms⟩ := hs
              rw [hextend, Bool.or_false] at hmessage
              obtain ⟨ws, hws, hgives⟩ := exists_readsBody file hbody hms
              have hword := hopens hmessage
              rw [hword.2.2] at hhead
              exact .inr ⟨name, r₂, ws, _, hword, hhead, hws, rfl, hgives⟩
            . exact absurd h not_yields_unexpected

theorem exists_readsSource (file : Text) {ss : List Statement} (h : (statements n).Yields r ss r₁)
    (hss : ∀ s ∈ ss, s.IsSupported) :
    ∃ wss, ReadsSource r wss
      ∧ List.Forall₂ (fun ws (m : MessageOutline) => List.Forall₂ (WrittenField.Gives file) ws m.fields)
        wss (ss.filterMap (·.messageOutline? file)) := by
  induction n generalizing r ss with
  | zero => cases h
  | succ n ih =>
    simp only [statements, yields_bind_iff] at h
    obtain ⟨t, r₂, hnext, h⟩ := h
    split at h
    . next hend =>
      cases h
      exact ⟨[], .done hnext (by simpa using hend), .nil⟩
    . next hend =>
      have hkind : t.kind ≠ .endOfSource := by simpa using hend
      split at h
      . next hsemicolon =>
        have htext : t.text = ";" := by simpa [Token.is] using hsemicolon
        obtain ⟨wss, hwss, hgives⟩ := ih h hss
        exact ⟨wss, .aside hnext (.passed ⟨hkind, .inl htext⟩) hwss, hgives⟩
      . next hsemicolon =>
        simp only [yields_bind_iff] at h
        obtain ⟨s, r₃, hstatement, ss', r₄, hrest, h⟩ := h
        cases h
        obtain ⟨hs, hss'⟩ := List.forall_mem_cons.1 hss
        obtain ⟨wss, hwss, hgives⟩ := ih hrest hss'
        obtain ⟨hnone, haside⟩ | ⟨name, r₄, ws, m, hopens, hhead, hbody, hsome, hfields⟩ :=
          readsAside_or_exists_readsBody file hkind hstatement hs
        . rw [List.filterMap_cons_none hnone]
          exact ⟨wss, .aside hnext haside hwss, hgives⟩
        . rw [List.filterMap_cons_some hsome]
          exact ⟨ws :: wss, .message hnext hopens hhead hbody hwss, .cons hfields hgives⟩

end Parse

namespace Source

/--
Which fields are written in a source that is accepted, and with which labels, is determined by the
source. The fields of its outline are these, and each has the rule that its labels come to.
-/
theorem gives_of_outline (file source : Text) (o : Outline) (h : outline file source = .ok o) :
    ∃ wss, (∀ wss', Parse.ReadsSource (Reader.start file source) wss' ↔ wss' = wss)
      ∧ List.Forall₂ (fun ws (m : MessageOutline) => List.Forall₂ (WrittenField.Gives file) ws m.fields)
        wss o.messages := by
  unfold outline at h
  split at h
  . cases h
  . next ss hss =>
    have hjudges := Outline.judges_ofStatements (hasName_of_statements hss) file
    rw [hjudges.declares o h]
    have hsupported : Outline.AreSupported ss := by
      apply hjudges.accepts.1
      rw [h]
      rfl
    obtain ⟨r, hyields, -⟩ := (statements_eq_ok_iff file source ss).1 hss
    obtain ⟨wss, hwss, hgives⟩ := Parse.exists_readsSource file hyields hsupported.1
    refine ⟨wss, fun wss' => ?_, hgives⟩
    constructor
    . exact hwss.unique
    . rintro rfl
      exact hwss

/-! A field with two labels. -/

instance {α : Type} [DecidableEq α] (x : Parse α) (r : Reader) (a : α) :
    Decidable (∃ r', x.Yields r a r') :=
  match h : x.run.run r with
  | (.ok b, r') => decidable_of_iff (b = a) (by
    constructor
    . rintro rfl
      exact ⟨r', h⟩
    . rintro ⟨r₁, hx⟩
      exact (Parse.Yields.unique h hx).1.symm)
  | (.error _, _) => isFalse (by
    rintro ⟨r₁, hx⟩
    cases h.symm.trans hx)

def twoLabels : Text := "message A \x7b optional repeated int32 x = 1; \x7d"

/--
The tokens of the source, with the second label put back as the reader does.
-/
def readTwoLabels : Parse (List Token × Text × Int × Bool) := do
  let opening ← Parse.next
  let _ ← Parse.messageHead "message"
  let first ← Parse.next
  let second ← Parse.next
  Parse.putBack second
  let again ← Parse.typeName
  let type ← Parse.typeName
  let rest ← Parse.fieldRest
  let semicolon ← Parse.next
  let closing ← Parse.next
  let last ← Parse.next
  return ([opening, first, second, again, type, semicolon, closing, last], rest)

theorem yields_twoLabels : ∃ r, readTwoLabels.Yields (Reader.start "a.proto" twoLabels)
    ([⟨.keyword, "message", 1, 1⟩, ⟨.keyword, "optional", 1, 13⟩, ⟨.keyword, "repeated", 1, 22⟩,
      ⟨.keyword, "repeated", 1, 22⟩, ⟨.word, "int32", 1, 31⟩, ⟨.symbol, ";", 1, 42⟩,
      ⟨.symbol, "\x7d", 1, 44⟩, ⟨.endOfSource, [], 1, 45⟩], "x", 1, false) r := by
  decide +kernel

theorem readsSource_twoLabels : Parse.ReadsSource (Reader.start "a.proto" twoLabels)
    [[⟨["optional", "repeated"], "int32", "x", 1, 1, 22⟩]] := by
  obtain ⟨r, h⟩ := yields_twoLabels
  simp only [readTwoLabels, Parse.yields_bind_iff, Parse.yields_pure_iff] at h
  obtain ⟨opening, r₁, hopening, name, r₂, hhead, first, r₃, hfirst, second, r₄, hsecond, _, r₅, hput,
    again, r₆, hagain, type, r₇, htype, rest, r₈, hrest, semicolon, r₉, hsemicolon, closing, r₁₀,
    hclosing, last, r₁₁, hlast, heq, -⟩ := h
  cases hput
  simp only [Prod.mk.injEq, List.cons.injEq, and_true] at heq
  obtain ⟨⟨rfl, rfl, rfl, rfl, rfl, rfl, rfl, rfl⟩, rfl⟩ := heq
  have hlabels : Parse.ReadsLabels _ ["repeated"] _ r₇ :=
    .label hagain (by decide) (.inr rfl) (.type htype (by decide) (by decide) (by decide))
  have hfield : Parse.ReadsField ["optional"] "repeated" ⟨.keyword, "repeated", 1, 22⟩ _
      ⟨["optional", "repeated"], "int32", "x", 1, 1, 22⟩ r₈ :=
    .whole hlabels rfl hrest
  have hbody := Parse.ReadsBody.field hfirst (by decide) (.labelled rfl hsecond (by decide) hfield)
    (.skip hsemicolon (by decide) (by decide) (.close hclosing rfl))
  exact .message hopening (by decide) hhead hbody (.done hlast rfl)

def twoLabelsOutline : Outline :=
  ⟨"a.proto", [], [⟨"A", ⟨"a.proto", 1, 1⟩,
    [⟨"optional", "int32", "x", "1", ⟨"a.proto", 1, 22⟩⟩]⟩]⟩

theorem outline_twoLabels : outline "a.proto" twoLabels = .ok twoLabelsOutline := by decide +kernel

theorem gives_of_outline_twoLabels :
    outline "a.proto" twoLabels = .ok twoLabelsOutline
      ∧ List.Forall₂
        (fun ws (m : MessageOutline) => List.Forall₂ (WrittenField.Gives "a.proto") ws m.fields)
        [[⟨["optional", "repeated"], "int32", "x", 1, 1, 22⟩]] twoLabelsOutline.messages := by
  obtain ⟨wss, hwss, hgives⟩ := gives_of_outline _ _ _ outline_twoLabels
  obtain rfl := (hwss _).1 readsSource_twoLabels
  exact ⟨outline_twoLabels, hgives⟩

/--
The second label is lost.
-/
theorem exists_label_lost : ∃ o w g, outline "a.proto" twoLabels = .ok o
    ∧ Parse.ReadsSource (Reader.start "a.proto" twoLabels) [[w]]
    ∧ o.messages = [⟨"A", ⟨"a.proto", 1, 1⟩, [g]⟩]
    ∧ w.labels = ["optional", "repeated"] ∧ g.rule = "optional" :=
  ⟨_, _, _, outline_twoLabels, readsSource_twoLabels, rfl, rfl, rfl⟩

end Source

end ValueGen
