import ValueGen.Proofs.Source.Place

/-!
This module contains that the parts of a source have places: all fields, members and statements that a
reader hands out say where they start. The lemmas follow the functions of the grammar, one for each.
-/

namespace ValueGen

def FieldStatement.IsPlaced (f : FieldStatement) : Prop := 0 < f.line ∧ 0 < f.column

def Member.IsPlaced : Member → Prop
  | .comment => True
  | .field f => f.IsPlaced
  | .other _ line column => 0 < line ∧ 0 < column

def Statement.IsPlaced : Statement → Prop
  | .comment | .level | .edition => True
  | .package _ line column => 0 < line ∧ 0 < column
  | .message _ _ members line column => (0 < line ∧ 0 < column) ∧ ∀ m ∈ members, m.IsPlaced
  | .other _ line column => 0 < line ∧ 0 < column

namespace Parse

variable {file : Text} {t : Token} {expected : Text}

/-! Numbers and options. -/

theorem places_integer {n : Nat} : Places file (integer n) fun _ => True := by
  induction n with
  | zero => exact .stuck
  | succ n ih =>
    refine .seq places_next fun t => ?_
    apply Places.ite
    . exact .map ih fun _ _ => trivial
    . apply Places.ite
      . exact .pure trivial
      . apply Places.ite
        . exact .pure trivial
        . split
          all_goals exact .pure trivial

theorem places_optionName {n : Nat} {done : Text} :
    Places file (optionName n done) fun _ => True := by
  induction n generalizing done with
  | zero => exact .stuck
  | succ n ih =>
    apply Places.bind places_dotted
    intro t ht
    apply Places.ite
    . exact ih
    . apply Places.ite
      . exact ih
      . apply Places.ite
        . refine .seq places_dotAhead fun leading => ?_
          have hname (dot : Text) : Places file (do
              let u ← dotted true
              if u.kind != .word then
                unexpected u.text "option name"
              else
                let close ← next
                if !close.is ")" then
                  unexpected u.text "option full identifier closing )"
                else
                  optionName n (done ++ "(" ++ dot ++ u.text ++ ")")) fun _ => True := by
            refine .seq places_dotted fun u => ?_
            apply Places.ite
            . exact .unexpected _ (by decide)
            . refine .seq places_next fun close => ?_
              apply Places.ite
              . exact .unexpected _ (by decide)
              . exact ih
          simp only
          apply Places.ite
          . refine .seq places_next fun _ => ?_
            exact hname _
          . exact hname _
        . exact .map (places_putBack ht) fun _ _ => trivial

theorem places_moreQuoted {n : Nat} : Places file (moreQuoted n) fun _ => True := by
  induction n with
  | zero => exact .stuck
  | succ n ih =>
    apply Places.bind places_next
    intro t ht
    apply Places.ite
    . exact ih
    . exact places_putBack ht

/-! The three functions for the value of an option call each other with less fuel. -/

section

variable {n : Nat} (hvalue : Places file (value n) fun _ => True)
  (hvalues : Places file (values n) fun _ => True)
  (hentries : ∀ b, Places file (entries n b) fun _ => True)

include hvalue hvalues hentries in
theorem places_value_succ : Places file (value (n + 1)) fun _ => True := by
  rw [value]
  refine .seq places_next fun t => ?_
  apply Places.ite
  . exact hvalue
  . apply Places.ite
    . apply Places.get_bind
      intro r
      apply Places.ite
      . exact .map places_next fun _ _ => trivial
      . exact hvalues
    . apply Places.ite
      . exact hentries _
      . exact .get_bind fun _ => places_moreQuoted

include hvalue hvalues in
theorem places_values_succ : Places file (values (n + 1)) fun _ => True := by
  rw [values]
  refine .seq hvalue fun _ => ?_
  refine .seq places_next fun t => ?_
  apply Places.ite
  . exact hvalues
  . apply Places.ite
    . exact .unexpected _ (by decide)
    . exact .pure trivial

include hvalue hentries in
theorem places_entryValue {u : Token} (hu : u.IsPlaced) : Places file (do
      if u.is "\x7b" then
        entries n false
        entries n true
      else
        putBack u
        value n
        entries n true) fun _ => True := by
  apply Places.ite
  . refine .seq (hentries _) fun _ => ?_
    exact hentries _
  . refine .seq (places_putBack hu) fun _ => ?_
    refine .seq hvalue fun _ => ?_
    exact hentries _

include hvalue hentries in
theorem places_entries_succ (nonempty : Bool) :
    Places file (entries (n + 1) nonempty) fun _ => True := by
  rw [entries]
  apply Places.bind places_dotted
  intro t ht
  apply Places.ite
  . exact places_putBack ht
  . apply Places.ite
    . exact .pure trivial
    . apply Places.ite
      . exact hentries _
      . apply Places.ite
        . apply Places.ite
          . exact hentries _
          . exact .unexpected _ (by decide)
        . apply Places.ite
          . exact .unexpected _ (by decide)
          . apply Places.ite
            . exact hentries _
            . apply Places.bind places_next
              intro u hu
              simp only
              apply Places.ite
              . apply Places.bind places_next
                intro v hv
                exact places_entryValue hvalue hentries hv
              . exact .bind (.pure (p := Token.IsPlaced) hu)
                  fun _ => places_entryValue hvalue hentries

end

theorem places_value_values_entries {n : Nat} : Places file (value n) (fun _ => True)
    ∧ Places file (values n) (fun _ => True) ∧ ∀ b, Places file (entries n b) fun _ => True := by
  induction n with
  | zero =>
    rw [value, values]
    refine ⟨.stuck, .stuck, fun _ => ?_⟩
    rw [entries]
    exact .stuck
  | succ n ih =>
    obtain ⟨hvalue, hvalues, hentries⟩ := ih
    exact ⟨places_value_succ hvalue hvalues hentries, places_values_succ hvalue hvalues,
      places_entries_succ hvalue hentries⟩

theorem places_option : Places file option fun _ => True := by
  refine .seq places_comments fun _ => ?_
  apply Places.get_bind
  intro r
  refine .seq places_optionName fun name => ?_
  refine .seq (places_expect _ (by decide)) fun _ => ?_
  refine .seq places_dotAhead fun _ => ?_
  apply Places.get_bind
  intro r'
  refine .seq (Places.modifyCare fun _ => .escapes) fun _ => ?_
  refine .seq places_value_values_entries.1 fun _ => ?_
  refine .seq (Places.modifyCare fun _ => r'.care) fun _ => ?_
  exact .map places_comments fun _ _ => trivial

theorem places_options {n : Nat} : Places file (options n) fun _ => True := by
  induction n with
  | zero => exact .stuck
  | succ n ih =>
    refine .seq places_option fun _ => ?_
    refine .seq places_next fun t => ?_
    apply Places.ite
    . exact ih
    . apply Places.ite
      . exact .unexpected _ (by decide)
      . exact .pure trivial

theorem places_bracketed : Places file bracketed fun _ => True := by
  apply Places.bind places_next
  intro t ht
  apply Places.ite
  . apply Places.get_bind
    intro r
    exact .map places_options fun _ _ => trivial
  . exact .map (places_putBack ht) fun _ _ => trivial

/-! Fields. -/

theorem places_fieldRest : Places file fieldRest fun _ => True := by
  refine .seq places_comments fun _ => ?_
  refine .seq (places_name (by decide)) fun name => ?_
  refine .seq places_comments fun _ => ?_
  refine .seq (places_expect _ (by decide)) fun _ => ?_
  refine .seq places_comments fun _ => ?_
  apply Places.bind places_next
  intro t ht
  apply Places.ite
  . exact .unexpected _ (by decide)
  . refine .seq (places_putBack ht) fun _ => ?_
    apply Places.get_bind
    intro r
    refine .seq places_integer fun number => ?_
    split
    . exact .unexpected _ (by decide)
    . refine .seq places_comments fun _ => ?_
      exact .map places_bracketed fun _ _ => trivial

theorem places_field {n : Nat} {f : FieldStatement} (hf : f.IsPlaced) :
    Places file (field n f) FieldStatement.IsPlaced := by
  induction n generalizing f with
  | zero => exact .stuck
  | succ n ih =>
    refine .seq places_typeName fun t => ?_
    apply Places.ite
    . exact ih hf
    . apply Places.ite
      . exact ih (f := { f with repeated := true }) hf
      . apply Places.ite
        . exact ih (f := { f with optional := true }) hf
        . apply Places.ite
          . exact .map places_fieldRest fun _ _ => hf
          . exact .pure hf

theorem places_mapField : Places file mapField fun _ => True := by
  refine .seq (places_expect _ (by decide)) fun _ => ?_
  refine .seq places_typeName fun key => ?_
  apply Places.ite
  . exact .unexpected _ (by decide)
  . refine .seq (places_expect _ (by decide)) fun _ => ?_
    refine .seq places_typeName fun value => ?_
    apply Places.ite
    . exact .unexpected _ (by decide)
    . refine .seq (places_expect _ (by decide)) fun _ => ?_
      exact .map places_fieldRest fun _ _ => trivial

/-! Ranges of numbers. -/

theorem places_ranges {n count : Nat} {isOpen : Bool} :
    Places file (ranges n count isOpen) fun _ => True := by
  induction n generalizing count isOpen with
  | zero => exact .stuck
  | succ n ih =>
    apply Places.bind places_next
    intro t ht
    apply Places.ite
    . exact .unexpected _ (by decide)
    . apply Places.ite
      . exact ih
      . apply Places.ite
        . exact ih
        . apply Places.ite
          . exact places_putBack ht
          . apply Places.ite
            . apply Places.ite
              . exact .unexpected _ (by decide)
              . apply Places.ite
                . exact .brokenRange
                . exact ih
            . split
              . exact .unexpected _ (by decide)
              . apply Places.ite
                . exact ih
                . apply Places.ite
                  . exact .brokenRange
                  . exact ih

theorem places_reserved {n : Nat} : Places file (reserved n) fun _ => True := by
  induction n with
  | zero => exact .stuck
  | succ n ih =>
    apply Places.bind places_next
    intro t ht
    split
    . exact .unexpected _ (by decide)
    . apply Places.ite
      . refine .seq (places_putBack ht) fun _ => ?_
        apply Places.get_bind
        intro r
        refine .seq places_ranges fun _ => ?_
        exact ih
      . apply Places.ite
        . exact places_putBack ht
        . exact ih

theorem places_extensions : Places file extensions fun _ => True := by
  apply Places.get_bind
  intro r
  refine .seq places_ranges fun _ => ?_
  exact .map places_bracketed fun _ _ => trivial

/-! Enumerations and services. -/

theorem places_enumValue : Places file enumValue fun _ => True := by
  refine .seq (places_identifierName (by decide)) fun _ => ?_
  refine .seq (places_expect _ (by decide)) fun _ => ?_
  apply Places.get_bind
  intro r
  refine .seq places_integer fun number => ?_
  split
  . exact .unexpected _ (by decide)
  . apply Places.bind places_next
    intro t ht
    apply Places.ite
    . exact .get_bind fun _ => places_options
    . apply Places.ite
      . exact places_putBack ht
      . exact .pure trivial

theorem places_enumBody {n : Nat} : Places file (enumBody n) fun _ => True := by
  induction n with
  | zero => exact .stuck
  | succ n ih =>
    apply Places.bind places_next
    intro t ht
    apply Places.ite
    . exact .pure trivial
    . apply Places.ite
      . exact .unexpected _ (by decide)
      . apply Places.ite
        . exact ih
        . apply Places.ite
          . refine .seq places_option fun _ => ?_
            exact ih
          . apply Places.ite
            . apply Places.get_bind
              intro r
              refine .seq places_reserved fun _ => ?_
              exact ih
            . refine .seq (places_putBack ht) fun _ => ?_
              refine .seq places_enumValue fun _ => ?_
              exact ih

theorem places_enum : Places file enum fun _ => True := by
  refine .seq (places_name (by decide)) fun name => ?_
  refine .seq places_comments fun _ => ?_
  refine .seq (places_expect _ (by decide)) fun _ => ?_
  apply Places.get_bind
  intro r
  exact .map places_enumBody fun _ _ => trivial

theorem places_procedureType (h : 10 ∉ expected) :
    Places file (procedureType expected) fun _ => True := by
  have hclose (t : Token) (_ : t.IsPlaced) : Places file (do
      if t.kind != .word then
        unexpected t.text expected
      else
        expect ")" "rpc type closing )") fun _ => True := by
    apply Places.ite
    . exact .unexpected _ h
    . exact places_expect _ (by decide)
  refine .seq (places_expect _ (by decide)) fun _ => ?_
  apply Places.bind places_typeName
  intro t ht
  simp only
  apply Places.ite
  . exact .bind places_typeName hclose
  . exact .bind (.pure (p := Token.IsPlaced) ht) hclose

theorem places_procedureBody {n : Nat} : Places file (procedureBody n) fun _ => True := by
  induction n with
  | zero => exact .stuck
  | succ n ih =>
    refine .seq places_next fun t => ?_
    apply Places.ite
    . exact .pure trivial
    . apply Places.ite
      . refine .seq places_option fun _ => ?_
        exact ih
      . exact ih

theorem places_procedure : Places file procedure fun _ => True := by
  refine .seq places_next fun t => ?_
  apply Places.ite
  . exact .unexpected _ (by decide)
  . refine .seq (places_procedureType (by decide)) fun _ => ?_
    refine .seq (places_expect _ (by decide)) fun _ => ?_
    refine .seq (places_procedureType (by decide)) fun _ => ?_
    apply Places.bind places_next
    intro u hu
    apply Places.ite
    . exact places_putBack hu
    . apply Places.ite
      . exact .get_bind fun _ => places_procedureBody
      . exact .pure trivial

theorem places_serviceBody {n : Nat} : Places file (serviceBody n) fun _ => True := by
  induction n with
  | zero => exact .stuck
  | succ n ih =>
    refine .seq places_next fun t => ?_
    apply Places.ite
    . exact .pure trivial
    . apply Places.ite
      . exact ih
      . apply Places.ite
        . refine .seq places_option fun _ => ?_
          exact ih
        . apply Places.ite
          . refine .seq places_procedure fun _ => ?_
            exact ih
          . exact .unexpected _ (by decide)

theorem places_service : Places file service fun _ => True := by
  refine .seq (places_identifierName (by decide)) fun name => ?_
  refine .seq places_comments fun _ => ?_
  refine .seq (places_expect _ (by decide)) fun _ => ?_
  apply Places.get_bind
  intro r
  exact .map places_serviceBody fun _ _ => trivial

/-! Messages. -/

theorem places_groupHead : Places file groupHead fun _ => True := by
  refine .seq (places_name (by decide)) fun name => ?_
  refine .seq (places_expect _ (by decide)) fun _ => ?_
  apply Places.get_bind
  intro r
  refine .seq places_integer fun number => ?_
  split
  . exact .unexpected _ (by decide)
  . refine .seq places_comments fun _ => ?_
    exact .map (places_expect _ (by decide)) fun _ _ => trivial

theorem places_messageHead {kind : Text} (h : 10 ∉ kind) :
    Places file (messageHead kind) fun _ => True := by
  have hidentifier : 10 ∉ (" identifier" : Text) := by decide
  have hopening : 10 ∉ (" opening \x7b" : Text) := by decide
  refine .seq (places_identifierName (by simp [h, hidentifier])) fun name => ?_
  refine .seq places_comments fun _ => ?_
  exact .map (places_expect _ (by simp [h, hopening])) fun _ _ => trivial

theorem places_oneofHead : Places file oneofHead fun _ => True := by
  refine .seq (places_name (by decide)) fun name => ?_
  refine .seq places_comments fun _ => ?_
  exact .map (places_expect _ (by decide)) fun _ _ => trivial

section

variable {b : Parse (List Member)} {c : Parse Unit}

theorem places_labelled (hb : Places file b fun ms => ∀ m ∈ ms, m.IsPlaced) :
    Places file (labelled b t) Member.IsPlaced := by
  apply Places.bind places_next
  intro u hu
  apply Places.ite
  . refine .seq places_groupHead fun name => ?_
    exact .map hb fun _ _ => hu
  . refine .seq (places_putBack hu) fun _ => ?_
    apply Places.get_bind
    intro r
    have hstart : FieldStatement.IsPlaced
        { fieldAt u with
          optional := t.is "optional"
          required := t.is "required"
          repeated := t.is "repeated"
          type := u.text } := hu
    exact .map (places_field hstart) fun _ hf => hf

theorem places_constructInBody (hb : Places file b fun ms => ∀ m ∈ ms, m.IsPlaced)
    (hc : Places file c fun _ => True) {word : Text} {x : Parse Construct}
    (h : constructInBody b c word = some x) : Places file x fun _ => True := by
  unfold constructInBody at h
  split at h
  . cases h
    exact .map places_enum fun _ _ => trivial
  . split at h
    . next hword =>
      have hline : 10 ∉ word := by
        rw [Bool.or_eq_true, beq_iff_eq, beq_iff_eq] at hword
        obtain rfl | rfl := hword
        all_goals decide
      cases h
      refine .seq (places_messageHead hline) fun name => ?_
      exact .map hb fun _ _ => trivial
    . split at h
      . cases h
        exact .map places_option fun _ _ => trivial
      . split at h
        . cases h
          refine .seq places_oneofHead fun _ => ?_
          exact .map hc fun _ _ => trivial
        . split at h
          . cases h
            exact .map places_mapField fun _ _ => trivial
          . split at h
            . cases h
              apply Places.get_bind
              intro r
              exact .map places_reserved fun _ _ => trivial
            . split at h
              . cases h
                exact .map places_extensions fun _ _ => trivial
              . split at h
                . cases h
                  refine .seq places_groupHead fun _ => ?_
                  exact .map hb fun _ _ => trivial
                . cases h

theorem places_member (hb : Places file b fun ms => ∀ m ∈ ms, m.IsPlaced)
    (hc : Places file c fun _ => True) (ht : t.IsPlaced) :
    Places file (member b c t) Member.IsPlaced := by
  unfold member
  apply Places.ite
  . exact .pure trivial
  . split
    . next x hx =>
      exact .map (places_constructInBody hb hc hx) fun _ _ => ht
    . apply Places.ite
      . exact places_labelled hb
      . refine .seq (places_putBack ht) fun _ => ?_
        apply Places.get_bind
        intro r
        exact .map (places_field (f := fieldAt t) ht) fun _ hf => hf

end

-- The two functions call each other with less fuel.
theorem places_body_oneofBody {n : Nat} : Places file (body n) (fun ms => ∀ m ∈ ms, m.IsPlaced)
    ∧ Places file (oneofBody n) fun _ => True := by
  induction n with
  | zero =>
    rw [body, oneofBody]
    exact ⟨.stuck, .stuck⟩
  | succ n ih =>
    obtain ⟨hbody, hchoice⟩ := ih
    constructor
    . rw [body]
      apply Places.bind places_next
      intro t ht
      apply Places.ite
      . exact .pure (by simp)
      . apply Places.ite
        . exact .unexpected _ (by decide)
        . apply Places.ite
          . exact hbody
          . apply Places.bind (places_member hbody hchoice ht)
            intro m hm
            apply hbody.bind
            intro ms hms
            exact .pure (List.forall_mem_cons.2 ⟨hm, hms⟩)
    . rw [oneofBody]
      refine .seq places_typeName fun t => ?_
      apply Places.ite
      . exact hchoice
      . apply Places.ite
        . refine .seq places_fieldRest fun _ => ?_
          exact hchoice
        . apply Places.ite
          . refine .seq places_groupHead fun _ => ?_
            refine .seq hbody fun _ => ?_
            exact hchoice
          . apply Places.ite
            . refine .seq places_option fun _ => ?_
              exact hchoice
            . apply Places.ite
              . exact .unexpected _ (by decide)
              . exact .pure trivial

/-! Sources. -/

theorem places_level {kind : Text} (h : 10 ∉ kind) : Places file (level kind) fun _ => True := by
  have hassign : 10 ∉ (" =" : Text) := by decide
  have hconstant : 10 ∉ (" string constant" : Text) := by decide
  refine .seq (places_expect _ (by simp [h, hassign])) fun _ => ?_
  refine .seq places_next fun t => ?_
  apply Places.ite
  . exact .unexpected _ (by simp [h, hconstant])
  . exact .pure trivial

theorem places_importFile {n : Nat} : Places file (importFile n) fun _ => True := by
  induction n with
  | zero => exact .stuck
  | succ n ih =>
    refine .seq places_next fun t => ?_
    apply Places.ite
    . exact ih
    . apply Places.ite
      . exact .pure trivial
      . exact .unexpected _ (by decide)

theorem places_constructInSource {word : Text} {x : Parse Construct}
    (h : constructInSource word = some x) : Places file x fun _ => True := by
  unfold constructInSource at h
  split at h
  . cases h
    exact .map places_option fun _ _ => trivial
  . split at h
    . cases h
      apply Places.get_bind
      intro r
      exact .map places_importFile fun _ _ => trivial
    . split at h
      . cases h
        exact .map places_enum fun _ _ => trivial
      . split at h
        . cases h
          exact .map places_service fun _ _ => trivial
        . cases h

theorem places_statement {n : Nat} (ht : t.IsPlaced) :
    Places file (statement (body n) t) Statement.IsPlaced := by
  unfold statement
  apply Places.ite
  . exact .pure trivial
  . split
    . next x hx =>
      exact .map (places_constructInSource hx) fun _ _ => ht
    . apply Places.ite
      . exact .map (places_level (by decide)) fun _ _ => trivial
      . apply Places.ite
        . exact .map (places_level (by decide)) fun _ _ => trivial
        . apply Places.ite
          . refine .seq places_dotted fun name => ?_
            apply Places.ite
            . exact .pure (p := Statement.IsPlaced) ht
            . exact .unexpected _ (by decide)
          . split
            . next hword =>
              have hline : 10 ∉ t.text := by
                rw [Bool.or_eq_true, Token.is, Token.is, beq_iff_eq, beq_iff_eq] at hword
                obtain hword | hword := hword
                all_goals
                  rw [hword]
                  decide
              refine .seq (places_messageHead hline) fun name => ?_
              apply Places.bind places_body_oneofBody.1
              intro ms hms
              exact .pure (p := Statement.IsPlaced) ⟨ht, hms⟩
            . exact .unexpected _ (by decide)

theorem places_statements {n : Nat} :
    Places file (statements n) fun ss => ∀ s ∈ ss, s.IsPlaced := by
  induction n with
  | zero => exact .stuck
  | succ n ih =>
    apply Places.bind places_next
    intro t ht
    apply Places.ite
    . exact .pure (by simp)
    . apply Places.ite
      . exact ih
      . apply Places.bind (places_statement ht)
        intro s hs
        apply ih.bind
        intro ss hss
        exact .pure (List.forall_mem_cons.2 ⟨hs, hss⟩)

end Parse

end ValueGen
