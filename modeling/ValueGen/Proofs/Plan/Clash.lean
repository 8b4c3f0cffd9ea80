import ValueGen.Proofs.Names.Identifier
import ValueGen.Proofs.Plan.Encapsulation

/-!
This module contains that a message of declared names can only fail to have a plan because two names
clash. All names that are derived from declared names are identifiers.
-/

namespace ValueGen

open Identifier (IsSpelled IsDeclared)

/-! Names that clash in a scope. -/

namespace Scope

/--
The failure says of one of the names that it was declared before, and it does occur twice.
-/
inductive IsClash (names : List Text) : Failure → Prop where
  | intro (owner name what first : Text) (htwice : 2 ≤ names.count name) :
      IsClash names (.plain (what ++ " " ++ name.quote ++ " collides with " ++ first ++ " in "
        ++ owner))

variable {s : Scope} {f : Failure}

theorem isClash_of_declare {name what : Text} (hvalid : Identifier.isValid name = true)
    (h : s.declare name what = .error f) : IsClash (s.names ++ [name]) f := by
  unfold declare at h
  rw [hvalid] at h
  simp only [Bool.not_true, Bool.false_eq_true, ↓reduceIte] at h
  split at h
  . next first hfirst =>
    cases h
    apply IsClash.intro
    have hmem : name ∈ s.names := by
      by_contra hnew
      rw [(find?_eq_none_iff s name).2 hnew] at hfirst
      cases hfirst
    have hcount := List.count_pos_iff.2 hmem
    rw [List.count_append, List.count_singleton_self]
    omega
  . cases h

theorem IsClash.append {names : List Text} (h : IsClash names f) (more : List Text) :
    IsClash (names ++ more) f := by
  obtain ⟨owner, name, what, first, htwice⟩ := h
  apply IsClash.intro
  rw [List.count_append]
  omega

theorem isClash_of_declareEach {es : List (Text × Text)}
    (hvalid : ∀ name ∈ es.map Prod.fst, Identifier.isValid name = true)
    (h : s.declareEach es = .error f) : IsClash (s.names ++ es.map Prod.fst) f := by
  induction es generalizing s with
  | nil => cases h
  | cons e es ih =>
    rw [List.map_cons, List.forall_mem_cons] at hvalid
    rw [List.map_cons, ← List.singleton_append, ← List.append_assoc]
    unfold declareEach at h
    cases hdeclare : s.declare e.1 e.2 with
    | error g =>
      rw [hdeclare] at h
      cases h
      exact (isClash_of_declare hvalid.1 hdeclare).append _
    | ok t =>
      rw [hdeclare] at h
      have hnames : t.names = s.names ++ [e.1] := by
        rw [((declare_eq_ok_iff s t e.1 e.2).1 hdeclare).2]
        simp [names]
      rw [← hnames]
      exact ih hvalid.2 h

end Scope

/-! The names of a field. -/

namespace Plan

theorem isValid_memberName {name : Text} (h : IsDeclared name) :
    Identifier.isValid (memberName name) = true := by
  have hword : Identifier.isWord (memberName name) = true := by
    unfold memberName
    split
    . exact Identifier.isWord_cons (.inr rfl) h.spelled
    . exact h.isWord
  rw [Identifier.isValid, hword, (not_reserved_memberName name).1]
  rfl

theorem isValid_methodName {name : Text} (h : IsSpelled name)
    (hexported : Identifier.isExported name = true) (reserved : List Text) :
    Identifier.isValid (methodName reserved name) = true := by
  apply IsSpelled.isValid_of_isExported _ (isExported_methodName hexported reserved)
  unfold methodName
  split
  . exact IsSpelled.append (by decide) h
  . exact h

end Plan

namespace Field

variable {f : Field}

theorem isDeclared_slotName (h : IsDeclared f.name) : IsDeclared f.slotName := by
  unfold slotName
  split
  . exact h.append (by decide)
  . exact h

theorem isValid_of_mem_valueNames (h : IsDeclared f.name) {name : Text}
    (hname : name ∈ f.valueNames) : Identifier.isValid name = true := by
  obtain ⟨hexported, hspelled⟩ := Camel.isExported_upper_of_isDeclared h
  unfold valueNames at hname
  simp only [List.mem_cons, List.not_mem_nil, or_false] at hname
  rcases hname with rfl | rfl
  . exact Plan.isValid_memberName (Camel.isDeclared_lower h)
  . exact Plan.isValid_methodName hspelled hexported _

theorem isValid_of_mem_builderNames (h : IsDeclared f.name) {name : Text}
    (hname : name ∈ f.builderNames) : Identifier.isValid name = true := by
  have hslot := isDeclared_slotName h
  obtain ⟨hexported, hspelled⟩ := Camel.isExported_upper_of_isDeclared hslot
  unfold builderNames at hname
  simp only [List.mem_append, List.mem_cons, List.not_mem_nil, or_false] at hname
  rcases hname with (rfl | rfl | rfl) | hadder
  . exact Plan.isValid_memberName (Camel.isDeclared_lower hslot)
  . exact Plan.isValid_methodName hspelled hexported _
  . exact IsSpelled.isValid_of_isExported (IsSpelled.append (by decide) hspelled) rfl
  . split at hadder
    . rw [List.mem_singleton.1 hadder]
      have hname := (Camel.isExported_upper_of_isDeclared h).2
      exact IsSpelled.isValid_of_isExported (IsSpelled.append (by decide) hname) rfl
    . cases hadder

end Field

/-! The names of a message. -/

/--
All names that are derived for a message: those in its package, and those of its fields in the two
types.
-/
def Message.derivedNames (m : Message) : List Text :=
  (TypeNames.ofName m.name).toList ++ m.fields.flatMap fun f => f.valueNames ++ f.builderNames

-- No reserved word ends or begins like the names that are derived from that of the message.
theorem TypeNames.isValid_of_mem {name : Text} (h : IsDeclared name)
    (hkeyword : Identifier.isKeyword name = false) {id : Text} (hid : id ∈ (ofName name).toList) :
    Identifier.isValid id = true := by
  have hword : IsDeclared id := by
    unfold toList ofName at hid
    simp only [List.mem_cons, List.not_mem_nil, or_false] at hid
    rcases hid with rfl | rfl | rfl | rfl
    . exact h
    . exact h.append (by decide)
    . exact ⟨rfl, IsSpelled.append (by decide) h.spelled⟩
    . exact ⟨rfl, (IsSpelled.append (by decide) h.spelled).append (by decide)⟩
  have hfree : Identifier.isKeyword id = false := by
    rw [Identifier.isKeyword, List.contains_eq_mem, decide_eq_false_iff_not] at hkeyword ⊢
    exact Plan.not_mem_of_mem_toList_ofName (by decide) (by decide) hkeyword hid
  rw [Identifier.isValid, hword.isWord, hfree]
  rfl

namespace Plan

/--
The failure says that a name of the field is also a reserved name, or a name of a field before it,
or another name of the field, in the scope of the value type or in that of the builder.
-/
def IsFieldClash (earlier : List Field) (f : Field) (failure : Failure) : Prop :=
  Scope.IsClash (Field.valueScope (earlier ++ [f])) failure
    ∨ Scope.IsClash (Field.builderScope (earlier ++ [f])) failure

variable {s : Scopes} {earlier fields : List Field} {p : FieldPlan} {failure : Failure}

theorem Scopes.IsAfter.isFieldClash (hs : s.IsAfter earlier) (hname : IsDeclared p.field.name)
    (h : s.declareField p = .error failure) : IsFieldClash earlier p.field failure := by
  have hvalue : ∀ name ∈ p.valueDeclarations.map Prod.fst, Identifier.isValid name = true := by
    rw [p.map_fst_valueDeclarations]
    exact fun name hmem => Field.isValid_of_mem_valueNames hname hmem
  have hbuilder : ∀ name ∈ p.builderDeclarations.map Prod.fst, Identifier.isValid name = true := by
    rw [p.map_fst_builderDeclarations]
    exact fun name hmem => Field.isValid_of_mem_builderNames hname hmem
  rw [declareField_eq] at h
  cases hdeclare : s.value.declareEach p.valueDeclarations with
  | error g =>
    rw [hdeclare] at h
    cases h
    left
    have hclash := Scope.isClash_of_declareEach hvalue hdeclare
    rw [hs.value, p.map_fst_valueDeclarations] at hclash
    simpa [Field.valueScope] using hclash
  | ok value =>
    rw [hdeclare] at h
    cases hdeclare : s.builder.declareEach p.builderDeclarations with
    | error g =>
      rw [hdeclare] at h
      cases h
      right
      have hclash := Scope.isClash_of_declareEach hbuilder hdeclare
      rw [hs.builder, p.map_fst_builderDeclarations] at hclash
      simpa [Field.builderScope] using hclash
    | ok builder =>
      rw [hdeclare] at h
      cases h

-- The fields before the first one that fails have all been declared.
theorem exists_isFieldClash_of_planFields {message : Text} (hs : s.IsAfter earlier)
    (hfields : ∀ f ∈ fields, IsDeclared f.name ∧ f.type.IsMapped)
    (h : planFields message s fields = .error failure) :
    ∃ before f after cause, fields = before ++ f :: after
      ∧ failure = .generation message f.name [] [] (some cause)
      ∧ IsFieldClash (earlier ++ before) f cause := by
  induction fields generalizing s earlier with
  | nil => cases h
  | cons f fs ih =>
    rw [List.forall_mem_cons] at hfields
    obtain ⟨⟨hname, hmapped⟩, hfields⟩ := hfields
    obtain ⟨elem, helem⟩ := Option.isSome_iff_exists.1 (f.type.isSome_elemType?_iff.2 hmapped)
    cases hdeclare : s.declareField ⟨f, elem⟩ with
    | error cause =>
      simp only [planFields, FieldPlan.ofField, helem, bind, Except.bind, hdeclare] at h
      cases h
      refine ⟨[], f, fs, cause, rfl, rfl, ?_⟩
      rw [List.append_nil]
      exact hs.isFieldClash hname hdeclare
    | ok t =>
      simp only [planFields, FieldPlan.ofField, helem, bind, Except.bind, hdeclare] at h
      cases hrest : planFields message t fs with
      | ok ps =>
        rw [hrest] at h
        cases h
      | error g =>
        rw [hrest] at h
        cases h
        obtain ⟨before, f', after, cause, rfl, hcause, hclash⟩ :=
          ih (hs.declareField hdeclare) hfields hrest
        refine ⟨f :: before, f', after, cause, rfl, hcause, ?_⟩
        rw [List.append_assoc] at hclash
        exact hclash

/--
If the name of a valid message and those of its fields are declared names, that of the message
neither a reserved word nor the name of an imported package, and all types have a counterpart, then
all derived names are identifiers. So the message has a plan, or the failure says that two names
clash, and which field declares the later one of them.
-/
theorem isValid_derivedNames (m : Message) (package : Text) (hvalid : m.isValid = true)
    (hname : IsDeclared m.name) (hkeyword : Identifier.isKeyword m.name = false)
    (himports : m.name ≠ "protoval" ∧ m.name ≠ "bytes")
    (hfields : ∀ f ∈ m.fields, IsDeclared f.name ∧ f.type.IsMapped) :
    (∀ name ∈ m.derivedNames, Identifier.isValid name = true)
      ∧ ((∃ plan, ofMessage m package = .ok plan)
        ∨ ∃ before f after cause, m.fields = before ++ f :: after
          ∧ ofMessage m package = .error (.generation m.name f.name [] [] (some cause))
          ∧ IsFieldClash before f cause) := by
  have htypes : ∀ id ∈ (TypeNames.ofName m.name).toList, Identifier.isValid id = true :=
    fun id hid => TypeNames.isValid_of_mem hname hkeyword hid
  have hnames : HasTypeNames m := by
    intro id hid
    have hnew : id ∉ (["protoval", "bytes"] : List Text) :=
      not_mem_of_mem_toList_ofName (by decide) (by decide) (by simpa using himports) hid
    exact ⟨htypes id hid, by simpa using hnew⟩
  constructor
  . unfold Message.derivedNames
    rw [List.forall_mem_append]
    refine ⟨htypes, ?_⟩
    intro name hmem
    obtain ⟨f, hf, hmem⟩ := List.mem_flatMap.1 hmem
    rcases List.mem_append.1 hmem with hmem | hmem
    . exact Field.isValid_of_mem_valueNames (hfields f hf).1 hmem
    . exact Field.isValid_of_mem_builderNames (hfields f hf).1 hmem
  . rw [ofMessage_eq hvalid hnames]
    cases hplan : planFields m.name (Scopes.initial (TypeNames.ofName m.name)) m.fields with
    | ok fields => exact .inl ⟨_, rfl⟩
    | error failure =>
      obtain ⟨before, f, after, cause, hsplit, rfl, hclash⟩ :=
        exists_isFieldClash_of_planFields (Scopes.initial_isAfter _) hfields hplan
      exact .inr ⟨before, f, after, cause, hsplit, rfl, hclash⟩

/--
A message with underscores in its names, a word of digits, and a field with a reserved word as its
name, whose setter has the name of a getter.
-/
def underscoredMessage : Message :=
  ⟨"shape_2", [⟨.repeated, .ofKeyword "int32", "a__1_", 1⟩,
    ⟨.required, .ofKeyword "bytes", "type", 2⟩, ⟨.optional, .ofKeyword "shape_2", "set_type", 3⟩]⟩

theorem isValid_derivedNames_underscored :
    underscoredMessage.isValid = true ∧ IsDeclared underscoredMessage.name
      ∧ (∀ f ∈ underscoredMessage.fields, IsDeclared f.name ∧ f.type.IsMapped)
      ∧ (∀ name ∈ underscoredMessage.derivedNames, Identifier.isValid name = true)
      ∧ ∃ before f after cause, underscoredMessage.fields = before ++ f :: after
        ∧ ofMessage underscoredMessage "shapes"
            = .error (.generation "shape_2" f.name [] [] (some cause))
        ∧ IsFieldClash before f cause := by
  have hvalid : underscoredMessage.isValid = true := by decide
  have hname : IsDeclared underscoredMessage.name := by decide
  have hfields : ∀ f ∈ underscoredMessage.fields, IsDeclared f.name ∧ f.type.IsMapped := by
    unfold FieldType.IsMapped
    decide
  have hclash : ¬ ∃ plan, ofMessage underscoredMessage "shapes" = .ok plan := by
    rintro ⟨plan, hplan⟩
    exact absurd (isPlannable_of_ofMessage_ok hplan).builderNodup (by decide)
  obtain ⟨hnames, hend⟩ := isValid_derivedNames underscoredMessage "shapes" hvalid hname
    (by decide) (by decide) hfields
  exact ⟨hvalid, hname, hfields, hnames, hend.resolve_left hclash⟩

end Plan

end ValueGen
