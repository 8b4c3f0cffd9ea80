import ValueGen.Plan.Basic
import ValueGen.Proofs.Plan.Scope

/-!
This module contains which messages have a plan. The names that the fields derive have to fit into
two scopes, that of the value type and that of its builder. If they do not, the failure names the
first field that does not fit after the fields before it.
-/

namespace ValueGen

/--
The type refers to a message, or it is one of the primitive types that have a keyword.
-/
def FieldType.IsMapped (t : FieldType) : Prop := t.isMessage = true ∨ t.primitive ∈ Primitive.all

theorem FieldType.isSome_elemType?_iff (t : FieldType) :
    (Plan.elemType? t).isSome = true ↔ t.IsMapped := by
  unfold Plan.elemType? IsMapped
  split
  . next hmessage => simp [hmessage]
  . next hmessage =>
    cases t.primitive
    all_goals simp [hmessage, Primitive.all]

namespace Field

/--
The names that a field declares in the scope of the value type.
-/
def valueNames (f : Field) : List Text :=
  [Plan.memberName f.varName, Plan.methodName Plan.valueMethods f.accessor]

/--
The names that a field declares in the scope of the builder.
-/
def builderNames (f : Field) : List Text :=
  [Plan.memberName f.builderVarName, Plan.methodName Plan.builderMethods f.builderAccessor,
    f.setter] ++ if f.isRepeated then ["Add" ++ f.accessor] else []

/--
The names in the scope of the value type after some fields: the reserved ones, and those of the
fields.
-/
def valueScope (fields : List Field) : List Text :=
  (["str", "buildString", "String"] : List Text) ++ fields.flatMap valueNames

/--
The names in the scope of the builder after some fields.
-/
def builderScope (fields : List Field) : List Text :=
  (["Build", "String"] : List Text) ++ fields.flatMap builderNames

/--
The field can follow the fields before it: its type has a counterpart, and its names are identifiers
that clash neither with each other, nor with a reserved name, nor with a name of a field before it.
-/
structure FitsAfter (earlier : List Field) (f : Field) : Prop where
  mapped : f.type.IsMapped
  value : Scope.Extends (valueScope earlier) f.valueNames
  builder : Scope.Extends (builderScope earlier) f.builderNames

/--
Each of the fields can follow those before it, when the fields `earlier` precede them all.
-/
def AllFitAfter (earlier fields : List Field) : Prop :=
  ∀ before f after, fields = before ++ f :: after → FitsAfter (earlier ++ before) f

theorem allFitAfter_nil (earlier : List Field) : AllFitAfter earlier [] := by
  intro before f after h
  simp at h

theorem allFitAfter_cons_iff (earlier : List Field) (f : Field) (fs : List Field) :
    AllFitAfter earlier (f :: fs) ↔ FitsAfter earlier f ∧ AllFitAfter (earlier ++ [f]) fs := by
  constructor
  . intro h
    refine ⟨?_, ?_⟩
    . have hfirst := h [] f fs rfl
      rw [List.append_nil] at hfirst
      exact hfirst
    . intro before g after heq
      have hrest := h (f :: before) g after (by rw [heq]; rfl)
      rw [List.append_assoc]
      exact hrest
  . rintro ⟨hfirst, hrest⟩ before g after heq
    cases before with
    | nil =>
      cases heq
      rw [List.append_nil]
      exact hfirst
    | cons first before =>
      cases heq
      have hg := hrest before g after rfl
      rw [List.append_assoc] at hg
      exact hg

-- That each field fits is the same as that all names together can be declared in the two scopes.
theorem allFitAfter_iff (earlier fields : List Field) :
    AllFitAfter earlier fields
      ↔ (∀ f ∈ fields, f.type.IsMapped)
        ∧ Scope.Extends (valueScope earlier) (fields.flatMap valueNames)
        ∧ Scope.Extends (builderScope earlier) (fields.flatMap builderNames) := by
  induction fields generalizing earlier with
  | nil => simp [allFitAfter_nil, Scope.extends_nil]
  | cons f fs ih =>
    have hvalue : valueScope (earlier ++ [f]) = valueScope earlier ++ f.valueNames := by
      simp [valueScope]
    have hbuilder : builderScope (earlier ++ [f]) = builderScope earlier ++ f.builderNames := by
      simp [builderScope]
    rw [allFitAfter_cons_iff, ih, List.forall_mem_cons, List.flatMap_cons, List.flatMap_cons,
      Scope.extends_append_iff, Scope.extends_append_iff, hvalue, hbuilder]
    constructor
    . rintro ⟨hfits, hmapped, hvalues, hbuilders⟩
      exact ⟨⟨hfits.mapped, hmapped⟩, ⟨hfits.value, hvalues⟩, hfits.builder, hbuilders⟩
    . rintro ⟨⟨hfirst, hmapped⟩, ⟨hvalue, hvalues⟩, hbuilder, hbuilders⟩
      exact ⟨⟨hfirst, hvalue, hbuilder⟩, hmapped, hvalues, hbuilders⟩

end Field

/-! The declarations of one field. -/

namespace FieldPlan

/--
What a field declares in the scope of the value type.
-/
def valueDeclarations (p : FieldPlan) : List (Text × Text) :=
  [(p.storage, "field" ++ (" of " ++ p.field.name)),
    (p.accessor, "accessor" ++ (" of " ++ p.field.name))]

/--
What a field declares in the scope of the builder.
-/
def builderDeclarations (p : FieldPlan) : List (Text × Text) :=
  [(p.slot, "field" ++ (" of " ++ p.field.name)), (p.getter, "getter" ++ (" of " ++ p.field.name)),
    (p.setter, "setter" ++ (" of " ++ p.field.name))]
    ++ if p.field.isRepeated then [(p.adder, "adder" ++ (" of " ++ p.field.name))] else []

theorem map_fst_valueDeclarations (p : FieldPlan) :
    p.valueDeclarations.map Prod.fst = p.field.valueNames := rfl

theorem map_fst_builderDeclarations (p : FieldPlan) :
    p.builderDeclarations.map Prod.fst = p.field.builderNames := by
  unfold builderDeclarations Field.builderNames
  rw [List.map_append]
  split
  all_goals rfl

end FieldPlan

namespace Plan

namespace Scopes

theorem declareField_eq (s : Scopes) (p : FieldPlan) :
    s.declareField p
      = (s.value.declareEach p.valueDeclarations).bind fun value =>
          (s.builder.declareEach p.builderDeclarations).bind fun builder =>
            .ok ⟨value, builder⟩ := by
  unfold declareField FieldPlan.valueDeclarations FieldPlan.builderDeclarations
  simp only [bind, Except.bind, Scope.declareEach, List.cons_append, List.nil_append]
  repeat' split
  all_goals simp_all [Scope.declareEach, Except.bind, pure, Except.pure]

theorem declareField_eq_ok_iff (s t : Scopes) (p : FieldPlan) :
    s.declareField p = .ok t
      ↔ s.value.declareEach p.valueDeclarations = .ok t.value
        ∧ s.builder.declareEach p.builderDeclarations = .ok t.builder := by
  rw [declareField_eq]
  cases s.value.declareEach p.valueDeclarations with
  | error f => simp [Except.bind]
  | ok value =>
    cases s.builder.declareEach p.builderDeclarations with
    | error f => simp [Except.bind]
    | ok builder =>
      obtain ⟨tvalue, tbuilder⟩ := t
      simp [Except.bind]

/--
The scopes hold the reserved names and the names of the fields, and no others.
-/
structure IsAfter (s : Scopes) (fields : List Field) : Prop where
  value : s.value.names = Field.valueScope fields
  builder : s.builder.names = Field.builderScope fields

theorem initial_isAfter (n : TypeNames) : (initial n).IsAfter [] := ⟨rfl, rfl⟩

variable {s t : Scopes} {earlier : List Field} {p : FieldPlan}

theorem IsAfter.exists_declareField_iff (h : s.IsAfter earlier) (p : FieldPlan) :
    (∃ t, s.declareField p = .ok t)
      ↔ Scope.Extends (Field.valueScope earlier) p.field.valueNames
        ∧ Scope.Extends (Field.builderScope earlier) p.field.builderNames := by
  rw [← h.value, ← h.builder, ← p.map_fst_valueDeclarations, ← p.map_fst_builderDeclarations,
    ← Scope.exists_declareEach_iff, ← Scope.exists_declareEach_iff]
  constructor
  . rintro ⟨t, ht⟩
    rw [declareField_eq_ok_iff] at ht
    exact ⟨⟨t.value, ht.1⟩, t.builder, ht.2⟩
  . rintro ⟨⟨value, hvalue⟩, builder, hbuilder⟩
    exact ⟨⟨value, builder⟩, (declareField_eq_ok_iff s _ p).2 ⟨hvalue, hbuilder⟩⟩

theorem IsAfter.declareField (h : s.IsAfter earlier) (hdeclare : s.declareField p = .ok t) :
    t.IsAfter (earlier ++ [p.field]) := by
  rw [declareField_eq_ok_iff] at hdeclare
  refine ⟨?_, ?_⟩
  . rw [Scope.names_of_declareEach hdeclare.1, h.value, p.map_fst_valueDeclarations]
    simp [Field.valueScope]
  . rw [Scope.names_of_declareEach hdeclare.2, h.builder, p.map_fst_builderDeclarations]
    simp [Field.builderScope]

end Scopes

/-! The fields of a message one after the other. -/

variable {s : Scopes} {earlier : List Field} {f : Field}

theorem planFields_cons_of_fitsAfter (hs : s.IsAfter earlier) (hf : f.FitsAfter earlier)
    (message : Text) :
    ∃ t elem, Scopes.IsAfter t (earlier ++ [f])
      ∧ ∀ fs, planFields message s (f :: fs)
          = (planFields message t fs).map fun ps => ⟨f, elem⟩ :: ps := by
  obtain ⟨elem, helem⟩ := Option.isSome_iff_exists.1 (f.type.isSome_elemType?_iff.2 hf.mapped)
  obtain ⟨t, ht⟩ := (hs.exists_declareField_iff ⟨f, elem⟩).2 ⟨hf.value, hf.builder⟩
  refine ⟨t, elem, hs.declareField ht, ?_⟩
  intro fs
  simp only [planFields, FieldPlan.ofField, helem, bind, Except.bind, ht]
  cases planFields message t fs with
  | error failure => rfl
  | ok ps => rfl

theorem planFields_cons_of_not_fitsAfter (hs : s.IsAfter earlier) (hf : ¬ f.FitsAfter earlier)
    (message : Text) :
    ∃ cause, ∀ fs, planFields message s (f :: fs)
      = .error (.generation message f.name [] [] (some cause)) := by
  cases helem : elemType? f.type with
  | none =>
    refine ⟨.plain ("type " ++ f.type.spelling.quote ++ " has no Go mapping"), fun fs => ?_⟩
    simp only [planFields, FieldPlan.ofField, helem, bind, Except.bind]
  | some elem =>
    have hmapped : f.type.IsMapped := by
      rw [← FieldType.isSome_elemType?_iff, helem]
      rfl
    cases hdeclare : s.declareField ⟨f, elem⟩ with
    | error cause =>
      refine ⟨cause, fun fs => ?_⟩
      simp only [planFields, FieldPlan.ofField, helem, bind, Except.bind, hdeclare]
    | ok t =>
      obtain ⟨hvalue, hbuilder⟩ := (hs.exists_declareField_iff ⟨f, elem⟩).1 ⟨t, hdeclare⟩
      exact absurd ⟨hmapped, hvalue, hbuilder⟩ hf

theorem planFields_of_allFitAfter {fields : List Field} (hs : s.IsAfter earlier)
    (h : Field.AllFitAfter earlier fields) (message : Text) :
    ∃ ps, planFields message s fields = .ok ps := by
  induction fields generalizing s earlier with
  | nil => exact ⟨[], rfl⟩
  | cons f fs ih =>
    rw [Field.allFitAfter_cons_iff] at h
    obtain ⟨t, elem, ht, hcons⟩ := planFields_cons_of_fitsAfter hs h.1 message
    obtain ⟨ps, hps⟩ := ih ht h.2
    rw [hcons, hps]
    exact ⟨_, rfl⟩

/--
The field is the first of some fields that does not fit after those before it, when the fields
`earlier` precede them all.
-/
def IsFirstMisfit (earlier fields : List Field) (f : Field) : Prop :=
  ∃ before after, fields = before ++ f :: after ∧ Field.AllFitAfter earlier before
    ∧ ¬ f.FitsAfter (earlier ++ before)

theorem planFields_of_not_allFitAfter {fields : List Field} (hs : s.IsAfter earlier)
    (h : ¬ Field.AllFitAfter earlier fields) (message : Text) :
    ∃ f, IsFirstMisfit earlier fields f
      ∧ ∃ cause, planFields message s fields
          = .error (.generation message f.name [] [] (some cause)) := by
  induction fields generalizing s earlier with
  | nil => exact absurd (Field.allFitAfter_nil earlier) h
  | cons f fs ih =>
    by_cases hf : f.FitsAfter earlier
    . obtain ⟨t, elem, ht, hcons⟩ := planFields_cons_of_fitsAfter hs hf message
      have hrest : ¬ Field.AllFitAfter (earlier ++ [f]) fs := by
        intro hrest
        exact h ((Field.allFitAfter_cons_iff earlier f fs).2 ⟨hf, hrest⟩)
      obtain ⟨g, ⟨before, after, rfl, hbefore, hg⟩, cause, hcause⟩ := ih ht hrest
      refine ⟨g, ⟨f :: before, after, rfl, ?_, ?_⟩, cause, ?_⟩
      . rw [Field.allFitAfter_cons_iff]
        exact ⟨hf, hbefore⟩
      . rw [List.append_assoc] at hg
        exact hg
      . rw [hcons, hcause]
        rfl
    . obtain ⟨cause, hcause⟩ := planFields_cons_of_not_fitsAfter hs hf message
      refine ⟨f, ⟨[], fs, rfl, Field.allFitAfter_nil earlier, ?_⟩, cause, hcause fs⟩
      rw [List.append_nil]
      exact hf

/-! The plan of a message. -/

/--
The package-level names of a message can be declared: they are identifiers, and they hide neither of
the two packages that generated code imports.
-/
def HasTypeNames (m : Message) : Prop :=
  ∀ name ∈ (TypeNames.ofName m.name).toList,
    Identifier.isValid name = true ∧ name ≠ "protoval" ∧ name ≠ "bytes"

-- The four names never clash with each other, since no two of them are of the same length.
theorem nodup_toList_ofName (name : Text) : (TypeNames.ofName name).toList.Nodup := by
  apply List.Nodup.of_map List.length
  have hbuilder : ("Builder" : Text).length = 7 := rfl
  have hnew : ("new" : Text).length = 3 := rfl
  have hcapital : ("New" : Text).length = 3 := rfl
  simp only [TypeNames.ofName, TypeNames.toList, List.map_cons, List.map_nil, List.length_append,
    hbuilder, hnew, hcapital, List.nodup_cons, List.mem_cons, List.not_mem_nil]
  simp
  omega

-- Three of the four names end with `Builder` or begin with `new`.
theorem not_mem_of_mem_toList_ofName {reserved : List Text} {name id : Text}
    (hsuffix : ∀ w ∈ reserved, ¬ ("Builder" : Text) <:+ w)
    (hnew : ∀ w ∈ reserved, ¬ ("new" : Text) <+: w) (hname : name ∉ reserved)
    (hid : id ∈ (TypeNames.ofName name).toList) : id ∉ reserved := by
  unfold TypeNames.toList TypeNames.ofName at hid
  simp only [List.mem_cons, List.not_mem_nil, or_false] at hid
  rcases hid with rfl | rfl | rfl | rfl
  . exact hname
  . exact fun hmem => hsuffix _ hmem (List.suffix_append _ _)
  . exact fun hmem => hnew _ hmem (List.prefix_append _ _)
  . exact fun hmem => hsuffix _ hmem (List.suffix_append _ _)

theorem exists_declareAll_iff_hasTypeNames (m : Message) (owner : Text) :
    (∃ t, Scope.declareAll ⟨owner, [("protoval", "import"), ("bytes", "import")]⟩
        "type identifier" (TypeNames.ofName m.name).toList = .ok t)
      ↔ HasTypeNames m := by
  rw [Scope.declareAll_eq_declareEach, Scope.exists_declareEach_iff, List.map_map]
  change Scope.Extends ["protoval", "bytes"] ((TypeNames.ofName m.name).toList.map id) ↔ _
  rw [List.map_id]
  constructor
  . intro h name hname
    have hnew := h.new name hname
    simp only [List.mem_cons, List.not_mem_nil, or_false, not_or] at hnew
    exact ⟨h.valid name hname, hnew⟩
  . intro h
    refine ⟨fun name hname => (h name hname).1, fun name hname => ?_, nodup_toList_ofName m.name⟩
    simp only [List.mem_cons, List.not_mem_nil, or_false, not_or]
    exact (h name hname).2

/--
The message has a plan: no two of its fields share an id or a name, its package-level names can be
declared, the types of all its fields have a counterpart, and the names in the scope of the value
type, the reserved ones included, are identifiers without any repetition, as are those in the scope
of the builder.
-/
structure IsPlannable (m : Message) : Prop where
  valid : m.isValid = true
  typeNames : HasTypeNames m
  mapped : ∀ f ∈ m.fields, f.type.IsMapped
  valueValid : ∀ name ∈ Field.valueScope m.fields, Identifier.isValid name = true
  valueNodup : (Field.valueScope m.fields).Nodup
  builderValid : ∀ name ∈ Field.builderScope m.fields, Identifier.isValid name = true
  builderNodup : (Field.builderScope m.fields).Nodup

theorem isPlannable_iff_allFitAfter {m : Message} (hvalid : m.isValid = true)
    (hnames : HasTypeNames m) : IsPlannable m ↔ Field.AllFitAfter [] m.fields := by
  have hvalue : Scope.Extends [] (Field.valueScope []) := ⟨by decide, by simp, by decide⟩
  have hbuilder : Scope.Extends [] (Field.builderScope []) := ⟨by decide, by simp, by decide⟩
  rw [Field.allFitAfter_iff, Scope.extends_iff_append hvalue, Scope.extends_iff_append hbuilder]
  constructor
  . intro h
    exact ⟨h.mapped, ⟨h.valueValid, h.valueNodup⟩, h.builderValid, h.builderNodup⟩
  . rintro ⟨hmapped, ⟨hvalueValid, hvalueNodup⟩, hbuilderValid, hbuilderNodup⟩
    exact ⟨hvalid, hnames, hmapped, hvalueValid, hvalueNodup, hbuilderValid, hbuilderNodup⟩

theorem ofMessage_eq {m : Message} (hvalid : m.isValid = true) (hnames : HasTypeNames m)
    (package : Text) :
    ofMessage m package
      = (planFields m.name (Scopes.initial (TypeNames.ofName m.name)) m.fields).map
          fun fields => ⟨TypeNames.ofName m.name, fields⟩ := by
  obtain ⟨t, ht⟩ := (exists_declareAll_iff_hasTypeNames m ("package " ++ package)).2 hnames
  unfold ofMessage
  simp only [hvalid, Bool.not_true, Bool.false_eq_true, ↓reduceIte, bind, Except.bind, pure,
    Except.pure, ht]
  cases planFields m.name (Scopes.initial (TypeNames.ofName m.name)) m.fields with
  | error failure => rfl
  | ok fields => rfl

theorem isValid_of_ofMessage_ok {m : Message} {package : Text} {plan : Plan}
    (h : ofMessage m package = .ok plan) : m.isValid = true := by
  cases hvalid : m.isValid with
  | true => rfl
  | false =>
    unfold ofMessage at h
    simp only [hvalid, Bool.not_false, ↓reduceIte] at h
    cases h

theorem hasTypeNames_of_ofMessage_ok {m : Message} {package : Text} {plan : Plan}
    (h : ofMessage m package = .ok plan) : HasTypeNames m := by
  rw [← exists_declareAll_iff_hasTypeNames m ("package " ++ package)]
  unfold ofMessage at h
  simp only [isValid_of_ofMessage_ok h, Bool.not_true, Bool.false_eq_true, ↓reduceIte, bind,
    Except.bind, pure, Except.pure] at h
  split at h
  . cases h
  . next t ht => exact ⟨t, ht⟩

theorem isPlannable_of_ofMessage_ok {m : Message} {package : Text} {plan : Plan}
    (h : ofMessage m package = .ok plan) : IsPlannable m := by
  have hvalid := isValid_of_ofMessage_ok h
  have hnames := hasTypeNames_of_ofMessage_ok h
  rw [isPlannable_iff_allFitAfter hvalid hnames]
  by_contra hfit
  obtain ⟨f, -, cause, hcause⟩ :=
    planFields_of_not_allFitAfter (Scopes.initial_isAfter (TypeNames.ofName m.name)) hfit m.name
  rw [ofMessage_eq hvalid hnames, hcause] at h
  cases h

/--
A message has a plan exactly if it is plannable. If only its fields stand in the way, the failure
names the message and the first field that does not fit.
-/
theorem ofMessage_isOk_iff_isPlannable (m : Message) (package : Text) :
    ((∃ plan, ofMessage m package = .ok plan) ↔ IsPlannable m)
      ∧ (m.isValid = true → HasTypeNames m → ¬ IsPlannable m
        → ∃ f, IsFirstMisfit [] m.fields f
          ∧ ∃ cause, ofMessage m package
              = .error (.generation m.name f.name [] [] (some cause))) := by
  have hinitial := Scopes.initial_isAfter (TypeNames.ofName m.name)
  refine ⟨⟨?_, ?_⟩, ?_⟩
  . rintro ⟨plan, hplan⟩
    exact isPlannable_of_ofMessage_ok hplan
  . intro h
    have hfit := (isPlannable_iff_allFitAfter h.valid h.typeNames).1 h
    obtain ⟨fields, hfields⟩ := planFields_of_allFitAfter hinitial hfit m.name
    rw [ofMessage_eq h.valid h.typeNames, hfields]
    exact ⟨_, rfl⟩
  . intro hvalid hnames h
    rw [isPlannable_iff_allFitAfter hvalid hnames] at h
    obtain ⟨f, hf, cause, hcause⟩ := planFields_of_not_allFitAfter hinitial h m.name
    rw [ofMessage_eq hvalid hnames, hcause]
    exact ⟨f, hf, cause, rfl⟩

/--
The setter of the first field has the name of the getter of the second one.
-/
def settersMessage : Message :=
  ⟨"Shape", [⟨.required, ⟨.int32, []⟩, "x", 1⟩, ⟨.optional, ⟨.int32, []⟩, "set_x", 2⟩]⟩

theorem ofMessage_settersMessage :
    settersMessage.isValid = true ∧ HasTypeNames settersMessage ∧ ¬ IsPlannable settersMessage
      ∧ ∃ cause, ofMessage settersMessage "shapes"
          = .error (.generation "Shape" "set_x" [] [] (some cause)) := by
  have hvalid : settersMessage.isValid = true := by decide
  have hnames : HasTypeNames settersMessage := by
    unfold HasTypeNames
    decide
  have hclash : ¬ IsPlannable settersMessage := by
    intro h
    exact absurd h.builderNodup (by decide)
  have hfits : Field.FitsAfter [] ⟨.required, ⟨.int32, []⟩, "x", 1⟩ :=
    ⟨by unfold FieldType.IsMapped; decide, ⟨by decide, by decide, by decide⟩,
      by decide, by decide, by decide⟩
  refine ⟨hvalid, hnames, hclash, ?_⟩
  obtain ⟨f, ⟨before, after, hfields, -, hf⟩, hcause⟩ :=
    (ofMessage_isOk_iff_isPlannable settersMessage "shapes").2 hvalid hnames hclash
  have hname : f.name = "set_x" := by
    cases before with
    | nil =>
      cases hfields
      exact absurd hfits hf
    | cons first before =>
      cases before with
      | nil =>
        cases hfields
        rfl
      | cons second before => simp [settersMessage] at hfields
  rw [hname] at hcause
  exact hcause

end Plan

end ValueGen
