import ValueGen.Proofs.Names.Camel
import ValueGen.Proofs.Plan.Declarations

/-!
This module contains which names of generated code are visible outside of its package. The methods
that a field has are, and the members that hold it are not: they can be reached by the methods only.
-/

namespace ValueGen

namespace Plan

/-! Names that are changed so as not to hide others. -/

theorem isWord_of_methodName {reserved : List Text} {name : Text}
    (hreserved : ∀ r ∈ reserved, Identifier.isWord r = true)
    (h : Identifier.isWord (methodName reserved name) = true) : Identifier.isWord name = true := by
  unfold methodName at h
  split at h
  . next hmem => exact hreserved name (by simpa using hmem)
  . exact h

theorem isExported_methodName {name : Text} (h : Identifier.isExported name = true)
    (reserved : List Text) : Identifier.isExported (methodName reserved name) = true := by
  unfold methodName
  split
  . rfl
  . exact h

theorem isHidden_memberName {name : Text} (h : Identifier.isHidden name = true) :
    Identifier.isHidden (memberName name) = true := by
  unfold memberName
  split
  . rfl
  . exact h

-- No reserved name starts with an underscore.
theorem not_reserved_memberName (name : Text) :
    Identifier.isKeyword (memberName name) = false ∧ memberName name ∉ privateMembers := by
  unfold memberName
  split
  . have hkeywords : ∀ k ∈ Identifier.keywords, k.head? ≠ some 95 := by decide
    have hmembers : ∀ k ∈ privateMembers, k.head? ≠ some 95 := by decide
    refine ⟨?_, fun hmem => hmembers _ hmem rfl⟩
    rw [Identifier.isKeyword, List.contains_eq_mem, decide_eq_false_iff_not]
    exact fun hmem => hkeywords _ hmem rfl
  . next hfree =>
    simp only [Bool.or_eq_true, not_or, Bool.not_eq_true] at hfree
    refine ⟨hfree.1.2, ?_⟩
    simpa using hfree.1.1

end Plan

namespace FieldPlan

/--
The methods of a field are visible outside of the package. The members that hold it are not, and
they are neither reserved words nor members that every value type has.
-/
structure IsEncapsulated (f : FieldPlan) : Prop where
  methods : ∀ name ∈ [f.accessor, f.getter, f.setter, f.adder],
    Identifier.isExported name = true
  members : ∀ name ∈ [f.storage, f.slot], Identifier.isHidden name = true
    ∧ Identifier.isKeyword name = false ∧ name ∉ Plan.privateMembers

theorem isEncapsulated_of_isWord {f : FieldPlan}
    (haccessor : Identifier.isWord f.accessor = true)
    (hgetter : Identifier.isWord f.getter = true) : f.IsEncapsulated := by
  have hname : Identifier.isWord f.field.accessor = true :=
    Plan.isWord_of_methodName (by decide) haccessor
  have hslot : Identifier.isWord f.field.builderAccessor = true :=
    Plan.isWord_of_methodName (by decide) hgetter
  constructor
  . simp only [List.forall_mem_cons, List.not_mem_nil, false_implies, implies_true, and_true]
    refine ⟨?_, ?_, rfl, rfl⟩
    . exact Plan.isExported_methodName (Camel.isExported_upper hname) _
    . exact Plan.isExported_methodName (Camel.isExported_upper hslot) _
  . simp only [List.forall_mem_cons, List.not_mem_nil, false_implies, implies_true, and_true]
    constructor
    . exact ⟨Plan.isHidden_memberName (Camel.isHidden_lower hname),
        Plan.not_reserved_memberName _⟩
    . exact ⟨Plan.isHidden_memberName (Camel.isHidden_lower hslot),
        Plan.not_reserved_memberName _⟩

end FieldPlan

namespace Plan

theorem isEncapsulated_of_ofMessage_ok {m : Message} {package : Text} {p : Plan}
    (h : ofMessage m package = .ok p) {f : FieldPlan} (hf : f ∈ p.fields) : f.IsEncapsulated := by
  have hplannable := isPlannable_of_ofMessage_ok h
  have hfield : f.field ∈ m.fields := by
    rw [← (ofMessage_eq_ok h).2.1]
    exact List.mem_map_of_mem hf
  have hword {name : Text} (hvalid : Identifier.isValid name = true) :
      Identifier.isWord name = true := by
    rw [Identifier.isValid, Bool.and_eq_true] at hvalid
    exact hvalid.1
  apply FieldPlan.isEncapsulated_of_isWord
  . apply hword (hplannable.valueValid _ _)
    refine List.mem_append_right _ (List.mem_flatMap.2 ⟨f.field, hfield, ?_⟩)
    exact List.mem_cons_of_mem _ List.mem_cons_self
  . apply hword (hplannable.builderValid _ _)
    refine List.mem_append_right _ (List.mem_flatMap.2 ⟨f.field, hfield, ?_⟩)
    exact List.mem_cons_of_mem _ List.mem_cons_self

theorem isHidden_of_mem_structs {p : Plan} {o : Options} (hall : ∀ f ∈ p.fields, f.IsEncapsulated)
    {s : Code.Struct} (hs : s ∈ (p.toFile o).structs) {b : Code.Binding} (hb : b ∈ s.fields) :
    Identifier.isHidden b.name = true := by
  rw [structs_toFile] at hs
  simp only [List.mem_cons, List.not_mem_nil, or_false] at hs
  rcases hs with rfl | rfl
  . simp only [valueStruct, List.mem_append, List.mem_map, List.mem_singleton] at hb
    rcases hb with ⟨f, hf, rfl⟩ | rfl
    . exact ((hall f hf).members f.storage (by simp)).1
    . rfl
  . simp only [builderStruct, List.mem_map] at hb
    obtain ⟨f, hf, rfl⟩ := hb
    exact ((hall f hf).members f.slot (by simp)).1

theorem isExported_of_mem_funcs {p : Plan} {o : Options} (hall : ∀ f ∈ p.fields, f.IsEncapsulated)
    {g : Code.Func} (hg : g ∈ (p.toFile o).funcs) (hmethod : g.receiver.isSome = true)
    (hname : g.name ≠ "buildString") : Identifier.isExported g.name = true := by
  rw [funcs_toFile] at hg
  simp only [List.mem_append, List.mem_cons, List.not_mem_nil, or_false, List.mem_map,
    List.mem_flatMap] at hg
  rcases hg with (((rfl | ⟨f, hf, rfl⟩) | rfl | rfl | rfl) | ⟨f, hf, hg⟩) | rfl
  . cases hmethod
  . exact (hall f hf).methods f.accessor (by simp)
  . rfl
  . exact absurd rfl hname
  . cases hmethod
  . have hmem : g.name ∈ [f.accessor, f.getter, f.setter, f.adder] := by
      unfold FieldPlan.builderFuncs at hg
      simp only [List.cons_append, List.nil_append, List.mem_cons] at hg
      rcases hg with rfl | rfl | hg
      . simp [FieldPlan.getterFunc]
      . simp [FieldPlan.setterFunc]
      . split at hg
        . rw [List.mem_singleton.1 hg]
          simp [FieldPlan.adderFunc]
        . cases hg
    exact (hall f hf).methods g.name hmem
  . rfl

/--
All members of the two types of a message are hidden, and all their methods but one are visible
outside of the package. Those of each field of the message are apart from reserved words and from
the members that every value type has.
-/
theorem isEncapsulated_of_ofMessage (m : Message) (package : Text) (o : Options) (p : Plan)
    (h : ofMessage m package = .ok p) :
    p.fields.map FieldPlan.field = m.fields
      ∧ (∀ f ∈ p.fields, f.IsEncapsulated)
      ∧ (∀ s ∈ (p.toFile o).structs, ∀ b ∈ s.fields, Identifier.isHidden b.name = true)
      ∧ ∀ g ∈ (p.toFile o).funcs, g.receiver.isSome = true → g.name ≠ "buildString"
        → Identifier.isExported g.name = true := by
  have hall : ∀ f ∈ p.fields, f.IsEncapsulated := fun f hf => isEncapsulated_of_ofMessage_ok h hf
  refine ⟨(ofMessage_eq_ok h).2.1, hall, ?_, ?_⟩
  . intro s hs b hb
    exact isHidden_of_mem_structs hall hs hb
  . intro g hg hmethod hname
    exact isExported_of_mem_funcs hall hg hmethod hname

/--
A message whose fields have a name beyond ASCII, a reserved word, and the name of a member that
every value type has.
-/
def awkwardMessage : Message :=
  ⟨"Shape", [⟨.required, .ofKeyword "string", "ıd", 1⟩, ⟨.optional, .ofKeyword "bytes", "type", 2⟩,
    ⟨.repeated, .ofKeyword "Shape", "str", 3⟩]⟩

theorem isEncapsulated_of_ofMessage_awkward :
    ∃ p, ofMessage awkwardMessage "shapes" = .ok p
      ∧ p.fields.map FieldPlan.storage = ["ıd", "_type", "_str"]
      ∧ p.fields.map FieldPlan.field = awkwardMessage.fields
      ∧ (∀ f ∈ p.fields, f.IsEncapsulated)
      ∧ (∀ s ∈ (p.toFile Settings.default.toOptions).structs, ∀ b ∈ s.fields,
        Identifier.isHidden b.name = true)
      ∧ ∀ g ∈ (p.toFile Settings.default.toOptions).funcs, g.receiver.isSome = true
        → g.name ≠ "buildString" → Identifier.isExported g.name = true := by
  obtain ⟨p, hplan⟩ : ∃ p, ofMessage awkwardMessage "shapes" = .ok p := ⟨_, rfl⟩
  have hall :=
    isEncapsulated_of_ofMessage awkwardMessage "shapes" Settings.default.toOptions p hplan
  refine ⟨p, hplan, ?_, hall⟩
  have hstorage : p.fields.map FieldPlan.storage
      = awkwardMessage.fields.map fun f => memberName f.varName := by
    rw [← hall.1, List.map_map]
    rfl
  rw [hstorage]
  decide +kernel

end Plan

end ValueGen
