import ValueGen.Proofs.Plan.Names
import ValueGen.Proofs.Schema.Acceptance

/-!
This module contains of what kind the types of a compiled schema are. A type is either a primitive
type or the name of a message of the schema, and then it has a counterpart in the generated code.
The one exception is the type of a field that is declared with an empty type: it is neither, and
nothing reports it.
-/

namespace ValueGen

/--
The type is one of the primitive types that have a keyword, and it names no message.
-/
def FieldType.IsPrimitive (t : FieldType) : Prop := t.primitive ∈ Primitive.all ∧ t.message = []

namespace Schema

/--
The type is no primitive type, and it names a message of the schema.
-/
def IsReference (s : Schema) (t : FieldType) : Prop :=
  t.primitive = .none ∧ t.message ≠ [] ∧ ∃ m, s.message? t.message = some m

/--
The type is of exactly one of the two kinds.
-/
def HasOneKind (s : Schema) (t : FieldType) : Prop :=
  (t.IsPrimitive ∨ s.IsReference t) ∧ ¬ (t.IsPrimitive ∧ s.IsReference t)

theorem hasOneKind_iff (s : Schema) (t : FieldType) :
    s.HasOneKind t ↔ t.IsPrimitive ∨ s.IsReference t := by
  refine and_iff_left ?_
  rintro ⟨hprimitive, hreference⟩
  have hmem := hprimitive.1
  rw [hreference.1] at hmem
  revert hmem
  decide

-- A type of either kind has a counterpart, whatever message it names.
theorem HasOneKind.isMapped {s : Schema} {t : FieldType} (h : s.HasOneKind t) : t.IsMapped := by
  rcases (s.hasOneKind_iff t).1 h with hprimitive | ⟨hnone, hmessage, -⟩
  . exact .inr hprimitive.1
  . refine .inl ?_
    simp [FieldType.isMessage, hnone, hmessage]

end Schema

namespace FieldType

theorem isPrimitive_ofKeyword {t : Text} (h : t ∈ primitiveKeywords) :
    (ofKeyword t).IsPrimitive := by
  obtain ⟨p, hp, -, heq⟩ := ofKeyword_of_mem h
  rw [heq]
  exact ⟨hp, rfl⟩

-- No keyword is empty, and an empty type is not taken for the name of a message.
theorem not_isMapped_ofKeyword_nil : ¬ (ofKeyword []).IsMapped := by
  rintro (hmessage | hprimitive)
  . exact absurd hmessage (by decide)
  . exact absurd hprimitive (by decide)

end FieldType

namespace Outline

variable {o : Outline} {s : Schema}

theorem isReference_of_namesMessage (hwell : o.IsWellFormed) (hs : o.Declares s)
    {m : MessageOutline} (hm : m ∈ o.messages) {f : FieldOutline} (hf : f ∈ m.fields)
    (hnames : f.NamesMessage) : s.IsReference (FieldType.ofKeyword f.type) := by
  obtain ⟨d, hd, hname⟩ := hwell.types m hm f hf hnames
  obtain ⟨n, -, -, hfound⟩ := hs.found d hd
  rw [FieldType.ofKeyword_of_not_mem hnames.2]
  refine ⟨rfl, hnames.1, n, ?_⟩
  rw [← hname]
  exact hfound

theorem hasOneKind_ofKeyword_iff (hwell : o.IsWellFormed) (hs : o.Declares s)
    {m : MessageOutline} (hm : m ∈ o.messages) {f : FieldOutline} (hf : f ∈ m.fields) :
    s.HasOneKind (FieldType.ofKeyword f.type) ↔ f.type ≠ [] := by
  constructor
  . intro hkind hempty
    rw [hempty] at hkind
    exact FieldType.not_isMapped_ofKeyword_nil hkind.isMapped
  . intro hne
    rw [Schema.hasOneKind_iff]
    by_cases hkeyword : f.type ∈ FieldType.primitiveKeywords
    . exact .inl (FieldType.isPrimitive_ofKeyword hkeyword)
    . exact .inr (isReference_of_namesMessage hwell hs hm hf ⟨hne, hkeyword⟩)

/--
The type of a field of a compiled schema is of exactly one kind, and has a counterpart in the
generated code, if and only if the field is declared with a type that is not empty.
-/
theorem hasOneKind_iff_of_compile (h : o.compile = .ok s) :
    List.Forall₂ (fun m n => List.Forall₂ (fun f g =>
      g.name = f.name
      ∧ (s.HasOneKind g.type ↔ f.type ≠ [])
      ∧ ((Plan.elemType? g.type).isSome = true ↔ f.type ≠ [])) m.fields n.fields)
      o.messages s.messages := by
  obtain ⟨hwell, rfl⟩ := compile_eq_ok h
  have hs := declares_of_isWellFormed hwell
  rw [List.forall₂_map_right_iff, List.forall₂_same]
  intro m hm
  have hsound (f) (hf : f ∈ m.fields) : f.IsSound := ⟨hwell.rules m hm f hf, hwell.ids m hm f hf⟩
  have hfields : m.toMessage.fields = m.fields.map FieldOutline.toField := by
    rw [MessageOutline.toMessage, MessageOutline.soundFields_eq_fields hsound]
  rw [hfields, List.forall₂_map_right_iff, List.forall₂_same]
  intro f hf
  have hkind := hasOneKind_ofKeyword_iff hwell hs hm hf
  refine ⟨rfl, hkind, ?_⟩
  rw [FieldType.isSome_elemType?_iff]
  constructor
  . rintro hmapped hempty
    have htype : f.toField.type = FieldType.ofKeyword f.type := rfl
    rw [htype, hempty] at hmapped
    exact FieldType.not_isMapped_ofKeyword_nil hmapped
  . intro hne
    exact (hkind.2 hne).isMapped

theorem hasOneKind_iff_of_compile_tree :
    let o : Outline := ⟨"tree.proto", "tree", [
      ⟨"Node", ⟨"tree.proto", 3, 1⟩, [
        ⟨"repeated", "Node", "children", "1", ⟨"tree.proto", 4, 3⟩⟩,
        ⟨"required", "int32", "weight", "2", ⟨"tree.proto", 5, 3⟩⟩]⟩]⟩
    let children : Field := ⟨.repeated, ⟨.none, "Node"⟩, "children", 1⟩
    let weight : Field := ⟨.required, ⟨.int32, []⟩, "weight", 2⟩
    let s : Schema := ⟨"tree", [⟨"Node", [children, weight]⟩]⟩
    o.compile = .ok s ∧ s.HasOneKind children.type ∧ s.HasOneKind weight.type := by
  intro o children weight s
  have hcompile : o.compile = .ok s := rfl
  obtain ⟨hnode, -⟩ := List.forall₂_cons.1 (hasOneKind_iff_of_compile hcompile)
  obtain ⟨hchildren, hrest⟩ := List.forall₂_cons.1 hnode
  obtain ⟨hweight, -⟩ := List.forall₂_cons.1 hrest
  exact ⟨hcompile, hchildren.2.1.2 (by decide), hweight.2.1.2 (by decide)⟩

/--
A field with an empty type is compiled without a fault, into a type of neither kind that has no
counterpart.
-/
theorem exists_compile_not_hasOneKind :
    let o : Outline := ⟨"a.proto", "p", [
      ⟨"M", ⟨"a.proto", 1, 1⟩, [⟨"optional", [], "a", "1", ⟨"a.proto", 2, 3⟩⟩]⟩]⟩
    let a : Field := ⟨.optional, ⟨.none, []⟩, "a", 1⟩
    let s : Schema := ⟨"p", [⟨"M", [a]⟩]⟩
    o.compile = .ok s ∧ ¬ s.HasOneKind a.type ∧ Plan.elemType? a.type = none := by
  intro o a s
  have hmapped : ¬ a.type.IsMapped := FieldType.not_isMapped_ofKeyword_nil
  exact ⟨rfl, fun hkind => hmapped hkind.isMapped, rfl⟩

end Outline

end ValueGen
