import ValueGen.Proofs.Schema.Acceptance

/-!
This module contains when an outline is compiled into the schema that it declares. That depends on
the schema alone, and not on the words of the outline.
-/

namespace ValueGen

/--
The conditions under which a schema can be compiled from an outline that declares it.
-/
structure Schema.IsConsistent (s : Schema) : Prop where
  names : (s.messages.map Message.name).Nodup
  ids : ∀ m ∈ s.messages, ∀ f ∈ m.fields, -2 ^ 31 ≤ f.id ∧ f.id < 2 ^ 31
  fieldIds : ∀ m ∈ s.messages, (m.fields.map Field.id).Nodup
  fieldNames : ∀ m ∈ s.messages, (m.fields.map Field.name).Nodup
  types : ∀ m ∈ s.messages, ∀ f ∈ m.fields, f.type.isMessage = true
    → ∃ d ∈ s.messages, d.name = f.type.message

theorem Text.Denotes.unique {t : Text} {n k : Int} (h : t.Denotes n) (h' : t.Denotes k) : n = k := by
  rw [← integer?_eq_some_iff] at h h'
  exact Option.some.inj (h.symm.trans h')

/-! Lists whose elements correspond to each other. -/

section Correspondence

variable {α β γ : Type} {R : α → β → Prop} {l : List α} {l' : List β}

theorem forall_mem_iff_of_forall₂ (h : List.Forall₂ R l l') {p : α → Prop} {q : β → Prop}
    (hpq : ∀ a b, R a b → (p a ↔ q b)) : (∀ a ∈ l, p a) ↔ ∀ b ∈ l', q b := by
  induction h with
  | nil => simp
  | cons hab _ ih => rw [List.forall_mem_cons, List.forall_mem_cons, hpq _ _ hab, ih]

theorem forall_mem_of_forall₂ (h : List.Forall₂ R l l') {q : β → Prop}
    (hq : ∀ a b, R a b → q b) : ∀ b ∈ l', q b :=
  (forall_mem_iff_of_forall₂ h fun a b hab => iff_of_true trivial (hq a b hab)).1 fun _ _ => trivial

theorem map_eq_of_forall₂ (h : List.Forall₂ R l l') {f : α → γ} {g : β → γ}
    (hfg : ∀ a b, R a b → f a = g b) : l.map f = l'.map g := by
  induction h with
  | nil => rfl
  | cons hab _ ih => rw [List.map_cons, List.map_cons, hfg _ _ hab, ih]

theorem pairwise_iff_of_forall₂ (h : List.Forall₂ R l l') {p : α → α → Prop} {q : β → β → Prop}
    (hpq : ∀ a b c d, R a b → R c d → (p a c ↔ q b d)) : l.Pairwise p ↔ l'.Pairwise q := by
  induction h with
  | nil => simp
  | cons hab htail ih =>
    rw [List.pairwise_cons, List.pairwise_cons, ih,
      forall_mem_iff_of_forall₂ htail fun _ _ hcd => hpq _ _ _ _ hab hcd]

end Correspondence

/-! What a declaration and its words have in common. -/

namespace FieldOutline.Declares

variable {f g : FieldOutline} {a b : Field}

theorem hasRule (h : f.Declares a) : f.HasRule :=
  (hasRule_iff f).2 ⟨a.rule, (Rule.ofKeyword?_eq_some_iff _ _).2 h.rule⟩

theorem hasId_iff (h : f.Declares a) : f.HasId ↔ -2 ^ 31 ≤ a.id ∧ a.id < 2 ^ 31 := by
  constructor
  . rintro ⟨n, hn, hrange⟩
    rwa [h.id.unique hn]
  . intro hrange
    exact ⟨a.id, h.id, hrange⟩

theorem denotes_iff (hf : f.Declares a) (hg : g.Declares b) :
    (∃ n, f.id.Denotes n ∧ g.id.Denotes n) ↔ a.id = b.id := by
  constructor
  . rintro ⟨n, hn, hn'⟩
    rw [hf.id.unique hn, hg.id.unique hn']
  . intro heq
    exact ⟨a.id, hf.id, heq ▸ hg.id⟩

theorem toField_eq (h : f.Declares a) : f.toField = a := by
  have hrule := (Rule.ofKeyword?_eq_some_iff _ _).2 h.rule
  have hid := (Text.integer?_eq_some_iff _ _).2 h.id
  unfold toField
  rw [hrule, hid, ← h.type, ← h.name]
  rfl

end FieldOutline.Declares

namespace MessageOutline.Declares

variable {m : MessageOutline} {n : Message}

theorem toMessage_eq (h : m.Declares n) (hsound : ∀ f ∈ m.fields, f.IsSound) : m.toMessage = n := by
  have hfields := map_eq_of_forall₂ h.fields (g := id) fun _ _ hf => hf.toField_eq
  rw [toMessage, soundFields_eq_fields hsound, hfields, List.map_id, ← h.name]

end MessageOutline.Declares

namespace Outline

variable {o : Outline} {s : Schema}

theorem isWellFormed_iff_isConsistent (h : List.Forall₂ MessageOutline.Declares o.messages s.messages) :
    o.IsWellFormed ↔ s.IsConsistent := by
  have hnames : o.messages.map MessageOutline.name = s.messages.map Message.name :=
    map_eq_of_forall₂ h fun _ _ hm => hm.name.symm
  have hrules : ∀ m ∈ o.messages, ∀ f ∈ m.fields, f.HasRule := by
    refine forall_mem_of_forall₂ h.flip fun n m hm => ?_
    exact forall_mem_of_forall₂ hm.fields.flip fun _ _ hf => hf.hasRule
  have hids : (∀ m ∈ o.messages, ∀ f ∈ m.fields, f.HasId)
      ↔ ∀ n ∈ s.messages, ∀ a ∈ n.fields, -2 ^ 31 ≤ a.id ∧ a.id < 2 ^ 31 :=
    forall_mem_iff_of_forall₂ h fun _ _ hm =>
      forall_mem_iff_of_forall₂ hm.fields fun _ _ hf => hf.hasId_iff
  have hfieldIds : (∀ m ∈ o.messages, m.fields.Pairwise fun f g =>
      ¬ ∃ n, f.id.Denotes n ∧ g.id.Denotes n) ↔ ∀ n ∈ s.messages, (n.fields.map Field.id).Nodup := by
    refine forall_mem_iff_of_forall₂ h fun m n hm => ?_
    rw [List.Nodup, List.pairwise_map]
    exact pairwise_iff_of_forall₂ hm.fields fun _ _ _ _ hf hg => not_congr (hf.denotes_iff hg)
  have hfieldNames : (∀ m ∈ o.messages, (m.fields.map FieldOutline.name).Nodup)
      ↔ ∀ n ∈ s.messages, (n.fields.map Field.name).Nodup := by
    refine forall_mem_iff_of_forall₂ h fun m n hm => ?_
    rw [map_eq_of_forall₂ hm.fields (g := Field.name) fun _ _ hf => hf.name.symm]
  have htypes : (∀ m ∈ o.messages, ∀ f ∈ m.fields, f.NamesMessage
        → ∃ d ∈ o.messages, d.name = f.type)
      ↔ ∀ n ∈ s.messages, ∀ a ∈ n.fields, a.type.isMessage = true
        → ∃ d ∈ s.messages, d.name = a.type.message := by
    refine forall_mem_iff_of_forall₂ h fun m n hm => ?_
    refine forall_mem_iff_of_forall₂ hm.fields fun f a hf => ?_
    rw [FieldOutline.namesMessage_iff, hf.type]
    refine imp_congr_right fun hmessage => ?_
    rw [FieldType.message_ofKeyword_of_isMessage hmessage, ← List.mem_map, ← List.mem_map, hnames]
  constructor
  . intro hwell
    exact {
      names := hnames ▸ hwell.names
      ids := hids.1 hwell.ids
      fieldIds := hfieldIds.1 hwell.fieldIds
      fieldNames := hfieldNames.1 hwell.fieldNames
      types := htypes.1 hwell.types
    }
  . intro hconsistent
    exact {
      names := hnames ▸ hconsistent.names
      rules := hrules
      ids := hids.2 hconsistent.ids
      fieldIds := hfieldIds.2 hconsistent.fieldIds
      fieldNames := hfieldNames.2 hconsistent.fieldNames
      types := htypes.2 hconsistent.types
    }

/--
An outline that declares a consistent schema is compiled into it.
-/
theorem compile_of_isConsistent (hspace : s.space = o.package)
    (hmessages : List.Forall₂ MessageOutline.Declares o.messages s.messages)
    (hs : s.IsConsistent) : o.compile = .ok s := by
  have hwell := (isWellFormed_iff_isConsistent hmessages).2 hs
  have hsound (m) (hm : m ∈ o.messages) (f) (hf : f ∈ m.fields) : f.IsSound :=
    ⟨hwell.rules m hm f hf, hwell.ids m hm f hf⟩
  have htoMessage : o.messages.map MessageOutline.toMessage = s.messages := by
    rw [map_eq_of_forall₂ ((List.forall₂_and_left _ _).2 ⟨hsound, hmessages⟩) (g := id)
      fun _ _ hm => hm.2.toMessage_eq hm.1, List.map_id]
  rw [compile_eq, if_pos ((faults_eq_nil_iff o).2 hwell), MessageOutline.newOnes_eq_self hwell.names,
    htoMessage, ← hspace]

end Outline

end ValueGen
