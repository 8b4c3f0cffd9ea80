import Mathlib.Data.List.Forall2
import ValueGen.Proofs.Schema.Report

/-!
This module contains which outlines are compiled into schemas: exactly the well-formed ones. The
schema of a well-formed outline declares what the outline declares, and nothing is left out.
-/

namespace ValueGen

/--
The conditions under which an outline is compiled into a schema.
-/
structure Outline.IsWellFormed (o : Outline) : Prop where
  names : (o.messages.map MessageOutline.name).Nodup
  rules : ∀ m ∈ o.messages, ∀ f ∈ m.fields, f.HasRule
  ids : ∀ m ∈ o.messages, ∀ f ∈ m.fields, f.HasId
  fieldIds : ∀ m ∈ o.messages,
    m.fields.Pairwise fun f g => ¬ ∃ n, f.id.Denotes n ∧ g.id.Denotes n
  fieldNames : ∀ m ∈ o.messages, (m.fields.map FieldOutline.name).Nodup
  /-- A message may be declared before or after the fields that refer to it. -/
  types : ∀ m ∈ o.messages, ∀ f ∈ m.fields, f.NamesMessage → ∃ d ∈ o.messages, d.name = f.type

structure FieldOutline.Declares (f : FieldOutline) (g : Field) : Prop where
  rule : g.rule.isValid = true ∧ g.rule.keyword = f.rule
  type : g.type = FieldType.ofKeyword f.type
  name : g.name = f.name
  id : f.id.Denotes g.id

structure MessageOutline.Declares (m : MessageOutline) (n : Message) : Prop where
  name : n.name = m.name
  fields : List.Forall₂ FieldOutline.Declares m.fields n.fields

structure Outline.Declares (o : Outline) (s : Schema) : Prop where
  space : s.space = o.package
  messages : List.Forall₂ MessageOutline.Declares o.messages s.messages
  found : ∀ m ∈ o.messages, ∃ n ∈ s.messages, m.Declares n ∧ s.message? m.name = some n

namespace FieldOutline

theorem fault?_eq_none_iff (message : Text) (f : FieldOutline) :
    f.fault? message = none ↔ f.IsSound := by
  unfold fault? IsSound
  by_cases hrule : f.HasRule
  . by_cases hid : f.HasId
    all_goals simp [hrule, hid]
  . simp [hrule]

theorem declares_toField {f : FieldOutline} (h : f.IsSound) : f.Declares f.toField := by
  obtain ⟨r, hr⟩ := (hasRule_iff f).1 h.1
  obtain ⟨n, hn, -⟩ := h.2
  have hint := (Text.integer?_eq_some_iff f.id n).2 hn
  constructor
  . simp only [toField, hr, Option.getD_some]
    exact (Rule.ofKeyword?_eq_some_iff f.rule r).1 hr
  . rfl
  . rfl
  . simp only [toField, hint, Option.getD_some]
    exact hn

end FieldOutline

namespace MessageOutline

theorem soundFields_eq_fields {m : MessageOutline} (h : ∀ f ∈ m.fields, f.IsSound) :
    m.soundFields = m.fields := by
  unfold soundFields
  rw [List.filter_eq_self]
  intro f hf
  exact decide_eq_true (h f hf)

theorem declares_toMessage {m : MessageOutline} (h : ∀ f ∈ m.fields, f.IsSound) :
    m.Declares m.toMessage := by
  refine ⟨rfl, ?_⟩
  unfold toMessage
  rw [soundFields_eq_fields h, List.forall₂_map_right_iff, List.forall₂_same]
  intro f hf
  exact FieldOutline.declares_toField (h f hf)

theorem faults_eq_nil_iff (m : MessageOutline) :
    m.faults = [] ↔ (∀ f ∈ m.fields, f.IsSound) ∧ m.IsCollisionFree := by
  unfold faults
  rw [List.append_eq_nil_iff, List.filterMap_eq_nil_iff]
  simp only [FieldOutline.fault?_eq_none_iff]
  by_cases h : m.IsCollisionFree
  all_goals simp [h]

theorem isCollisionFree_iff {m : MessageOutline} (h : ∀ f ∈ m.fields, f.IsSound) :
    m.IsCollisionFree ↔ (m.fields.Pairwise fun f g => ¬ ∃ n, f.id.Denotes n ∧ g.id.Denotes n)
      ∧ (m.fields.map FieldOutline.name).Nodup := by
  unfold IsCollisionFree FieldOutline.Collides
  rw [soundFields_eq_fields h, List.Nodup, List.pairwise_map, ← List.pairwise_and_iff]
  simp only [not_or, and_comm, ne_eq]

theorem faultsAfter_eq_nil_iff (earlier : List MessageOutline) (m : MessageOutline) :
    m.faultsAfter earlier = [] ↔ m.IsNewAfter earlier ∧ m.faults = [] := by
  have hnew : m.IsNewAfter earlier ↔ earlier.find? (·.name = m.name) = none := by
    simp [IsNewAfter]
  unfold faultsAfter
  rw [hnew]
  split
  . next first hfirst => simp [hfirst]
  . next hnone => simp [hnone]

theorem map_snd_inContext (ms : List MessageOutline) : (inContext ms).map Prod.snd = ms := by
  induction ms with
  | nil => rfl
  | cons m ms ih =>
    rw [inContext_cons]
    simpa [Function.comp_def] using ih

theorem forall_isNewAfter_iff (ms : List MessageOutline) :
    (∀ c ∈ inContext ms, c.2.IsNewAfter c.1) ↔ (ms.map name).Nodup := by
  induction ms using List.reverseRecOn with
  | nil => simp [inContext]
  | append_singleton ms m ih =>
    rw [inContext_append_singleton, List.forall_mem_append, ih, List.map_append,
      List.nodup_append]
    simp [IsNewAfter]

theorem newOnes_eq_self {ms : List MessageOutline} (h : (ms.map name).Nodup) : newOnes ms = ms := by
  unfold newOnes
  rw [List.filter_eq_self.2, map_snd_inContext]
  intro c hc
  exact decide_eq_true ((forall_isNewAfter_iff ms).2 h c hc)

end MessageOutline

theorem Schema.message?_of_mem {s : Schema} {m : Message}
    (hnames : (s.messages.map Message.name).Nodup) (hm : m ∈ s.messages) :
    s.message? m.name = some m := by
  obtain ⟨before, after, hsplit⟩ := List.append_of_mem hm
  rw [hsplit, List.map_append, List.nodup_append] at hnames
  unfold message?
  rw [List.find?_eq_some_iff_append]
  refine ⟨by simp, before, after, hsplit, ?_⟩
  intro e he
  have hne := hnames.2.2 e.name (List.mem_map_of_mem he) m.name (by simp)
  simpa using hne

namespace Outline

theorem not_lacks_iff (o : Outline) (f : FieldOutline) :
    ¬ o.Lacks f ↔ (f.NamesMessage → ∃ d ∈ o.messages, d.name = f.type) := by
  unfold Lacks
  simp only [not_and, not_forall, ne_eq, not_not, exists_prop]

theorem danglingSites_eq_nil_iff {o : Outline} (hnames : (o.messages.map MessageOutline.name).Nodup)
    (hsound : ∀ m ∈ o.messages, ∀ f ∈ m.fields, f.IsSound) :
    o.danglingSites = []
      ↔ ∀ m ∈ o.messages, ∀ f ∈ m.fields, f.NamesMessage → ∃ d ∈ o.messages, d.name = f.type := by
  unfold danglingSites
  rw [MessageOutline.newOnes_eq_self hnames, List.flatMap_eq_nil_iff]
  apply forall₂_congr
  intro m hm
  rw [List.map_eq_nil_iff, List.filter_eq_nil_iff,
    MessageOutline.soundFields_eq_fields (hsound m hm)]
  apply forall₂_congr
  intro f _
  rw [decide_eq_true_eq, not_lacks_iff]

theorem reports_eq_nil_iff (o : Outline) :
    (MessageOutline.inContext o.messages).flatMap (fun c => c.2.faultsAfter c.1) = []
      ↔ (o.messages.map MessageOutline.name).Nodup ∧ ∀ m ∈ o.messages, m.faults = [] := by
  rw [List.flatMap_eq_nil_iff, ← MessageOutline.forall_isNewAfter_iff]
  simp only [MessageOutline.faultsAfter_eq_nil_iff, forall_and, and_congr_right_iff]
  intro _
  -- The messages in context are the messages.
  have hmem (m : MessageOutline) :
      m ∈ o.messages ↔ ∃ c ∈ MessageOutline.inContext o.messages, c.2 = m := by
    rw [← List.mem_map, MessageOutline.map_snd_inContext]
  constructor
  . intro h m hm
    obtain ⟨c, hc, rfl⟩ := (hmem m).1 hm
    exact h c hc
  . intro h c hc
    exact h c.2 ((hmem c.2).2 ⟨c, hc, rfl⟩)

theorem faults_eq_nil_iff (o : Outline) : o.faults = [] ↔ o.IsWellFormed := by
  have hsites : (if o.danglingSites = [] then []
      else [Failure.unresolved (o.danglingSites.map Reference.type).eraseDups o.danglingSites]) = []
        ↔ o.danglingSites = [] := by
    by_cases h : o.danglingSites = []
    all_goals simp [h]
  unfold faults
  rw [List.append_eq_nil_iff, reports_eq_nil_iff, hsites]
  constructor
  . rintro ⟨⟨hnames, hfaults⟩, hdangling⟩
    have hsound (m) (hm : m ∈ o.messages) :=
      ((MessageOutline.faults_eq_nil_iff m).1 (hfaults m hm)).1
    have hfree (m) (hm : m ∈ o.messages) := (MessageOutline.isCollisionFree_iff (hsound m hm)).1
      ((MessageOutline.faults_eq_nil_iff m).1 (hfaults m hm)).2
    exact {
      names := hnames
      rules := fun m hm f hf => (hsound m hm f hf).1
      ids := fun m hm f hf => (hsound m hm f hf).2
      fieldIds := fun m hm => (hfree m hm).1
      fieldNames := fun m hm => (hfree m hm).2
      types := (danglingSites_eq_nil_iff hnames hsound).1 hdangling
    }
  . intro h
    have hsound (m) (hm : m ∈ o.messages) (f) (hf : f ∈ m.fields) : f.IsSound :=
      ⟨h.rules m hm f hf, h.ids m hm f hf⟩
    refine ⟨⟨h.names, ?_⟩, (danglingSites_eq_nil_iff h.names hsound).2 h.types⟩
    intro m hm
    rw [MessageOutline.faults_eq_nil_iff, MessageOutline.isCollisionFree_iff (hsound m hm)]
    exact ⟨hsound m hm, h.fieldIds m hm, h.fieldNames m hm⟩

theorem declares_of_isWellFormed {o : Outline} (h : o.IsWellFormed) :
    o.Declares ⟨o.package, o.messages.map MessageOutline.toMessage⟩ := by
  have hsound (m) (hm : m ∈ o.messages) (f) (hf : f ∈ m.fields) : f.IsSound :=
    ⟨h.rules m hm f hf, h.ids m hm f hf⟩
  have hnames : ((o.messages.map MessageOutline.toMessage).map Message.name).Nodup := by
    rw [List.map_map]
    exact h.names
  constructor
  . rfl
  . rw [List.forall₂_map_right_iff, List.forall₂_same]
    intro m hm
    exact MessageOutline.declares_toMessage (hsound m hm)
  . intro m hm
    have hmem : m.toMessage ∈ o.messages.map MessageOutline.toMessage := List.mem_map_of_mem hm
    refine ⟨m.toMessage, hmem, MessageOutline.declares_toMessage (hsound m hm), ?_⟩
    exact Schema.message?_of_mem (s := ⟨o.package, _⟩) hnames hmem

theorem compile_eq_ok {o : Outline} {schema : Schema} (h : o.compile = .ok schema) :
    o.IsWellFormed ∧ schema = ⟨o.package, o.messages.map MessageOutline.toMessage⟩ := by
  rw [compile_eq] at h
  split at h
  . next hfaults =>
    have hwell := (faults_eq_nil_iff o).1 hfaults
    rw [MessageOutline.newOnes_eq_self hwell.names] at h
    cases h
    exact ⟨hwell, rfl⟩
  . cases h

/--
An outline is compiled into a schema exactly if it is well-formed, and the schema is then the one
that it declares.
-/
theorem compile_isOk_iff_isWellFormed (o : Outline) :
    ((∃ s, o.compile = .ok s) ↔ o.IsWellFormed) ∧ ∀ s, o.compile = .ok s → o.Declares s := by
  rw [compile_eq]
  by_cases h : o.IsWellFormed
  . rw [if_pos ((faults_eq_nil_iff o).2 h), MessageOutline.newOnes_eq_self h.names]
    refine ⟨by simp [h], ?_⟩
    intro s hs
    cases hs
    exact declares_of_isWellFormed h
  . rw [if_neg (mt (faults_eq_nil_iff o).1 h)]
    simp [h]

/--
Fields may refer to messages that are declared later and to their own message, and their ids may
have signs and leading zeros.
-/
theorem forward_reference_isWellFormed :
    IsWellFormed ⟨"shapes.proto", "shapes", [
      ⟨"Tree", ⟨"shapes.proto", 3, 1⟩, [
        ⟨"required", "Node", "root", "+007", ⟨"shapes.proto", 4, 3⟩⟩,
        ⟨"optional", "int32", "size", "-2147483648", ⟨"shapes.proto", 5, 3⟩⟩]⟩,
      ⟨"Node", ⟨"shapes.proto", 7, 1⟩, [
        ⟨"repeated", "Node", "children", "7", ⟨"shapes.proto", 8, 3⟩⟩]⟩]⟩ :=
  (compile_isOk_iff_isWellFormed _).1.1 ⟨_, rfl⟩

end Outline

end ValueGen
