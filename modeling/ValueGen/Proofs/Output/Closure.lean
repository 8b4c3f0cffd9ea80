import Mathlib.Data.List.Pairwise
import ValueGen.Proofs.Output.Generation
import ValueGen.Proofs.Plan.References
import ValueGen.Proofs.Schema.Acceptance

/-!
This module contains that the code generated from an outline is closed under its own references: if
no message fails, there is one file for each message of the outline, and each type of the package
that one of the files refers to is declared by exactly one of them.
-/

namespace ValueGen

/-! The package-level names that messages take. -/

/--
No package-level name belongs to both messages.
-/
def Message.IsApartFrom (m n : Message) : Prop :=
  (TypeNames.ofName m.name).toList.Disjoint (TypeNames.ofName n.name).toList

instance : Std.Symm Message.IsApartFrom := ⟨fun _ _ h _ hn hm => h hm hn⟩

namespace Claims

variable {c : Claims} {m : Message}

theorem disjoint_of_fault?_none (h : c.fault? m = none) :
    (c.names.map Prod.fst).Disjoint (TypeNames.ofName m.name).toList := by
  unfold fault? at h
  split at h
  . cases h
  . rw [List.findSome?_eq_none_iff] at h
    intro id htaken hid
    obtain ⟨e, he, rfl⟩ := List.mem_map.1 htaken
    have hlookup := h e.1 hid
    rw [Option.map_eq_none_iff, List.lookup_eq_none_iff] at hlookup
    simpa using hlookup e he

-- No two messages that took their names share one, and none of them has one that was taken.
theorem pairwise_isApartFrom_taken (c : Claims) (ms : List Message) :
    (((c.settle ms).filter fun x => x.2.isNone).map Prod.fst).Pairwise Message.IsApartFrom
      ∧ ∀ x ∈ c.settle ms, x.2 = none
        → (c.names.map Prod.fst).Disjoint (TypeNames.ofName x.1.name).toList := by
  induction ms generalizing c with
  | nil => simp [settle]
  | cons m ms ih =>
    unfold settle
    split
    . obtain ⟨hpairwise, hnew⟩ := ih c
      rw [List.filter_cons_of_neg (by simp), List.forall_mem_cons]
      exact ⟨hpairwise, by simp, hnew⟩
    . next hfault =>
      obtain ⟨hpairwise, hnew⟩ := ih (c.take m)
      have hnames : (c.take m).names.map Prod.fst
          = c.names.map Prod.fst ++ (TypeNames.ofName m.name).toList := by
        simp [take, Function.comp_def]
      simp only [hnames, List.disjoint_append_left] at hnew
      rw [List.filter_cons_of_pos (by simp), List.map_cons, List.pairwise_cons,
        List.forall_mem_cons]
      refine ⟨⟨?_, hpairwise⟩, fun _ => disjoint_of_fault?_none hfault,
        fun x hx htaken => (hnew x hx htaken).1⟩
      intro n hn
      obtain ⟨x, hx, rfl⟩ := List.mem_map.1 hn
      rw [List.mem_filter, Option.isNone_iff_eq_none] at hx
      exact (hnew x hx.1 hx.2).2

end Claims

-- If no message failed, a name of two messages shows that they are the same.
theorem Batch.IsSequential.eq_of_mem_typeNames {schema : Schema} {s : Settings} {b : Batch}
    (h : b.IsSequential schema s) (hnone : b.failedNames = []) {m n : Message}
    (hm : m ∈ schema.messages) (hn : n ∈ schema.messages) {id : Text}
    (hmid : id ∈ (TypeNames.ofName m.name).toList)
    (hnid : id ∈ (TypeNames.ofName n.name).toList) : m = n := by
  have hpairwise := (Claims.empty.pairwise_isApartFrom_taken schema.messages).1
  have hall : (Claims.empty.settle schema.messages).filter (fun x => x.2.isNone)
      = Claims.empty.settle schema.messages := by
    rw [List.filter_eq_self]
    intro c hc
    rw [(h.exists_of_mem_settle hnone hc).1]
    rfl
  rw [hall, h.settled] at hpairwise
  by_contra hne
  exact hpairwise.forall hm hn hne hmid hnid

theorem Batch.IsSequential.eq_of_name_eq {schema : Schema} {s : Settings} {b : Batch}
    (h : b.IsSequential schema s) (hnone : b.failedNames = []) {m n : Message}
    (hm : m ∈ schema.messages) (hn : n ∈ schema.messages) (hname : m.name = n.name) : m = n := by
  have hown : m.name ∈ (TypeNames.ofName m.name).toList := List.mem_cons_self
  refine h.eq_of_mem_typeNames hnone hm hn hown ?_
  rw [← hname]
  exact hown

/-! The code of a file. -/

/--
The file was printed from this code, which was emitted for the message of the file.
-/
def GeneratedFile.IsPrintedFrom (schema : Schema) (s : Settings) (f : GeneratedFile)
    (c : Code.File) : Prop :=
  ∃ m ∈ schema.messages, f.message = m.name
    ∧ s.emitterInUse.emit m s.toOptions = .ok (.code c) ∧ c.print? = some f.printed

/--
What the code of a message declares and what it refers to.
-/
structure Code.File.IsCodeOf (m : Message) (c : Code.File) : Prop where
  typeNames : c.typeNames = [m.name, m.name ++ "Builder"]
  pointees : ∀ id, id ∈ c.pointees ↔ id = m.name ∨ id = m.name ++ "Builder"
    ∨ ∃ f ∈ m.fields, f.type.isMessage = true ∧ f.type.message = id

theorem Code.File.IsCodeOf.mem_toList {m : Message} {c : Code.File} (h : c.IsCodeOf m) {id : Text}
    (hid : id ∈ c.typeNames) : id ∈ (TypeNames.ofName m.name).toList := by
  rw [h.typeNames] at hid
  exact List.mem_append_left _ hid

section

variable {schema : Schema} {s : Settings} {m : Message} {b : Batch} {f : GeneratedFile}
  {c : Code.File}

theorem emit_values (hemitter : s.emitterInUse = .values) (m : Message) :
    s.emitterInUse.emit m s.toOptions
      = (Plan.ofMessage m s.package).map fun p => .code (p.toFile s.toOptions) := by
  rw [hemitter]
  unfold Emitter.values
  dsimp only
  cases Plan.ofMessage m s.package with
  | error f => rfl
  | ok p => rfl

theorem isCodeOf_of_emit (hemitter : s.emitterInUse = .values)
    (h : s.emitterInUse.emit m s.toOptions = .ok (.code c)) : c.IsCodeOf m := by
  rw [emit_values hemitter] at h
  cases hplan : Plan.ofMessage m s.package with
  | error f =>
    rw [hplan] at h
    cases h
  | ok p =>
    rw [hplan] at h
    cases h
    exact ⟨Plan.typeNames_of_ofMessage hplan _, Plan.mem_pointees_iff_of_ofMessage hplan _⟩

theorem exists_code_of_generate (hemitter : s.emitterInUse = .values) {printed : Code.Printed}
    (h : generate m s = .ok printed) :
    ∃ c, s.emitterInUse.emit m s.toOptions = .ok (.code c) ∧ c.print? = some printed := by
  unfold generate at h
  rw [emit_values hemitter] at h
  rw [emit_values hemitter]
  split at h
  . cases h
  . cases hplan : Plan.ofMessage m s.package with
    | error f =>
      rw [hplan] at h
      dsimp only [Except.map] at h
      split at h
      all_goals cases h
    | ok p =>
      rw [hplan] at h
      dsimp only [Except.map, Output.print?] at h
      split at h
      . next hprint =>
        cases h
        exact ⟨_, rfl, hprint⟩
      . cases h

theorem GeneratedFile.IsPrintedFrom.exists_isCodeOf (hemitter : s.emitterInUse = .values)
    (h : f.IsPrintedFrom schema s c) :
    ∃ m ∈ schema.messages, f.message = m.name ∧ c.IsCodeOf m := by
  obtain ⟨m, hm, hmessage, hemit, -⟩ := h
  exact ⟨m, hm, hmessage, isCodeOf_of_emit hemitter hemit⟩

theorem Batch.IsSequential.exists_isPrintedFrom (h : b.IsSequential schema s)
    (hemitter : s.emitterInUse = .values) (hf : f ∈ b.files) :
    ∃ c, f.IsPrintedFrom schema s c := by
  obtain ⟨m, hm, printed, hgenerate, rfl⟩ := h.exists_of_mem_files hf
  obtain ⟨c, hemit, hprint⟩ := exists_code_of_generate hemitter hgenerate
  exact ⟨c, m, hm, rfl, hemit, hprint⟩

-- A type is declared by the file of its message, and by no other.
theorem Batch.IsSequential.existsUnique_declaring (h : b.IsSequential schema s)
    (hnone : b.failedNames = []) (hemitter : s.emitterInUse = .values)
    (hm : m ∈ schema.messages) {id : Text} (hid : id = m.name ∨ id = m.name ++ "Builder") :
    ∃! f, f ∈ b.files ∧ ∃ c, f.IsPrintedFrom schema s c ∧ id ∈ c.typeNames := by
  obtain ⟨printed, hgenerate⟩ := h.exists_generate hnone hm
  obtain ⟨c, hemit, hprint⟩ := exists_code_of_generate hemitter hgenerate
  have hown : id ∈ c.typeNames := by
    rw [(isCodeOf_of_emit hemitter hemit).typeNames]
    simpa using hid
  refine ⟨⟨m.fileName, m.name, printed⟩, ⟨?_, c, ⟨m, hm, rfl, hemit, hprint⟩, hown⟩, ?_⟩
  . rw [h.mem_files_iff hnone]
    exact ⟨m, hm, printed, hgenerate, rfl⟩
  . rintro f ⟨hf, d, hprinted, hother⟩
    obtain ⟨n, hn, hmessage, hcode⟩ := hprinted.exists_isCodeOf hemitter
    obtain ⟨k, hk, kprinted, hkgenerate, rfl⟩ := h.exists_of_mem_files hf
    have hnm : n = m := h.eq_of_mem_typeNames hnone hn hm (hcode.mem_toList hother)
      ((isCodeOf_of_emit hemitter hemit).mem_toList hown)
    have hkn : k = n := h.eq_of_name_eq hnone hk hn hmessage
    subst hkn hnm
    rw [hgenerate] at hkgenerate
    cases hkgenerate
    rfl

end

/-! The package of an outline. -/

/--
The files of the batch are a package of their own: there is one file for each message of the
outline, printed from code, the code mentions the message that a field refers to, and whichever type
of the package the code refers to, exactly one file declares it.
-/
structure Batch.IsClosed (o : Outline) (schema : Schema) (s : Settings) (b : Batch) : Prop where
  messages : b.files.map GeneratedFile.message = o.messages.map MessageOutline.name
  distinct : (o.messages.map MessageOutline.name).Nodup
  names : (b.files.map GeneratedFile.name).Nodup
  code : ∀ f ∈ b.files, ∃ c, f.IsPrintedFrom schema s c
  fields : ∀ f ∈ b.files, ∀ c, f.IsPrintedFrom schema s c
    → ∀ m ∈ o.messages, m.name = f.message → ∀ g ∈ m.fields, g.NamesMessage → g.type ∈ c.pointees
  closed : ∀ f ∈ b.files, ∀ c, f.IsPrintedFrom schema s c
    → ∀ id ∈ c.pointees, ∃! g, g ∈ b.files ∧ ∃ d, g.IsPrintedFrom schema s d ∧ id ∈ d.typeNames

-- A message of the schema that a field refers to is one of the schema, since the outline has it.
theorem Outline.IsWellFormed.exists_message {o : Outline} (h : o.IsWellFormed) {m : Message}
    (hm : m ∈ o.messages.map MessageOutline.toMessage) {f : Field} (hf : f ∈ m.fields)
    (hmessage : f.type.isMessage = true) :
    ∃ n ∈ o.messages.map MessageOutline.toMessage, n.name = f.type.message := by
  obtain ⟨mo, hmo, rfl⟩ := List.mem_map.1 hm
  obtain ⟨fo, hfo, rfl⟩ := List.mem_map.1 hf
  have hfield : fo ∈ mo.fields := (List.mem_filter.1 hfo).1
  obtain ⟨d, hd, hname⟩ := h.types mo hmo fo hfield ((FieldOutline.namesMessage_iff fo).2 hmessage)
  refine ⟨d.toMessage, List.mem_map_of_mem hd, ?_⟩
  exact hname.trans (FieldType.message_ofKeyword_of_isMessage hmessage).symm

/--
If an outline is compiled and none of its messages fails, the code generated by the usual emitter is
closed under its own references.
-/
theorem generateSchema_isClosed (o : Outline) (schema : Schema) (s : Settings)
    (schedule : Schedule) (b : Batch) (hcompile : o.compile = .ok schema)
    (hemitter : s.emitterInUse = .values) (hcovers : schedule.Covers schema.messages.length)
    (hbatch : generateSchema schema s schedule = .ok b) (hnone : b.failure? = none) :
    b.IsClosed o schema s := by
  obtain ⟨hwell, rfl⟩ := Outline.compile_eq_ok hcompile
  have hsequential := isSequential_of_generateSchema_ok hcovers hbatch
  have hfailed := hsequential.failure_none.1 hnone
  have hmessages := hsequential.map_message_files hfailed
  rw [List.map_map] at hmessages
  refine {
    messages := hmessages
    distinct := hwell.names
    names := hsequential.nodup_files
    code := fun f hf => hsequential.exists_isPrintedFrom hemitter hf
    fields := ?_
    closed := ?_
  }
  . intro f hf c hc m hm hname g hg hnames
    obtain ⟨n, hn, hmessage, hcode⟩ := hc.exists_isCodeOf hemitter
    have hnm : n = m.toMessage := hsequential.eq_of_name_eq hfailed hn (List.mem_map_of_mem hm)
      (hmessage.symm.trans hname.symm)
    subst hnm
    have hrefers := (FieldOutline.namesMessage_iff g).1 hnames
    have hfield : g.toField ∈ m.toMessage.fields := by
      apply List.mem_map_of_mem
      rw [MessageOutline.soundFields_eq_fields
        fun k hk => ⟨hwell.rules m hm k hk, hwell.ids m hm k hk⟩]
      exact hg
    exact (hcode.pointees g.type).2
      (.inr (.inr ⟨g.toField, hfield, hrefers, FieldType.message_ofKeyword_of_isMessage hrefers⟩))
  . intro f hf c hc id hid
    obtain ⟨m, hm, -, hcode⟩ := hc.exists_isCodeOf hemitter
    rcases (hcode.pointees id).1 hid with hown | hown | ⟨g, hg, hmessage, rfl⟩
    . exact hsequential.existsUnique_declaring hfailed hemitter hm (.inl hown)
    . exact hsequential.existsUnique_declaring hfailed hemitter hm (.inr hown)
    . obtain ⟨n, hn, hname⟩ := hwell.exists_message hm hg hmessage
      exact hsequential.existsUnique_declaring hfailed hemitter hn (.inl hname.symm)

/--
Trees and their nodes, which refer to each other and to themselves.
-/
def treeOutline : Outline :=
  ⟨"trees.proto", "trees", [
    ⟨"Tree", ⟨"trees.proto", 3, 1⟩, [⟨"required", "Node", "root", "1", ⟨"trees.proto", 4, 3⟩⟩]⟩,
    ⟨"Node", ⟨"trees.proto", 7, 1⟩, [
      ⟨"optional", "string", "label", "1", ⟨"trees.proto", 8, 3⟩⟩,
      ⟨"repeated", "Node", "children", "2", ⟨"trees.proto", 9, 3⟩⟩]⟩]⟩

def treeSettings : Settings := { Settings.default with package := "trees" }

/--
Is the outline compiled, and is its code generated without a failure by one task a message?
-/
def Outline.isGenerated (o : Outline) (s : Settings) (schedule : Schedule) : Bool :=
  match o.compile with
  | .error _ => false
  | .ok schema =>
    match generateSchema schema s schedule with
    | .error _ => false
    | .ok b => b.failed.isEmpty && schema.messages.length == schedule.length

theorem generateSchema_isClosed_trees :
    ∃ schema b, treeOutline.compile = .ok schema ∧ treeSettings.emitterInUse = .values
      ∧ generateSchema schema treeSettings [(1, .late), (0, .early)] = .ok b ∧ b.failure? = none
      ∧ b.IsClosed treeOutline schema treeSettings := by
  have h : treeOutline.isGenerated treeSettings [(1, .late), (0, .early)] = true := by
    decide +kernel
  unfold Outline.isGenerated at h
  cases hcompile : treeOutline.compile with
  | error f =>
    rw [hcompile] at h
    cases h
  | ok schema =>
    rw [hcompile] at h
    dsimp only at h
    cases hbatch : generateSchema schema treeSettings [(1, .late), (0, .early)] with
    | error f =>
      rw [hbatch] at h
      cases h
    | ok b =>
      rw [hbatch, Bool.and_eq_true, List.isEmpty_iff, beq_iff_eq] at h
      have hcovers : Schedule.Covers [(1, .late), (0, .early)] schema.messages.length := by
        rw [h.2]
        exact List.Perm.swap 0 1 []
      have hnone : b.failure? = none := by
        unfold Batch.failure?
        rw [h.1]
        rfl
      exact ⟨schema, b, rfl, rfl, hbatch, hnone,
        generateSchema_isClosed _ _ _ _ _ hcompile rfl hcovers hbatch hnone⟩

end ValueGen
