import ValueGen.Proofs.Schema.Consistency
import ValueGen.Proofs.Source.Accepted
import ValueGen.Proofs.Source.Declaration
import ValueGen.Proofs.Source.Word

/-!
This module contains that the declarations of a schema which was compiled from a source are a source
of the same schema, if its names are read as they are written.
-/

namespace ValueGen

/-! From statements to outlines. -/

namespace Outline

theorem exists_fields_of_declares (file : Text) {ms : List Member} {fs : List Field}
    (h : List.Forall₂ Member.Declares ms fs) (hfs : ∀ f ∈ fs, f.IsDeclarable) :
    ∃ gs, fields file ms = .ok gs ∧ List.Forall₂ FieldOutline.Declares gs fs := by
  induction h with
  | nil => exact ⟨[], rfl, .nil⟩
  | cons hmember _ ih =>
    obtain ⟨hf, hfs⟩ := List.forall_mem_cons.1 hfs
    obtain ⟨gs, hgs, hdeclares⟩ := ih hfs
    cases hmember with
    | @field g f hg =>
      obtain ⟨n, hid, -⟩ := hf.id
      refine ⟨⟨label g, g.type, g.name, Text.ofInt g.number, ⟨file, g.line, g.column⟩⟩ :: gs, ?_,
        .cons ⟨⟨hf.rule, hg.label.symm⟩, ?_, hg.name.symm, ?_⟩ hdeclares⟩
      . rw [fields, hg.hasOptions, hgs]
        rfl
      . rw [hg.type, hf.type]
      . rw [hg.number, hid]
        exact Text.denotes_ofNat n

theorem exists_addStatements_of_declares (o : Outline) {ss : List Statement} {ms : List Message}
    (h : List.Forall₂ Statement.Declares ss ms) (hms : ∀ m ∈ ms, ∀ f ∈ m.fields, f.IsDeclarable) :
    ∃ ns, o.addStatements ss = .ok { o with messages := o.messages ++ ns }
      ∧ List.Forall₂ MessageOutline.Declares ns ms := by
  induction h generalizing o with
  | nil => exact ⟨[], by simp [addStatements], .nil⟩
  | @cons st m ss ms hstatement _ ih =>
    obtain ⟨hm, hms⟩ := List.forall_mem_cons.1 hms
    cases hstatement with
    | @message members _ line column hmembers =>
      obtain ⟨gs, hgs, hfields⟩ := exists_fields_of_declares o.file hmembers hm
      obtain ⟨ns, hns, hdeclares⟩ :=
        ih { o with messages := o.messages ++ [⟨m.name, ⟨o.file, line, column⟩, gs⟩] } hms
      refine ⟨⟨m.name, ⟨o.file, line, column⟩, gs⟩ :: ns, ?_, .cons ⟨rfl, hfields⟩ hdeclares⟩
      rw [addStatements, hgs, if_neg Bool.false_ne_true]
      simpa using hns

end Outline

/-! The declarations as a source. -/

namespace Reader

theorem isAt_start (file : Text) {t : Text}
    (ht : t.glyphs.head?.all (fun g => g.isSound && g.char.toNat != 0xFEFF) = true) :
    (start file t).IsAt t := by
  have hload : (Cursor.load ⟨none, t.glyphs, 1, 0, 0, [], []⟩ true).IsAt t := by
    refine Cursor.IsAt.load rfl rfl ?_ true
    cases hglyphs : t.glyphs.head? with
    | none => rfl
    | some g =>
      rw [hglyphs, Option.all_some, Bool.and_eq_true] at ht
      exact ht.1
  have hcursor : (Cursor.start t.glyphs).IsAt t := by
    simp only [Cursor.start, hload.ahead]
    split
    . next g hglyphs =>
      rw [hglyphs, Option.all_some, Bool.and_eq_true, bne_iff_ne] at ht
      rw [if_neg (by simpa using ht.2)]
      exact hload
    . exact hload
  have hmoved : IsAt ⟨file, Cursor.start t.glyphs, (0, 0), none, .strict, []⟩ t :=
    ⟨hcursor, rfl, rfl, rfl⟩
  exact hmoved.collect (0, 0)

theorem asciiCount_lt_budget {r : Reader} {t : Text} (h : r.IsAt t) : t.asciiCount < r.budget := by
  have hsize := Parse.asciiCount_le_size h
  unfold budget
  omega

end Reader

theorem Source.outline_eq_of_yields {file source : Text} {ss : List Statement} {r : Reader}
    (h : (Parse.statements (Reader.start file source).budget).Yields (Reader.start file source) ss r)
    (hreports : r.reports = []) : outline file source = Outline.ofStatements file ss := by
  rw [outline, (statements_eq_ok_iff file source ss).2 ⟨r, h, hreports⟩]

namespace Schema.IsLegible

variable {ms : List Message}

/--
The declarations of messages are a source that declares them.
-/
theorem exists_outline_of_messages (hms : ∀ m ∈ ms, m.IsLegible)
    (hdeclarable : ∀ m ∈ ms, ∀ f ∈ m.fields, f.IsDeclarable) (file : Text) :
    ∃ ns, Source.outline file (ms.flatMap fun m => 10 :: m.declaration) = .ok ⟨file, [], ns⟩
      ∧ List.Forall₂ MessageOutline.Declares ns ms := by
  have hstart : (Reader.start file (ms.flatMap fun m => 10 :: m.declaration)).IsAt
      (ms.flatMap fun m => 10 :: m.declaration) := by
    apply Reader.isAt_start
    cases ms with
    | nil => rfl
    | cons m ms =>
      rw [List.flatMap_cons, List.cons_append, Text.glyphs_cons (by decide), List.head?_cons]
      decide
  obtain ⟨ss, r, hyields, hss, hreports⟩ := Parse.exists_yields_statements (s := [])
    (fun m hm => ⟨hms m hm, hdeclarable m hm⟩) (Reader.asciiCount_lt_budget hstart) Text.isBlank_nil hstart
  obtain ⟨ns, hns, hdeclares⟩ := Outline.exists_addStatements_of_declares ⟨file, [], []⟩ hss
    hdeclarable
  exact ⟨ns, (Source.outline_eq_of_yields hyields hreports).trans hns, hdeclares⟩

/--
The declarations of a schema with a package are a source that declares it.
-/
theorem exists_outline_of_package {space : Text} (hspace : space.IsPackageName)
    (hms : ∀ m ∈ ms, m.IsLegible) (hdeclarable : ∀ m ∈ ms, ∀ f ∈ m.fields, f.IsDeclarable)
    (file : Text) :
    ∃ ns, Source.outline file
        ("package " ++ (space ++ 59 :: 10 :: ms.flatMap fun m => 10 :: m.declaration))
          = .ok ⟨file, space, ns⟩
      ∧ List.Forall₂ MessageOutline.Declares ns ms := by
  have hstart : (Reader.start file
      ("package " ++ (space ++ 59 :: 10 :: ms.flatMap fun m => 10 :: m.declaration))).IsAt
        ("package " ++ (space ++ 59 :: 10 :: ms.flatMap fun m => 10 :: m.declaration)) := by
    apply Reader.isAt_start
    change Option.all _ (Text.glyphs (112 :: _)).head? = true
    rw [Text.glyphs_cons (by decide), List.head?_cons]
    decide
  obtain ⟨n, hn⟩ : ∃ n, (Reader.start file
      ("package " ++ (space ++ 59 :: 10 :: ms.flatMap fun m => 10 :: m.declaration))).budget = n + 2 :=
    ⟨_, rfl⟩
  have hcount : Text.asciiCount (ms.flatMap fun m => 10 :: m.declaration) < n := by
    have hbudget := Reader.asciiCount_lt_budget hstart
    have hword : Text.asciiCount "package " = 8 := rfl
    have hend (u : Text) : Text.asciiCount (59 :: 10 :: u) = u.asciiCount + 2 := by
      simp [Text.asciiCount]
    rw [hn, Text.asciiCount_append, Text.asciiCount_append, hword, hend] at hbudget
    omega
  obtain ⟨line, column, r₁, hr₁, hpackage⟩ := Parse.exists_yields_package hspace n hstart
  obtain ⟨ss, r, hyields, hss, hreports⟩ := Parse.exists_yields_statements (s := "\n")
    (fun m hm => ⟨hms m hm, hdeclarable m hm⟩) hcount (fun b hb => .inr (List.mem_singleton.1 hb))
    hr₁
  obtain ⟨ns, hns, hdeclares⟩ := Outline.exists_addStatements_of_declares ⟨file, space, []⟩ hss
    hdeclarable
  have houtline : Outline.ofStatements file (.package space line column :: ss)
      = .ok ⟨file, space, ns⟩ := hns
  refine ⟨ns, ?_, hdeclares⟩
  rw [← houtline]
  apply Source.outline_eq_of_yields ?_ hreports
  rw [hn]
  exact hpackage ss r hyields

theorem exists_outline_declarations {s : Schema} (hs : s.IsLegible)
    (hdeclarable : ∀ m ∈ s.messages, ∀ f ∈ m.fields, f.IsDeclarable) (file : Text) :
    ∃ ns, Source.outline file s.declarations = .ok ⟨file, s.space, ns⟩
      ∧ List.Forall₂ MessageOutline.Declares ns s.messages := by
  obtain ⟨space, ms⟩ := s
  by_cases hspace : space = []
  . obtain rfl := hspace
    exact exists_outline_of_messages hs.messages hdeclarable file
  . have hdeclarations : declarations ⟨space, ms⟩
        = "package " ++ (space ++ 59 :: 10 :: ms.flatMap fun m => 10 :: m.declaration) := by
      have hend (u : Text) : 59 :: 10 :: u = ";\n" ++ u := rfl
      rw [hend]
      simp [declarations, hspace]
    rw [hdeclarations]
    exact exists_outline_of_package (hs.space.resolve_left hspace) hs.messages hdeclarable file

end Schema.IsLegible

/-! Schemas of sources. -/

theorem FieldType.spelling_ofKeyword {t : Text} (h : t ≠ []) : (ofKeyword t).spelling = t := by
  by_cases hmem : t ∈ primitiveKeywords
  . obtain ⟨p, hp, rfl, heq⟩ := ofKeyword_of_mem hmem
    rw [heq]
    simp [spelling, isMessage]
  . rw [ofKeyword_of_not_mem hmem]
    simp [spelling, isMessage, h]

theorem FieldOutline.Declares.isDeclarable {f : FieldOutline} {a : Field} (h : f.Declares a)
    (hcomplete : f.IsComplete) (hlegible : a.IsLegible) (hrange : a.id < 2 ^ 31) :
    a.IsDeclarable := by
  refine ⟨h.rule.1, ?_, ?_⟩
  . have hname : f.name ≠ [] := by
      rw [← h.name]
      exact ((Token.stands_iff _ _).1 hlegible.name.stands).1
    rw [h.type, FieldType.spelling_ofKeyword (hcomplete.type hname).ne_nil]
  . obtain ⟨n, hn⟩ := hcomplete.id
    have hid := h.id
    rw [hn] at hid
    have heq := hid.unique (Text.denotes_ofNat n)
    exact ⟨n, heq, by omega⟩

-- Every field of a compiled schema is declared by a field of the source.
theorem Source.isConsistent_of_compile {file source : Text} {s : Schema}
    (h : compile file source = .ok s) : s.IsConsistent
      ∧ ∀ m ∈ s.messages, ∀ a ∈ m.fields, ∃ f : FieldOutline, f.IsComplete ∧ f.Declares a := by
  unfold compile at h
  split at h
  . cases h
  . next o houtline =>
    obtain ⟨hwell, rfl⟩ := Outline.compile_eq_ok h
    have hdeclares := (Outline.declares_of_isWellFormed hwell).messages
    have hcomplete := (List.forall₂_and_left _ _).2 ⟨isComplete_of_outline houtline, hdeclares⟩
    refine ⟨(Outline.isWellFormed_iff_isConsistent hdeclares).1 hwell, ?_⟩
    refine forall_mem_of_forall₂ hcomplete fun m n hm => ?_
    exact forall_mem_of_forall₂ ((List.forall₂_and_left _ _).2 ⟨hm.1, hm.2.fields⟩)
      fun f a hf => ⟨f, hf⟩

theorem Text.isMessageName_of_isWord {t : Text} (h : Identifier.isWord t = true) :
    t.IsMessageName :=
  ⟨⟨false, t, [], false⟩, List.append_nil t,
    (Spelling.isPlain_of_isWord h).stands (by decide) (by decide) (by decide), .inr ⟨rfl, rfl⟩⟩

theorem Text.isFieldName_of_isWord {t : Text} (h : Identifier.isWord t = true) : t.IsFieldName :=
  ⟨Token.stands_of_isWord h (b := 32) (by decide) (by decide) (by decide) [],
    Token.canName_of_isWord h, Token.noDot_of_isWord h⟩

theorem Text.CanBeType.isTypeName {t : Text} (h : t.CanBeType) (hword : Identifier.isWord t = true) :
    t.IsTypeName := by
  have hdot : 46 ∉ t := fun hmem =>
    absurd (Identifier.isInner_of_mem hword (by decide) hmem) (by decide)
  have hclass : Token.classify t = .word := h.resolve_left hdot
  have hwords : ∀ w ∈ t :: [], Identifier.isWord w = true := by simpa using hword
  refine ⟨⟨false, t, [], false⟩, List.append_nil t,
    Spelling.standAll_of_isWord (by decide) (by decide) (by decide) hwords,
    rfl, .inl hclass, .inr ⟨?_, ?_⟩⟩
  all_goals
    rintro rfl
    exact absurd hclass (by decide)

/--
The names of a compiled schema are read as they are written if they are words. The package may have
dots in its name.
-/
theorem Source.isLegible_of_isWord {file source : Text} {s : Schema}
    (h : compile file source = .ok s)
    (hspace : s.space = [] ∨ ∃ w : Spelling, w.IsPlain ∧ w.text = s.space)
    (hmessages : ∀ m ∈ s.messages, Identifier.isWord m.name = true)
    (hfields : ∀ m ∈ s.messages, ∀ a ∈ m.fields, Identifier.isWord a.name = true) :
    s.IsLegible := by
  obtain ⟨hconsistent, horigin⟩ := isConsistent_of_compile h
  constructor
  . refine hspace.imp_right ?_
    rintro ⟨w, hw, htext⟩
    exact ⟨w, htext, hw.stands (by decide) (by decide) (by decide), hw.leading⟩
  . intro m hm
    refine ⟨Text.isMessageName_of_isWord (hmessages m hm), ?_⟩
    intro a ha
    refine ⟨?_, Text.isFieldName_of_isWord (hfields m hm a ha)⟩
    have hword : Identifier.isWord a.type.spelling = true := by
      unfold FieldType.spelling
      split
      . next hmessage =>
        obtain ⟨d, hd, hname⟩ := hconsistent.types m hm a ha hmessage
        rw [← hname]
        exact hmessages d hd
      . cases a.type.primitive
        all_goals decide
    obtain ⟨f, hcomplete, hdeclares⟩ := horigin m hm a ha
    have hname : f.name ≠ [] := by
      rw [← hdeclares.name]
      exact ((Token.stands_iff _ _).1 (Text.isFieldName_of_isWord (hfields m hm a ha)).stands).1
    have htype := hcomplete.type hname
    rw [hdeclares.type, FieldType.spelling_ofKeyword htype.ne_nil] at hword ⊢
    exact htype.isTypeName hword

/--
A source is compiled into the schema that its declarations are compiled into, as long as the names
of the schema are read as they are written.
-/
theorem Source.compile_declarations {file source : Text} {s : Schema}
    (h : compile file source = .ok s) (hs : s.IsLegible) (file' : Text) :
    compile file' s.declarations = .ok s := by
  obtain ⟨hconsistent, horigin⟩ := isConsistent_of_compile h
  have hdeclarable : ∀ m ∈ s.messages, ∀ a ∈ m.fields, a.IsDeclarable := by
    intro m hm a ha
    obtain ⟨f, hcomplete, hdeclares⟩ := horigin m hm a ha
    exact hdeclares.isDeclarable hcomplete ((hs.messages m hm).fields a ha)
      (hconsistent.ids m hm a ha).2
  obtain ⟨ns, houtline, hdeclares⟩ := hs.exists_outline_declarations hdeclarable file'
  rw [compile, houtline]
  exact Outline.compile_of_isConsistent rfl hdeclares hconsistent

def dottedSource : Text :=
  "package a .b;\nmessage 'c d' { required .E /**/ message = 0x1F; }\nmessage . E {}"

def dottedSchema : Schema :=
  ⟨"a.b", [⟨"'cd'", [⟨.required, ⟨.none, ".E"⟩, "message", 31⟩]⟩, ⟨".E", []⟩]⟩

/--
Comments, blanks inside names and hexadecimal numbers get lost, but the schema stays.
-/
theorem Source.compile_declarations_dotted :
    compile "a.proto" dottedSource = .ok dottedSchema ∧ dottedSchema.IsLegible
      ∧ compile "b.proto" dottedSchema.declarations = .ok dottedSchema := by
  have hcompile : compile "a.proto" dottedSource = .ok dottedSchema := by decide +kernel
  have hspace : Text.IsPackageName "a.b" :=
    ⟨⟨false, "a", ["b"], false⟩, rfl, ⟨by decide +kernel, by decide +kernel⟩, rfl⟩
  have hquoted : Text.IsMessageName "'cd'" :=
    ⟨⟨false, "'cd'", [], false⟩, rfl, ⟨by decide +kernel, by decide +kernel⟩, .inr ⟨rfl, rfl⟩⟩
  have hdotted : Text.IsMessageName ".E" :=
    ⟨⟨true, "E", [], false⟩, rfl, ⟨by decide +kernel, by decide +kernel⟩, .inr ⟨rfl, rfl⟩⟩
  have hfield : Field.IsLegible ⟨.required, ⟨.none, ".E"⟩, "message", 31⟩ :=
    ⟨⟨⟨true, "E", [], false⟩, rfl, by decide +kernel, rfl, .inl (by decide +kernel), .inl rfl⟩,
      ⟨by decide +kernel, by decide +kernel, by decide⟩⟩
  have hlegible : dottedSchema.IsLegible := by
    refine ⟨.inr hspace, ?_⟩
    simp only [dottedSchema, List.forall_mem_cons]
    exact ⟨⟨hquoted, by simpa using hfield⟩, ⟨hdotted, by simp⟩, by simp⟩
  exact ⟨hcompile, hlegible, compile_declarations hcompile hlegible "b.proto"⟩

/--
Written without the blank, the dot and the digit are a number, which is no part of the name.
-/
theorem Source.exists_compile_declarations_ne :
    ∃ source s, compile "a.proto" source = .ok s
      ∧ (∀ m ∈ s.messages, m.name ≠ "group" ∧ m.fields = [])
      ∧ compile "a.proto" s.declarations ≠ .ok s :=
  ⟨"message A. 5 {}", ⟨[], [⟨"A.5", []⟩]⟩, by decide +kernel, by decide, by decide +kernel⟩

end ValueGen
