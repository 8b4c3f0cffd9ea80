import ValueGen.Proofs.Source.Accepted

/-!
This module contains which statements declare an outline, what the outline is, and which failure the
others are refused with. The first part of a source that is not supported decides on the failure,
and no part of a source is passed over unless it is a comment or the language level.
-/

namespace ValueGen

/-! What is declared. -/

namespace Member

/--
The field that the member declares, if it is a field.
-/
def fieldOutline? (file : Text) : Member → Option FieldOutline
  | .field f =>
    some ⟨Outline.label f, f.type, f.name, Text.ofInt f.number, ⟨file, f.line, f.column⟩⟩
  | _ => none

end Member

namespace Statement

/--
The message that the statement declares, if it is a message.
-/
def messageOutline? (file : Text) : Statement → Option MessageOutline
  | .message name _ members line column =>
    some ⟨name, ⟨file, line, column⟩, members.filterMap (·.fieldOutline? file)⟩
  | _ => none

def packageName? : Statement → Option Text
  | .package name .. => some name
  | _ => none

/--
A package has a name.
-/
def HasName (s : Statement) : Prop := s.packageName? ≠ some []

theorem hasName_of_no_package {s : Statement} (h : s.packageName? = none) : s.HasName := by
  simp [HasName, h]

end Statement

/-! What is refused. -/

/--
The member is not supported, and it is refused with the failure.
-/
inductive Member.Offends (file : Text) : Member → Failure → Prop
  | options {f : FieldStatement} : f.hasOptions = true → Offends file (.field f)
      (Outline.unsupported file f.line f.column ("options on field " ++ f.name.quote))
  | construct (c : Construct) (line column : Nat) : Offends file (.other c line column)
      (Outline.unsupported file line column c.describe)

/--
The statement is not supported, and it is refused with the failure. `packaged` tells that there was a
package before. A message is refused where it starts if it is an extension, and otherwise where the
first of its members starts that is not supported. The place of an edition is not known.
-/
inductive Statement.Offends (file : Text) (packaged : Prop) : Statement → Failure → Prop
  | edition : Offends file packaged .edition (Outline.unsupported file 0 0 "*proto.Edition")
  | construct (c : Construct) (line column : Nat) : Offends file packaged (.other c line column)
      (Outline.unsupported file line column c.describe)
  | package {name : Text} {line column : Nat} : packaged
      → Offends file packaged (.package name line column)
        (Outline.unsupported file line column "second package statement")
  | extension (name : Text) (members : List Member) (line column : Nat) :
      Offends file packaged (.message name true members line column)
        (Outline.unsupported file line column "extend")
  | member {name : Text} {before after : List Member} {m : Member} {line column : Nat} {e : Failure} :
      (∀ b ∈ before, b.IsSupported) → m.Offends file e
      → Offends file packaged (.message name false (before ++ m :: after) line column) e

namespace Outline

/--
The names of the packages among the statements.
-/
def packages (ss : List Statement) : List Text := ss.filterMap Statement.packageName?

/--
All statements are supported, and there is at most one package.
-/
def AreSupported (ss : List Statement) : Prop :=
  (∀ s ∈ ss, s.IsSupported) ∧ (packages ss).length ≤ 1

/--
The outline that the statements declare: their package and their messages, in order.
-/
def declared (file : Text) (ss : List Statement) : Outline :=
  ⟨file, (packages ss).headD [], ss.filterMap (·.messageOutline? file)⟩

/--
The outcome is that of the statements: all that they declare, or the failure of the first one that is
not supported.
-/
structure Judges (file : Text) (ss : List Statement) (x : Except Failure Outline) : Prop where
  accepts : x.isOk = true ↔ AreSupported ss
  declares : ∀ o, x = .ok o → o = declared file ss
  refuses : ∀ e, x = .error e ↔ ∃ before s after, ss = before ++ s :: after
    ∧ AreSupported before ∧ s.Offends file (packages before ≠ []) e

/-! The members of a message. -/

variable {file : Text} {e : Failure}

theorem fields_of_isSupported {ms : List Member} (h : ∀ m ∈ ms, m.IsSupported) :
    fields file ms = .ok (ms.filterMap (·.fieldOutline? file)) := by
  induction ms with
  | nil => rfl
  | cons m ms ih =>
    obtain ⟨hm, hms⟩ := List.forall_mem_cons.1 h
    cases m with
    | comment => exact ih hms
    | field f =>
      have hnone : f.hasOptions = false := hm
      rw [fields, ih hms, hnone]
      rfl
    | other c line column => exact absurd hm id

theorem fields_of_offends {before after : List Member} {m : Member}
    (h : ∀ b ∈ before, b.IsSupported) (hm : m.Offends file e) :
    fields file (before ++ m :: after) = .error e := by
  induction before with
  | nil =>
    cases hm with
    | options hoptions =>
      rw [List.nil_append, fields, if_pos hoptions]
    | construct c line column => rfl
  | cons b before ih =>
    obtain ⟨hb, hbefore⟩ := List.forall_mem_cons.1 h
    cases b with
    | comment => exact ih hbefore
    | field f =>
      have hnone : f.hasOptions = false := hb
      rw [List.cons_append, fields, ih hbefore, hnone]
      rfl
    | other c line column => exact absurd hb id

theorem exists_offends_of_not_isSupported (file : Text) {m : Member} (h : ¬ m.IsSupported) :
    ∃ e, m.Offends file e := by
  cases m with
  | comment => exact absurd trivial h
  | field f => exact ⟨_, .options (Bool.not_eq_false _ ▸ h)⟩
  | other c line column => exact ⟨_, .construct c line column⟩

/--
A list that does not consist of what is asked for has a first element that is something else.
-/
theorem exists_first_not {α : Type} {p : α → Prop} {l : List α} (h : ¬ ∀ a ∈ l, p a) :
    ∃ before a after, l = before ++ a :: after ∧ (∀ b ∈ before, p b) ∧ ¬ p a := by
  induction l with
  | nil => exact absurd (by simp) h
  | cons a l ih =>
    by_cases ha : p a
    . have hl : ¬ ∀ b ∈ l, p b := fun hl => h (List.forall_mem_cons.2 ⟨ha, hl⟩)
      obtain ⟨before, b, after, rfl, hbefore, hb⟩ := ih hl
      exact ⟨a :: before, b, after, rfl, List.forall_mem_cons.2 ⟨ha, hbefore⟩, hb⟩
    . exact ⟨[], a, l, rfl, by simp, ha⟩

/-! The statements of a source. -/

/--
The outline with what a supported statement declares.
-/
def declare (o : Outline) (s : Statement) : Outline :=
  { o with
    package := s.packageName?.getD o.package
    messages := o.messages ++ (s.messageOutline? o.file).toList }

/--
The statement can follow the ones that the outline stands for.
-/
def Admits (o : Outline) (s : Statement) : Prop :=
  s.IsSupported ∧ (o.package ≠ [] → s.packageName? = none)

theorem addStatements_of_admits {o : Outline} {s : Statement} (h : o.Admits s)
    (ss : List Statement) : o.addStatements (s :: ss) = (o.declare s).addStatements ss := by
  obtain ⟨hs, hpackage⟩ := h
  cases s with
  | comment | level => simp [addStatements, declare, Statement.packageName?, Statement.messageOutline?]
  | edition | other => exact absurd hs id
  | package name line column =>
    have hempty : o.package = [] := by
      by_contra hne
      cases hpackage hne
    simp [addStatements, hempty, declare, Statement.packageName?, Statement.messageOutline?]
  | message name isExtend members line column =>
    obtain ⟨rfl, hmembers⟩ := hs
    rw [addStatements, if_neg Bool.false_ne_true, fields_of_isSupported hmembers]
    rfl

theorem addStatements_of_offends {o : Outline} {s : Statement}
    (h : s.Offends o.file (o.package ≠ []) e) (ss : List Statement) :
    o.addStatements (s :: ss) = .error e := by
  cases h with
  | edition | construct => rfl
  | package hpackage => simp [addStatements, hpackage]
  | extension name members line column => rfl
  | member hbefore hm =>
    rw [addStatements, if_neg Bool.false_ne_true, fields_of_offends hbefore hm]

theorem exists_offends_of_not_admits {o : Outline} {s : Statement} (h : ¬ o.Admits s) :
    ∃ e, s.Offends o.file (o.package ≠ []) e := by
  cases s with
  | comment | level => exact absurd ⟨trivial, fun _ => rfl⟩ h
  | edition => exact ⟨_, .edition⟩
  | other c line column => exact ⟨_, .construct c line column⟩
  | package name line column =>
    refine ⟨_, .package fun hempty => ?_⟩
    exact h ⟨trivial, fun hne => absurd hempty hne⟩
  | message name isExtend members line column =>
    cases isExtend with
    | true => exact ⟨_, .extension name members line column⟩
    | false =>
      have hmembers : ¬ ∀ m ∈ members, m.IsSupported :=
        fun hall => h ⟨⟨rfl, hall⟩, fun _ => rfl⟩
      obtain ⟨before, m, after, rfl, hbefore, hm⟩ := exists_first_not hmembers
      obtain ⟨e, he⟩ := exists_offends_of_not_isSupported o.file hm
      exact ⟨e, .member hbefore he⟩

/-! From the start of a source on. -/

variable {before ss : List Statement} {s : Statement}

theorem areSupported_append_singleton_iff : AreSupported (before ++ [s])
    ↔ AreSupported before ∧ s.IsSupported ∧ (packages before ≠ [] → s.packageName? = none) := by
  unfold AreSupported packages
  rw [List.filterMap_append, List.forall_mem_append]
  cases before.filterMap Statement.packageName?
  all_goals
    cases hname : s.packageName?
    all_goals simp [hname, and_comm, and_left_comm]

-- As packages have names, an outline without a package is one of statements without a package.
theorem package_declared_ne_nil_iff (file : Text) (hnames : ∀ s ∈ before, s.HasName) :
    (declared file before).package ≠ [] ↔ packages before ≠ [] := by
  unfold declared
  cases hpackages : packages before with
  | nil => simp
  | cons name names =>
    have hmem : name ∈ packages before := by
      rw [hpackages]
      exact List.mem_cons_self
    obtain ⟨s, hs, hname⟩ := List.mem_filterMap.1 hmem
    have hne : name ≠ [] := by
      rintro rfl
      exact hnames s hs hname
    simp [hne]

theorem declare_declared (h : AreSupported (before ++ [s])) :
    (declared file before).declare s = declared file (before ++ [s]) := by
  obtain ⟨-, -, hpackage⟩ := areSupported_append_singleton_iff.1 h
  have hmessages : ((before ++ [s]).filterMap (·.messageOutline? file))
      = before.filterMap (·.messageOutline? file) ++ (s.messageOutline? file).toList := by
    rw [List.filterMap_append]
    cases hmessage : s.messageOutline? file
    all_goals simp [hmessage]
  unfold declare declared
  rw [hmessages]
  congr 1
  unfold packages at hpackage ⊢
  rw [List.filterMap_append]
  cases hfirst : before.filterMap Statement.packageName? with
  | nil =>
    cases hname : s.packageName?
    all_goals simp [hname]
  | cons name names =>
    rw [hfirst] at hpackage
    rw [hpackage (by simp)]
    rfl

theorem ofStatements_append (file : Text) (hnames : ∀ s ∈ before, s.HasName) (h : AreSupported before)
    (rest : List Statement) :
    ofStatements file (before ++ rest) = (declared file before).addStatements rest := by
  induction before using List.reverseRecOn generalizing rest with
  | nil => rfl
  | append_singleton before s ih =>
    rw [List.forall_mem_append] at hnames
    obtain ⟨hbefore, hs, hpackage⟩ := areSupported_append_singleton_iff.1 h
    have hadmits : (declared file before).Admits s :=
      ⟨hs, fun hne => hpackage ((package_declared_ne_nil_iff file hnames.1).1 hne)⟩
    rw [List.append_assoc, List.singleton_append, ih hnames.1 hbefore,
      addStatements_of_admits hadmits, declare_declared h]

theorem ofStatements_of_areSupported (file : Text) (hnames : ∀ s ∈ ss, s.HasName) (h : AreSupported ss) :
    ofStatements file ss = .ok (declared file ss) := by
  have hrun := ofStatements_append file hnames h []
  rwa [List.append_nil] at hrun

theorem ofStatements_of_offends {after : List Statement}
    (hnames : ∀ t ∈ before ++ s :: after, t.HasName) (h : AreSupported before)
    (hs : s.Offends file (packages before ≠ []) e) :
    ofStatements file (before ++ s :: after) = .error e := by
  have hbefore : ∀ t ∈ before, t.HasName := fun t ht => hnames t (List.mem_append_left _ ht)
  rw [ofStatements_append file hbefore h]
  rw [← package_declared_ne_nil_iff file hbefore] at hs
  exact addStatements_of_offends hs after

theorem exists_first_offence (hnames : ∀ s ∈ ss, s.HasName) (h : ¬ AreSupported ss) (file : Text) :
    ∃ before s after e, ss = before ++ s :: after ∧ AreSupported before
      ∧ s.Offends file (packages before ≠ []) e := by
  induction ss using List.reverseRecOn with
  | nil => exact absurd ⟨by simp, by simp [packages]⟩ h
  | append_singleton ss s ih =>
    rw [List.forall_mem_append] at hnames
    by_cases hss : AreSupported ss
    . have hadmits : ¬ (declared file ss).Admits s := by
        rintro ⟨hs, hpackage⟩
        rw [package_declared_ne_nil_iff file hnames.1] at hpackage
        exact h (areSupported_append_singleton_iff.2 ⟨hss, hs, hpackage⟩)
      obtain ⟨e, he⟩ := exists_offends_of_not_admits hadmits
      rw [package_declared_ne_nil_iff file hnames.1] at he
      exact ⟨ss, s, [], e, rfl, hss, he⟩
    . obtain ⟨before, t, after, e, rfl, hbefore, he⟩ := ih hnames.1 hss
      exact ⟨before, t, after ++ [s], e, by simp, hbefore, he⟩

theorem judges_ofStatements (hnames : ∀ s ∈ ss, s.HasName) (file : Text) :
    Judges file ss (ofStatements file ss) := by
  by_cases h : AreSupported ss
  . have hok := ofStatements_of_areSupported file hnames h
    constructor
    . rw [hok]
      exact iff_of_true rfl h
    . intro o ho
      rw [hok] at ho
      cases ho
      rfl
    . intro e
      constructor
      . intro he
        rw [hok] at he
        cases he
      . rintro ⟨before, s, after, rfl, hbefore, hs⟩
        exact ofStatements_of_offends hnames hbefore hs
  . obtain ⟨before, s, after, f, hss, hbefore, hs⟩ := exists_first_offence hnames h file
    have hfault : ofStatements file ss = .error f := by
      rw [hss] at hnames ⊢
      exact ofStatements_of_offends hnames hbefore hs
    constructor
    . rw [hfault]
      exact iff_of_false Bool.false_ne_true h
    . intro o ho
      rw [hfault] at ho
      cases ho
    . intro e
      constructor
      . intro he
        rw [hfault] at he
        cases he
        exact ⟨before, s, after, hss, hbefore, hs⟩
      . rintro ⟨before, s, after, rfl, hbefore, hs⟩
        exact ofStatements_of_offends hnames hbefore hs

end Outline

/-! The packages of a source. -/

namespace Parse

variable {r r' : Reader}

theorem pushed_of_yields_next {t : Token} (h : next.Yields r t r') : r'.pushed = none := by
  cases hpushed : r.pushed with
  | some u =>
    obtain ⟨-, rfl⟩ := (yields_next_of_pushed hpushed).unique h
    rfl
  | none =>
    obtain ⟨-, htoken⟩ | ⟨-, inner, q, hinner, htoken⟩ := (yields_next_iff hpushed).1 h
    . obtain ⟨-, rfl⟩ := yields_tokenHere_iff.1 htoken
      exact hpushed
    . obtain ⟨-, rfl⟩ := yields_tokenHere_iff.1 htoken
      exact (left_untilQuote hinner).2.trans hpushed

theorem ne_nil_of_yields_dottedRest {n : Nat} {done a : Text} (h : (dottedRest n done).Yields r a r')
    (hne : done ≠ []) : a ≠ [] := by
  induction n generalizing r done with
  | zero => cases h
  | succ n ih =>
    simp only [dottedRest, yields_bind_iff] at h
    obtain ⟨b, r₁, -, h⟩ := h
    split at h
    . simp only [yields_bind_iff] at h
      obtain ⟨_, r₂, -, t, r₃, -, h⟩ := h
      split at h
      . exact ih h (by simp [hne])
      . simp only [yields_bind_iff, yields_pure_iff] at h
        obtain ⟨_, _, -, rfl, -⟩ := h
        simp [hne]
    . obtain ⟨rfl, -⟩ := yields_pure_iff.1 h
      exact hne

-- A name starts with a token that was scanned, and the only scanned token without a text is the end.
theorem ne_nil_of_yields_dotted {t : Token} (hpushed : r.pushed = none)
    (h : (dotted true).Yields r t r') (hname : t.isName = true) : t.text ≠ [] := by
  simp only [dotted, yields_bind_iff] at h
  obtain ⟨u, r₁, hnext, h⟩ := h
  have hkind := kind_of_yields_next hpushed hnext
  have hne (hu : (u.kind == .word || u.isReserved) = true) : u.text ≠ [] := by
    intro hempty
    rw [hempty] at hkind
    rw [Token.isReserved, hkind] at hu
    exact absurd hu (by decide)
  rw [Bool.true_and] at h
  split at h
  . next hu =>
    simp only [yields_bind_iff, yields_pure_iff] at h
    obtain ⟨_, _, -, text, r₂, hrest, rfl, -⟩ := h
    exact ne_nil_of_yields_dottedRest hrest (hne hu)
  . next hu =>
    obtain ⟨rfl, -⟩ := yields_pure_iff.1 h
    exact absurd hname hu

theorem hasName_of_yields_statement {b : Parse (List Member)} {t : Token} {s : Statement}
    (hpushed : r.pushed = none) (h : (statement b t).Yields r s r') : s.HasName := by
  simp only [statement] at h
  split at h
  . cases h
    exact Statement.hasName_of_no_package rfl
  . split at h
    . simp only [yields_bind_iff] at h
      obtain ⟨_, _, -, h⟩ := h
      cases h
      exact Statement.hasName_of_no_package rfl
    . split at h
      . simp only [yields_bind_iff] at h
        obtain ⟨_, _, -, h⟩ := h
        cases h
        exact Statement.hasName_of_no_package rfl
      . split at h
        . simp only [yields_bind_iff] at h
          obtain ⟨_, _, -, h⟩ := h
          cases h
          exact Statement.hasName_of_no_package rfl
        . split at h
          . simp only [yields_bind_iff] at h
            obtain ⟨name, r₁, hdotted, h⟩ := h
            split at h
            . next hname =>
              cases h
              have hne := ne_nil_of_yields_dotted hpushed hdotted hname
              simpa [Statement.HasName, Statement.packageName?] using hne
            . exact absurd h not_yields_unexpected
          . split at h
            . simp only [yields_bind_iff] at h
              obtain ⟨_, _, -, _, _, -, h⟩ := h
              cases h
              exact Statement.hasName_of_no_package rfl
            . exact absurd h not_yields_unexpected

theorem hasName_of_yields_statements {n : Nat} {ss : List Statement}
    (h : (statements n).Yields r ss r') : ∀ s ∈ ss, s.HasName := by
  induction n generalizing r ss with
  | zero => cases h
  | succ n ih =>
    simp only [statements, yields_bind_iff] at h
    obtain ⟨t, r₁, hnext, h⟩ := h
    split at h
    . cases h
      simp
    . split at h
      . exact ih h
      . simp only [yields_bind_iff] at h
        obtain ⟨s, r₂, hstatement, rest, r₃, hrest, h⟩ := h
        cases h
        rw [List.forall_mem_cons]
        exact ⟨hasName_of_yields_statement (pushed_of_yields_next hnext) hstatement, ih hrest⟩

end Parse

namespace Source

theorem hasName_of_statements {file source : Text} {ss : List Statement}
    (h : statements file source = .ok ss) : ∀ s ∈ ss, s.HasName := by
  obtain ⟨r, hyields, -⟩ := (statements_eq_ok_iff file source ss).1 h
  exact Parse.hasName_of_yields_statements hyields

/--
Statements whose packages have names, and so all statements that are read from a source, are either
all supported and declare an outline, or the first one that is not decides on the failure.
-/
theorem judges_outline (file : Text) :
    (∀ ss : List Statement, (∀ s ∈ ss, s.HasName)
        → Outline.Judges file ss (Outline.ofStatements file ss))
      ∧ ∀ source ss, statements file source = .ok ss
        → Outline.Judges file ss (outline file source) := by
  refine ⟨fun ss hnames => Outline.judges_ofStatements hnames file, ?_⟩
  intro source ss h
  have houtline : outline file source = Outline.ofStatements file ss := by rw [outline, h]
  rw [houtline]
  exact Outline.judges_ofStatements (hasName_of_statements h) file

def refusedSource : Text :=
  "package p;\nmessage A \x7b required int32 x = 1; \x7d\n"
    ++ "message B \x7b int32 y = 1; oneof kind \x7b int32 z = 2; \x7d reserved 3; \x7d\nedition = \"2023\";"

def refusedStatements : List Statement := [
  .package "p" 1 1,
  .message "A" false [.field ⟨false, true, false, "int32", "x", 1, false, 2, 22⟩] 2 1,
  .message "B" false [
    .field ⟨false, false, false, "int32", "y", 1, false, 3, 13⟩,
    .other (.oneof "kind") 3 26, .other .reserved 3 54] 3 1,
  .edition]

/--
Three parts of the source are not supported. It is refused where the first one starts.
-/
theorem judges_outline_refused :
    (∀ s ∈ refusedStatements, s.HasName)
      ∧ statements "a.proto" refusedSource = .ok refusedStatements
      ∧ Outline.ofStatements "a.proto" refusedStatements
          = .error (.malformed "a.proto" 3 26 "unsupported oneof \"kind\"")
      ∧ outline "a.proto" refusedSource
          = .error (.malformed "a.proto" 3 26 "unsupported oneof \"kind\"") := by
  have hstatements : statements "a.proto" refusedSource = .ok refusedStatements := by
    decide +kernel
  have hnames := hasName_of_statements hstatements
  obtain ⟨hall, hsource⟩ := judges_outline "a.proto"
  have hoffence : ∃ before s after, refusedStatements = before ++ s :: after
      ∧ Outline.AreSupported before
      ∧ s.Offends "a.proto" (Outline.packages before ≠ [])
        (.malformed "a.proto" 3 26 "unsupported oneof \"kind\"") := by
    have hbefore : ∀ b ∈ [Member.field ⟨false, false, false, "int32", "y", 1, false, 3, 13⟩],
        b.IsSupported := by
      simp [Member.IsSupported]
    have hmember : Member.Offends "a.proto" (.other (.oneof "kind") 3 26) _ := .construct _ _ _
    refine ⟨refusedStatements.take 2, _, _, rfl, ⟨?_, by decide⟩, ?_⟩
    . simp [refusedStatements, Statement.IsSupported, Member.IsSupported]
    . exact .member hbefore hmember
  exact ⟨hnames, hstatements, ((hall _ hnames).refuses _).2 hoffence,
    ((hsource _ _ hstatements).refuses _).2 hoffence⟩

end Source

end ValueGen
