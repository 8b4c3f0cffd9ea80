import Mathlib.Data.List.Nodup
import ValueGen.Plan.Scope

/-!
This module contains which names can be declared in a scope. A list of names can be declared one
after the other exactly if they are identifiers, differ from each other, and are all new.
-/

namespace ValueGen

namespace Scope

/--
The names are identifiers, and none of them is among the names `declared` or occurs twice.
-/
structure Extends (declared names : List Text) : Prop where
  valid : ∀ name ∈ names, Identifier.isValid name = true
  new : ∀ name ∈ names, name ∉ declared
  nodup : names.Nodup

theorem extends_nil (declared : List Text) : Extends declared [] where
  valid := by simp
  new := by simp
  nodup := List.nodup_nil

theorem extends_cons_iff (declared : List Text) (name : Text) (names : List Text) :
    Extends declared (name :: names)
      ↔ (Identifier.isValid name = true ∧ name ∉ declared)
        ∧ Extends (declared ++ [name]) names := by
  constructor
  . intro h
    have hnodup := List.nodup_cons.1 h.nodup
    refine ⟨⟨h.valid name List.mem_cons_self, h.new name List.mem_cons_self⟩, ?_, ?_, hnodup.2⟩
    . intro other hother
      exact h.valid other (List.mem_cons_of_mem _ hother)
    . intro other hother hmem
      rcases List.mem_append.1 hmem with hmem | hmem
      . exact h.new other (List.mem_cons_of_mem _ hother) hmem
      . rw [List.mem_singleton] at hmem
        exact hnodup.1 (hmem ▸ hother)
  . rintro ⟨⟨hvalid, hnew⟩, h⟩
    refine ⟨?_, ?_, ?_⟩
    . rw [List.forall_mem_cons]
      exact ⟨hvalid, h.valid⟩
    . rw [List.forall_mem_cons]
      refine ⟨hnew, ?_⟩
      intro other hother hmem
      exact h.new other hother (List.mem_append_left _ hmem)
    . rw [List.nodup_cons]
      refine ⟨?_, h.nodup⟩
      intro hmem
      exact h.new name hmem (by simp)

theorem extends_append_iff (declared names more : List Text) :
    Extends declared (names ++ more)
      ↔ Extends declared names ∧ Extends (declared ++ names) more := by
  induction names generalizing declared with
  | nil => simp [extends_nil]
  | cons name names ih =>
    rw [List.cons_append, extends_cons_iff, extends_cons_iff, ih, List.append_assoc,
      List.singleton_append]
    exact and_assoc.symm

-- Names that are declared already are identifiers without any repetition.
theorem extends_iff_append {declared : List Text} (h : Extends [] declared) (names : List Text) :
    Extends declared names
      ↔ (∀ name ∈ declared ++ names, Identifier.isValid name = true)
        ∧ (declared ++ names).Nodup := by
  have happend := extends_append_iff [] declared names
  rw [List.nil_append] at happend
  constructor
  . intro hnames
    have hall := happend.2 ⟨h, hnames⟩
    exact ⟨hall.valid, hall.nodup⟩
  . rintro ⟨hvalid, hnodup⟩
    exact (happend.1 ⟨hvalid, by simp, hnodup⟩).2

theorem find?_eq_none_iff (s : Scope) (name : Text) : s.find? name = none ↔ name ∉ s.names := by
  unfold find? names
  rw [List.lookup_eq_none_iff, List.mem_map]
  constructor
  . rintro h ⟨e, he, rfl⟩
    simpa using h e he
  . intro h e he
    rw [bne_iff_ne, ne_eq]
    rintro rfl
    exact h ⟨e, he, rfl⟩

theorem declare_eq_ok_iff (s t : Scope) (name what : Text) :
    s.declare name what = .ok t
      ↔ (Identifier.isValid name = true ∧ name ∉ s.names)
        ∧ t = { s with declared := s.declared ++ [(name, what)] } := by
  rw [← find?_eq_none_iff]
  unfold declare
  cases Identifier.isValid name with
  | false => simp
  | true =>
    cases s.find? name with
    | some first => simp
    | none => simp [eq_comm]

/--
Declare names one after the other, each with what it names.
-/
def declareEach (s : Scope) : List (Text × Text) → Except Failure Scope
  | [] => .ok s
  | e :: es => (s.declare e.1 e.2).bind fun s => s.declareEach es

theorem declareAll_eq_declareEach (s : Scope) (what : Text) (names : List Text) :
    s.declareAll what names = s.declareEach (names.map fun name => (name, what)) := by
  induction names generalizing s with
  | nil => rfl
  | cons name names ih =>
    rw [List.map_cons]
    unfold declareAll declareEach
    cases s.declare name what with
    | error f => rfl
    | ok t => exact ih t

theorem names_of_declareEach {s t : Scope} {es : List (Text × Text)}
    (h : s.declareEach es = .ok t) : t.names = s.names ++ es.map Prod.fst := by
  induction es generalizing s with
  | nil =>
    cases h
    simp
  | cons e es ih =>
    unfold declareEach at h
    cases hdeclare : s.declare e.1 e.2 with
    | error f =>
      rw [hdeclare] at h
      cases h
    | ok u =>
      rw [hdeclare] at h
      rw [ih h, ((declare_eq_ok_iff s u e.1 e.2).1 hdeclare).2]
      simp [names]

theorem exists_declareEach_iff (s : Scope) (es : List (Text × Text)) :
    (∃ t, s.declareEach es = .ok t) ↔ Extends s.names (es.map Prod.fst) := by
  induction es generalizing s with
  | nil => simp [declareEach, extends_nil]
  | cons e es ih =>
    unfold declareEach
    rw [List.map_cons, extends_cons_iff]
    cases hdeclare : s.declare e.1 e.2 with
    | error f =>
      have hrefused : ¬ (Identifier.isValid e.1 = true ∧ e.1 ∉ s.names) := by
        intro hnew
        have hok := (declare_eq_ok_iff s _ e.1 e.2).2 ⟨hnew, rfl⟩
        rw [hdeclare] at hok
        cases hok
      simp [Except.bind, hrefused]
    | ok t =>
      obtain ⟨hnew, ht⟩ := (declare_eq_ok_iff s t e.1 e.2).1 hdeclare
      have hnames : t.names = s.names ++ [e.1] := by
        rw [ht]
        simp [names]
      rw [← hnames, ← ih t]
      simp [Except.bind, hnew]

end Scope

end ValueGen
