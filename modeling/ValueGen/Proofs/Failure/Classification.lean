import Mathlib.Logic.Relation
import ValueGen.Proofs.Failure.Cause

/-!
This module contains that the two ways to classify a failure agree. A failure matches the sentinel
of a kind exactly if a failure of that kind is found among its causes, and both say that one of the
failures in it, however deep, is of the kind.
-/

namespace ValueGen

namespace Failure

variable {f g : Failure}

/-! The failures in a failure. -/

/--
The second failure is directly in the first one: it is one of the reasons that an aggregate lists,
it is the cause of a bad id or of a failed generation, it is what a text was put in front of, or it
is one of the failures that were joined.
-/
inductive HasPart : Failure → Failure → Prop where
  | reason {file : Text} {faults : List Failure} {g : Failure} (h : g ∈ faults) :
      HasPart (.schema file faults) g
  | idCause {message field id : Text} {pos : Position} {g : Failure} :
      HasPart (.invalidId message field id pos (some g)) g
  | generationCause {type field file text : Text} {g : Failure} :
      HasPart (.generation type field file text (some g)) g
  | wrapped {text : Text} {g : Failure} : HasPart (.wrapped text g) g
  | joined {parts : List Failure} {g : Failure} (h : g ∈ parts) : HasPart (.joined parts) g

/--
The second failure is the first one, or it is in it, however deep.
-/
def Reaches : Failure → Failure → Prop := Relation.ReflTransGen HasPart

theorem hasPart_iff_mem_causes (f g : Failure) : f.HasPart g ↔ g ∈ f.causes := by
  constructor
  . intro h
    cases h with
    | reason h => exact h
    | idCause => exact List.mem_singleton_self g
    | generationCause => exact List.mem_singleton_self g
    | wrapped => exact List.mem_singleton_self g
    | joined h => exact h
  . intro h
    cases f with
    | schema file faults => exact .reason h
    | invalidId message field id pos cause =>
      rw [Option.mem_toList.1 h]
      exact .idCause
    | generation type field file text cause =>
      rw [Option.mem_toList.1 h]
      exact .generationCause
    | wrapped text cause =>
      rw [List.mem_singleton.1 h]
      exact .wrapped
    | joined parts => exact .joined h
    | _ => cases h

theorem contains_iff_reaches (f g : Failure) : f.Contains g ↔ f.Reaches g := by
  constructor
  . intro h
    induction h with
    | self => exact .refl
    | cause hcause _ ih => exact .head ((hasPart_iff_mem_causes _ _).2 hcause) ih
  . intro h
    induction h using Relation.ReflTransGen.head_induction_on with
    | refl => exact .self g
    | head hpart _ ih => exact .cause ((hasPart_iff_mem_causes _ _).1 hpart) ih

theorem HasPart.sizeOf_lt (h : f.HasPart g) : sizeOf g < sizeOf f := by
  cases h with
  | reason h =>
    have hlist := List.sizeOf_lt_of_mem h
    rw [schema.sizeOf_spec]
    omega
  | joined h =>
    have hlist := List.sizeOf_lt_of_mem h
    rw [joined.sizeOf_spec]
    omega
  | idCause =>
    rw [invalidId.sizeOf_spec, Option.some.sizeOf_spec]
    omega
  | generationCause =>
    rw [generation.sizeOf_spec, Option.some.sizeOf_spec]
    omega
  | wrapped =>
    rw [wrapped.sizeOf_spec]
    omega

-- What is in a failure is smaller than it, so the search comes to an end.
theorem exists_contains_of_anyNode {test : Failure → Bool} (f : Failure)
    (h : anyNode test f = true) : ∃ g, f.Contains g ∧ test g = true := by
  rw [anyNode_eq, Bool.or_eq_true, List.any_eq_true] at h
  rcases h with hself | ⟨part, hpart, hdeeper⟩
  . exact ⟨f, .self f, hself⟩
  . have hsmaller := ((hasPart_iff_mem_causes f part).2 hpart).sizeOf_lt
    obtain ⟨g, hcontains, htest⟩ := exists_contains_of_anyNode part hdeeper
    exact ⟨g, .cause hpart hcontains, htest⟩
termination_by sizeOf f

/--
A test finds something exactly if it holds of one of the failures in the failure.
-/
theorem anyNode_iff_exists_reaches (test : Failure → Bool) (f : Failure) :
    anyNode test f = true ↔ ∃ g, f.Reaches g ∧ test g = true := by
  constructor
  . intro h
    obtain ⟨g, hcontains, htest⟩ := exists_contains_of_anyNode f h
    exact ⟨g, (contains_iff_reaches f g).1 hcontains, htest⟩
  . rintro ⟨g, hreaches, htest⟩
    refine anyNode_of_contains ((contains_iff_reaches f g).2 hreaches) ?_
    rw [anyNode_eq, htest, Bool.true_or]

/-! What a failure is by itself. -/

/--
The failure by itself is of the kind.
-/
inductive IsOfKind : Kind → Failure → Prop where
  | setting (option : Text) (value : Option Text) (text : Text) :
      IsOfKind .setting (.setting option value text)
  | generation (type field file text : Text) (cause : Option Failure) :
      IsOfKind .generation (.generation type field file text cause)
  | invalidMessage (message : Text) (pos : Position) (collisions : List Collision) :
      IsOfKind .invalidMessage (.invalidMessage message pos collisions)
  | schema (file : Text) (faults : List Failure) : IsOfKind .schema (.schema file faults)
  | malformed (file : Text) (line column : Int) (text : Text) :
      IsOfKind .malformed (.malformed file line column text)
  | unresolved (names : List Text) (sites : List Reference) :
      IsOfKind .unresolved (.unresolved names sites)

/--
The failure by itself is one for which a source cannot be compiled, or the aggregate of such ones.
-/
inductive IsOfCompiler : Failure → Prop where
  | schema (file : Text) (faults : List Failure) : IsOfCompiler (.schema file faults)
  | unknownRule (message field rule : Text) (pos : Position) :
      IsOfCompiler (.unknownRule message field rule pos)
  | invalidId (message field id : Text) (pos : Position) (cause : Option Failure) :
      IsOfCompiler (.invalidId message field id pos cause)
  | invalidMessage (message : Text) (pos : Position) (collisions : List Collision) :
      IsOfCompiler (.invalidMessage message pos collisions)
  | duplicateMessage (message : Text) (first pos : Position) :
      IsOfCompiler (.duplicateMessage message first pos)
  | unresolved (names : List Text) (sites : List Reference) :
      IsOfCompiler (.unresolved names sites)

theorem isKind_iff (f : Failure) (k : Kind) : f.isKind k = true ↔ IsOfKind k f := by
  constructor
  . intro h
    cases f with
    | setting option value text =>
      rw [beq_iff_eq.1 h]
      exact .setting ..
    | generation type field file text cause =>
      rw [beq_iff_eq.1 h]
      exact .generation ..
    | invalidMessage message pos collisions =>
      rw [beq_iff_eq.1 h]
      exact .invalidMessage ..
    | schema file faults =>
      rw [beq_iff_eq.1 h]
      exact .schema ..
    | malformed file line column text =>
      rw [beq_iff_eq.1 h]
      exact .malformed ..
    | unresolved names sites =>
      rw [beq_iff_eq.1 h]
      exact .unresolved ..
    | _ => cases h
  . intro h
    cases h
    all_goals rfl

theorem matchesAlone_invalidSchema_iff (f : Failure) :
    f.matchesAlone .invalidSchema = true ↔ f.IsOfCompiler := by
  constructor
  . intro h
    cases f with
    | schema file faults => exact .schema ..
    | unknownRule message field rule pos => exact .unknownRule ..
    | invalidId message field id pos cause => exact .invalidId ..
    | invalidMessage message pos collisions => exact .invalidMessage ..
    | duplicateMessage message first pos => exact .duplicateMessage ..
    | unresolved names sites => exact .unresolved ..
    | disk operation path fault =>
      cases fault
      all_goals cases h
    | refused fault =>
      cases fault
      all_goals cases h
    | _ => cases h
  . intro h
    cases h
    all_goals rfl

/--
The sentinel that belongs to a kind.
-/
def Kind.sentinel : Kind → Sentinel
  | .setting => .missingSetting
  | .generation => .generationFailed
  | .invalidMessage => .invalidMessage
  | .schema => .invalidSchema
  | .malformed => .malformed
  | .unresolved => .unresolvedReference

-- The sentinel of an invalid schema is left out, since it belongs to more failures than aggregates.
theorem matchesAlone_sentinel (f : Failure) {k : Kind} (hk : k ≠ .schema) :
    f.matchesAlone k.sentinel = f.isKind k := by
  cases f with
  | disk operation path fault =>
    cases fault
    all_goals
      cases k
      all_goals rfl
  | refused fault =>
    cases fault
    all_goals
      cases k
      all_goals rfl
  | schema file faults =>
    cases k
    case schema => exact absurd rfl hk
    all_goals rfl
  | _ =>
    cases k
    case schema => exact absurd rfl hk
    all_goals rfl

/-! Both classifications. -/

theorem has_iff_exists_reaches (f : Failure) (k : Kind) :
    f.has k = true ↔ ∃ g, f.Reaches g ∧ IsOfKind k g := by
  unfold has
  rw [anyNode_iff_exists_reaches]
  simp only [isKind_iff]

theorem is_invalidSchema_iff_exists_reaches (f : Failure) :
    f.is .invalidSchema = true ↔ ∃ g, f.Reaches g ∧ g.IsOfCompiler := by
  unfold is
  rw [anyNode_iff_exists_reaches]
  simp only [matchesAlone_invalidSchema_iff]

theorem is_sentinel_iff_has (f : Failure) {k : Kind} (hk : k ≠ .schema) :
    f.is k.sentinel = true ↔ f.has k = true := by
  have htest : (fun g : Failure => g.matchesAlone k.sentinel) = fun g => g.isKind k :=
    funext fun g => matchesAlone_sentinel g hk
  unfold is has
  rw [htest]

/--
The sentinels that a failure matches and the kinds that it has say the same of it: which kinds of
failures are in it. Every failure for which a source cannot be compiled matches the sentinel of an
invalid schema, be it in an aggregate or not.
-/
structure IsClassified (f : Failure) : Prop where
  generation : f.is .generationFailed = true ↔ f.has .generation = true
  setting : f.is .missingSetting = true ↔ f.has .setting = true
  malformed : f.is .malformed = true ↔ f.has .malformed = true
  invalidMessage : f.is .invalidMessage = true ↔ f.has .invalidMessage = true
  unresolved : f.is .unresolvedReference = true ↔ f.has .unresolved = true
  schema : f.has .schema = true → f.is .invalidSchema = true
  kinds : ∀ k, f.has k = true ↔ ∃ g, f.Reaches g ∧ IsOfKind k g
  invalidSchema : f.is .invalidSchema = true ↔ ∃ g, f.Reaches g ∧ g.IsOfCompiler

/--
Whatever a failure is nested in, the two ways to classify it agree.
-/
theorem isClassified (f : Failure) : f.IsClassified where
  generation := is_sentinel_iff_has f (k := .generation) (by decide)
  setting := is_sentinel_iff_has f (k := .setting) (by decide)
  malformed := is_sentinel_iff_has f (k := .malformed) (by decide)
  invalidMessage := is_sentinel_iff_has f (k := .invalidMessage) (by decide)
  unresolved := is_sentinel_iff_has f (k := .unresolved) (by decide)
  schema := by
    intro h
    obtain ⟨g, hreaches, hkind⟩ := (has_iff_exists_reaches f .schema).1 h
    cases hkind
    exact (is_invalidSchema_iff_exists_reaches f).2 ⟨_, hreaches, .schema ..⟩
  kinds := has_iff_exists_reaches f
  invalidSchema := is_invalidSchema_iff_exists_reaches f

end Failure

end ValueGen
