import ValueGen.Failure

/-!
This module contains which failures a failure contains: itself, and whatever its causes contain. A
test for a kind of failure finds every one of them.
-/

namespace ValueGen

namespace Failure

/--
The second failure is the first one, or is reached from it through causes.
-/
inductive Contains : Failure → Failure → Prop where
  | self (f : Failure) : Contains f f
  | cause {f g h : Failure} (hcause : g ∈ f.causes) (hrest : Contains g h) : Contains f h

variable {f g : Failure}

theorem contains_joined {parts : List Failure} (h : f ∈ parts) (hf : f.Contains g) :
    (joined parts).Contains g :=
  .cause h hf

theorem anyNodes_eq (test : Failure → Bool) (fs : List Failure) :
    anyNodes test fs = fs.any (anyNode test) := by
  induction fs with
  | nil => simp [anyNodes]
  | cons f fs ih => simp [anyNodes, ih]

theorem anyNodeOf_eq (test : Failure → Bool) (cause : Option Failure) :
    anyNodeOf test cause = cause.toList.any (anyNode test) := by
  cases cause with
  | none => simp [anyNodeOf]
  | some f => simp [anyNodeOf]

theorem anyNode_eq (test : Failure → Bool) (f : Failure) :
    anyNode test f = (test f || f.causes.any (anyNode test)) := by
  cases f
  all_goals simp [anyNode, causes, anyNodes_eq, anyNodeOf_eq]

-- What is found in a part is found in the whole.
theorem anyNode_of_contains {test : Failure → Bool} (h : f.Contains g)
    (hg : anyNode test g = true) : anyNode test f = true := by
  induction h with
  | self => exact hg
  | cause hcause _ ih =>
    rw [anyNode_eq, Bool.or_eq_true, List.any_eq_true]
    exact .inr ⟨_, hcause, ih hg⟩

theorem has_of_contains {k : Kind} (h : f.Contains g) (hg : g.has k = true) : f.has k = true :=
  anyNode_of_contains h hg

end Failure

end ValueGen
