import ValueGen.Text.Basic

/-!
This module contains the rules of fields, which say how often a field may occur.
-/

namespace ValueGen

/--
How often a field may occur. There is no default: a field without one of the three rules has an
invalid rule.
-/
inductive Rule where
  | invalid
  | optional
  | required
  | repeated
  deriving DecidableEq, Repr, Inhabited

namespace Rule

def keyword : Rule → Text
  | .invalid => "invalid"
  | .optional => "optional"
  | .required => "required"
  | .repeated => "repeated"

def ofKeyword? (t : Text) : Option Rule :=
  [Rule.optional, .required, .repeated].find? (·.keyword == t)

/--
The rule with a given number; every number without a rule stands for the invalid one.
-/
def ofNumber : Nat → Rule
  | 1 => .optional
  | 2 => .required
  | 3 => .repeated
  | _ => .invalid

def isValid : Rule → Bool
  | .invalid => false
  | _ => true

theorem ofKeyword?_keyword (r : Rule) (h : r.isValid = true) : ofKeyword? r.keyword = some r := by
  cases r <;> first | contradiction | decide

theorem isValid_of_ofKeyword? {t : Text} {r : Rule} (h : ofKeyword? t = some r) :
    r.isValid = true ∧ r.keyword = t := by
  have hmem := List.mem_of_find?_eq_some h
  have hkey := List.find?_some h
  simp only [beq_iff_eq] at hkey
  refine ⟨?_, hkey⟩
  simp at hmem
  rcases hmem with rfl | rfl | rfl <;> rfl

end Rule

end ValueGen
