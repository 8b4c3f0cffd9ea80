import ValueGen.Text.Basic

/-!
This module contains the order of texts: byte by byte, and a text comes before its continuations.
The order is transitive, and of two different texts one comes before the other.
-/

namespace ValueGen

namespace Text

def before : Text → Text → Bool
  | _, [] => false
  | [], _ :: _ => true
  | a :: as, b :: bs => a.toNat < b.toNat || (a == b && before as bs)

theorem before_irrefl (t : Text) : before t t = false := by
  induction t with
  | nil => rfl
  | cons b t ih => simp [before, ih]

theorem before_trans {s t u : Text} (hst : before s t) (htu : before t u) : before s u := by
  induction u generalizing s t with
  | nil => simp [before] at htu
  | cons c u ih =>
    cases t with
    | nil => simp [before] at hst
    | cons b t =>
      cases s with
      | nil => rfl
      | cons a s =>
        simp only [before, Bool.or_eq_true, decide_eq_true_eq, Bool.and_eq_true,
          beq_iff_eq] at hst htu ⊢
        rcases hst with hab | ⟨rfl, hst⟩
        · rcases htu with hbc | ⟨rfl, _⟩
          · exact .inl (Nat.lt_trans hab hbc)
          · exact .inl hab
        · rcases htu with hbc | ⟨rfl, htu⟩
          · exact .inl hbc
          · exact .inr ⟨rfl, ih hst htu⟩

theorem eq_of_not_before {s t : Text} (hst : before s t = false) (hts : before t s = false) :
    s = t := by
  induction s generalizing t with
  | nil =>
    cases t with
    | nil => rfl
    | cons b t => simp [before] at hst
  | cons a s ih =>
    cases t with
    | nil => simp [before] at hts
    | cons b t =>
      simp only [before, Bool.or_eq_false_iff, decide_eq_false_iff_not, Nat.not_lt,
        Bool.and_eq_false_iff, beq_eq_false_iff_ne] at hst hts
      have hab : a = b := UInt8.toNat_inj.1 (Nat.le_antisymm hts.1 hst.1)
      subst hab
      simp only [ne_eq, not_true_eq_false, false_or] at hst hts
      rw [ih hst.2 hts.2]

theorem before_of_not_before {s t : Text} (hst : before s t = false) (hne : s ≠ t) :
    before t s := by
  by_cases hts : before t s
  · exact hts
  · exact absurd (eq_of_not_before hst (Bool.eq_false_iff.2 hts)) hne

end Text

end ValueGen
