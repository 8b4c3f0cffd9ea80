import ValueGen.Proofs.Failure.Cause

/-!
This module contains which failures are recognized as failures of what a run is given: of the source
or of the settings. A failure is so only if one of the failures that it contains is so by itself.
-/

namespace ValueGen

namespace Failure

/--
The failure is recognized as that of a malformed source, of an invalid schema, or of a setting.
-/
def BlamesInput (f : Failure) : Prop :=
  f.is .malformed = true ∨ f.is .invalidSchema = true ∨ f.is .missingSetting = true

variable {f : Failure}

theorem is_iff (f : Failure) (s : Sentinel) :
    f.is s = true ↔ f.matchesAlone s = true ∨ ∃ g ∈ f.causes, g.is s = true := by
  unfold is
  rw [anyNode_eq, Bool.or_eq_true, List.any_eq_true]

/--
The failure by itself, without its causes, is none of the source or of the settings.
-/
def IsNeutral (f : Failure) : Prop :=
  f.matchesAlone .malformed = false ∧ f.matchesAlone .invalidSchema = false
    ∧ f.matchesAlone .missingSetting = false

theorem IsNeutral.not_blamesInput (h : f.IsNeutral) (hcauses : ∀ g ∈ f.causes, ¬ g.BlamesInput) :
    ¬ f.BlamesInput := by
  have hnot {s : Sentinel} (hself : f.matchesAlone s = false)
      (hblames : ∀ g : Failure, g.is s = true → g.BlamesInput) : f.is s ≠ true := by
    intro his
    rcases (is_iff f s).1 his with halone | ⟨g, hg, hgs⟩
    . rw [hself] at halone
      cases halone
    . exact hcauses g hg (hblames g hgs)
  rintro (hmalformed | hschema | hsetting)
  . exact hnot h.1 (fun _ hg => .inl hg) hmalformed
  . exact hnot h.2.1 (fun _ hg => .inr (.inl hg)) hschema
  . exact hnot h.2.2 (fun _ hg => .inr (.inr hg)) hsetting

theorem not_blamesInput_plain (text : Text) : ¬ (plain text).BlamesInput :=
  IsNeutral.not_blamesInput ⟨rfl, rfl, rfl⟩ (by simp [causes])

theorem not_blamesInput_canceled : ¬ canceled.BlamesInput :=
  IsNeutral.not_blamesInput ⟨rfl, rfl, rfl⟩ (by simp [causes])

theorem not_blamesInput_disk (operation path : Text) (fault : DiskFault) :
    ¬ (disk operation path fault).BlamesInput := by
  refine IsNeutral.not_blamesInput ?_ (by simp [causes])
  cases fault
  all_goals exact ⟨rfl, rfl, rfl⟩

theorem not_blamesInput_wrapped (text : Text) (h : ¬ f.BlamesInput) :
    ¬ (wrapped text f).BlamesInput :=
  IsNeutral.not_blamesInput ⟨rfl, rfl, rfl⟩ (by simpa [causes] using h)

theorem not_blamesInput_joined {parts : List Failure} (h : ∀ g ∈ parts, ¬ g.BlamesInput) :
    ¬ (joined parts).BlamesInput :=
  IsNeutral.not_blamesInput ⟨rfl, rfl, rfl⟩ h

theorem not_blamesInput_generation (type field file text : Text) {cause : Option Failure}
    (h : ∀ g ∈ cause, ¬ g.BlamesInput) :
    ¬ (generation type field file text cause).BlamesInput := by
  refine IsNeutral.not_blamesInput ⟨rfl, rfl, rfl⟩ ?_
  intro g hg
  exact h g (Option.mem_toList.1 hg)

theorem not_blamesInput_of_join? {fs : List Failure} (h : ∀ g ∈ fs, ¬ g.BlamesInput)
    (hf : join? fs = some f) : ¬ f.BlamesInput := by
  unfold join? at hf
  split at hf
  . cases hf
  . cases hf
    exact not_blamesInput_joined h

end Failure

end ValueGen
