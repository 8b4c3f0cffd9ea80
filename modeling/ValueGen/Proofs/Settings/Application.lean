import Mathlib.Data.List.Basic
import ValueGen.Settings.Option

/-!
This module contains what lists of settings do. Whether a setting is refused does not depend on what
it is applied to, so both ways of applying a list come down to the settings that are accepted. All
settings that are reached from the default ones are sound, so that they lack at most the name of the
package.
-/

namespace ValueGen

namespace Setting

variable {o : Setting} {s : Settings}

/--
The value of the setting is acceptable.
-/
def IsAccepted : Setting → Prop
  | .package t => t ≠ [] ∧ Settings.isPackageName t = true
  | .target t => t ≠ []
  | .workers n => 0 ≤ n
  | .runtime t => t ≠ []
  | .emitter e => e ≠ none
  | _ => True

theorem fault?_eq_none_iff (o : Setting) : o.fault? = none ↔ o.IsAccepted := by
  cases o with
  | package t =>
    by_cases ht : t = []
    . simp [fault?, IsAccepted, ht]
    . simp [fault?, IsAccepted, ht]
  | target t => simp [fault?, IsAccepted]
  | workers n => simp [fault?, IsAccepted]
  | runtime t => simp [fault?, IsAccepted]
  | emitter e =>
    cases e with
    | none => simp [fault?, IsAccepted]
    | some e => simp [fault?, IsAccepted]
  | header t => simp [fault?, IsAccepted]
  | format b => simp [fault?, IsAccepted]
  | manifest b => simp [fault?, IsAccepted]

theorem apply_of_some {f : Failure} (h : o.fault? = some f) (s : Settings) :
    o.apply s = (s, some f) := by
  unfold apply
  rw [h]

theorem apply_of_none (h : o.fault? = none) (s : Settings) : o.apply s = (o.set s, none) := by
  unfold apply
  rw [h]

theorem snd_apply (o : Setting) (s : Settings) : (o.apply s).2 = o.fault? := by
  cases h : o.fault? with
  | some f => rw [apply_of_some h]
  | none => rw [apply_of_none h]

theorem fst_apply_of_fault? (h : o.fault? ≠ none) (s : Settings) : (o.apply s).1 = s := by
  obtain ⟨f, hf⟩ := Option.ne_none_iff_exists'.1 h
  rw [apply_of_some hf]

end Setting

namespace Settings

variable {s : Settings} {os : List Setting}

/--
The settings when each one of a list has been applied by itself, in order.
-/
def after (s : Settings) (os : List Setting) : Settings := os.foldl (fun s o => (o.apply s).1) s

/-! Both ways to apply a list. -/

theorem after_filter (s : Settings) (os : List Setting) :
    s.after (os.filter (·.fault?.isNone)) = s.after os := by
  induction os generalizing s with
  | nil => rfl
  | cons o os ih =>
    cases hfault : o.fault? with
    | some f =>
      rw [List.filter_cons_of_neg (by simp [hfault]), ih, after, after, List.foldl_cons,
        Setting.apply_of_some hfault]
    | none =>
      rw [List.filter_cons_of_pos (by simp [hfault])]
      exact ih _

theorem applyEach_eq (s : Settings) (os : List Setting) :
    s.applyEach os = (s.after os, os.filterMap Setting.fault?) := by
  induction os generalizing s with
  | nil => rfl
  | cons o os ih =>
    unfold applyEach
    dsimp only
    rw [ih, o.snd_apply]
    cases hfault : o.fault? with
    | some f => rw [List.filterMap_cons_some hfault]; rfl
    | none => rw [List.filterMap_cons_none hfault]; rfl

theorem applyAll_eq (s : Settings) (os : List Setting) :
    s.applyAll os = (s.after os, Failure.join? (os.filterMap Setting.fault?)) := by
  unfold applyAll
  rw [applyEach_eq]

theorem apply_eq (s : Settings) (os : List Setting) :
    s.apply os = (s.after (os.takeWhile (·.fault?.isNone)), os.findSome? Setting.fault?) := by
  induction os generalizing s with
  | nil => rfl
  | cons o os ih =>
    unfold apply
    cases hfault : o.fault? with
    | some f =>
      rw [Setting.apply_of_some hfault, List.takeWhile_cons_of_neg (by simp [hfault]),
        List.findSome?_cons_of_isSome (by simp [hfault]), hfault]
      rfl
    | none =>
      rw [Setting.apply_of_none hfault, List.takeWhile_cons_of_pos (by simp [hfault]),
        List.findSome?_cons_of_isNone (by simp [hfault])]
      dsimp only
      rw [ih, after, after, List.foldl_cons, Setting.apply_of_none hfault]

theorem ofList_isOk_iff (os : List Setting) :
    (∃ s, ofList os = .ok s) ↔ ∀ o ∈ os, o.IsAccepted := by
  have hnone : os.findSome? Setting.fault? = none ↔ ∀ o ∈ os, o.IsAccepted := by
    simp only [List.findSome?_eq_none_iff, Setting.fault?_eq_none_iff]
  rw [← hnone]
  unfold ofList
  rw [apply_eq]
  cases os.findSome? Setting.fault? with
  | none => simp
  | some f => simp

/-! The settings that can be reached. -/

/--
What holds of settings however they were reached from the default ones.
-/
structure IsSound (s : Settings) : Prop where
  workers : 0 ≤ s.workers
  runtime : s.runtime ≠ []
  package : s.package = [] ∨ isPackageName s.package = true

theorem isSound_default : default.IsSound := ⟨by decide, by decide, .inl rfl⟩

theorem IsSound.set {o : Setting} (h : s.IsSound) (ho : o.IsAccepted) : (o.set s).IsSound := by
  cases o with
  | package t => exact ⟨h.workers, h.runtime, .inr ho.2⟩
  | workers n => exact ⟨ho, h.runtime, h.package⟩
  | runtime t => exact ⟨h.workers, ho, h.package⟩
  | header t => exact ⟨h.workers, h.runtime, h.package⟩
  | target t => exact ⟨h.workers, h.runtime, h.package⟩
  | format b => exact ⟨h.workers, h.runtime, h.package⟩
  | manifest b => exact ⟨h.workers, h.runtime, h.package⟩
  | emitter e => exact ⟨h.workers, h.runtime, h.package⟩

theorem IsSound.apply (h : s.IsSound) (o : Setting) : (o.apply s).1.IsSound := by
  cases hfault : o.fault? with
  | some f =>
    rw [Setting.apply_of_some hfault]
    exact h
  | none =>
    rw [Setting.apply_of_none hfault]
    exact h.set ((Setting.fault?_eq_none_iff o).1 hfault)

theorem IsSound.after (h : s.IsSound) (os : List Setting) : (s.after os).IsSound := by
  induction os generalizing s with
  | nil => exact h
  | cons o os ih => exact ih (h.apply o)

/--
The settings are reached from the default ones by applying lists of settings, in both ways.
-/
inductive IsReached : Settings → Prop where
  | default : IsReached default
  | apply {s : Settings} (h : IsReached s) (os : List Setting) : IsReached (s.apply os).1
  | applyAll {s : Settings} (h : IsReached s) (os : List Setting) : IsReached (s.applyAll os).1

theorem IsReached.isSound (h : IsReached s) : s.IsSound := by
  induction h with
  | default => exact isSound_default
  | apply h os ih =>
    rw [apply_eq]
    exact ih.after _
  | applyAll h os ih =>
    rw [applyAll_eq]
    exact ih.after _

/--
The failure of settings that name no package.
-/
def missingPackage : Failure := .setting "Package" none "package cannot be empty"

-- Sound settings are not to blame for anything but a package without a name.
theorem IsSound.fault?_eq (h : s.IsSound) :
    s.fault? = if s.package = [] then some missingPackage else none := by
  have hworkers : ¬ s.workers < 0 := by
    have := h.workers
    omega
  unfold fault?
  by_cases hempty : s.package = []
  . simp [hempty, missingPackage]
  . simp [hempty, h.package.resolve_left hempty, hworkers]

/-! What applying a list does. -/

/--
A setting that is refused changes nothing, and it is refused whatever it is applied to. If all of a
list are applied, those that are accepted take effect in order, and the reasons of the others are
joined in order. If they are applied up to the first that is refused, the ones in front of it take
effect, and its reason is the failure.
-/
structure AppliesInOrder (s : Settings) (os : List Setting) : Prop where
  refused : ∀ o : Setting, o.fault? ≠ none → (o.apply s).1 = s
  independent : ∀ o : Setting, (o.apply s).2 = o.fault? ∧ (o.fault? = none ↔ o.IsAccepted)
  applyAll_fst : (s.applyAll os).1 = s.after (os.filter (·.fault?.isNone))
  applyAll_snd : (s.applyAll os).2 = Failure.join? (os.filterMap Setting.fault?)
  apply_fst : (s.apply os).1 = (s.applyAll (os.takeWhile (·.fault?.isNone))).1
  apply_snd : (s.apply os).2 = os.findSome? Setting.fault?

/--
Lists of settings apply in order to any settings, and the default settings with a list applied exist
if and only if each one of the list is acceptable. All settings that can be reached from the default
ones are sound, and they do for printing a message unless they name no package.
-/
theorem appliesInOrder (os : List Setting) :
    (∀ s : Settings, s.AppliesInOrder os)
    ∧ ((∃ s, ofList os = .ok s) ↔ ∀ o ∈ os, o.IsAccepted)
    ∧ ∀ s : Settings, s.IsReached
      → s.IsSound ∧ s.fault? = if s.package = [] then some missingPackage else none := by
  refine ⟨?_, ofList_isOk_iff os, fun s h => ⟨h.isSound, h.isSound.fault?_eq⟩⟩
  intro s
  constructor
  . exact fun o h => Setting.fst_apply_of_fault? h s
  . exact fun o => ⟨o.snd_apply s, o.fault?_eq_none_iff⟩
  . rw [applyAll_eq, after_filter]
  . rw [applyAll_eq]
  . rw [apply_eq, applyAll_eq]
  . rw [apply_eq]

/--
The first and the third setting are refused, the second one takes effect.
-/
theorem appliesInOrder_workers :
    let os : List Setting := [.target [], .workers 2, .workers (-1)]
    (default.applyAll os).1.IsReached ∧ (default.applyAll os).1.workers = 2
      ∧ (default.apply os).1.workers = 0
      ∧ (default.applyAll os).1.fault? = some missingPackage := by
  intro os
  have hreached : (default.applyAll os).1.IsReached := .applyAll .default os
  refine ⟨hreached, by decide, by decide, ?_⟩
  rw [((appliesInOrder os).2.2 _ hreached).2, if_pos (by decide)]

end Settings

end ValueGen
