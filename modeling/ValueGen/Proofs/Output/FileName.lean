import ValueGen.Output.Writer
import ValueGen.Proofs.Disk.Path
import ValueGen.Proofs.Text.Glyph

/-!
This module contains that the file of a message is a plain entry of the target directory. The name
of a message that can be generated is an identifier, so it has no separator, and the snake-case form
adds none.
-/

namespace ValueGen

namespace Text

-- An ASCII byte of a text stands for itself.
theorem mem_chars_of_mem {b : UInt8} {t : Text} (hmem : b ∈ t) (hb : b < 0x80) :
    Char.ofNat b.toNat ∈ t.chars := by
  rw [← ofGlyphs_glyphs t] at hmem
  unfold ofGlyphs at hmem
  rw [List.mem_flatMap] at hmem
  obtain ⟨g, hg, hbytes⟩ := hmem
  unfold chars
  rw [List.mem_map]
  refine ⟨g, hg, ?_⟩
  obtain ⟨c, rest, rfl⟩ := glyphs.isDecoded_of_mem hg
  exact Glyph.char_leading_of_mem hbytes hb

end Text

namespace Identifier

theorem isInner_of_mem_chars {name : Text} (h : isWord name = true) :
    ∀ c ∈ name.chars, isInner c = true := by
  unfold isWord at h
  intro c hc
  split at h
  . cases h
  . next first rest hchars =>
    rw [hchars] at hc
    rw [Bool.and_eq_true, List.all_eq_true] at h
    rcases List.mem_cons.1 hc with rfl | hc
    . unfold isInner
      rw [h.1, Bool.true_or]
    . exact h.2 c hc

theorem not_mem_of_isValid {name : Text} (h : isValid name = true) {b : UInt8} (hb : b < 0x80)
    (hinner : isInner (Char.ofNat b.toNat) = false) : b ∉ name := by
  unfold isValid at h
  rw [Bool.and_eq_true] at h
  intro hmem
  have hmember := isInner_of_mem_chars h.1 _ (Text.mem_chars_of_mem hmem hb)
  rw [hinner] at hmember
  cases hmember

theorem separator_not_mem {name : Text} (h : isValid name = true) : Path.separator ∉ name :=
  not_mem_of_isValid h (by decide) (by decide)

end Identifier

namespace Snake

-- Only the two bytes themselves are rendered with a separator or a dot.
theorem eq_of_mem_render {b c : UInt8} (hc : c = Path.separator ∨ c = 0x2e) (h : c ∈ render b) :
    b = c := by
  have hb := forall_byte (p := fun b => (Path.separator ∈ render b → b = Path.separator)
    ∧ (0x2e ∈ render b → b = 0x2e)) (by decide +kernel) b
  rcases hc with rfl | rfl
  . exact hb.1 h
  . exact hb.2 h

theorem not_mem_go {c : UInt8} (hc : c = Path.separator ∨ c = 0x2e) {before : UInt8} {split : Bool}
    {t : Text} (h : c ∉ t) : c ∉ ofCamel.go before split t := by
  have hrender (b : UInt8) (hb : b ∈ t) : c ∉ render b := by
    intro hmem
    rw [eq_of_mem_render hc hmem] at hb
    exact h hb
  fun_induction ofCamel.go before split t with
  | case1 => simp
  | case2 before split b => exact hrender b List.mem_cons_self
  | case3 before split b after t hstarts ih =>
    rw [List.mem_cons, not_or] at h
    have hrest := ih h.2 fun c hc => hrender c (List.mem_cons_of_mem _ hc)
    have hunder : c ∉ ("_" : Text) := by
      rcases hc with rfl | rfl
      all_goals decide
    simp [hunder, hrender b List.mem_cons_self, hrest]
  | case4 before split b after t hstarts ih =>
    rw [List.mem_cons, not_or] at h
    have hrest := ih h.2 fun c hc => hrender c (List.mem_cons_of_mem _ hc)
    simp [hrender b List.mem_cons_self, hrest]

theorem not_mem_ofCamel {c : UInt8} (hc : c = Path.separator ∨ c = 0x2e) {t : Text} (h : c ∉ t) :
    c ∉ ofCamel t := by
  cases t with
  | nil => simp [ofCamel]
  | cons b t =>
    rw [List.mem_cons, not_or] at h
    unfold ofCamel
    rw [List.mem_append, not_or]
    exact ⟨fun hmem => h.1 (eq_of_mem_render hc hmem).symm, not_mem_go hc h.2⟩

end Snake

/-! The names of files. -/

theorem Writer.isPlain_of_isOwnName {name : Text} (h : isOwnName name = true) :
    Path.IsPlain name := by
  unfold isOwnName Text.endsWith at h
  rw [Bool.and_eq_true, Bool.not_eq_true', List.isSuffixOf_iff_suffix, List.contains_eq_mem,
    decide_eq_false_iff_not] at h
  have hlength : 3 ≤ name.length := h.2.length_le
  refine ⟨⟨?_, h.1⟩, ?_, ?_⟩
  all_goals
    rintro rfl
    exact absurd hlength (by decide)

theorem Manifest.isPlain_fileName : Path.IsPlain Manifest.fileName :=
  ⟨⟨by decide, by decide⟩, by decide, by decide⟩

theorem Message.isOwnName_fileName_of_not_mem {m : Message} (h : Path.separator ∉ m.name) :
    Writer.isOwnName m.fileName = true := by
  unfold Writer.isOwnName Message.fileName Text.endsWith
  have hseparator : Path.separator ∉ Snake.ofCamel m.name ++ fileSuffix := by
    rw [List.mem_append, not_or]
    exact ⟨Snake.not_mem_ofCamel (.inl rfl) h, by decide⟩
  have hsuffix : (".go" : Text) <:+ fileSuffix := by decide
  rw [Bool.and_eq_true, Bool.not_eq_true', List.isSuffixOf_iff_suffix, List.contains_eq_mem,
    decide_eq_false_iff_not]
  exact ⟨hseparator, hsuffix.trans (List.suffix_append _ _)⟩

theorem Message.isOwnName_fileName {m : Message} (h : Identifier.isValid m.name = true) :
    Writer.isOwnName m.fileName = true :=
  isOwnName_fileName_of_not_mem (Identifier.separator_not_mem h)

theorem Writer.ne_fileName_of_isOwnName {name : Text} (h : isOwnName name = true) :
    name ≠ Manifest.fileName := by
  rintro rfl
  exact absurd h (by decide)

/-! The messages that can be generated. -/

theorem Scope.isValid_of_declareAll {s t : Scope} {what name : Text} {names : List Text}
    (h : s.declareAll what (name :: names) = .ok t) : Identifier.isValid name = true := by
  unfold declareAll declare at h
  by_cases hvalid : Identifier.isValid name = true
  . exact hvalid
  . simp [hvalid] at h

theorem Plan.isValid_of_ofMessage {m : Message} {package : Text} {plan : Plan}
    (h : Plan.ofMessage m package = .ok plan) : Identifier.isValid m.name = true := by
  unfold Plan.ofMessage at h
  simp only [bind, Except.bind] at h
  split at h
  . cases h
  . split at h
    . cases h
    . next hdeclared => exact Scope.isValid_of_declareAll hdeclared

theorem isValid_of_generate {m : Message} {s : Settings} {printed : Code.Printed}
    (hemitter : s.emitterInUse = .values) (h : generate m s = .ok printed) :
    Identifier.isValid m.name = true := by
  unfold generate at h
  rw [hemitter] at h
  split at h
  . cases h
  . cases hplan : Plan.ofMessage m s.package with
    | ok plan => exact Plan.isValid_of_ofMessage hplan
    | error f =>
      simp only [Emitter.values, hplan, bind, Except.bind] at h
      split at h
      all_goals cases h

end ValueGen
