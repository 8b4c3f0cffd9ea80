import ValueGen.Output.SourceFile
import ValueGen.Proofs.Failure.Input
import ValueGen.Proofs.Output.Ending

/-!
This module contains that a call on a source file does nothing at all if the source or the settings
are to blame, or if the work was canceled before it started. Once the first directory may have been
made, whatever goes wrong is a failure of the disk, of the generation of a message or of the
formatter, and nothing that it contains is taken for a failure of the source or of the settings.
-/

namespace ValueGen

open Failure (BlamesInput not_blamesInput_plain not_blamesInput_canceled not_blamesInput_disk
  not_blamesInput_wrapped not_blamesInput_joined not_blamesInput_generation)

/-! The failures of generation. -/

theorem Scope.not_blamesInput_of_declare {s : Scope} {name what : Text} {f : Failure}
    (h : s.declare name what = .error f) : ¬ f.BlamesInput := by
  unfold declare at h
  split at h
  . cases h
    exact not_blamesInput_plain _
  . split at h
    . cases h
      exact not_blamesInput_plain _
    . cases h

theorem Scope.not_blamesInput_of_declareAll {s : Scope} {what : Text} {names : List Text}
    {f : Failure} (h : s.declareAll what names = .error f) : ¬ f.BlamesInput := by
  induction names generalizing s with
  | nil => cases h
  | cons name names ih =>
    unfold declareAll at h
    split at h
    . exact ih h
    . next hdeclare =>
      cases h
      exact not_blamesInput_of_declare hdeclare

namespace Plan

theorem not_blamesInput_of_declareField {s : Scopes} {p : FieldPlan} {f : Failure}
    (h : s.declareField p = .error f) : ¬ f.BlamesInput := by
  unfold Scopes.declareField at h
  simp only [bind, Except.bind] at h
  repeat' split at h
  all_goals first
    | cases h
      apply Scope.not_blamesInput_of_declare
      assumption
    | cases h

theorem not_blamesInput_of_ofField {message : Text} {field : Field} {f : Failure}
    (h : FieldPlan.ofField message field = .error f) : ¬ f.BlamesInput := by
  unfold FieldPlan.ofField at h
  split at h
  . cases h
  . cases h
    exact not_blamesInput_generation _ _ _ _ (by simp [not_blamesInput_plain])

theorem not_blamesInput_of_planFields {message : Text} {s : Scopes} {fields : List Field}
    {f : Failure} (h : planFields message s fields = .error f) : ¬ f.BlamesInput := by
  induction fields generalizing s with
  | nil => cases h
  | cons field fields ih =>
    unfold planFields at h
    simp only [bind, Except.bind] at h
    split at h
    . next hfield =>
      cases h
      exact not_blamesInput_of_ofField hfield
    . split at h
      . next hdeclare =>
        cases h
        have hcause := not_blamesInput_of_declareField hdeclare
        exact not_blamesInput_generation _ _ _ _ (by simpa using hcause)
      . split at h
        . next hrest =>
          cases h
          exact ih hrest
        . cases h

theorem not_blamesInput_of_ofMessage {m : Message} {package : Text} {f : Failure}
    (h : ofMessage m package = .error f) : ¬ f.BlamesInput := by
  unfold ofMessage at h
  simp only [bind, Except.bind] at h
  split at h
  . cases h
    exact not_blamesInput_generation _ _ _ _ (by simp)
  . split at h
    . next hdeclare =>
      cases h
      have hcause := Scope.not_blamesInput_of_declareAll hdeclare
      exact not_blamesInput_generation _ _ _ _ (by simpa using hcause)
    . split at h
      . next hfields =>
        cases h
        exact not_blamesInput_of_planFields hfields
      . cases h

end Plan

theorem Claims.not_blamesInput_of_mem_settle {c : Claims} {ms : List Message} {m : Message}
    {f : Failure} (h : (m, some f) ∈ c.settle ms) : ¬ f.BlamesInput := by
  obtain ⟨c', hfault⟩ := exists_fault?_of_mem_settle h
  obtain ⟨type, field, file, text, rfl⟩ := eq_generation_of_fault? hfault
  exact not_blamesInput_generation _ _ _ _ (by simp)

section

variable {s : Settings} {schema : Schema} {f : Failure}

theorem not_blamesInput_of_generate (hvalid : s.fault? = none)
    (hemitter : s.emitterInUse = .values) {m : Message} (h : generate m s = .error f) :
    ¬ f.BlamesInput := by
  unfold generate at h
  rw [hvalid, hemitter] at h
  dsimp only at h
  split at h
  . next g hemit =>
    have hplan : ¬ g.BlamesInput := by
      unfold Emitter.values at hemit
      simp only [bind, Except.bind] at hemit
      split at hemit
      . next hofMessage =>
        cases hemit
        exact Plan.not_blamesInput_of_ofMessage hofMessage
      . cases hemit
    split at h
    . cases h
      exact hplan
    . cases h
      exact not_blamesInput_generation _ _ _ _ (by simpa using hplan)
  . split at h
    . cases h
    . cases h
      exact not_blamesInput_generation _ _ _ _ (by simp [not_blamesInput_plain])

theorem not_blamesInput_of_mem_failed {schedule : Schedule} {batch : Batch}
    (hemitter : s.emitterInUse = .values) (h : generateSchema schema s schedule = .ok batch)
    (hf : f ∈ batch.failed.map Prod.snd) : ¬ f.BlamesInput := by
  have hvalid := fault?_of_generateSchema_ok h
  obtain ⟨⟨m, taken⟩, hc, hfault⟩ := exists_settledFault?_of_mem_failed h hf
  unfold settledFault? at hfault
  split at hfault
  . next heq =>
    cases hfault
    dsimp only at heq
    subst heq
    exact Claims.not_blamesInput_of_mem_settle hc
  . next hgenerate =>
    cases hfault
    exact not_blamesInput_of_generate hvalid hemitter hgenerate
  . cases hfault

end

namespace Writer

variable {o : Options} {s : Settings} {schema : Schema} {batch : Batch} {timing : Timing}
  {previous : Manifest} {files : List GeneratedFile} {p q : Progress} {failure? : Option Failure}
  {f : Failure}

/-! The failures of writing. -/

theorem not_blamesInput_of_writeFile {file : GeneratedFile}
    (h : writeFile o previous file p = (q, .error f)) : ¬ f.BlamesInput := by
  have hformat : ¬ (unformatted file (Path.join o.target file.name)).BlamesInput :=
    not_blamesInput_generation _ _ _ _ (by simp [not_blamesInput_plain])
  unfold writeFile at h
  dsimp only at h
  split at h
  . split at h
    . cases h
      exact hformat
    . cases h
      exact hformat
  . split at h
    . cases h
    . split at h
      . cases h
      . next hwrite =>
        cases h
        obtain ⟨operation, fault, rfl⟩ := Disk.exists_of_write_error hwrite
        exact not_blamesInput_wrapped _ (not_blamesInput_disk _ _ _)

/--
The first failure of the tasks so far, if there is one, is none of the source or of the settings.
-/
def Writing.IsBlameless (w : Writing) : Prop := ∀ f, w.failure? = some f → ¬ f.BlamesInput

theorem Writing.isBlameless_fail {w : Writing} (h : w.IsBlameless) (hf : ¬ f.BlamesInput) :
    (w.fail f).IsBlameless := by
  intro g hg
  cases hfirst : w.failure? with
  | none =>
    simp only [fail, hfirst, Option.getD_none, Option.some.injEq] at hg
    exact hg ▸ hf
  | some first =>
    simp only [fail, hfirst, Option.getD_some, Option.some.injEq] at hg
    exact hg ▸ h first hfirst

theorem Writing.isBlameless_turn {w : Writing} (h : w.IsBlameless) (next : Nat × Start) :
    (turn o previous files w next).IsBlameless := by
  unfold turn
  split
  . exact h
  . split
    . exact isBlameless_fail h not_blamesInput_canceled
    . split
      . exact h
      . split
        . exact h
        . next hwrite => exact isBlameless_fail h (not_blamesInput_of_writeFile hwrite)

theorem Writing.isBlameless_run (o : Options) (previous : Manifest) (files : List GeneratedFile)
    (schedule : Schedule) (p : Progress) : (run o previous files schedule p).IsBlameless := by
  have hall (w : Writing) (hw : w.IsBlameless) :
      (schedule.foldl (turn o previous files) w).IsBlameless := by
    induction schedule generalizing w with
    | nil => exact hw
    | cons next schedule ih => exact ih _ (isBlameless_turn hw next)
  exact hall _ fun _ hnone => by cases hnone

theorem not_blamesInput_of_removeStale {target : Text} {kept : FileTable} {names : List Text}
    (h : removeStale target kept names p = (q, some f)) : ¬ f.BlamesInput := by
  induction names generalizing p with
  | nil => cases h
  | cons name names ih =>
    unfold removeStale at h
    split at h
    . exact ih h
    . split at h
      . exact ih h
      . next hremove =>
        split at h
        . exact ih h
        . cases h
          obtain ⟨operation, fault, rfl⟩ := Disk.exists_of_remove_error hremove
          exact not_blamesInput_wrapped _ (not_blamesInput_disk _ _ _)

theorem not_blamesInput_of_save {m : Manifest} {d : Disk} {path : Text}
    (h : m.save d path = .error f) : ¬ f.BlamesInput := by
  unfold Manifest.save at h
  split at h
  . cases h
  . next hwrite =>
    cases h
    obtain ⟨operation, fault, rfl⟩ := Disk.exists_of_write_error hwrite
    exact not_blamesInput_wrapped _ (not_blamesInput_disk _ _ _)

theorem not_blamesInput_of_previousManifest (h : previousManifest o p = .error f) :
    ¬ f.BlamesInput := by
  obtain ⟨-, cause, hread, -, rfl⟩ := (previousManifest_eq_error_iff o p f).1 h
  obtain ⟨operation, fault, rfl⟩ := Disk.exists_of_read_error hread
  exact not_blamesInput_wrapped _ (not_blamesInput_disk _ _ _)

theorem not_blamesInput_of_stopped (hbatch : ∀ g ∈ batch.failed.map Prod.snd, ¬ g.BlamesInput)
    {g : Failure} (hf : ¬ f.BlamesInput) (h : stopped batch f = some g) : ¬ g.BlamesInput := by
  refine Failure.not_blamesInput_of_join? ?_ h
  intro part hpart
  rcases List.mem_append.1 hpart with hpart | hpart
  . exact Failure.not_blamesInput_of_join? hbatch (Option.mem_toList.1 hpart)
  . rw [List.mem_singleton.1 hpart]
    exact hf

theorem not_blamesInput_of_writeBatch
    (hbatch : ∀ g ∈ batch.failed.map Prod.snd, ¬ g.BlamesInput)
    (h : writeBatch o schema batch timing p = (q, some f)) : ¬ f.BlamesInput := by
  unfold writeBatch at h
  split at h
  . next hprevious =>
    cases h
    exact not_blamesInput_of_previousManifest hprevious
  . next previous r hprevious =>
    dsimp only at h
    split at h
    . next g hfailed =>
      have hrun := Writing.isBlameless_run o previous batch.files
        (timing.writing batch.files.length) r g hfailed
      exact not_blamesInput_of_stopped hbatch hrun (congrArg Prod.snd h)
    . split at h
      . unfold finish at h
        dsimp only at h
        split at h
        . next hremove =>
          exact not_blamesInput_of_stopped hbatch (not_blamesInput_of_removeStale hremove)
            (congrArg Prod.snd h)
        . split at h
          . next hsave =>
            exact not_blamesInput_of_stopped hbatch (not_blamesInput_of_save hsave)
              (congrArg Prod.snd h)
          . exact Failure.not_blamesInput_of_join? hbatch (congrArg Prod.snd h)
      . exact Failure.not_blamesInput_of_join? hbatch (congrArg Prod.snd h)

-- The source and the settings are checked before anything is done to the disk.
theorem write_eq_of_blamesInput (hemitter : s.emitterInUse = .values)
    (h : write (some s) schema timing p = (q, some f)) (hf : f.BlamesInput) : q = p := by
  unfold write at h
  dsimp only at h
  split at h
  . cases h
    rfl
  . split at h
    . cases h
      rfl
    . next batch hbatch =>
      split at h
      . next disk g hmade =>
        cases h
        obtain ⟨operation, path, fault, rfl⟩ :=
          Disk.exists_of_makeDirectories_some (congrArg Prod.snd hmade)
        exact absurd hf (not_blamesInput_wrapped _ (not_blamesInput_disk _ _ _))
      . have hfailed : ∀ g ∈ batch.failed.map Prod.snd, ¬ g.BlamesInput :=
          fun g hg => not_blamesInput_of_mem_failed hemitter hbatch hg
        exact absurd hf (not_blamesInput_of_writeBatch hfailed h)

end Writer

/-! Work that was canceled before it started. -/

-- Nothing is taken before the first message, so it has something to do.
theorem Claims.fault?_empty (m : Message) : Claims.empty.fault? m = none := by
  have hnames : (TypeNames.ofName m.name).toList.findSome? (fun id =>
      (Claims.empty.names.lookup id).map fun first =>
        Failure.generation m.name [] []
          ("identifier " ++ id ++ " collides with message " ++ first) none) = none := by
    rw [List.findSome?_eq_none_iff]
    intro id _
    rfl
  exact hnames

theorem wasCanceled_of_forall {schema : Schema} {schedule : Schedule}
    (hmessages : schema.messages ≠ []) (hcovers : schedule.Covers schema.messages.length)
    (hcanceled : ∀ task ∈ schedule, task.2 = .canceled) :
    WasCanceled (Claims.empty.settle schema.messages) schedule := by
  obtain ⟨first, rest, hlist⟩ := List.exists_cons_of_ne_nil hmessages
  have hran : 0 ∈ schedule.map Prod.fst := by
    rw [hcovers.mem_iff, List.mem_range, hlist]
    exact Nat.succ_pos _
  obtain ⟨⟨i, start⟩, htask, hi⟩ := List.mem_map.1 hran
  have hstart : start = .canceled := hcanceled _ htask
  dsimp only at hi
  rw [hi, hstart] at htask
  refine ⟨0, first, htask, ?_⟩
  rw [hlist, Claims.settle, Claims.fault?_empty]
  rfl

theorem Writer.write_eq_of_canceled {s : Settings} {schema : Schema} {timing : Timing}
    {p q : Progress} {failure? : Option Failure} (hmessages : schema.messages ≠ [])
    (hcovers : (timing.generation schema.messages.length).Covers schema.messages.length)
    (hcanceled : ∀ task ∈ timing.generation schema.messages.length, task.2 = .canceled)
    (h : write (some s) schema timing p = (q, failure?)) : q = p := by
  have hnone :
      ∃ f, generateSchema schema s (timing.generation schema.messages.length) = .error f := by
    cases hvalid : s.fault? with
    | some f =>
      refine ⟨f, ?_⟩
      unfold generateSchema
      rw [hvalid]
    | none =>
      exact ⟨_, generateSchema_of_wasCanceled hvalid
        (wasCanceled_of_forall hmessages hcovers hcanceled)⟩
  obtain ⟨f, hf⟩ := hnone
  have hwrite := fst_write_of_error (p := p) hf
  rw [h] at hwrite
  exact hwrite

/-! The settings in effect. -/

theorem Text.not_mem_afterLast (b : UInt8) (t : Text) : b ∉ t.afterLast b := by
  intro hmem
  unfold afterLast at hmem
  rw [List.mem_reverse] at hmem
  simpa using List.mem_takeWhile_imp hmem

theorem Text.eq_afterLast_or (b : UInt8) (t : Text) :
    t = t.afterLast b ∨ ∃ before, t = before ++ b :: t.afterLast b := by
  have hsplit : t = (t.reverse.dropWhile (· != b)).reverse ++ t.afterLast b := by
    unfold afterLast
    rw [← List.reverse_append, List.takeWhile_append_dropWhile, List.reverse_reverse]
  cases hrest : t.reverse.dropWhile (· != b) with
  | nil =>
    left
    rw [hrest] at hsplit
    exact hsplit
  | cons c rest =>
    have hc := List.head?_dropWhile_not (· != b) t.reverse
    rw [hrest] at hc
    have heq : c = b := by simpa using hc
    refine .inr ⟨rest.reverse, ?_⟩
    rw [hrest, heq, List.reverse_cons, List.append_assoc] at hsplit
    exact hsplit

namespace Source

variable {settings : Option Settings} {s : Settings} {schema : Schema} {path : Text}
  {timing : Timing} {p q : Progress} {failure? : Option Failure} {f : Failure}

/--
The name of the package that is generated: that of the settings or, where they name none, the part
of the package of the source after its last dot.
-/
structure IsPackageFor (s : Settings) (space package : Text) : Prop where
  given : s.package ≠ [] → package = s.package
  derived : s.package = [] → 0x2e ∉ package
    ∧ (space = package ∨ ∃ before, space = before ++ 0x2e :: package)

theorem exists_withPackage_eq (s : Settings) (schema : Schema) :
    ∃ package, IsPackageFor s schema.space package
      ∧ withPackage s schema = { s with package := package } := by
  unfold withPackage
  split
  . next hempty =>
    rw [List.isEmpty_iff] at hempty
    exact ⟨_, ⟨fun hne => absurd hempty hne,
      fun _ => ⟨Text.not_mem_afterLast _ _, Text.eq_afterLast_or _ _⟩⟩, rfl⟩
  . next hempty =>
    rw [List.isEmpty_iff] at hempty
    exact ⟨s.package, ⟨fun _ => rfl, fun heq => absurd heq hempty⟩, rfl⟩

/--
The call runs with the settings: it stops at once if they are not valid, and otherwise it reports
what writing the schema with them reports.
-/
def RunsWith (s : Settings) (schema : Schema) (path : Text) (timing : Timing)
    (p q : Progress) (failure? : Option Failure) : Prop :=
  (∃ f, s.fault? = some f ∧ q = p ∧ failure? = some f)
    ∨ (s.fault? = none ∧ ∃ reported?, Writer.write (some s) schema timing p = (q, reported?)
      ∧ failure? = reported?.map (.wrapped ("generate " ++ path)))

theorem generateFile_cases (h : generateFile settings path timing p = (q, failure?)) :
    (q = p ∧ ∀ s schema, settings = some s → compileFile p.disk path ≠ .ok schema)
      ∨ ∃ s schema, settings = some s ∧ compileFile p.disk path = .ok schema
        ∧ RunsWith (withPackage s schema) schema path timing p q failure? := by
  unfold generateFile at h
  split at h
  . cases h
    exact .inl ⟨rfl, by simp⟩
  . next s =>
    split at h
    . next hcompile =>
      cases h
      exact .inl ⟨rfl, by simp [hcompile]⟩
    . next schema hcompile =>
      refine .inr ⟨s, schema, rfl, hcompile, ?_⟩
      dsimp only at h
      split at h
      . next f hfault =>
        cases h
        exact .inl ⟨f, hfault, rfl, rfl⟩
      . next hvalid =>
        cases h
        exact .inr ⟨hvalid, _, rfl, rfl⟩

theorem emitterInUse_withPackage (s : Settings) (schema : Schema) :
    (withPackage s schema).emitterInUse = s.emitterInUse := by
  unfold withPackage
  split
  all_goals rfl

theorem RunsWith.eq_of_blamesInput (hemitter : s.emitterInUse = .values)
    (h : RunsWith s schema path timing p q (some f)) (hf : f.BlamesInput) : q = p := by
  rcases h with ⟨g, -, hq, -⟩ | ⟨-, reported?, hwrite, hreported⟩
  . exact hq
  . obtain ⟨g, rfl, rfl⟩ := Option.map_eq_some_iff.1 hreported.symm
    refine Writer.write_eq_of_blamesInput hemitter hwrite ?_
    by_contra hg
    exact not_blamesInput_wrapped _ hg hf

theorem RunsWith.eq_of_canceled (hmessages : schema.messages ≠ [])
    (hcovers : (timing.generation schema.messages.length).Covers schema.messages.length)
    (hcanceled : ∀ task ∈ timing.generation schema.messages.length, task.2 = .canceled)
    (h : RunsWith s schema path timing p q failure?) : q = p := by
  rcases h with ⟨g, -, hq, -⟩ | ⟨-, reported?, hwrite, -⟩
  . exact hq
  . exact Writer.write_eq_of_canceled hmessages hcovers hcanceled hwrite

theorem compileFile_person :
    compileFile ⟨[(["a.proto"], .file
      "syntax = \"proto2\"; package people.v1; message Person {}")]⟩ "a.proto"
      = .ok ⟨"people.v1", [⟨"Person", []⟩]⟩ := by
  have htoOption : (compileFile ⟨[(["a.proto"], .file
      "syntax = \"proto2\"; package people.v1; message Person {}")]⟩ "a.proto").toOption
      = some ⟨"people.v1", [⟨"Person", []⟩]⟩ := by
    decide +kernel
  generalize compileFile _ _ = result at htoOption ⊢
  cases result with
  | error f => cases htoOption
  | ok schema => exact congrArg _ (Option.some.inj htoOption)

end Source

end ValueGen
