import Mathlib.Data.List.Nodup
import ValueGen.Output.Generate

/-!
This module contains that the files of a schema do not depend on the order in which the tasks that
generate them take effect: the result is the one of generating message after message, unless the
work was canceled, and then there is none.
-/

namespace ValueGen

namespace Failure

@[simp]
theorem has_generation_generation (type field file text : Text) (cause : Option Failure) :
    (Failure.generation type field file text cause).has .generation = true := by
  unfold has anyNode
  simp [isKind]

theorem join?_eq_none_iff (fs : List Failure) : join? fs = none ↔ fs = [] := by
  cases fs with
  | nil => simp [join?]
  | cons f fs => simp [join?]

end Failure

namespace Claims

theorem eq_generation_of_fault? {c : Claims} {m : Message} {f : Failure}
    (h : c.fault? m = some f) :
    ∃ type field file text, f = .generation type field file text none := by
  unfold fault? at h
  split at h
  . cases h
    exact ⟨_, _, _, _, rfl⟩
  . rw [List.findSome?_eq_some_iff] at h
    obtain ⟨_, id, _, -, h, -⟩ := h
    rw [Option.map_eq_some_iff] at h
    obtain ⟨first, -, rfl⟩ := h
    exact ⟨_, _, _, _, rfl⟩

theorem map_fst_settle (c : Claims) (ms : List Message) : (c.settle ms).map Prod.fst = ms := by
  induction ms generalizing c with
  | nil => rfl
  | cons m ms ih =>
    unfold settle
    split
    all_goals rw [List.map_cons, ih]

theorem length_settle (c : Claims) (ms : List Message) : (c.settle ms).length = ms.length := by
  rw [← List.length_map Prod.fst, map_fst_settle]

theorem exists_fault?_of_mem_settle {c : Claims} {ms : List Message} {m : Message} {f : Failure}
    (h : (m, some f) ∈ c.settle ms) : ∃ c' : Claims, c'.fault? m = some f := by
  induction ms generalizing c with
  | nil => simp [settle] at h
  | cons first ms ih =>
    unfold settle at h
    split at h
    . next fault hfault =>
      rcases List.mem_cons.1 h with h | h
      . cases h
        exact ⟨c, hfault⟩
      . exact ih h
    . rcases List.mem_cons.1 h with h | h
      . cases h
      . exact ih h

theorem has_generation_of_mem_settle {c : Claims} {ms : List Message} {m : Message} {f : Failure}
    (h : (m, some f) ∈ c.settle ms) : f.has .generation = true := by
  obtain ⟨c', hfault⟩ := exists_fault?_of_mem_settle h
  obtain ⟨type, field, file, text, rfl⟩ := eq_generation_of_fault? hfault
  simp

end Claims

theorem has_generation_of_generate {m : Message} {s : Settings} {f : Failure}
    (hvalid : s.fault? = none) (h : generate m s = .error f) : f.has .generation = true := by
  unfold generate at h
  rw [hvalid] at h
  dsimp only at h
  split at h
  . split at h
    . next hgeneration =>
      cases h
      exact hgeneration
    . cases h
      simp
  . split at h
    . cases h
    . cases h
      simp

/--
The file of a message, if it took its names and can be generated.
-/
def settledFile? (s : Settings) (c : Message × Option Failure) : Option GeneratedFile :=
  match c.2, generate c.1 s with
  | none, .ok printed => some ⟨c.1.fileName, c.1.name, printed⟩
  | _, _ => none

/--
Why a message has no file, if it has none: it could not take its names, or it cannot be generated.
-/
def settledFault? (s : Settings) (c : Message × Option Failure) : Option Failure :=
  match c.2, generate c.1 s with
  | some f, _ => some f
  | none, .error f => some f
  | none, .ok _ => none

theorem settledFile?_eq_some_iff (s : Settings) (c : Message × Option Failure)
    (f : GeneratedFile) :
    settledFile? s c = some f
      ↔ c.2 = none ∧ ∃ printed, generate c.1 s = .ok printed
        ∧ f = ⟨c.1.fileName, c.1.name, printed⟩ := by
  obtain ⟨m, taken⟩ := c
  unfold settledFile?
  cases taken with
  | some fault => simp
  | none =>
    cases generate m s with
    | ok printed => simp [eq_comm]
    | error fault => simp

def settledOutcome (s : Settings) (c : Message × Option Failure) : Outcome :=
  match c.2 with
  | some f => .error f
  | none => outcome s c.1

theorem settledOutcome_eq (s : Settings) (c : Message × Option Failure) :
    (∃ file, settledOutcome s c = .ok file ∧ settledFile? s c = some file
        ∧ settledFault? s c = none)
      ∨ ∃ f, settledOutcome s c = .error f ∧ settledFile? s c = none
        ∧ settledFault? s c = some f := by
  obtain ⟨m, taken⟩ := c
  unfold settledOutcome settledFile? settledFault? outcome
  cases taken with
  | some f => simp
  | none =>
    cases generate m s with
    | ok printed => simp [Except.map]
    | error f => simp [Except.map]

/-! The outcomes after some of the tasks have run. -/

/--
The outcomes that are known after the tasks `ran`.
-/
def outcomesAfter (s : Settings) (settled : List (Message × Option Failure)) (ran : List Nat) :
    List (Option Outcome) :=
  settled.mapIdx fun i c =>
    if c.2.isNone ∧ i ∉ ran then none else some (settledOutcome s c)

theorem outcomesAfter_nil (s : Settings) (settled : List (Message × Option Failure)) :
    outcomesAfter s settled [] = initialOutcomes settled := by
  unfold outcomesAfter initialOutcomes
  apply List.ext_getElem?
  intro i
  rw [List.getElem?_mapIdx, List.getElem?_map]
  congr 1
  funext c
  cases h : c.2 with
  | none => simp
  | some f => simp [settledOutcome, h]

theorem outcomesAfter_append_of_taken {s : Settings} {settled : List (Message × Option Failure)}
    {i : Nat} {m : Message} (h : settled[i]? = some (m, none)) (ran : List Nat) :
    (outcomesAfter s settled ran).set i (some (outcome s m)) = outcomesAfter s settled (ran ++ [i])
      := by
  unfold outcomesAfter
  apply List.ext_getElem?
  intro j
  rw [List.getElem?_set, List.getElem?_mapIdx, List.getElem?_mapIdx, List.length_mapIdx]
  by_cases hij : i = j
  . subst hij
    have hlt : i < settled.length := (List.getElem?_eq_some_iff.1 h).1
    rw [h]
    simp [hlt, settledOutcome]
  . simp [hij, Ne.symm hij]

theorem outcomesAfter_append_of_not_taken {s : Settings}
    {settled : List (Message × Option Failure)} {i : Nat}
    (h : ∀ m, settled[i]? ≠ some (m, none)) (ran : List Nat) :
    outcomesAfter s settled ran = outcomesAfter s settled (ran ++ [i]) := by
  unfold outcomesAfter
  apply List.ext_getElem?
  intro j
  rw [List.getElem?_mapIdx, List.getElem?_mapIdx]
  by_cases hij : i = j
  . subst hij
    cases hget : settled[i]? with
    | none => rfl
    | some c =>
      obtain ⟨m, taken⟩ := c
      cases taken with
      | none => exact absurd hget (h m)
      | some f => simp
  . simp [Ne.symm hij]

theorem outcomesAfter_of_covers (s : Settings) {settled : List (Message × Option Failure)}
    {ran : List Nat} (h : ∀ i < settled.length, i ∈ ran) :
    outcomesAfter s settled ran = settled.map fun c => some (settledOutcome s c) := by
  unfold outcomesAfter
  apply List.ext_getElem?
  intro i
  rw [List.getElem?_mapIdx, List.getElem?_map]
  cases hget : settled[i]? with
  | none => rfl
  | some c =>
    have hran := h i (List.getElem?_eq_some_iff.1 hget).1
    simp [hran]

/-! Runs of the tasks. -/

/--
The work was canceled before one of the tasks with something to do started.
-/
def WasCanceled (settled : List (Message × Option Failure)) (schedule : Schedule) : Prop :=
  ∃ i m, (i, Start.canceled) ∈ schedule ∧ settled[i]? = some (m, none)

theorem runGeneration_of_wasCanceled {settled : List (Message × Option Failure)}
    {schedule : Schedule} (h : WasCanceled settled schedule) (s : Settings)
    (outcomes : List (Option Outcome)) :
    runGeneration s settled schedule outcomes = .error .canceled := by
  induction schedule generalizing outcomes with
  | nil =>
    obtain ⟨i, m, hmem, -⟩ := h
    cases hmem
  | cons task rest ih =>
    obtain ⟨i, start⟩ := task
    obtain ⟨j, m, hmem, htaken⟩ := h
    unfold runGeneration
    rcases List.mem_cons.1 hmem with heq | hrest
    . cases heq
      simp [htaken]
    . split
      . split
        . rfl
        . exact ih ⟨j, m, hrest, htaken⟩ _
      . exact ih ⟨j, m, hrest, htaken⟩ _

theorem runGeneration_outcomesAfter {settled : List (Message × Option Failure)}
    {schedule : Schedule} (h : ¬ WasCanceled settled schedule) (s : Settings) (ran : List Nat) :
    runGeneration s settled schedule (outcomesAfter s settled ran)
      = .ok (outcomesAfter s settled (ran ++ schedule.map Prod.fst)) := by
  induction schedule generalizing ran with
  | nil => simp [runGeneration]
  | cons task rest ih =>
    obtain ⟨i, start⟩ := task
    have hrest : ¬ WasCanceled settled rest := by
      rintro ⟨j, m, hmem, htaken⟩
      exact h ⟨j, m, List.mem_cons_of_mem _ hmem, htaken⟩
    have happend :
        ran ++ ((i, start) :: rest).map Prod.fst = (ran ++ [i]) ++ rest.map Prod.fst := by
      simp
    unfold runGeneration
    rw [happend, ← ih hrest]
    split
    . next m htaken =>
      have hstart : start ≠ .canceled := by
        rintro rfl
        exact h ⟨i, m, List.mem_cons_self, htaken⟩
      rw [outcomesAfter_append_of_taken htaken]
      simp [hstart]
    . next hnot =>
      rw [← outcomesAfter_append_of_not_taken hnot]

/-! Batches. -/

theorem collect_settledOutcome (s : Settings) (settled : List (Message × Option Failure)) :
    Batch.collect
        ((settled.map Prod.fst).zip (settled.map fun c => some (settledOutcome s c)))
      = ⟨settled.filterMap (settledFile? s),
          settled.filterMap fun c => (settledFault? s c).map fun f => (c.1.name, f)⟩ := by
  induction settled with
  | nil => rfl
  | cons c settled ih =>
    simp only [List.map_cons, List.zip_cons_cons, Batch.collect, ih]
    rcases settledOutcome_eq s c with ⟨file, houtcome, hfile, hfault⟩ | ⟨f, houtcome, hfile, hfault⟩
    all_goals simp [Batch.cons, houtcome, hfile, hfault]

/--
The batch is the result of generating the messages of a schema one after the other: each message
that took its names and can be generated has its file, and each of the others has one failure, both
in the order of the messages.
-/
structure Batch.IsSequential (schema : Schema) (s : Settings) (b : Batch) : Prop where
  settled : (Claims.empty.settle schema.messages).map Prod.fst = schema.messages
  files : b.files = (Claims.empty.settle schema.messages).filterMap (settledFile? s)
  failedNames : b.failedNames
    = ((Claims.empty.settle schema.messages).filter fun c => (settledFile? s c).isNone).map
        fun c => c.1.name
  failed : b.failed = (Claims.empty.settle schema.messages).filterMap
    fun c => (settledFault? s c).map fun f => (c.1.name, f)
  generation : ∀ f ∈ b.failed.map Prod.snd, f.has .generation = true
  failure : b.failure? = Failure.join? (b.failed.map Prod.snd)
  failure_none : b.failure? = none ↔ b.failedNames = []

theorem failedNames_settled (s : Settings) (settled : List (Message × Option Failure)) :
    (settled.filterMap fun c => (settledFault? s c).map fun f => (c.1.name, f)).map Prod.fst
      = (settled.filter fun c => (settledFile? s c).isNone).map fun c => c.1.name := by
  induction settled with
  | nil => rfl
  | cons c settled ih =>
    rcases settledOutcome_eq s c with ⟨file, -, hfile, hfault⟩ | ⟨f, -, hfile, hfault⟩
    all_goals simp [hfile, hfault, ih]

theorem has_generation_of_settledFault? {s : Settings} {ms : List Message}
    {c : Message × Option Failure} {f : Failure} (hvalid : s.fault? = none)
    (hc : c ∈ Claims.empty.settle ms) (h : settledFault? s c = some f) :
    f.has .generation = true := by
  obtain ⟨m, taken⟩ := c
  unfold settledFault? at h
  cases taken with
  | some fault =>
    cases h
    exact Claims.has_generation_of_mem_settle hc
  | none =>
    cases hgenerate : generate m s with
    | error fault =>
      simp only [hgenerate] at h
      cases h
      exact has_generation_of_generate hvalid hgenerate
    | ok printed => simp [hgenerate] at h

theorem isSequential_settled {s : Settings} (hvalid : s.fault? = none) (schema : Schema) :
    Batch.IsSequential schema s
      ⟨(Claims.empty.settle schema.messages).filterMap (settledFile? s),
        (Claims.empty.settle schema.messages).filterMap
          fun c => (settledFault? s c).map fun f => (c.1.name, f)⟩ where
  settled := Claims.map_fst_settle .empty schema.messages
  files := rfl
  failedNames := failedNames_settled s _
  failed := rfl
  generation := by
    intro f hf
    simp only [List.mem_map, List.mem_filterMap, Option.map_eq_some_iff] at hf
    obtain ⟨_, ⟨c, hc, f, hfault, rfl⟩, rfl⟩ := hf
    exact has_generation_of_settledFault? hvalid hc hfault
  failure := rfl
  failure_none := by
    unfold Batch.failure? Batch.failedNames
    rw [Failure.join?_eq_none_iff, List.map_eq_nil_iff, List.map_eq_nil_iff]

/-! The files of a batch. -/

theorem Claims.fileName_not_mem_of_fault?_none {c : Claims} {m : Message}
    (h : c.fault? m = none) : m.fileName ∉ c.files.map Prod.fst := by
  unfold fault? at h
  split at h
  . cases h
  . next hlookup =>
    intro hmem
    obtain ⟨e, he, heq⟩ := List.mem_map.1 hmem
    rw [List.lookup_eq_none_iff] at hlookup
    have hne := hlookup e he
    simp [heq] at hne

-- No two messages that took their names have one file, and none of them has one that was taken.
theorem Claims.nodup_taken (c : Claims) (ms : List Message) :
    (((c.settle ms).filter fun x => x.2.isNone).map fun x => x.1.fileName).Nodup
      ∧ ∀ x ∈ c.settle ms, x.2 = none → x.1.fileName ∉ c.files.map Prod.fst := by
  induction ms generalizing c with
  | nil => simp [settle]
  | cons m ms ih =>
    unfold settle
    split
    . obtain ⟨hnodup, hnew⟩ := ih c
      rw [List.filter_cons_of_neg (by simp), List.forall_mem_cons]
      exact ⟨hnodup, by simp, hnew⟩
    . next hfault =>
      obtain ⟨hnodup, hnew⟩ := ih (c.take m)
      simp only [take, List.map_append, List.map_cons, List.map_nil, List.mem_append,
        List.mem_singleton, not_or] at hnew
      rw [List.filter_cons_of_pos (by simp), List.map_cons, List.nodup_cons, List.forall_mem_cons]
      refine ⟨⟨?_, hnodup⟩, fun _ => fileName_not_mem_of_fault?_none hfault,
        fun x hx htaken => (hnew x hx htaken).1⟩
      intro hmem
      obtain ⟨x, hx, heq⟩ := List.mem_map.1 hmem
      rw [List.mem_filter, Option.isNone_iff_eq_none] at hx
      exact (hnew x hx.1 hx.2).2 heq

/--
The message takes its names: no message before it that did so has its file or one of its
package-level names.
-/
def Schema.TakesNames (schema : Schema) (m : Message) : Prop :=
  (m, none) ∈ Claims.empty.settle schema.messages

theorem Schema.TakesNames.mem_messages {schema : Schema} {m : Message}
    (h : schema.TakesNames m) : m ∈ schema.messages := by
  rw [← Claims.map_fst_settle .empty schema.messages]
  exact List.mem_map_of_mem h

theorem Schema.TakesNames.eq_of_fileName_eq {schema : Schema} {m n : Message}
    (hm : schema.TakesNames m) (hn : schema.TakesNames n) (hfile : m.fileName = n.fileName) :
    m = n := by
  have hnodup := (Claims.empty.nodup_taken schema.messages).1
  have hmem {k : Message} (hk : schema.TakesNames k) :
      (k, none) ∈ (Claims.empty.settle schema.messages).filter fun x => x.2.isNone :=
    List.mem_filter.2 ⟨hk, rfl⟩
  exact congrArg Prod.fst (List.inj_on_of_nodup_map hnodup (hmem hm) (hmem hn) hfile)

namespace Batch.IsSequential

variable {schema : Schema} {s : Settings} {b : Batch}

theorem exists_takesNames_of_mem_files (h : b.IsSequential schema s) {f : GeneratedFile}
    (hf : f ∈ b.files) :
    ∃ m, schema.TakesNames m ∧ ∃ printed, generate m s = .ok printed
      ∧ f = ⟨m.fileName, m.name, printed⟩ := by
  rw [h.files, List.mem_filterMap] at hf
  obtain ⟨⟨m, taken⟩, hc, hfile⟩ := hf
  obtain ⟨rfl, hprinted⟩ := (settledFile?_eq_some_iff s _ f).1 hfile
  exact ⟨m, hc, hprinted⟩

theorem exists_of_mem_files (h : b.IsSequential schema s) {f : GeneratedFile} (hf : f ∈ b.files) :
    ∃ m ∈ schema.messages, ∃ printed, generate m s = .ok printed
      ∧ f = ⟨m.fileName, m.name, printed⟩ := by
  obtain ⟨m, hm, hprinted⟩ := h.exists_takesNames_of_mem_files hf
  exact ⟨m, hm.mem_messages, hprinted⟩

theorem nodup_files (h : b.IsSequential schema s) : (b.files.map GeneratedFile.name).Nodup := by
  rw [h.files]
  refine List.Nodup.sublist ?_ (Claims.empty.nodup_taken schema.messages).1
  generalize Claims.empty.settle schema.messages = settled
  induction settled with
  | nil => exact .slnil
  | cons c settled ih =>
    cases hfile : settledFile? s c with
    | none =>
      rw [List.filterMap_cons_none hfile]
      exact ih.trans (((List.sublist_cons_self c settled).filter _).map _)
    | some f =>
      obtain ⟨htaken, printed, -, rfl⟩ := (settledFile?_eq_some_iff s c f).1 hfile
      rw [List.filterMap_cons_some hfile, List.filter_cons_of_pos (by simp [htaken])]
      exact ih.cons_cons _

/-! Batches without failures. -/

theorem exists_of_mem_settle (h : b.IsSequential schema s) (hnone : b.failedNames = [])
    {c : Message × Option Failure} (hc : c ∈ Claims.empty.settle schema.messages) :
    c.2 = none ∧ ∃ printed, generate c.1 s = .ok printed := by
  have hfailed := h.failedNames
  rw [hnone, eq_comm, List.map_eq_nil_iff, List.filter_eq_nil_iff] at hfailed
  have hfile := hfailed c hc
  rw [Option.isNone_iff_eq_none, ← ne_eq, Option.ne_none_iff_exists'] at hfile
  obtain ⟨f, hf⟩ := hfile
  rw [settledFile?_eq_some_iff] at hf
  obtain ⟨htaken, printed, hgenerate, -⟩ := hf
  exact ⟨htaken, printed, hgenerate⟩

theorem mem_settle_of_mem (h : b.IsSequential schema s) (hnone : b.failedNames = [])
    {m : Message} (hm : m ∈ schema.messages) : (m, none) ∈ Claims.empty.settle schema.messages := by
  rw [← h.settled] at hm
  obtain ⟨⟨m, taken⟩, hc, rfl⟩ := List.mem_map.1 hm
  have htaken := (h.exists_of_mem_settle hnone hc).1
  dsimp only at htaken
  subst htaken
  exact hc

theorem exists_generate (h : b.IsSequential schema s) (hnone : b.failedNames = [])
    {m : Message} (hm : m ∈ schema.messages) : ∃ printed, generate m s = .ok printed :=
  (h.exists_of_mem_settle hnone (h.mem_settle_of_mem hnone hm)).2

-- If no message failed, there are the files of all messages.
theorem mem_files_iff (h : b.IsSequential schema s) (hnone : b.failedNames = [])
    (f : GeneratedFile) :
    f ∈ b.files ↔ ∃ m ∈ schema.messages, ∃ printed, generate m s = .ok printed
      ∧ f = ⟨m.fileName, m.name, printed⟩ := by
  constructor
  . exact h.exists_of_mem_files
  . rintro ⟨m, hm, hgenerate⟩
    rw [h.files, List.mem_filterMap]
    refine ⟨(m, none), h.mem_settle_of_mem hnone hm, ?_⟩
    rw [settledFile?_eq_some_iff]
    exact ⟨rfl, hgenerate⟩

-- What is read off the files is read off the messages in the same order.
theorem map_files {α : Type} (h : b.IsSequential schema s) (hnone : b.failedNames = [])
    (g : GeneratedFile → α) (k : Message → α)
    (hg : ∀ m printed, g ⟨m.fileName, m.name, printed⟩ = k m) :
    b.files.map g = schema.messages.map k := by
  have hread : ∀ c ∈ Claims.empty.settle schema.messages,
      (settledFile? s c).map g = some (k c.1) := by
    intro c hc
    obtain ⟨htaken, printed, hgenerate⟩ := h.exists_of_mem_settle hnone hc
    rw [(settledFile?_eq_some_iff s c _).2 ⟨htaken, printed, hgenerate, rfl⟩, Option.map_some, hg]
  calc
    b.files.map g
      = (Claims.empty.settle schema.messages).map fun c => k c.1 := by
        rw [h.files, List.map_filterMap, List.filterMap_congr hread, List.filterMap_eq_map']
    _ = ((Claims.empty.settle schema.messages).map Prod.fst).map k := by
        rw [List.map_map]
        rfl
    _ = schema.messages.map k := by
        rw [h.settled]

theorem map_name_files (h : b.IsSequential schema s) (hnone : b.failedNames = []) :
    b.files.map GeneratedFile.name = schema.messages.map Message.fileName :=
  h.map_files hnone _ _ fun _ _ => rfl

theorem map_message_files (h : b.IsSequential schema s) (hnone : b.failedNames = []) :
    b.files.map GeneratedFile.message = schema.messages.map Message.name :=
  h.map_files hnone _ _ fun _ _ => rfl

end Batch.IsSequential

/-! The generation of a schema. -/

theorem generateSchema_of_wasCanceled {schema : Schema} {s : Settings} {schedule : Schedule}
    (hvalid : s.fault? = none)
    (h : WasCanceled (Claims.empty.settle schema.messages) schedule) :
    generateSchema schema s schedule = .error .canceled := by
  unfold generateSchema
  rw [hvalid]
  dsimp only
  rw [runGeneration_of_wasCanceled h]

theorem generateSchema_of_not_wasCanceled {schema : Schema} {s : Settings} {schedule : Schedule}
    (hvalid : s.fault? = none) (hcovers : schedule.Covers schema.messages.length)
    (h : ¬ WasCanceled (Claims.empty.settle schema.messages) schedule) :
    ∃ b, generateSchema schema s schedule = .ok b ∧ b.IsSequential schema s := by
  have hran : ∀ i < (Claims.empty.settle schema.messages).length,
      i ∈ [] ++ schedule.map Prod.fst := by
    intro i hi
    rw [Claims.length_settle] at hi
    rw [List.nil_append, hcovers.mem_iff, List.mem_range]
    exact hi
  unfold generateSchema
  rw [hvalid]
  dsimp only
  rw [← outcomesAfter_nil s, runGeneration_outcomesAfter h, outcomesAfter_of_covers s hran]
  refine ⟨_, rfl, ?_⟩
  have hcollect := collect_settledOutcome s (Claims.empty.settle schema.messages)
  rw [Claims.map_fst_settle] at hcollect
  rw [hcollect]
  exact isSequential_settled hvalid schema

theorem fault?_of_generateSchema_ok {schema : Schema} {s : Settings} {schedule : Schedule}
    {b : Batch} (h : generateSchema schema s schedule = .ok b) : s.fault? = none := by
  unfold generateSchema at h
  split at h
  . cases h
  . next hvalid => exact hvalid

/-! Batches of any schedule, also of one that does not run all tasks or runs some of them twice. -/

theorem Batch.exists_of_mem_files_collect {cs : List (Message × Option Outcome)}
    {f : GeneratedFile} (h : f ∈ (collect cs).files) : ∃ m, (m, some (.ok f)) ∈ cs := by
  induction cs with
  | nil => cases h
  | cons c cs ih =>
    obtain ⟨m, o⟩ := c
    have hrest (hf : f ∈ (collect cs).files) : ∃ n, (n, some (.ok f)) ∈ (m, o) :: cs := by
      obtain ⟨n, hn⟩ := ih hf
      exact ⟨n, List.mem_cons_of_mem _ hn⟩
    cases o with
    | none => exact hrest h
    | some o =>
      cases o with
      | error _ => exact hrest h
      | ok g =>
        rcases List.mem_cons.1 h with rfl | hf
        . exact ⟨m, List.mem_cons_self⟩
        . exact hrest hf

theorem Batch.exists_of_mem_failed_collect {cs : List (Message × Option Outcome)}
    {name : Text} {f : Failure} (h : (name, f) ∈ (collect cs).failed) :
    ∃ m, (m, some (.error f)) ∈ cs := by
  induction cs with
  | nil => cases h
  | cons c cs ih =>
    obtain ⟨m, o⟩ := c
    have hrest (hf : (name, f) ∈ (collect cs).failed) :
        ∃ n, (n, some (.error f)) ∈ (m, o) :: cs := by
      obtain ⟨n, hn⟩ := ih hf
      exact ⟨n, List.mem_cons_of_mem _ hn⟩
    cases o with
    | none => exact hrest h
    | some o =>
      cases o with
      | ok _ => exact hrest h
      | error g =>
        rcases List.mem_cons.1 h with heq | hf
        . cases heq
          exact ⟨m, List.mem_cons_self⟩
        . exact hrest hf

theorem outcomes_of_generateSchema_ok {schema : Schema} {s : Settings} {schedule : Schedule}
    {b : Batch} (h : generateSchema schema s schedule = .ok b) :
    ∃ outcomes, b = Batch.collect (schema.messages.zip outcomes)
      ∧ ∀ o, some o ∈ outcomes
        → ∃ c ∈ Claims.empty.settle schema.messages, settledOutcome s c = o := by
  have hvalid := fault?_of_generateSchema_ok h
  by_cases hcanceled : WasCanceled (Claims.empty.settle schema.messages) schedule
  . rw [generateSchema_of_wasCanceled hvalid hcanceled] at h
    cases h
  . unfold generateSchema at h
    rw [hvalid] at h
    dsimp only at h
    rw [← outcomesAfter_nil s, runGeneration_outcomesAfter hcanceled] at h
    cases h
    refine ⟨_, rfl, ?_⟩
    intro o ho
    unfold outcomesAfter at ho
    obtain ⟨i, hi, ho⟩ := List.mem_mapIdx.1 ho
    split at ho
    . cases ho
    . exact ⟨_, List.getElem_mem hi, Option.some.inj ho⟩

theorem exists_generate_of_mem_files {schema : Schema} {s : Settings} {schedule : Schedule}
    {b : Batch} (h : generateSchema schema s schedule = .ok b) {f : GeneratedFile}
    (hf : f ∈ b.files) :
    ∃ m ∈ schema.messages, ∃ printed, generate m s = .ok printed
      ∧ f = ⟨m.fileName, m.name, printed⟩ := by
  obtain ⟨outcomes, rfl, hsettled⟩ := outcomes_of_generateSchema_ok h
  obtain ⟨m, hm⟩ := Batch.exists_of_mem_files_collect hf
  obtain ⟨c, hc, houtcome⟩ := hsettled _ (List.of_mem_zip hm).2
  rcases settledOutcome_eq s c with ⟨file, hok, hfile, -⟩ | ⟨fault, herror, -⟩
  . rw [hok] at houtcome
    cases houtcome
    obtain ⟨-, printed, hgenerate, hfile⟩ := (settledFile?_eq_some_iff s c f).1 hfile
    refine ⟨c.1, ?_, printed, hgenerate, hfile⟩
    rw [← Claims.map_fst_settle .empty schema.messages]
    exact List.mem_map_of_mem hc
  . rw [herror] at houtcome
    cases houtcome

theorem exists_settledFault?_of_mem_failed {schema : Schema} {s : Settings} {schedule : Schedule}
    {b : Batch} (h : generateSchema schema s schedule = .ok b) {f : Failure}
    (hf : f ∈ b.failed.map Prod.snd) :
    ∃ c ∈ Claims.empty.settle schema.messages, settledFault? s c = some f := by
  obtain ⟨outcomes, rfl, hsettled⟩ := outcomes_of_generateSchema_ok h
  obtain ⟨⟨name, fault⟩, hmem, rfl⟩ := List.mem_map.1 hf
  obtain ⟨m, hm⟩ := Batch.exists_of_mem_failed_collect hmem
  obtain ⟨c, hc, houtcome⟩ := hsettled _ (List.of_mem_zip hm).2
  rcases settledOutcome_eq s c with ⟨file, hok, -⟩ | ⟨fault, herror, -, hfault⟩
  . rw [hok] at houtcome
    cases houtcome
  . rw [herror] at houtcome
    cases houtcome
    exact ⟨c, hc, hfault⟩

theorem isSequential_of_generateSchema_ok {schema : Schema} {s : Settings} {schedule : Schedule}
    {b : Batch} (hcovers : schedule.Covers schema.messages.length)
    (h : generateSchema schema s schedule = .ok b) : b.IsSequential schema s := by
  have hvalid := fault?_of_generateSchema_ok h
  by_cases hcanceled : WasCanceled (Claims.empty.settle schema.messages) schedule
  . rw [generateSchema_of_wasCanceled hvalid hcanceled] at h
    cases h
  . obtain ⟨b', hok, hsequential⟩ :=
      generateSchema_of_not_wasCanceled hvalid hcovers hcanceled
    rw [hok] at h
    cases h
    exact hsequential

/--
Whatever the order in which the tasks take effect, there is either no batch because the work was
canceled before a task with something to do started, or the batch is the sequential one.
-/
theorem generateSchema_isSequential (schema : Schema) (s : Settings) (schedule : Schedule)
    (hvalid : s.fault? = none) (hcovers : schedule.Covers schema.messages.length) :
    (WasCanceled (Claims.empty.settle schema.messages) schedule
        ∧ generateSchema schema s schedule = .error .canceled)
      ∨ (¬ WasCanceled (Claims.empty.settle schema.messages) schedule
        ∧ ∃ b, generateSchema schema s schedule = .ok b ∧ b.IsSequential schema s) := by
  by_cases hcanceled : WasCanceled (Claims.empty.settle schema.messages) schedule
  . left
    exact ⟨hcanceled, generateSchema_of_wasCanceled hvalid hcanceled⟩
  . right
    exact ⟨hcanceled, generateSchema_of_not_wasCanceled hvalid hcovers hcanceled⟩

/--
The second of these messages would have the file of the first one, and the task of the second one
takes effect first.
-/
theorem generateSchema_isSequential_reversed :
    { Settings.default with package := "shapes" }.fault? = none
      ∧ Schedule.Covers [(1, .late), (0, .early)] 2
      ∧ ∃ b, generateSchema ⟨[], [⟨"Shape", []⟩, ⟨"shape", []⟩]⟩
            { Settings.default with package := "shapes" } [(1, .late), (0, .early)] = .ok b
          ∧ b.IsSequential ⟨[], [⟨"Shape", []⟩, ⟨"shape", []⟩]⟩
            { Settings.default with package := "shapes" } := by
  have hvalid : { Settings.default with package := "shapes" }.fault? = none := by decide
  have hcovers : Schedule.Covers [(1, .late), (0, .early)] 2 := List.Perm.swap 0 1 []
  refine ⟨hvalid, hcovers, ?_⟩
  rcases generateSchema_isSequential ⟨[], [⟨"Shape", []⟩, ⟨"shape", []⟩]⟩ _ _ hvalid hcovers with
    ⟨⟨i, m, hmem, -⟩, -⟩ | ⟨-, hbatch⟩
  . simp at hmem
  . exact hbatch

end ValueGen
