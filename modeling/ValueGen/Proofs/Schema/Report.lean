import ValueGen.Proofs.Schema.Collision
import ValueGen.Proofs.Schema.Faults

/-!
This module contains that compiling an outline reports exactly its faults. Each pass over a part of
an outline adds to the state what the part contributes on its own, so that the state after a list of
messages is a function of the list.
-/

namespace ValueGen

namespace FieldOutline

theorem hasRule_iff (f : FieldOutline) : f.HasRule ↔ ∃ r, Rule.ofKeyword? f.rule = some r := by
  unfold HasRule
  rw [← Rule.ofKeyword?_isSome_iff, Option.isSome_iff_exists]

theorem namesMessage_iff (f : FieldOutline) :
    f.NamesMessage ↔ (FieldType.ofKeyword f.type).isMessage = true := by
  unfold NamesMessage
  rw [FieldType.isMessage_ofKeyword_iff]

theorem idFault_eq {f : FieldOutline} {fault : IntegerFault}
    (h : Text.readInteger 32 f.id = .error fault) : f.idFault = fault := by
  unfold Text.readInteger at h
  unfold idFault
  split at h
  . next hnone =>
    cases h
    rw [if_neg]
    simp [← Text.integer?_eq_some_iff, hnone]
  . next n hsome =>
    rw [if_pos ⟨n, (Text.integer?_eq_some_iff f.id n).1 hsome⟩]
    split at h
    . cases h
    . cases h
      rfl

theorem integer?_of_readInteger {f : FieldOutline} {n : Int}
    (h : Text.readInteger 32 f.id = .ok n) : Text.integer? f.id = some n := by
  rw [Text.readInteger_eq_ok_iff] at h
  rw [Text.integer?_eq_some_iff]
  exact h.1

end FieldOutline

namespace Compile

theorem distinct_eq_eraseDups (names : List Text) : distinct names = names.eraseDups := by
  induction names using List.reverseRecOn with
  | nil => rfl
  | append_singleton names name ih =>
    unfold distinct at ih ⊢
    rw [List.foldl_append, ih, List.eraseDups_append]
    simp only [List.foldl_cons, List.foldl_nil, List.contains_eq_mem, List.mem_eraseDups]
    by_cases h : name ∈ names
    . simp [h, List.removeAll]
    . simp [h, List.removeAll, List.eraseDups_cons]

def State.extend (s : State) (references : List Reference) (faults : List Failure) : State :=
  { s with references := s.references ++ references, faults := s.faults ++ faults }

theorem State.extend_nil (s : State) : s.extend [] [] = s := by
  simp [extend]

theorem State.extend_extend (s : State) (rs rs' : List Reference) (fs fs' : List Failure) :
    (s.extend rs fs).extend rs' fs' = s.extend (rs ++ rs') (fs ++ fs') := by
  simp [extend]

def sites (message : Text) (fs : List FieldOutline) : List Reference :=
  ((fs.filter (·.IsSound)).filter (·.NamesMessage)).map (·.toReference message)

theorem field_eq_of_not_hasRule {f : FieldOutline} (h : ¬ f.HasRule) (message : Text) (s : State) :
    field message f s = (none, s.extend [] [.unknownRule message f.name f.rule f.pos]) := by
  have hnone : Rule.ofKeyword? f.rule = none := by
    rw [FieldOutline.hasRule_iff, not_exists] at h
    exact Option.eq_none_iff_forall_ne_some.2 h
  unfold field
  rw [hnone]
  simp [State.extend]

theorem field_eq_of_not_hasId {f : FieldOutline} (hrule : f.HasRule) (hid : ¬ f.HasId)
    (message : Text) (s : State) :
    field message f s = (none, s.extend [] (f.fault? message).toList) := by
  obtain ⟨r, hr⟩ := (FieldOutline.hasRule_iff f).1 hrule
  have hfault : ∃ fault, Text.readInteger 32 f.id = .error fault := by
    rw [FieldOutline.hasId_iff] at hid
    cases h : Text.readInteger 32 f.id with
    | error fault => exact ⟨fault, rfl⟩
    | ok n => exact absurd ⟨n, h⟩ hid
  obtain ⟨fault, hfault⟩ := hfault
  unfold field FieldOutline.fault?
  rw [hr, hfault]
  simp [State.extend, hrule, hid, FieldOutline.idFault_eq hfault]

theorem field_eq_of_isSound {f : FieldOutline} (h : f.IsSound) (message : Text) (s : State) :
    field message f s = (some f.toField, s.extend (sites message [f]) []) := by
  obtain ⟨r, hr⟩ := (FieldOutline.hasRule_iff f).1 h.1
  obtain ⟨n, hn⟩ := (FieldOutline.hasId_iff f).1 h.2
  unfold field FieldOutline.toField
  rw [hr, hn, FieldOutline.integer?_of_readInteger hn]
  by_cases hmessage : f.NamesMessage
  . have htype := (FieldOutline.namesMessage_iff f).1 hmessage
    simp [State.extend, sites, h, hmessage, htype, FieldOutline.toReference,
      FieldType.message_ofKeyword_of_isMessage htype]
  . have htype : (FieldType.ofKeyword f.type).isMessage = false := by
      rw [FieldOutline.namesMessage_iff] at hmessage
      exact Bool.eq_false_iff.2 hmessage
    simp [State.extend, sites, h, hmessage, htype]

theorem fields_eq (message : Text) (fs : List FieldOutline) (s : State) :
    fields message fs s
      = ((fs.filter (·.IsSound)).map FieldOutline.toField,
          s.extend (sites message fs) (fs.filterMap (·.fault? message))) := by
  induction fs generalizing s with
  | nil => simp [fields, sites, State.extend_nil]
  | cons f fs ih =>
    unfold fields
    by_cases hrule : f.HasRule
    . by_cases hid : f.HasId
      . have hsound : f.IsSound := ⟨hrule, hid⟩
        have hfault : f.fault? message = none := by simp [FieldOutline.fault?, hrule, hid]
        rw [field_eq_of_isSound hsound]
        simp only [ih, State.extend_extend]
        by_cases hmessage : f.NamesMessage
        all_goals simp [sites, hsound, hfault, hmessage]
      . have hsound : ¬ f.IsSound := fun h => hid h.2
        rw [field_eq_of_not_hasId hrule hid]
        simp only [ih, State.extend_extend]
        simp [sites, hsound, FieldOutline.fault?, hrule, hid]
    . have hsound : ¬ f.IsSound := fun h => hrule h.1
      rw [field_eq_of_not_hasRule hrule]
      simp only [ih, State.extend_extend]
      simp [sites, hsound, FieldOutline.fault?, hrule]

theorem isValid_toMessage_iff (m : MessageOutline) :
    m.toMessage.isValid = true ↔ m.IsCollisionFree := by
  rw [Message.isValid_iff]
  unfold MessageOutline.toMessage MessageOutline.IsCollisionFree
  rw [List.pairwise_map]
  apply List.Pairwise.iff_of_mem
  intro f g hf hg
  have soundId (f : FieldOutline) (hf : f ∈ m.soundFields) : ∃ n, Text.integer? f.id = some n := by
    have hsound : f.IsSound := by simpa using (List.mem_filter.1 hf).2
    obtain ⟨n, hn⟩ := (FieldOutline.hasId_iff f).1 hsound.2
    exact ⟨n, FieldOutline.integer?_of_readInteger hn⟩
  obtain ⟨a, ha⟩ := soundId f hf
  obtain ⟨b, hb⟩ := soundId g hg
  simp only [Field.Differs, FieldOutline.Collides, FieldOutline.toField,
    ← Text.integer?_eq_some_iff, ha, hb]
  grind

/--
A state is the one after a list of messages: it holds their names, what they refer to, and what is
wrong with them.
-/
structure State.IsAfter (s : State) (ms : List MessageOutline) : Prop where
  declared : ∀ name, s.declared.lookup name = (ms.find? (·.name = name)).map MessageOutline.pos
  references : s.references = (MessageOutline.newOnes ms).flatMap fun m => sites m.name m.fields
  faults : s.faults = (MessageOutline.inContext ms).flatMap fun c => c.2.faultsAfter c.1

theorem State.initial_isAfter : State.initial.IsAfter [] where
  declared _ := rfl
  references := rfl
  faults := rfl

theorem lookup_append_singleton (ms : List MessageOutline) (m : MessageOutline)
    {declared : List (Text × Position)}
    (h : ∀ name, declared.lookup name = (ms.find? (·.name = name)).map MessageOutline.pos)
    (name : Text) :
    (declared ++ [(m.name, m.pos)]).lookup name
      = ((ms ++ [m]).find? (·.name = name)).map MessageOutline.pos := by
  rw [List.lookup_append, List.find?_append, Option.map_or, h]
  congr 1
  by_cases hname : m.name = name
  . simp [hname]
  . simp [hname, Ne.symm hname]

theorem find?_append_of_not_isNewAfter {ms : List MessageOutline} {m : MessageOutline}
    (hnew : ¬ m.IsNewAfter ms) (name : Text) :
    (ms ++ [m]).find? (·.name = name) = ms.find? (·.name = name) := by
  rw [List.find?_append]
  by_cases hname : m.name = name
  . subst hname
    have hfound : (ms.find? (·.name = m.name)).isSome = true := by
      simpa [MessageOutline.IsNewAfter] using hnew
    rw [Option.or_of_isSome hfound]
  . simp [hname]

-- A message with the name of an earlier one adds its one fault and nothing else.
theorem message_of_not_isNewAfter {s : State} {ms : List MessageOutline} {m : MessageOutline}
    (h : s.IsAfter ms) (hnew : ¬ m.IsNewAfter ms) :
    (message m s).1 = none ∧ (message m s).2.IsAfter (ms ++ [m]) := by
  obtain ⟨first, hfirst⟩ : ∃ first, ms.find? (·.name = m.name) = some first := by
    rw [← Option.isSome_iff_exists]
    simpa [MessageOutline.IsNewAfter] using hnew
  have hmessage : message m s = (none, s.extend [] (m.faultsAfter ms)) := by
    unfold message MessageOutline.faultsAfter
    rw [h.declared, hfirst]
    simp [State.extend]
  rw [hmessage]
  refine ⟨rfl, ?_, ?_, ?_⟩
  . intro name
    rw [find?_append_of_not_isNewAfter hnew]
    exact h.declared name
  . rw [MessageOutline.newOnes_append_singleton]
    simp [State.extend, hnew, h.references]
  . rw [MessageOutline.inContext_append_singleton]
    simp [State.extend, h.faults]

-- Any other message is kept, and adds its name, its references and its faults.
theorem message_of_isNewAfter {s : State} {ms : List MessageOutline} {m : MessageOutline}
    (h : s.IsAfter ms) (hnew : m.IsNewAfter ms) :
    (message m s).1 = some m.toMessage ∧ (message m s).2.IsAfter (ms ++ [m]) := by
  have hnone : ms.find? (·.name = m.name) = none := by
    simpa [MessageOutline.IsNewAfter] using hnew
  have hafter : m.faultsAfter ms = m.faults := by
    unfold MessageOutline.faultsAfter
    rw [hnone]
  have hmessage : message m s = (some m.toMessage,
      { s with declared := s.declared ++ [(m.name, m.pos)] }.extend (sites m.name m.fields)
        m.faults) := by
    unfold message MessageOutline.faults
    rw [h.declared, hnone]
    simp only [Option.map_none, fields_eq]
    change (if m.toMessage.isValid = true then _ else _) = _
    by_cases hvalid : m.IsCollisionFree
    . rw [if_pos ((isValid_toMessage_iff m).2 hvalid), if_pos hvalid]
      simp [MessageOutline.toMessage, MessageOutline.soundFields]
    . rw [if_neg (mt (isValid_toMessage_iff m).1 hvalid), if_neg hvalid]
      simp [State.extend, MessageOutline.toMessage, MessageOutline.soundFields]
  rw [hmessage]
  refine ⟨rfl, ?_, ?_, ?_⟩
  . exact lookup_append_singleton ms m h.declared
  . rw [MessageOutline.newOnes_append_singleton]
    simp [State.extend, hnew, h.references]
  . rw [MessageOutline.inContext_append_singleton]
    simp [State.extend, hafter, h.faults]

theorem messages_isAfter (earlier ms : List MessageOutline) (s : State) (h : s.IsAfter earlier) :
    (messages ms s).2.IsAfter (earlier ++ ms)
      ∧ (MessageOutline.newOnes earlier).map MessageOutline.toMessage ++ (messages ms s).1
        = (MessageOutline.newOnes (earlier ++ ms)).map MessageOutline.toMessage := by
  induction ms generalizing earlier s with
  | nil =>
    rw [List.append_nil]
    exact ⟨h, by simp [messages]⟩
  | cons m ms ih =>
    unfold messages
    by_cases hnew : m.IsNewAfter earlier
    . obtain ⟨hkept, hafter⟩ := message_of_isNewAfter h hnew
      obtain ⟨hrest, hmessages⟩ := ih (earlier ++ [m]) _ hafter
      rw [List.append_assoc, List.singleton_append] at hrest hmessages
      rw [MessageOutline.newOnes_append_singleton] at hmessages
      refine ⟨hrest, ?_⟩
      rw [← hmessages]
      simp [hkept, hnew]
    . obtain ⟨hdropped, hafter⟩ := message_of_not_isNewAfter h hnew
      obtain ⟨hrest, hmessages⟩ := ih (earlier ++ [m]) _ hafter
      rw [List.append_assoc, List.singleton_append] at hrest hmessages
      rw [MessageOutline.newOnes_append_singleton] at hmessages
      refine ⟨hrest, ?_⟩
      rw [← hmessages]
      simp [hdropped, hnew]

theorem unresolved_eq_danglingSites {o : Outline} {s : State} (h : s.IsAfter o.messages) :
    unresolved s = o.danglingSites := by
  unfold unresolved Outline.danglingSites
  rw [h.references, List.filter_flatMap]
  congr 1
  funext m
  unfold sites MessageOutline.soundFields
  rw [List.filter_map, List.filter_filter]
  congr 1
  apply List.filter_congr
  intro f _
  rw [Bool.eq_iff_iff, Bool.and_eq_true, decide_eq_true_eq, decide_eq_true_eq]
  unfold Outline.Lacks
  simp [FieldOutline.toReference, h.declared, and_comm]

theorem allFaults_eq_faults {o : Outline} {s : State} (h : s.IsAfter o.messages) :
    allFaults s = o.faults := by
  unfold allFaults Outline.faults
  rw [unresolved_eq_danglingSites h, h.faults]
  split
  . next hnil => simp [hnil]
  . next sites hne =>
    rw [if_neg hne, distinct_eq_eraseDups]

end Compile

namespace Outline

theorem compile_eq (o : Outline) :
    o.compile =
      if o.faults = [] then
        .ok ⟨o.package, (MessageOutline.newOnes o.messages).map MessageOutline.toMessage⟩
      else
        .error (.schema o.file o.faults) := by
  obtain ⟨hafter, hmessages⟩ :=
    Compile.messages_isAfter [] o.messages .initial Compile.State.initial_isAfter
  rw [List.nil_append] at hafter hmessages
  unfold compile
  simp only [Compile.allFaults_eq_faults hafter]
  split
  . next hnil =>
    rw [if_pos hnil, ← hmessages]
    rfl
  . next hne => rw [if_neg hne]

/--
An outline that cannot be compiled is refused with its faults: all of them, no others, and in the
order of the source.
-/
theorem compile_eq_error_iff (o : Outline) (e : Failure) :
    o.compile = .error e ↔ o.faults ≠ [] ∧ e = .schema o.file o.faults := by
  rw [compile_eq]
  by_cases h : o.faults = []
  . simp [h]
  . rw [if_neg h, Except.error.injEq]
    constructor
    . intro he
      exact ⟨h, he.symm⟩
    . intro he
      exact he.2.symm

end Outline

end ValueGen
