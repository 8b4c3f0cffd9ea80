import Mathlib.Data.List.Induction
import ValueGen.Proofs.Output.Call
import ValueGen.Proofs.Output.Shadow

/-!
This module contains what any number of calls of the writer leave in a target directory that was
empty at the start. As long as all of them save their manifests, the source files in the directory
are those that the manifest names. The files that a call has written before it stopped are named by
no manifest, and stay there until a later call generates them again.
-/

namespace ValueGen

namespace Writer

variable {start : Disk} {target name : Text} {directory : Place} {calls : List Call} {c : Call}

/--
The disk after calls that follow each other.
-/
def diskAfterAll (start : Disk) (calls : List Call) : Disk :=
  calls.foldl (fun d c => c.diskAfter d) start

theorem diskAfterAll_append_singleton (start : Disk) (calls : List Call) (c : Call) :
    diskAfterAll start (calls ++ [c]) = c.diskAfter (diskAfterAll start calls) := by
  unfold diskAfterAll
  rw [List.foldl_append]
  rfl

-- The last one of the calls is the one that was picked out, or it comes after it.
theorem append_singleton_cases {earlier later : List Call} {call : Call}
    (h : calls ++ [c] = earlier ++ call :: later) :
    (earlier = calls ∧ call = c) ∨ ∃ rest, calls = earlier ++ call :: rest := by
  rcases List.append_eq_append_iff.1 h with ⟨more, hearlier, hlast⟩ | ⟨more, hcalls, hlast⟩
  . cases more with
    | nil =>
      rw [List.append_nil] at hearlier
      cases hlast
      exact .inl ⟨hearlier, rfl⟩
    | cons first more => simp at hlast
  . cases more with
    | nil =>
      rw [List.append_nil] at hcalls
      cases hlast
      exact .inl ⟨hcalls.symm, rfl⟩
    | cons first more =>
      cases hlast
      exact .inr ⟨more, hcalls⟩

/-! Calls that all save their manifests. -/

/--
Each of the calls gets as far as saving its manifest.
-/
def AllComplete (start : Disk) (calls : List Call) : Prop :=
  ∀ earlier c later, calls = earlier ++ c :: later
    → ∃ batch, c.CompletesOn (diskAfterAll start earlier) batch

theorem allComplete_append_singleton_iff (start : Disk) (calls : List Call) (c : Call) :
    AllComplete start (calls ++ [c])
      ↔ AllComplete start calls ∧ ∃ batch, c.CompletesOn (diskAfterAll start calls) batch := by
  constructor
  . intro h
    refine ⟨?_, h calls c [] rfl⟩
    intro earlier call later heq
    exact h earlier call (later ++ [c]) (by rw [heq, List.append_assoc, List.cons_append])
  . rintro ⟨h, hlast⟩ earlier call later heq
    rcases append_singleton_cases heq with ⟨rfl, rfl⟩ | ⟨rest, hcalls⟩
    . exact hlast
    . exact h earlier call rest hcalls

/--
The source files of the directory are those that its manifest names.
-/
structure IsInLine (start : Disk) (directory : Place) (d : Disk) : Prop where
  since : Disk.IsSince start directory d
  sources : ∀ name, d.HasSource directory name ↔ (d.recorded? directory name).isSome = true

theorem isInLine_start (hblank : start.IsBlank target directory) :
    IsInLine start directory start where
  since := hblank.isSince
  sources := by
    intro name
    unfold Disk.HasSource Disk.recorded?
    rw [hblank.blank, hblank.blank]
    simp

theorem IsInLine.refreshes {batch : Batch} {before after : Disk}
    (hline : IsInLine start directory before)
    (h : c.Refreshes batch start directory before after) : IsInLine start directory after where
  since := h.since
  sources := by
    intro name
    constructor
    . intro hsource
      rcases h.cases_of_hasSource hsource with hsome | ⟨hbefore, hnone, -⟩
      . exact hsome
      . rw [hline.sources, hnone] at hbefore
        cases hbefore
    . intro hsome
      by_cases hnew : ∃ f ∈ batch.files, f.name = name
      . obtain ⟨f, hf, rfl⟩ := hnew
        exact h.generated f hf
      . obtain ⟨-, hbefore⟩ := ((h.recorded name).1 hsome).resolve_left hnew
        rw [h.others name (fun f hf heq => hnew ⟨f, hf, heq.symm⟩) (.inr hsome), hline.sources]
        exact hbefore

theorem isInLine_diskAfterAll (hblank : start.IsBlank target directory)
    (hfor : ∀ call ∈ calls, call.IsFor target ∧ call.HasOwnNames)
    (hcomplete : AllComplete start calls) :
    IsInLine start directory (diskAfterAll start calls) := by
  induction calls using List.reverseRecOn with
  | nil => exact isInLine_start hblank
  | append_singleton calls c ih =>
    rw [allComplete_append_singleton_iff] at hcomplete
    obtain ⟨hcalls, batch, hbatch⟩ := hcomplete
    have hline := ih (fun call hcall => hfor call (List.mem_append_left _ hcall)) hcalls
    obtain ⟨hc, hown⟩ := hfor c (by simp)
    rw [diskAfterAll_append_singleton]
    exact hline.refreshes (Call.refreshes hblank hline.since hc hown hbatch)

/--
If all calls save their manifests, the source files in the target directory are after each of them
those that the manifest names. These are the files that the call generated, and the files of its
failed messages that the manifest before named.
-/
theorem sources_eq_recorded (start : Disk) (target : Text) (directory : Place)
    (calls : List Call) (c : Call) (hblank : start.IsBlank target directory)
    (hfor : ∀ call ∈ calls ++ [c], call.IsFor target ∧ call.settings.emitterInUse = .values)
    (hcomplete : AllComplete start (calls ++ [c])) :
    ∃ batch table, c.CompletesOn (diskAfterAll start calls) batch
      ∧ (diskAfterAll start (calls ++ [c])).HoldsManifest directory ⟨1, c.settings.package, table⟩
      ∧ (∀ name, (diskAfterAll start (calls ++ [c])).HasSource directory name
        ↔ name ∈ table.names)
      ∧ ∀ name, name ∈ table.names
        ↔ (∃ f ∈ batch.files, f.name = name)
          ∨ (IsFailedFile c.schema batch.failedNames name
            ∧ ∃ m, (diskAfterAll start calls).HoldsManifest directory m
              ∧ name ∈ m.files.names) := by
  have hown : ∀ call ∈ calls ++ [c], call.IsFor target ∧ call.HasOwnNames := by
    intro call hcall
    obtain ⟨hcallFor, hemitter⟩ := hfor call hcall
    exact ⟨hcallFor, Call.hasOwnNames_of_emitterInUse hcallFor hemitter⟩
  have hline := isInLine_diskAfterAll hblank hown hcomplete
  obtain ⟨hcalls, batch, hbatch⟩ := (allComplete_append_singleton_iff start calls c).1 hcomplete
  have hbefore := isInLine_diskAfterAll hblank
    (fun call hcall => hown call (List.mem_append_left _ hcall)) hcalls
  obtain ⟨hc, hcOwn⟩ := hown c (by simp)
  have hrefreshes := Call.refreshes hblank hbefore.since hc hcOwn hbatch
  rw [← diskAfterAll_append_singleton] at hrefreshes
  obtain ⟨table, hholds⟩ := hrefreshes.manifest
  have hnames (name : Text) : name ∈ table.names
      ↔ ((diskAfterAll start (calls ++ [c])).recorded? directory name).isSome = true := by
    rw [hholds.recorded?_eq, FileTable.mem_names_iff]
  refine ⟨batch, table, hbatch, hholds, ?_, ?_⟩
  . intro name
    rw [hnames]
    exact hline.sources name
  . intro name
    rw [hnames, hrefreshes.recorded, Disk.isSome_recorded?_iff]

/--
The disk with a target directory in which there is nothing.
-/
def blankDisk : Disk := ⟨[(["out"], .directory)]⟩

theorem blankDisk_isBlank : blankDisk.IsBlank "out" ["out"] where
  leadsTo := ⟨by decide +kernel, by decide +kernel⟩
  blank := by
    intro name
    have hne : ([("out" : Text)] ++ [name] == [("out" : Text)]) = false := by simp
    unfold blankDisk Disk.node?
    rw [if_neg (by simp), List.lookup_cons, hne, List.lookup_nil]

def firstShapes : Call := ⟨shapeSettings, ⟨[], [⟨"Shape", []⟩]⟩, .inOrder false, .zero, []⟩

/--
The first message cannot be generated any more, since a setter of its builder has the name of a
getter.
-/
def secondShapes : Call where
  settings := { shapeSettings with package := "figures", header := "second" }
  schema := ⟨[], [
    ⟨"Shape", [⟨.required, ⟨.int32, []⟩, "x", 1⟩, ⟨.optional, ⟨.int32, []⟩, "set_x", 2⟩]⟩,
    ⟨"Point", []⟩]⟩
  timing := .inOrder false
  metrics := .zero
  log := []

theorem allComplete_nil (start : Disk) : AllComplete start [] := by
  intro earlier call later heq
  simp at heq

theorem allComplete_shapes : AllComplete blankDisk ([firstShapes] ++ [secondShapes]) := by
  have hfirst : (firstShapes.result blankDisk).2 = none := by
    rw [← Option.isNone_iff_eq_none]
    decide +kernel
  obtain ⟨first, hcompletes, -⟩ := completes_of_none (Prod.ext rfl hfirst) rfl
  have hsecond :
      isSingle (secondShapes.result (diskAfterAll blankDisk [firstShapes])).2 = true := by
    decide +kernel
  obtain ⟨second, hsecondCompletes⟩ := completes_of_isSingle rfl (by decide +kernel)
    (Prod.eta (secondShapes.result (diskAfterAll blankDisk [firstShapes]))).symm hsecond
  rw [allComplete_append_singleton_iff]
  refine ⟨?_, second, hsecondCompletes⟩
  rw [← List.nil_append [firstShapes], allComplete_append_singleton_iff]
  exact ⟨allComplete_nil blankDisk, first, hcompletes⟩

theorem isFor_shapes : ∀ call ∈ [firstShapes] ++ [secondShapes],
    call.IsFor "out" ∧ call.settings.emitterInUse = .values := by
  intro call hcall
  simp only [List.cons_append, List.nil_append, List.mem_cons, List.not_mem_nil, or_false] at hcall
  rcases hcall with rfl | rfl
  all_goals
    exact ⟨⟨rfl, rfl, Timing.inOrder_runsAll false, by decide, by decide⟩, rfl⟩

theorem sources_eq_recorded_shapes :
    ∃ batch table, secondShapes.CompletesOn (diskAfterAll blankDisk [firstShapes]) batch
      ∧ (diskAfterAll blankDisk ([firstShapes] ++ [secondShapes])).HoldsManifest ["out"]
          ⟨1, "figures", table⟩
      ∧ (∀ name, (diskAfterAll blankDisk ([firstShapes] ++ [secondShapes])).HasSource ["out"] name
        ↔ name ∈ table.names)
      ∧ ∀ name, name ∈ table.names
        ↔ (∃ f ∈ batch.files, f.name = name)
          ∨ (IsFailedFile secondShapes.schema batch.failedNames name
            ∧ ∃ m, (diskAfterAll blankDisk [firstShapes]).HoldsManifest ["out"] m
              ∧ name ∈ m.files.names) :=
  sources_eq_recorded blankDisk "out" ["out"] [firstShapes] secondShapes blankDisk_isBlank
    isFor_shapes allComplete_shapes

/-! Calls that may stop on the way. -/

/--
A call has generated a file of the name and has not got as far as saving its manifest, and no call
after it that has done so has generated one.
-/
def LeftBehind (start : Disk) (calls : List Call) (name : Text) : Prop :=
  ∃ earlier c later, calls = earlier ++ c :: later ∧ c.Generates name
    ∧ (∀ batch, ¬ c.CompletesOn (diskAfterAll start earlier) batch)
    ∧ ∀ between next rest batch, later = between ++ next :: rest
      → next.CompletesOn (diskAfterAll start (earlier ++ c :: between)) batch
      → ¬ next.Generates name

theorem leftBehind_append_singleton (hgenerates : c.Generates name)
    (hnot : ∀ batch, ¬ c.CompletesOn (diskAfterAll start calls) batch) :
    LeftBehind start (calls ++ [c]) name := by
  refine ⟨calls, c, [], rfl, hgenerates, hnot, ?_⟩
  intro between next rest batch heq
  simp at heq

theorem LeftBehind.append_singleton (h : LeftBehind start calls name)
    (hc : ∀ batch, c.CompletesOn (diskAfterAll start calls) batch → ¬ c.Generates name) :
    LeftBehind start (calls ++ [c]) name := by
  obtain ⟨earlier, call, later, rfl, hgenerates, hnot, hlater⟩ := h
  refine ⟨earlier, call, later ++ [c], by simp, hgenerates, hnot, ?_⟩
  intro between next rest batch heq hnext
  rcases append_singleton_cases heq with ⟨rfl, rfl⟩ | ⟨rest, hrest⟩
  . exact hc batch hnext
  . exact hlater between next rest batch hrest hnext

/--
Every source file of the directory is named by its manifest or was left behind.
-/
structure IsAccounted (start : Disk) (directory : Place) (calls : List Call) : Prop where
  since : Disk.IsSince start directory (diskAfterAll start calls)
  sources : ∀ name, (diskAfterAll start calls).HasSource directory name
    → ((diskAfterAll start calls).recorded? directory name).isSome = true
      ∨ LeftBehind start calls name

namespace IsAccounted

variable (h : IsAccounted start directory calls) (hblank : start.IsBlank target directory)
  (hfor : c.IsFor target) (hown : c.HasOwnNames)

include h hblank hfor hown

theorem of_completes {batch : Batch} (hbatch : c.CompletesOn (diskAfterAll start calls) batch) :
    IsAccounted start directory (calls ++ [c]) := by
  have hrefreshes := Call.refreshes hblank h.since hfor hown hbatch
  rw [← diskAfterAll_append_singleton] at hrefreshes
  refine ⟨hrefreshes.since, ?_⟩
  intro name hsource
  rcases hrefreshes.cases_of_hasSource hsource with hsome | ⟨hold, hnone, hnew⟩
  . exact .inl hsome
  . right
    rcases h.sources name hold with hsome | hleft
    . rw [hnone] at hsome
      cases hsome
    . refine hleft.append_singleton ?_
      intro _ _
      rw [hbatch.generates_iff]
      rintro ⟨f, hf, rfl⟩
      exact hnew f hf rfl

theorem of_not_completes (hnot : ∀ batch, ¬ c.CompletesOn (diskAfterAll start calls) batch) :
    IsAccounted start directory (calls ++ [c]) := by
  have habandons := Call.abandons hblank h.since hfor hown hnot
  rw [← diskAfterAll_append_singleton] at habandons
  refine ⟨habandons.since, ?_⟩
  intro name hsource
  rw [habandons.recorded]
  rcases habandons.sources name hsource with hold | hgenerates
  . refine (h.sources name hold).imp_right fun hleft => ?_
    exact hleft.append_singleton fun batch hbatch => absurd hbatch (hnot batch)
  . exact .inr (leftBehind_append_singleton hgenerates hnot)

end IsAccounted

theorem isAccounted (hblank : start.IsBlank target directory)
    (hfor : ∀ call ∈ calls, call.IsFor target ∧ call.HasOwnNames) :
    IsAccounted start directory calls := by
  induction calls using List.reverseRecOn with
  | nil =>
    refine ⟨hblank.isSince, ?_⟩
    intro name hsource
    exact .inl (((isInLine_start hblank).sources name).1 hsource)
  | append_singleton calls c ih =>
    have hbefore := ih fun call hcall => hfor call (List.mem_append_left _ hcall)
    obtain ⟨hc, hown⟩ := hfor c (by simp)
    by_cases hcompletes : ∃ batch, c.CompletesOn (diskAfterAll start calls) batch
    . obtain ⟨batch, hbatch⟩ := hcompletes
      exact hbefore.of_completes hblank hc hown hbatch
    . refine hbefore.of_not_completes hblank hc hown ?_
      intro batch hbatch
      exact hcompletes ⟨batch, hbatch⟩

/--
After a call that reports no failure, every source file in the target directory is the file of a
message of the schema, or it was left behind by a call that stopped on the way.
-/
theorem source_of_result_none (start : Disk) (target : Text) (directory : Place)
    (calls : List Call) (c : Call) (hblank : start.IsBlank target directory)
    (hfor : ∀ call ∈ calls ++ [c], call.IsFor target
      ∧ ∀ m ∈ call.schema.messages, Identifier.isValid m.name = true)
    (hnone : (c.result (diskAfterAll start calls)).2 = none) (name : Text)
    (hsource : (diskAfterAll start (calls ++ [c])).HasSource directory name) :
    (∃ m ∈ c.schema.messages, m.fileName = name) ∨ LeftBehind start (calls ++ [c]) name := by
  have hown : ∀ call ∈ calls ++ [c], call.IsFor target ∧ call.HasOwnNames := by
    intro call hcall
    obtain ⟨hcallFor, hnames⟩ := hfor call hcall
    exact ⟨hcallFor, Call.hasOwnNames_of_isValid hcallFor hnames⟩
  obtain ⟨hc, hcOwn⟩ := hown c (by simp)
  refine ((isAccounted hblank hown).sources name hsource).imp_left fun hsome => ?_
  have hbefore := isAccounted hblank fun call hcall => hown call (List.mem_append_left _ hcall)
  obtain ⟨batch, hbatch, hfailure⟩ :=
    completes_of_none (Prod.ext rfl hnone) hc.manifest
  have hsequential := Call.isSequential hc hbatch.1
  have hrefreshes := Call.refreshes hblank hbefore.since hc hcOwn hbatch
  rw [← diskAfterAll_append_singleton] at hrefreshes
  -- No message failed, so the manifest names the files of the messages.
  rcases (hrefreshes.recorded name).1 hsome with ⟨f, hf, rfl⟩ | ⟨⟨m, -, hm, -⟩, -⟩
  . obtain ⟨m, hm, printed, -, rfl⟩ := hsequential.exists_of_mem_files hf
    exact ⟨m, hm, rfl⟩
  . rw [hsequential.failure_none.1 hfailure] at hm
    cases hm

/--
The work is canceled when one file has been written.
-/
def canceledTiming : Timing where
  generation := fun n => .inOrder n false
  writing := fun n => (List.range n).map fun i => (i, if i = 0 then .early else .canceled)

theorem canceledTiming_runsAll : canceledTiming.RunsAll := by
  intro n
  refine ⟨Schedule.inOrder_covers n false, ?_⟩
  simp [Schedule.Covers, canceledTiming, Function.comp_def]

def canceledCall : Call :=
  ⟨nameSettings, ⟨[], [⟨"Shape", []⟩, ⟨"Point", []⟩]⟩, canceledTiming, .zero, []⟩

def pointCall : Call := ⟨nameSettings, ⟨[], [⟨"Point", []⟩]⟩, .inOrder false, .zero, []⟩

theorem isFor_canceled : ∀ call ∈ [canceledCall] ++ [pointCall], call.IsFor "out"
    ∧ ∀ m ∈ call.schema.messages, Identifier.isValid m.name = true := by
  intro call hcall
  simp only [List.cons_append, List.nil_append, List.mem_cons, List.not_mem_nil, or_false] at hcall
  rcases hcall with rfl | rfl
  . exact ⟨⟨rfl, rfl, canceledTiming_runsAll, by decide, by decide⟩, by decide +kernel⟩
  . exact ⟨⟨rfl, rfl, Timing.inOrder_runsAll false, by decide, by decide⟩, by decide +kernel⟩

theorem result_pointCall_eq_none :
    (pointCall.result (diskAfterAll blankDisk [canceledCall])).2 = none := by
  rw [← Option.isNone_iff_eq_none]
  decide +kernel

theorem hasSource_shape :
    (diskAfterAll blankDisk ([canceledCall] ++ [pointCall])).HasSource ["out"]
      "shape.protoval.go" := by
  refine ⟨by decide, "Shape", ?_⟩
  decide +kernel

theorem leftBehind_shape :
    LeftBehind blankDisk ([canceledCall] ++ [pointCall]) "shape.protoval.go" := by
  have hcases := source_of_result_none blankDisk "out" ["out"] [canceledCall] pointCall
    blankDisk_isBlank isFor_canceled result_pointCall_eq_none "shape.protoval.go" hasSource_shape
  refine hcases.resolve_left ?_
  decide +kernel

/--
A call that reports no failure leaves a source file in the directory that is not the file of a
message of its schema.
-/
theorem exists_source_of_no_message :
    blankDisk.IsBlank "out" ["out"]
      ∧ (∀ call ∈ [canceledCall] ++ [pointCall], call.IsFor "out"
        ∧ ∀ m ∈ call.schema.messages, Identifier.isValid m.name = true)
      ∧ (pointCall.result (diskAfterAll blankDisk [canceledCall])).2 = none
      ∧ (diskAfterAll blankDisk ([canceledCall] ++ [pointCall])).HasSource ["out"]
          "shape.protoval.go"
      ∧ ¬ ∃ m ∈ pointCall.schema.messages, m.fileName = "shape.protoval.go" :=
  ⟨blankDisk_isBlank, isFor_canceled, result_pointCall_eq_none, hasSource_shape, by decide +kernel⟩

end Writer

end ValueGen
