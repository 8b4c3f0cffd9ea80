import ValueGen.Proofs.Output.Closure
import ValueGen.Proofs.Plan.Declarations

/-!
This module contains that names are taken by one message only. The messages of a schema take the
names of their files and their package-level names in order; a message is refused exactly if one of
its names belongs to a message before it that was not, and a refused message leaves no trace. So no
two files of a batch have the same name or declare the same package-level name.
-/

namespace ValueGen

namespace Claims

/--
What is taken after messages have taken their names in order.
-/
def after (c : Claims) : List Message → Claims
  | [] => c
  | m :: ms =>
    match c.fault? m with
    | some _ => after c ms
    | none => after (c.take m) ms

/--
The messages that take their names, in order.
-/
def takers (c : Claims) (ms : List Message) : List Message :=
  ((c.settle ms).filter fun x => x.2.isNone).map Prod.fst

/--
The message at this place of a list is refused.
-/
def Refuses (c : Claims) (ms : List Message) (i : Nat) : Prop :=
  ∃ m f, (c.settle ms)[i]? = some (m, some f)

variable {c : Claims} {m : Message}

theorem settle_cons_of_fault {f : Failure} (h : c.fault? m = some f) (ms : List Message) :
    c.settle (m :: ms) = (m, some f) :: c.settle ms := by
  rw [settle, h]

theorem settle_cons_of_no_fault (h : c.fault? m = none) (ms : List Message) :
    c.settle (m :: ms) = (m, none) :: (c.take m).settle ms := by
  rw [settle, h]

theorem settle_append (c : Claims) (ms ns : List Message) :
    c.settle (ms ++ ns) = c.settle ms ++ (c.after ms).settle ns := by
  induction ms generalizing c with
  | nil => rfl
  | cons m ms ih =>
    rw [List.cons_append, after]
    cases h : c.fault? m with
    | some f =>
      rw [settle_cons_of_fault h, settle_cons_of_fault h, ih]
      rfl
    | none =>
      rw [settle_cons_of_no_fault h, settle_cons_of_no_fault h, ih]
      rfl

theorem after_append (c : Claims) (ms ns : List Message) :
    c.after (ms ++ ns) = (c.after ms).after ns := by
  induction ms generalizing c with
  | nil => rfl
  | cons m ms ih =>
    rw [List.cons_append, after, after]
    split
    . exact ih c
    . exact ih (c.take m)

-- Only the messages that take their names add to what is taken, each its file and its four names.
theorem after_eq (c : Claims) (ms : List Message) :
    c.after ms = ⟨c.files ++ (c.takers ms).map fun n => (n.fileName, n.name),
      c.names ++ (c.takers ms).flatMap fun n =>
        (TypeNames.ofName n.name).toList.map fun id => (id, n.name)⟩ := by
  induction ms generalizing c with
  | nil => simp [after, takers, settle]
  | cons m ms ih =>
    unfold after
    cases h : c.fault? m with
    | some f =>
      dsimp only
      rw [ih c, takers, takers, settle_cons_of_fault h, List.filter_cons_of_neg (by simp)]
    | none =>
      dsimp only
      rw [ih (c.take m), takers, takers, settle_cons_of_no_fault h,
        List.filter_cons_of_pos (by simp)]
      simp [take]

theorem isSome_fault?_iff (c : Claims) (m : Message) :
    (c.fault? m).isSome = true
      ↔ m.fileName ∈ c.files.map Prod.fst
        ∨ ∃ id ∈ (TypeNames.ofName m.name).toList, id ∈ c.names.map Prod.fst := by
  have hlookup (table : List (Text × Text)) (k : Text) :
      (table.lookup k).isSome = true ↔ k ∈ table.map Prod.fst := by
    rw [List.lookup_isSome_iff, List.mem_map]
    simp only [beq_iff_eq]
    exact exists_congr fun e => and_congr_right fun _ => eq_comm
  unfold fault?
  rw [← hlookup c.files]
  cases hfile : c.files.lookup m.fileName with
  | some first => simp
  | none =>
    simp only [← hlookup c.names, Option.isSome_none, Bool.false_eq_true, false_or]
    rw [List.findSome?_isSome_iff]
    simp

theorem refuses_append_cons (c : Claims) (earlier : List Message) (m : Message)
    (later : List Message) :
    c.Refuses (earlier ++ m :: later) earlier.length
      ↔ ((c.after earlier).fault? m).isSome = true := by
  unfold Refuses
  rw [settle_append, List.getElem?_append_right (by rw [length_settle]), length_settle,
    Nat.sub_self]
  cases h : (c.after earlier).fault? m with
  | some f => simp [settle_cons_of_fault h]
  | none => simp [settle_cons_of_no_fault h]

/--
Two messages have the same file, or share one of their package-level names.
-/
def Conflict (n m : Message) : Prop :=
  n.fileName = m.fileName
    ∨ ∃ id ∈ (TypeNames.ofName n.name).toList, id ∈ (TypeNames.ofName m.name).toList

/--
What comes of messages that take their names in order: no two of the messages that take theirs are
in conflict, what is taken in the end is what belongs to them, and a message is refused exactly if
it is in conflict with a message before it that is not. A refused message leaves what is taken as
it was, and all messages after it fare as if it was not there.
-/
structure AreExclusive (ms : List Message) : Prop where
  fileNames : ((empty.takers ms).map Message.fileName).Nodup
  names : (empty.takers ms).Pairwise Message.IsApartFrom
  taken : empty.after ms = ⟨(empty.takers ms).map fun n => (n.fileName, n.name),
    (empty.takers ms).flatMap fun n =>
      (TypeNames.ofName n.name).toList.map fun id => (id, n.name)⟩
  refused : ∀ earlier m later, ms = earlier ++ m :: later →
    (empty.Refuses ms earlier.length ↔ ∃ n ∈ empty.takers earlier, Conflict n m)
  unchanged : ∀ earlier m later, ms = earlier ++ m :: later → empty.Refuses ms earlier.length →
    empty.after (earlier ++ [m]) = empty.after earlier
  harmless : ∀ earlier m later, ms = earlier ++ m :: later → empty.Refuses ms earlier.length →
    (empty.settle ms).drop (earlier.length + 1)
      = (empty.settle (earlier ++ later)).drop earlier.length

theorem areExclusive (ms : List Message) : AreExclusive ms where
  fileNames := by
    have hnodup := (empty.nodup_taken ms).1
    unfold takers
    rw [List.map_map]
    exact hnodup
  names := (empty.pairwise_isApartFrom_taken ms).1
  taken := after_eq empty ms
  refused := by
    rintro earlier m later rfl
    rw [refuses_append_cons, isSome_fault?_iff, after_eq]
    simp only [empty, List.nil_append, List.map_map, List.map_flatMap, List.mem_map,
      List.mem_flatMap, Function.comp_apply]
    constructor
    . rintro (⟨n, hn, hfile⟩ | ⟨id, hid, n, hn, i, hi, rfl⟩)
      . exact ⟨n, hn, .inl hfile⟩
      . exact ⟨n, hn, .inr ⟨i, hi, hid⟩⟩
    . rintro ⟨n, hn, hfile | ⟨id, hid, hm⟩⟩
      . exact .inl ⟨n, hn, hfile⟩
      . exact .inr ⟨id, hm, n, hn, id, hid, rfl⟩
  unchanged := by
    rintro earlier m later rfl hrefused
    rw [refuses_append_cons, Option.isSome_iff_exists] at hrefused
    obtain ⟨f, hfault⟩ := hrefused
    rw [after_append, after, hfault]
    rfl
  harmless := by
    rintro earlier m later rfl hrefused
    rw [refuses_append_cons, Option.isSome_iff_exists] at hrefused
    obtain ⟨f, hfault⟩ := hrefused
    rw [settle_append, settle_append, settle_cons_of_fault hfault]
    rw [← length_settle empty earlier, List.drop_left, List.drop_append]
    simp

end Claims

/-! The files of a batch. -/

/--
The code of the emitter for a message declares no package-level names but those of the message.
-/
def Emitter.KeepsToNames (e : Emitter) : Prop :=
  ∀ m o c, e.emit m o = .ok (.code c) → c.packageNames ⊆ (TypeNames.ofName m.name).toList

theorem Emitter.values_keepsToNames : Emitter.values.KeepsToNames := by
  intro m o c h
  rw [packageNames_values h]
  exact List.Subset.refl _

/--
No two files of the batch have the same name, and no two of them declare the same package-level name
if the emitter keeps to the names of the messages.
-/
structure Batch.IsExclusive (schema : Schema) (s : Settings) (b : Batch) : Prop where
  fileNames : (b.files.map GeneratedFile.name).Nodup
  packageNames : s.emitterInUse.KeepsToNames →
    b.files.Pairwise fun f g => ∀ c d, f.IsPrintedFrom schema s c → g.IsPrintedFrom schema s d →
      c.packageNames.Disjoint d.packageNames

theorem GeneratedFile.IsPrintedFrom.packageNames_subset {schema : Schema} {s : Settings}
    {f : GeneratedFile} {c : Code.File} (hkeeps : s.emitterInUse.KeepsToNames)
    (h : f.IsPrintedFrom schema s c) :
    c.packageNames ⊆ (TypeNames.ofName f.message).toList := by
  obtain ⟨m, -, hmessage, hemit, -⟩ := h
  rw [hmessage]
  exact hkeeps m s.toOptions c hemit

-- The messages of the files are some of those that took their names.
theorem Batch.IsSequential.sublist_takers {schema : Schema} {s : Settings} {b : Batch}
    (h : b.IsSequential schema s) :
    (b.files.map GeneratedFile.message).Sublist
      ((Claims.empty.takers schema.messages).map Message.name) := by
  rw [h.files, Claims.takers]
  generalize Claims.empty.settle schema.messages = settled
  induction settled with
  | nil => exact .slnil
  | cons x settled ih =>
    cases hfile : settledFile? s x with
    | none =>
      rw [List.filterMap_cons_none hfile]
      exact ih.trans ((((List.sublist_cons_self x settled).filter _).map _).map _)
    | some f =>
      obtain ⟨htaken, printed, -, rfl⟩ := (settledFile?_eq_some_iff s x f).1 hfile
      rw [List.filterMap_cons_some hfile, List.filter_cons_of_pos (by simp [htaken])]
      exact ih.cons_cons _

theorem Batch.IsSequential.isExclusive {schema : Schema} {s : Settings} {b : Batch}
    (h : b.IsSequential schema s) : b.IsExclusive schema s where
  fileNames := h.nodup_files
  packageNames := by
    intro hkeeps
    have hnames : (b.files.map GeneratedFile.message).Pairwise fun m n =>
        (TypeNames.ofName m).toList.Disjoint (TypeNames.ofName n).toList := by
      refine List.Pairwise.sublist h.sublist_takers ?_
      rw [List.pairwise_map]
      exact (Claims.areExclusive schema.messages).names
    rw [List.pairwise_map] at hnames
    refine hnames.imp ?_
    intro f g hapart c d hc hd id hidc hidd
    exact hapart (hc.packageNames_subset hkeeps hidc) (hd.packageNames_subset hkeeps hidd)

/--
The builder of the first message, its constructor and a message with the file of another one are
refused. The last message would be the builder of a message that was refused.
-/
def crowdedSchema : Schema :=
  ⟨"shapes", [⟨"Point", []⟩, ⟨"PointBuilder", []⟩, ⟨"newPoint", []⟩, ⟨"UserID", []⟩,
    ⟨"UserId", []⟩, ⟨"UserIdBuilder", []⟩]⟩

end ValueGen
