import ValueGen.Proofs.Disk.Change
import ValueGen.Proofs.Output.Attempt
import ValueGen.Proofs.Output.Exit
import ValueGen.Proofs.Output.Stale

/-!
This module contains which places a run changes at all on a disk without links, however it ends:
those that the target directory needs, and entries of that directory which the schema, or the
manifest before, tells. The manifest before may hold any names, but only those that a writer could
have given to a file matter.
-/

namespace ValueGen

namespace Writer

variable {o : Options} {s : Settings} {schema : Schema} {d : Disk} {batch : Batch}
  {previous : Manifest} {files : List GeneratedFile} {timing : Timing} {p q : Progress}
  {failure? : Option Failure} {mayLeave : Place → Option Node → Prop}

/-! What a run changes if all that it writes and removes may be left. -/

/--
The task of a file leaves only what may be left.
-/
structure AllowsTask (o : Options) (mayLeave : Place → Option Node → Prop) (f : GeneratedFile) :
    Prop where
  plain : Path.IsPlain f.name
  final : ∀ content, finalContent? o f = some content
    → mayLeave (Disk.entryPlace o.target f.name) (some (.file content))
  rejected : finalContent? o f = none
    → mayLeave (Disk.entryPlace o.target (rejectName f.name)) (some (.file f.printed.content))

/--
A run with a batch leaves only what may be left: no links, what its tasks write, nothing at the
places of stale files, and the manifest that it saves.
-/
structure Allows (o : Options) (schema : Schema) (batch : Batch) (timing : Timing) (p : Progress)
    (mayLeave : Place → Option Node → Prop) : Prop where
  noLink : ∀ place target, ¬ mayLeave place (some (.link target))
  tasks : ∀ f ∈ batch.files, AllowsTask o mayLeave f
  stale : o.manifest = true → ∀ previous r, previousManifest o p = .ok (previous, r)
    → ∀ name ∈ staleNames (recordedBy o schema batch timing previous r) previous.files.names,
      mayLeave (Disk.entryPlace o.target name) none
  saved : o.manifest = true → ∀ previous r, previousManifest o p = .ok (previous, r)
    → mayLeave (Disk.entryPlace o.target Manifest.fileName) (some (.file (Manifest.encode
      ⟨Manifest.currentVersion, o.package, recordedBy o schema batch timing previous r⟩)))

theorem writeFile_changesTo (htarget : o.target ≠ []) (previous : Manifest) {f : GeneratedFile}
    (hf : AllowsTask o mayLeave f) (hlinks : p.disk.IsLinkFree) :
    p.disk.ChangesTo (writeFile o previous f p).1.disk mayLeave := by
  unfold writeFile
  dsimp only
  split
  . next hcontent =>
    rw [rejectPath_join htarget hf.plain]
    split
    . next disk hwrite =>
      rw [hlinks.eq_put_of_write htarget (isPlain_rejectName hf.plain) hwrite]
      exact Disk.changesTo_put (Disk.entryPlace_ne_nil _ _) (hf.rejected hcontent)
    . exact Disk.ChangesTo.refl _ _
  . next content hcontent =>
    split
    . exact Disk.ChangesTo.refl _ _
    . split
      . next disk hwrite =>
        change p.disk.ChangesTo disk _
        rw [hlinks.eq_put_of_write htarget hf.plain hwrite]
        exact Disk.changesTo_put (Disk.entryPlace_ne_nil _ _) (hf.final content hcontent)
      . exact Disk.ChangesTo.refl _ _

theorem turn_changesTo (htarget : o.target ≠ []) (previous : Manifest)
    (hfiles : ∀ f ∈ files, AllowsTask o mayLeave f) {w : Writing}
    (hlinks : w.progress.disk.IsLinkFree) (next : Nat × Start) :
    w.progress.disk.ChangesTo (Writing.turn o previous files w next).progress.disk mayLeave := by
  unfold Writing.turn
  split
  . exact Disk.ChangesTo.refl _ _
  . next f hfile =>
    have hchange : w.progress.disk.ChangesTo _ mayLeave :=
      writeFile_changesTo htarget previous (hfiles f (List.mem_of_getElem? hfile)) hlinks
    split
    . exact Disk.ChangesTo.refl _ _
    . split
      . exact Disk.ChangesTo.refl _ _
      . split
        all_goals
          next heq =>
          rw [heq] at hchange
          exact hchange

theorem run_changesTo (htarget : o.target ≠ []) (previous : Manifest)
    (hnoLink : ∀ place target, ¬ mayLeave place (some (.link target)))
    (hfiles : ∀ f ∈ files, AllowsTask o mayLeave f) (hlinks : p.disk.IsLinkFree)
    (schedule : Schedule) :
    p.disk.ChangesTo (Writing.run o previous files schedule p).progress.disk mayLeave := by
  have hall (w : Writing) (hw : w.progress.disk.IsLinkFree) :
      w.progress.disk.ChangesTo
        (schedule.foldl (Writing.turn o previous files) w).progress.disk mayLeave := by
    induction schedule generalizing w with
    | nil => exact Disk.ChangesTo.refl _ _
    | cons next schedule ih =>
      have hturn := turn_changesTo htarget previous hfiles hw next
      exact hturn.trans (ih _ (hturn.isLinkFree hw hnoLink))
  exact hall ⟨p, .empty, none⟩ hlinks

theorem removeStale_changesTo (htarget : o.target ≠ [])
    (hnoLink : ∀ place target, ¬ mayLeave place (some (.link target))) {kept : FileTable}
    {names : List Text}
    (hnames : ∀ name ∈ staleNames kept names, mayLeave (Disk.entryPlace o.target name) none)
    (hlinks : p.disk.IsLinkFree) (h : removeStale o.target kept names p = (q, failure?)) :
    p.disk.ChangesTo q.disk mayLeave := by
  induction names generalizing p with
  | nil =>
    cases h
    exact Disk.ChangesTo.refl _ _
  | cons name names ih =>
    unfold staleNames at hnames
    unfold removeStale at h
    split at h
    . next hkept =>
      rw [List.filter_cons_of_neg (by rw [hkept]; simp)] at hnames
      exact ih hnames hlinks h
    . next hkept =>
      rw [List.filter_cons_of_pos (by rw [Bool.not_eq_true']; exact Bool.eq_false_iff.2 hkept),
        List.forall_mem_cons] at hnames
      have hown : isOwnName name = true := by
        rw [Bool.or_eq_true, not_or] at hkept
        simpa using hkept.2
      split at h
      . next disk hremove =>
        have hchange : p.disk.ChangesTo disk mayLeave := by
          rw [hlinks.eq_erase_of_remove htarget (isPlain_of_isOwnName hown) hremove]
          exact Disk.changesTo_erase (Disk.entryPlace_ne_nil _ _) hnames.1
        exact hchange.trans
          (ih (p := p.removed name disk) hnames.2 (hchange.isLinkFree hlinks hnoLink) h)
      . split at h
        . exact ih (p := p.removed name p.disk) hnames.2 hlinks h
        . cases h
          exact Disk.ChangesTo.refl _ _

theorem save_changesTo (htarget : o.target ≠ []) {m : Manifest} {e f : Disk}
    (hsaved : mayLeave (Disk.entryPlace o.target Manifest.fileName) (some (.file m.encode)))
    (hlinks : e.IsLinkFree) (h : m.save e (manifestPath o) = .ok f) : e.ChangesTo f mayLeave := by
  unfold Manifest.save at h
  split at h
  . next hwrite =>
    cases h
    rw [hlinks.eq_put_of_write htarget Manifest.isPlain_fileName hwrite]
    exact Disk.changesTo_put (Disk.entryPlace_ne_nil _ _) hsaved
  . cases h

theorem writeBatch_changesTo (htarget : o.target ≠ [])
    (hallows : Allows o schema batch timing p mayLeave) (hlinks : p.disk.IsLinkFree)
    (h : writeBatch o schema batch timing p = (q, failure?)) :
    p.disk.ChangesTo q.disk mayLeave := by
  unfold writeBatch at h
  split at h
  . cases h
    exact Disk.ChangesTo.refl _ _
  . next previous r hprevious =>
    have hdisk := disk_of_previousManifest hprevious
    have hrun := run_changesTo htarget previous hallows.noLink hallows.tasks (hdisk ▸ hlinks)
      (timing.writing batch.files.length)
    rw [hdisk] at hrun
    have hran := hrun.isLinkFree hlinks hallows.noLink
    dsimp only at h
    split at h
    . cases h
      exact hrun
    . split at h
      . next hmanifest =>
        unfold finish at h
        dsimp only at h
        have hstale := hallows.stale hmanifest previous r hprevious
        split at h
        . next t f hremove =>
          cases h
          exact hrun.trans (removeStale_changesTo htarget hallows.noLink hstale hran hremove)
        . next t hremove =>
          have hremoved := removeStale_changesTo htarget hallows.noLink hstale hran hremove
          split at h
          . cases h
            exact hrun.trans hremoved
          . next disk hsave =>
            cases h
            exact (hrun.trans hremoved).trans (save_changesTo htarget
              (hallows.saved hmanifest previous r hprevious)
              (hremoved.isLinkFree hran hallows.noLink) hsave)
      . cases h
        exact hrun

-- The directories that are missing are made first.
theorem write_changesTo (hlinks : p.disk.IsLinkFree)
    (hallows : ∀ batch, generateSchema schema s (timing.generation schema.messages.length)
      = .ok batch → s.target ≠ [] → (p.disk.makeDirectories s.target).2 = none
      → Allows s.toOptions schema batch timing { p with disk := madeDisk s p.disk } mayLeave)
    (h : write (some s) schema timing p = (q, failure?)) :
    ∃ made, p.disk.MakesAt (Disk.trail [] (Path.pieces s.target)) made
      ∧ p.disk.AddsDirectories made ∧ made.ChangesTo q.disk mayLeave := by
  have hmakes := Disk.makeDirectories_makesAt hlinks s.target
  have hadds := Disk.makeDirectories_addsDirectories p.disk s.target
  have hstart : ∃ made, p.disk.MakesAt (Disk.trail [] (Path.pieces s.target)) made
      ∧ p.disk.AddsDirectories made ∧ made.ChangesTo p.disk mayLeave :=
    ⟨p.disk, Disk.MakesAt.refl _ _, Disk.AddsDirectories.refl _, Disk.ChangesTo.refl _ _⟩
  unfold write at h
  dsimp only at h
  split at h
  . cases h
    exact hstart
  . next htarget =>
    split at h
    . cases h
      exact hstart
    . next batch hbatch =>
      have htarget : s.target ≠ [] := by simpa using htarget
      have hall := hallows batch hbatch htarget
      unfold madeDisk at hall
      split at h
      . next disk f hmade =>
        cases h
        rw [hmade] at hmakes hadds
        exact ⟨disk, hmakes, hadds, Disk.ChangesTo.refl _ _⟩
      . next disk hmade =>
        rw [hmade] at hmakes hadds hall
        exact ⟨disk, hmakes, hadds,
          writeBatch_changesTo htarget (hall rfl) (hadds.isLinkFree hlinks) h⟩

/-! What a run changes at all. -/

/--
What a run that starts on a disk may leave at an entry of its target directory.
-/
inductive MayLeave (s : Settings) (schema : Schema) (d : Disk) : Place → Option Node → Prop where
  | manifest (hmanifest : s.manifest = true) (content : Text) :
      MayLeave s schema d (Disk.entryPlace s.target Manifest.fileName) (some (.file content))
  /-- The file of a message that can be generated. -/
  | final {m : Message} {printed : Code.Printed} {content : Text} (hm : m ∈ schema.messages)
      (hgenerate : generate m s = .ok printed)
      (hcontent : finalContent? s.toOptions ⟨m.fileName, m.name, printed⟩ = some content) :
      MayLeave s schema d (Disk.entryPlace s.target m.fileName) (some (.file content))
  /-- What cannot be formatted, beside the place of the file of its message. -/
  | rejected {m : Message} {printed : Code.Printed} (hm : m ∈ schema.messages)
      (hgenerate : generate m s = .ok printed)
      (hcontent : finalContent? s.toOptions ⟨m.fileName, m.name, printed⟩ = none) :
      MayLeave s schema d (Disk.entryPlace s.target (rejectName m.fileName))
        (some (.file printed.content))
  /-- Nothing, where the manifest before names a file that a writer could have written. -/
  | stale {name : Text} (hmanifest : s.manifest = true) (hown : isOwnName name = true)
      (hrecorded :
        (d.recorded? (Disk.destination [] (Path.pieces s.target)) name).isSome = true) :
      MayLeave s schema d (Disk.entryPlace s.target name) none

theorem not_mayLeave_link (place : Place) (target : Text) :
    ¬ MayLeave s schema d place (some (.link target)) := by
  intro h
  cases h

theorem allowsTask_of_mem_files (hemitter : s.emitterInUse = .values) {schedule : Schedule}
    (hbatch : generateSchema schema s schedule = .ok batch) :
    ∀ f ∈ batch.files, AllowsTask s.toOptions (MayLeave s schema d) f := by
  intro f hf
  obtain ⟨m, hm, printed, hgenerate, rfl⟩ := exists_generate_of_mem_files hbatch hf
  have hown := Message.isOwnName_fileName (isValid_of_generate hemitter hgenerate)
  exact ⟨isPlain_of_isOwnName hown, fun _ => .final hm hgenerate, .rejected hm hgenerate⟩

-- A manifest that the run read is the one that the directory holds.
theorem isSome_recorded?_of_previousManifest (hmanifest : s.manifest = true)
    (htarget : s.target ≠ []) (hlinks : p.disk.IsLinkFree)
    (h : previousManifest s.toOptions p = .ok (previous, q)) {name : Text}
    (hname : name ∈ previous.files.names) :
    (p.disk.recorded? (Disk.destination [] (Path.pieces s.target)) name).isSome = true := by
  obtain ⟨-, ⟨t, hread, htext⟩ | ⟨hempty, -⟩⟩ := previousManifest_cases hmanifest h
  . have hnode := hlinks.node?_of_read htarget Manifest.isPlain_fileName hread
    rw [Disk.isSome_recorded?_iff]
    exact ⟨previous, ⟨t, hnode, htext⟩, hname⟩
  . rw [hempty] at hname
    cases hname

theorem allows_mayLeave (hemitter : s.emitterInUse = .values) (hlinks : p.disk.IsLinkFree)
    (htarget : s.target ≠ [])
    (hbatch : generateSchema schema s (timing.generation schema.messages.length) = .ok batch) :
    Allows s.toOptions schema batch timing { p with disk := madeDisk s p.disk }
      (MayLeave s schema p.disk) := by
  have hadds : p.disk.AddsDirectories (madeDisk s p.disk) :=
    Disk.makeDirectories_addsDirectories p.disk s.target
  refine ⟨not_mayLeave_link, allowsTask_of_mem_files hemitter hbatch, ?_, ?_⟩
  . intro hmanifest previous r hprevious name hname
    obtain ⟨hmem, -, hown⟩ := mem_staleNames_iff.1 hname
    refine .stale hmanifest hown ?_
    rw [← hadds.recorded?_eq]
    exact isSome_recorded?_of_previousManifest hmanifest htarget (hadds.isLinkFree hlinks) hprevious
      hmem
  . intro hmanifest previous r _
    exact .manifest hmanifest _

/-! What a whole run changes. -/

theorem isPlain_fileName_of_generate (hemitter : s.emitterInUse = .values) {m : Message}
    {printed : Code.Printed} (h : generate m s = .ok printed) :
    Path.IsPlain m.fileName ∧ fileSuffix <:+ m.fileName :=
  ⟨isPlain_of_isOwnName (Message.isOwnName_fileName (isValid_of_generate hemitter h)),
    List.suffix_append _ _⟩

/--
The run made a directory at the place, which the path of the target directory leads through, and
where nothing was before.
-/
def MakesDirectory (s : Settings) (d e : Disk) (place : Place) : Prop :=
  place ∈ Disk.trail [] (Path.pieces s.target) ∧ d.node? place = none
    ∧ e.node? place = some .directory

theorem write_changes (hemitter : s.emitterInUse = .values) (hlinks : p.disk.IsLinkFree)
    (h : write (some s) schema timing p = (q, failure?)) (place : Place) :
    q.disk.node? place = p.disk.node? place ∨ MakesDirectory s p.disk q.disk place
      ∨ MayLeave s schema p.disk place (q.disk.node? place) := by
  obtain ⟨made, hmakes, -, hchange⟩ := write_changesTo hlinks
    (fun batch hbatch htarget _ => allows_mayLeave hemitter hlinks htarget hbatch) h
  rcases hchange place with hsame | hleft
  . unfold MakesDirectory
    rw [hsame]
    exact (hmakes place).imp_right .inl
  . exact .inr (.inr hleft)

theorem MayLeave.isPrefix {n : Option Node} {place : Place} (h : MayLeave s schema d place n) :
    Disk.destination [] (Path.pieces s.target) <+: place := by
  cases h
  all_goals exact List.prefix_append _ _

end Writer

end ValueGen
