import ValueGen.Proofs.Disk.Path
import ValueGen.Proofs.Output.FileName
import ValueGen.Proofs.Output.Generation

/-!
This module contains which generated files are part of every build of their package. The go command
leaves out a file whose name begins with an underscore, and on most platforms one whose name ends in
the name of a platform. The name of a file is the snake-case name of its message, and nothing keeps
it from looking like one of these.
-/

namespace ValueGen

namespace Text

theorem join_cons {sep : Text} (t : Text) {ts : List Text} (hne : ts ≠ []) :
    join sep (t :: ts) = t ++ sep ++ join sep ts := by
  cases ts with
  | nil => exact absurd rfl hne
  | cons u ts => rfl

theorem join_splitOn (sep : UInt8) (t : Text) : join [sep] (splitOn sep t) = t := by
  induction t with
  | nil => rfl
  | cons b t ih =>
    unfold splitOn
    split
    . next hb =>
      rw [join_cons [] (splitOn_ne_nil sep t), ih, beq_iff_eq.1 hb]
      rfl
    . cases hsplit : splitOn sep t with
      | nil => exact absurd hsplit (splitOn_ne_nil sep t)
      | cons p ps =>
        rw [hsplit] at ih
        rw [← ih]
        cases ps with
        | nil => rfl
        | cons q qs => rfl

theorem splitOn_join {sep : UInt8} {ts : List Text} (hne : ts ≠ []) (h : ∀ t ∈ ts, sep ∉ t) :
    splitOn sep (join [sep] ts) = ts := by
  induction ts with
  | nil => exact absurd rfl hne
  | cons t ts ih =>
    rw [List.forall_mem_cons] at h
    by_cases hts : ts = []
    . rw [hts]
      exact splitOn_of_not_mem h.1
    . rw [join_cons t hts, List.append_assoc, List.singleton_append, splitOn_append_cons,
        splitOn_of_not_mem h.1, ih hts h.2]
      rfl

theorem join_append_cons (sep : UInt8) (first : Text) (front : List Text) {ts : List Text}
    (hne : ts ≠ []) :
    join [sep] (first :: front ++ ts) = join [sep] (first :: front) ++ sep :: join [sep] ts := by
  induction front generalizing first with
  | nil =>
    rw [List.singleton_append, join_cons first hne, List.append_assoc, List.singleton_append]
    rfl
  | cons second front ih =>
    rw [List.cons_append, join_cons first (by simp), ih, join_cons first (by simp)]
    simp only [List.append_assoc]

-- The first piece is not counted, so that the others begin behind a separator.
theorem suffix_tail_splitOn_iff {sep : UInt8} {t : Text} {ts : List Text} (hne : ts ≠ [])
    (h : ∀ u ∈ ts, sep ∉ u) :
    ts <:+ (splitOn sep t).tail ↔ sep :: join [sep] ts <:+ t := by
  constructor
  . rintro ⟨front, hfront⟩
    cases hsplit : splitOn sep t with
    | nil => exact absurd hsplit (splitOn_ne_nil sep t)
    | cons first rest =>
      rw [hsplit, List.tail_cons] at hfront
      refine ⟨join [sep] (first :: front), ?_⟩
      rw [← join_append_cons sep first front hne, List.cons_append, hfront, ← hsplit, join_splitOn]
  . rintro ⟨front, rfl⟩
    rw [splitOn_append_cons, splitOn_join hne h, List.tail_append_of_ne_nil (splitOn_ne_nil _ _)]
    exact List.suffix_append _ _

end Text

namespace Build

/--
The operating systems that the go command knows.
-/
def systems : List Text :=
  ["aix", "android", "darwin", "dragonfly", "freebsd", "hurd", "illumos", "ios", "js", "linux",
    "nacl", "netbsd", "openbsd", "plan9", "solaris", "wasip1", "windows", "zos"]

/--
The processor architectures that the go command knows.
-/
def architectures : List Text :=
  ["386", "amd64", "amd64p32", "arm", "armbe", "arm64", "arm64be", "loong64", "mips", "mipsle",
    "mips64", "mips64le", "mips64p32", "mips64p32le", "ppc", "ppc64", "ppc64le", "riscv",
    "riscv64", "s390", "s390x", "sparc", "sparc64", "wasm"]

/--
Words that stand for a platform: the names of a system, of an architecture, or of one of each.
-/
inductive IsPlatform : List Text → Prop where
  | system {s : Text} (hs : s ∈ systems) : IsPlatform [s]
  | architecture {a : Text} (ha : a ∈ architectures) : IsPlatform [a]
  | both {s a : Text} (hs : s ∈ systems) (ha : a ∈ architectures) : IsPlatform [s, a]

/--
The words of a file name after the first one. Only the part before the first dot has words.
-/
def words (file : Text) : List Text := (Text.splitOn 0x5f (file.takeWhile (· != 0x2e))).tail

/--
The name of the file begins with an underscore or a dot, so that it is left out of every build.
-/
def IsHidden (file : Text) : Prop := file.head? = some 0x5f ∨ file.head? = some 0x2e

/--
The file is left out of the builds for other platforms than the one in its name.
-/
def IsBound (file : Text) : Prop :=
  ∃ platform : List Text, IsPlatform platform
    ∧ (platform <:+ words file ∨ platform ++ [("test" : Text)] <:+ words file)

/--
The file is part of every build of its package.
-/
def IsIncluded (file : Text) : Prop := ¬ IsHidden file ∧ ¬ IsBound file

/--
The snake-case name ends in a word for a system or for an architecture, which the word `test` may
follow.
-/
def NamesPlatform (name : Text) : Prop :=
  ∃ p ∈ systems ++ architectures,
    [0x5f] ++ p <:+ name ∨ [0x5f] ++ p ++ ("_test" : Text) <:+ name

-- The last word of a platform is enough for a file to be bound to it.
theorem isBound_iff (file : Text) :
    IsBound file
      ↔ ∃ p ∈ systems ++ architectures, [p] <:+ words file ∨ [p, "test"] <:+ words file := by
  constructor
  . rintro ⟨platform, hplatform, hwords⟩
    cases hplatform with
    | system hs => exact ⟨_, List.mem_append_left _ hs, hwords⟩
    | architecture ha => exact ⟨_, List.mem_append_right _ ha, hwords⟩
    | @both s a hs ha =>
      exact ⟨a, List.mem_append_right _ ha, hwords.imp (List.suffix_cons _ _).trans
        (List.suffix_cons _ _).trans⟩
  . rintro ⟨p, hp, hwords⟩
    rcases List.mem_append.1 hp with hs | ha
    . exact ⟨[p], .system hs, hwords⟩
    . exact ⟨[p], .architecture ha, hwords⟩

theorem not_mem_of_mem_platforms : ∀ p ∈ systems ++ architectures, (0x5f : UInt8) ∉ p := by
  decide +kernel

end Build

/-! The file names of messages. -/

namespace Snake

-- Only the two bytes themselves are rendered with an underscore or a dot in front.
theorem head?_render_eq_iff {b c : UInt8} (hc : c = 0x5f ∨ c = 0x2e) :
    (render b).head? = some c ↔ b = c := by
  have hb := forall_byte (p := fun b => ((render b).head? = some 0x5f ↔ b = 0x5f)
    ∧ ((render b).head? = some 0x2e ↔ b = 0x2e)) (by decide +kernel) b
  rcases hc with rfl | rfl
  . exact hb.1
  . exact hb.2

theorem head?_ofCamel_append_eq_iff {c : UInt8} (hc : c = 0x5f ∨ c = 0x2e) {t : Text}
    (hne : t ≠ []) (rest : Text) :
    (ofCamel t ++ rest).head? = some c ↔ t.head? = some c := by
  cases t with
  | nil => exact absurd rfl hne
  | cons b t =>
    have hrender : (render b).head?.isSome = true := by
      unfold render Text.ofChar
      simp
    unfold ofCamel
    rw [List.append_assoc, List.head?_append, Option.or_of_isSome hrender,
      head?_render_eq_iff hc, List.head?_cons, Option.some.injEq]

end Snake

namespace Message

variable {m : Message}

theorem takeWhile_fileName (h : Identifier.isValid m.name = true) :
    m.fileName.takeWhile (· != 0x2e) = Snake.ofCamel m.name := by
  have hdot : (0x2e : UInt8) ∉ Snake.ofCamel m.name :=
    Snake.not_mem_ofCamel (.inr rfl) (Identifier.not_mem_of_isValid h (by decide) (by decide))
  have hpos : ∀ b ∈ Snake.ofCamel m.name, (b != 0x2e) = true := by
    intro b hb
    rw [bne_iff_ne]
    rintro rfl
    exact hdot hb
  unfold fileName
  rw [List.takeWhile_append_of_pos hpos]
  have hsuffix : fileSuffix.takeWhile (· != 0x2e) = [] := by decide
  rw [hsuffix, List.append_nil]

theorem isHidden_fileName_iff (h : Identifier.isValid m.name = true) :
    Build.IsHidden m.fileName ↔ m.name.head? = some 0x5f := by
  have hne : m.name ≠ [] := by
    intro hnil
    rw [hnil] at h
    exact absurd h (by decide)
  have hdot : m.name.head? ≠ some 0x2e := by
    intro hhead
    exact Identifier.not_mem_of_isValid h (by decide) (by decide) (List.mem_of_head? hhead)
  unfold Build.IsHidden fileName
  rw [Snake.head?_ofCamel_append_eq_iff (.inl rfl) hne,
    Snake.head?_ofCamel_append_eq_iff (.inr rfl) hne, or_iff_left hdot]

theorem isBound_fileName_iff (h : Identifier.isValid m.name = true) :
    Build.IsBound m.fileName ↔ Build.NamesPlatform (Snake.ofCamel m.name) := by
  have hwords {ts : List Text} (hne : ts ≠ []) (hts : ∀ t ∈ ts, (0x5f : UInt8) ∉ t) :
      ts <:+ Build.words m.fileName
        ↔ (0x5f : UInt8) :: Text.join [0x5f] ts <:+ Snake.ofCamel m.name := by
    unfold Build.words
    rw [takeWhile_fileName h]
    exact Text.suffix_tail_splitOn_iff hne hts
  rw [Build.isBound_iff]
  apply exists_congr
  intro p
  apply and_congr_right
  intro hp
  have hunder := Build.not_mem_of_mem_platforms p hp
  have htest : (0x5f : UInt8) ∉ ("test" : Text) := by decide
  rw [hwords (by simp) (by simpa using hunder), hwords (by simp) (by simpa using ⟨hunder, htest⟩)]
  simp only [Text.join, List.append_assoc]
  rfl

end Message

/--
A file that the usual emitter gives is part of every build of its package exactly if the name of its
message does not begin with an underscore, and does not end in words for a platform when it is
written in snake case.
-/
theorem isIncluded_name_iff (schema : Schema) (s : Settings) (schedule : Schedule) (b : Batch)
    (f : GeneratedFile) (hemitter : s.emitterInUse = .values)
    (hcovers : schedule.Covers schema.messages.length)
    (hbatch : generateSchema schema s schedule = .ok b) (hf : f ∈ b.files) :
    Build.IsIncluded f.name
      ↔ f.message.head? ≠ some 0x5f ∧ ¬ Build.NamesPlatform (Snake.ofCamel f.message) := by
  have hsequential := isSequential_of_generateSchema_ok hcovers hbatch
  obtain ⟨m, -, printed, hgenerate, rfl⟩ := hsequential.exists_of_mem_files hf
  have hvalid := isValid_of_generate hemitter hgenerate
  unfold Build.IsIncluded
  dsimp only
  rw [Message.isHidden_fileName_iff hvalid, Message.isBound_fileName_iff hvalid]

/--
A message whose name ends in the name of a system, and a message whose name begins with an
underscore.
-/
def absentSchema : Schema := ⟨"paths", [⟨"PathWindows", []⟩, ⟨"_Path", []⟩]⟩

def absentSettings : Settings := { Settings.default with package := "paths" }

/--
Is there a batch without failures in which there are files for both messages?
-/
def absentsAreGenerated : Bool :=
  match generateSchema absentSchema absentSettings [(0, .early), (1, .early)] with
  | .error _ => false
  | .ok b => b.failed.isEmpty
    && b.files.map (fun f => (f.name, f.message))
      == [(("path_windows.protoval.go" : Text), ("PathWindows" : Text)),
        (("_path.protoval.go" : Text), ("_Path" : Text))]

theorem exists_batch_absent :
    ∃ b f g, generateSchema absentSchema absentSettings [(0, .early), (1, .early)] = .ok b
      ∧ b.failed = [] ∧ f ∈ b.files ∧ f.name = "path_windows.protoval.go"
      ∧ f.message = "PathWindows" ∧ g ∈ b.files ∧ g.name = "_path.protoval.go" := by
  have h : absentsAreGenerated = true := by decide +kernel
  unfold absentsAreGenerated at h
  split at h
  . cases h
  . next b hbatch =>
    rw [Bool.and_eq_true, List.isEmpty_iff, beq_iff_eq] at h
    obtain ⟨f, files, hfiles, hfirst, hrest⟩ := List.map_eq_cons_iff.1 h.2
    obtain ⟨g, none, rfl, hsecond, -⟩ := List.map_eq_cons_iff.1 hrest
    rw [Prod.mk.injEq] at hfirst hsecond
    refine ⟨b, f, g, hbatch, h.1, ?_, hfirst.1, hfirst.2, ?_, hsecond.1⟩
    all_goals simp [hfiles]

theorem isIncluded_name_iff_windows :
    ∃ b f, generateSchema absentSchema absentSettings [(0, .early), (1, .early)] = .ok b
      ∧ f ∈ b.files ∧ f.message = "PathWindows"
      ∧ (Build.IsIncluded f.name
        ↔ f.message.head? ≠ some 0x5f ∧ ¬ Build.NamesPlatform (Snake.ofCamel f.message)) := by
  obtain ⟨b, f, -, hbatch, -, hf, -, hmessage, -⟩ := exists_batch_absent
  exact ⟨b, f, hbatch, hf, hmessage, isIncluded_name_iff absentSchema absentSettings
    [(0, .early), (1, .early)] b f rfl (List.Perm.refl _) hbatch hf⟩

/--
No message of this schema fails, and yet the file of the first one is bound to a platform, and the
file of the second one is left out of every build.
-/
theorem exists_not_isIncluded :
    ∃ b f g, generateSchema absentSchema absentSettings [(0, .early), (1, .early)] = .ok b
      ∧ b.failed = [] ∧ f ∈ b.files ∧ Build.IsBound f.name ∧ g ∈ b.files ∧ Build.IsHidden g.name
      ∧ ¬ Build.IsIncluded f.name ∧ ¬ Build.IsIncluded g.name := by
  obtain ⟨b, f, g, hbatch, hfailed, hf, hfirst, -, hg, hsecond⟩ := exists_batch_absent
  have hbound : Build.IsBound f.name := by
    rw [hfirst]
    exact ⟨["windows"], .system (by decide), .inl (by decide)⟩
  have hhidden : Build.IsHidden g.name := by
    rw [hsecond]
    exact .inl rfl
  exact ⟨b, f, g, hbatch, hfailed, hf, hbound, hg, hhidden, fun h => h.2 hbound,
    fun h => h.1 hhidden⟩

end ValueGen
