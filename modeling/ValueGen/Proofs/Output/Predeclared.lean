import ValueGen.Proofs.Output.Closure
import ValueGen.Proofs.Plan.Declarations

/-!
This module contains which generated files hide a predeclared name. Generated code uses the names of
some types, and the name of the empty pointer, with the meaning that they have in every package. Of
the four package-level names of a message only the first one can be one of these, so that a file
hides a predeclared name exactly if its message has that name; nothing keeps a message from it.
-/

namespace ValueGen

namespace Code

/--
The names that generated code uses with the meaning that they have in every package.
-/
def predeclared : List Text :=
  ["bool", "byte", "float32", "float64", "int32", "int64", "string", "nil"]

/--
The name cannot be declared in a package of generated code: code of the package uses it with another
meaning, or it is the blank one, which declares nothing.
-/
def IsOccupied (id : Text) : Prop := id ∈ predeclared ∨ id = "_"

/--
The file declares a name in its package that cannot be declared there.
-/
def File.Hides (c : File) : Prop := ∃ id ∈ c.packageNames, IsOccupied id

instance (id : Text) : Decidable (IsOccupied id) := inferInstanceAs (Decidable (_ ∨ _))

instance (c : File) : Decidable c.Hides :=
  inferInstanceAs (Decidable (∃ id ∈ c.packageNames, IsOccupied id))

theorem mem_occupied_iff (id : Text) : IsOccupied id ↔ id ∈ ("_" : Text) :: predeclared := by
  rw [List.mem_cons, IsOccupied, or_comm]

end Code

theorem TypeNames.exists_isOccupied_iff (name : Text) :
    (∃ id ∈ (ofName name).toList, Code.IsOccupied id) ↔ Code.IsOccupied name := by
  constructor
  . rintro ⟨id, hid, hoccupied⟩
    by_contra hname
    rw [Code.mem_occupied_iff] at hoccupied hname
    exact Plan.not_mem_of_mem_toList_ofName (by decide) (by decide) hname hid hoccupied
  . intro hoccupied
    exact ⟨name, List.mem_cons_self, hoccupied⟩

/--
The code of each file that the usual emitter gives declares the four names of its message, and it
hides a name that cannot be declared exactly if that is the name of the message.
-/
theorem exists_code_hides_iff (schema : Schema) (s : Settings) (schedule : Schedule) (b : Batch)
    (f : GeneratedFile) (hemitter : s.emitterInUse = .values)
    (hcovers : schedule.Covers schema.messages.length)
    (hbatch : generateSchema schema s schedule = .ok b) (hf : f ∈ b.files) :
    ∃ c, f.IsPrintedFrom schema s c ∧ c.packageNames = (TypeNames.ofName f.message).toList
      ∧ (c.Hides ↔ Code.IsOccupied f.message) := by
  have hsequential := isSequential_of_generateSchema_ok hcovers hbatch
  obtain ⟨c, hprinted⟩ := hsequential.exists_isPrintedFrom hemitter hf
  have hnames : c.packageNames = (TypeNames.ofName f.message).toList := by
    obtain ⟨m, -, hmessage, hemit, -⟩ := hprinted
    rw [hemitter] at hemit
    rw [hmessage]
    exact Emitter.packageNames_values hemit
  refine ⟨c, hprinted, hnames, ?_⟩
  unfold Code.File.Hides
  rw [hnames]
  exact TypeNames.exists_isOccupied_iff f.message

/--
A message with the name of a primitive type, and a message with a field of that type.
-/
def namesakeSchema : Schema :=
  ⟨"people", [⟨"string", []⟩, ⟨"Person", [⟨.required, .ofKeyword "string", "name", 1⟩]⟩]⟩

def namesakeSettings : Settings := { Settings.default with package := "people" }

/--
Is there a batch without failures in which there are files for both messages?
-/
def namesakesAreGenerated : Bool :=
  match generateSchema namesakeSchema namesakeSettings [(0, .early), (1, .early)] with
  | .error _ => false
  | .ok b => b.failed.isEmpty
    && b.files.map GeneratedFile.message == [("string" : Text), ("Person" : Text)]

theorem exists_batch_namesake :
    ∃ b f, generateSchema namesakeSchema namesakeSettings [(0, .early), (1, .early)] = .ok b
      ∧ b.failed = [] ∧ f ∈ b.files ∧ f.message = "string" := by
  have h : namesakesAreGenerated = true := by decide +kernel
  unfold namesakesAreGenerated at h
  split at h
  . cases h
  . next b hbatch =>
    rw [Bool.and_eq_true, List.isEmpty_iff, beq_iff_eq] at h
    have hmem : ("string" : Text) ∈ b.files.map GeneratedFile.message := by
      rw [h.2]
      exact List.mem_cons_self
    obtain ⟨f, hf, hmessage⟩ := List.mem_map.1 hmem
    exact ⟨b, f, hbatch, h.1, hf, hmessage⟩

theorem exists_code_hides_iff_namesake :
    ∃ b f c, generateSchema namesakeSchema namesakeSettings [(0, .early), (1, .early)] = .ok b
      ∧ f ∈ b.files ∧ f.message = "string" ∧ f.IsPrintedFrom namesakeSchema namesakeSettings c
      ∧ (c.Hides ↔ Code.IsOccupied f.message) := by
  obtain ⟨b, f, hbatch, -, hf, hmessage⟩ := exists_batch_namesake
  obtain ⟨c, hprinted, -, hiff⟩ := exists_code_hides_iff namesakeSchema namesakeSettings
    [(0, .early), (1, .early)] b f rfl (List.Perm.refl _) hbatch hf
  exact ⟨b, f, c, hbatch, hf, hmessage, hprinted, hiff⟩

/--
No message of this schema fails, and yet the file of the first one hides the name of the type that
the field of the second one has.
-/
theorem exists_file_hides :
    ∃ b f c, generateSchema namesakeSchema namesakeSettings [(0, .early), (1, .early)] = .ok b
      ∧ b.failed = [] ∧ f ∈ b.files ∧ f.IsPrintedFrom namesakeSchema namesakeSettings c
      ∧ ("string" : Text) ∈ c.packageNames ∧ ("string" : Text) ∈ Code.predeclared ∧ c.Hides := by
  obtain ⟨b, f, hbatch, hfailed, hf, hmessage⟩ := exists_batch_namesake
  have hcovers : Schedule.Covers [(0, .early), (1, .early)] namesakeSchema.messages.length :=
    List.Perm.refl _
  have hsequential := isSequential_of_generateSchema_ok hcovers hbatch
  obtain ⟨c, hprinted⟩ := hsequential.exists_isPrintedFrom rfl hf
  have hname : ("string" : Text) ∈ c.packageNames := by
    obtain ⟨m, -, hown, hemit, -⟩ := hprinted
    rw [Emitter.packageNames_values hemit, ← hown, hmessage]
    exact List.mem_cons_self
  have hpredeclared : ("string" : Text) ∈ Code.predeclared := by decide
  exact ⟨b, f, c, hbatch, hfailed, hf, hprinted, hname, hpredeclared, "string", hname,
    .inl hpredeclared⟩

end ValueGen
