import Mathlib.Data.List.Infix
import ValueGen.Proofs.Schema.Keyword
import ValueGen.Proofs.Text.Numeral
import ValueGen.Schema.Compile

/-!
This module contains everything that is wrong with an outline, said field by field and message by
message without a state.
-/

namespace ValueGen

namespace FieldOutline

def HasRule (f : FieldOutline) : Prop :=
  f.rule = "optional" ∨ f.rule = "required" ∨ f.rule = "repeated"

def HasId (f : FieldOutline) : Prop := ∃ n, f.id.Denotes n ∧ -2 ^ 31 ≤ n ∧ n < 2 ^ 31

def IsSound (f : FieldOutline) : Prop := f.HasRule ∧ f.HasId

/--
The type of the field is the name of a message, whether or not there is such a message.
-/
def NamesMessage (f : FieldOutline) : Prop := f.type ≠ [] ∧ f.type ∉ FieldType.primitiveKeywords

/--
Two fields share a name or an id. The ids are compared as numbers.
-/
def Collides (f g : FieldOutline) : Prop := f.name = g.name ∨ ∃ n, f.id.Denotes n ∧ g.id.Denotes n

instance (f : FieldOutline) : Decidable f.HasRule := inferInstanceAs (Decidable (_ ∨ _ ∨ _))

instance (f : FieldOutline) : Decidable f.NamesMessage := inferInstanceAs (Decidable (_ ∧ _))

theorem hasId_iff (f : FieldOutline) : f.HasId ↔ ∃ n, Text.readInteger 32 f.id = .ok n := by
  simp only [HasId, Text.readInteger_eq_ok_iff, Text.DenotesWithin, Nat.add_one_sub_one]

instance (f : FieldOutline) : Decidable f.HasId :=
  match h : Text.readInteger 32 f.id with
  | .ok n => isTrue ((hasId_iff f).2 ⟨n, h⟩)
  | .error _ => isFalse fun hid => by
    obtain ⟨n, hn⟩ := (hasId_iff f).1 hid
    rw [h] at hn
    cases hn

instance (f : FieldOutline) : Decidable f.IsSound := inferInstanceAs (Decidable (_ ∧ _))

instance (f g : FieldOutline) : Decidable (f.Collides g) :=
  decidable_of_iff (f.name = g.name ∨ ∃ n ∈ Text.integer? f.id, Text.integer? g.id = some n) <| by
    simp only [Collides, Option.mem_def, Text.integer?_eq_some_iff]

instance (f : FieldOutline) : Decidable (∃ n, f.id.Denotes n) :=
  decidable_of_iff ((Text.integer? f.id).isSome = true) <| by
    simp only [Option.isSome_iff_exists, Text.integer?_eq_some_iff]

/--
Why the text of an id is not an integer of 32 bits.
-/
def idFault (f : FieldOutline) : IntegerFault :=
  if ∃ n, f.id.Denotes n then .outOfRange else .malformed

/--
What is wrong with a field of a message, if anything is. If both the rule and the id are bad, it is
the rule.
-/
def fault? (message : Text) (f : FieldOutline) : Option Failure :=
  if ¬ f.HasRule then
    some (.unknownRule message f.name f.rule f.pos)
  else if ¬ f.HasId then
    some (.invalidId message f.name f.id f.pos
      (some (.plain ("strconv.ParseInt: parsing " ++ f.id.quote ++ ": " ++ f.idFault.message))))
  else
    none

/--
The field that a sound outline of a field declares.
-/
def toField (f : FieldOutline) : Field where
  rule := (Rule.ofKeyword? f.rule).getD .invalid
  type := FieldType.ofKeyword f.type
  name := f.name
  id := (Text.integer? f.id).getD 0

def toReference (message : Text) (f : FieldOutline) : Reference := ⟨message, f.name, f.type, f.pos⟩

end FieldOutline

namespace MessageOutline

def soundFields (m : MessageOutline) : List FieldOutline := m.fields.filter (·.IsSound)

def toMessage (m : MessageOutline) : Message := ⟨m.name, m.soundFields.map FieldOutline.toField⟩

def IsCollisionFree (m : MessageOutline) : Prop :=
  m.soundFields.Pairwise fun f g => ¬ f.Collides g

instance (m : MessageOutline) : Decidable m.IsCollisionFree :=
  inferInstanceAs (Decidable (List.Pairwise _ _))

/--
What is wrong with a message: its fields in order, and then their collisions.
-/
def faults (m : MessageOutline) : List Failure :=
  m.fields.filterMap (·.fault? m.name)
    ++ if m.IsCollisionFree then [] else [.invalidMessage m.name m.pos m.toMessage.collisions]

/--
What is wrong with a message that follows the messages `earlier`. If one of those has its name, that
is the only fault.
-/
def faultsAfter (earlier : List MessageOutline) (m : MessageOutline) : List Failure :=
  match earlier.find? (·.name = m.name) with
  | some first => [.duplicateMessage m.name first.pos m.pos]
  | none => m.faults

def IsNewAfter (earlier : List MessageOutline) (m : MessageOutline) : Prop :=
  ∀ e ∈ earlier, e.name ≠ m.name

instance (earlier : List MessageOutline) (m : MessageOutline) : Decidable (m.IsNewAfter earlier) :=
  inferInstanceAs (Decidable (∀ e ∈ earlier, e.name ≠ m.name))

/--
The messages of a list, each with the list of those before it.
-/
def inContext (ms : List MessageOutline) : List (List MessageOutline × MessageOutline) :=
  ms.inits.zip ms

/--
The messages of a list whose names are not declared before them.
-/
def newOnes (ms : List MessageOutline) : List MessageOutline :=
  ((inContext ms).filter fun c => c.2.IsNewAfter c.1).map Prod.snd

theorem inContext_cons (m : MessageOutline) (ms : List MessageOutline) :
    inContext (m :: ms) = ([], m) :: (inContext ms).map (Prod.map (m :: ·) id) := by
  unfold inContext
  rw [List.inits_cons, List.zip_cons_cons, List.zip_map_left]

theorem inContext_append_singleton (ms : List MessageOutline) (m : MessageOutline) :
    inContext (ms ++ [m]) = inContext ms ++ [(ms, m)] := by
  induction ms with
  | nil => rfl
  | cons first ms ih =>
    rw [List.cons_append, inContext_cons, inContext_cons, ih]
    simp

theorem newOnes_append_singleton (ms : List MessageOutline) (m : MessageOutline) :
    newOnes (ms ++ [m]) = newOnes ms ++ if m.IsNewAfter ms then [m] else [] := by
  unfold newOnes
  rw [inContext_append_singleton, List.filter_append, List.map_append]
  by_cases h : m.IsNewAfter ms
  all_goals simp [h]

end MessageOutline

namespace Outline

/--
The type of the field names a message that the outline does not declare.
-/
def Lacks (o : Outline) (f : FieldOutline) : Prop :=
  f.NamesMessage ∧ ∀ m ∈ o.messages, m.name ≠ f.type

instance (o : Outline) (f : FieldOutline) : Decidable (o.Lacks f) :=
  inferInstanceAs (Decidable (_ ∧ ∀ m ∈ o.messages, m.name ≠ f.type))

def danglingSites (o : Outline) : List Reference :=
  (MessageOutline.newOnes o.messages).flatMap fun m =>
    (m.soundFields.filter (o.Lacks ·)).map (·.toReference m.name)

/--
Everything that is wrong with an outline.
-/
def faults (o : Outline) : List Failure :=
  (MessageOutline.inContext o.messages).flatMap (fun c => c.2.faultsAfter c.1)
    ++ if o.danglingSites = [] then
        []
      else
        [.unresolved (o.danglingSites.map Reference.type).eraseDups o.danglingSites]

end Outline

end ValueGen
