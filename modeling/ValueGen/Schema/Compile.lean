import ValueGen.Schema.Basic
import ValueGen.Source.Outline

/-!
This module contains the checking of outlines. A source is compiled into a schema if nothing is
wrong with it, and otherwise everything that is wrong is reported in the order of the source.
-/

namespace ValueGen

namespace Compile

structure State where
  declared : List (Text × Position)
  references : List Reference
  faults : List Failure

def State.initial : State := ⟨[], [], []⟩

/--
Check a field. A field without a known rule or without an id is dropped.
-/
def field (message : Text) (f : FieldOutline) (s : State) : Option Field × State :=
  match Rule.ofKeyword? f.rule with
  | none => (none, { s with faults := s.faults ++ [.unknownRule message f.name f.rule f.pos] })
  | some rule =>
    match Text.readInteger 32 f.id with
    | .error fault =>
      let cause := .plain ("strconv.ParseInt: parsing " ++ f.id.quote ++ ": " ++ fault.message)
      (none, { s with faults := s.faults ++ [.invalidId message f.name f.id f.pos (some cause)] })
    | .ok id =>
      let type := FieldType.ofKeyword f.type
      -- Whether there is such a message is known only at the end of the source.
      let references :=
        if type.isMessage then
          s.references ++ [⟨message, f.name, type.message, f.pos⟩]
        else
          s.references
      (some ⟨rule, type, f.name, id⟩, { s with references := references })

def fields (message : Text) : List FieldOutline → State → List Field × State
  | [], s => ([], s)
  | f :: fs, s =>
    let (field?, s) := field message f s
    let (rest, s) := fields message fs s
    (field?.toList ++ rest, s)

/--
Check a message. A message with the name of an earlier one is dropped unseen.
-/
def message (m : MessageOutline) (s : State) : Option Message × State :=
  match s.declared.lookup m.name with
  | some first =>
    (none, { s with faults := s.faults ++ [.duplicateMessage m.name first m.pos] })
  | none =>
    let s := { s with declared := s.declared ++ [(m.name, m.pos)] }
    let (fs, s) := fields m.name m.fields s
    let checked : Message := ⟨m.name, fs⟩
    if checked.isValid then
      (some checked, s)
    else
      (some checked,
        { s with faults := s.faults ++ [.invalidMessage m.name m.pos checked.collisions] })

def messages : List MessageOutline → State → List Message × State
  | [], s => ([], s)
  | m :: ms, s =>
    let (message?, s) := message m s
    let (rest, s) := messages ms s
    (message?.toList ++ rest, s)

/--
The names of a list without repetition, in the order of first use.
-/
def distinct (names : List Text) : List Text :=
  names.foldl (fun seen name => if seen.contains name then seen else seen ++ [name]) []

def unresolved (s : State) : List Reference :=
  s.references.filter fun r => (s.declared.lookup r.type).isNone

/--
All that is wrong, with the references that name no message at the end.
-/
def allFaults (s : State) : List Failure :=
  match unresolved s with
  | [] => s.faults
  | sites => s.faults ++ [.unresolved (distinct (sites.map Reference.type)) sites]

end Compile

def Outline.compile (o : Outline) : Except Failure Schema :=
  let (ms, s) := Compile.messages o.messages .initial
  match Compile.allFaults s with
  | [] => .ok ⟨o.package, ms⟩
  | faults => .error (.schema o.file faults)

def Source.compile (file source : Text) : Except Failure Schema :=
  match Source.outline file source with
  | .error f => .error f
  | .ok o => o.compile

end ValueGen
