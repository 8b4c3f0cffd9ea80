import ValueGen.Schema.Field
import ValueGen.Text.Quoted

/-!
This module contains messages, and the collisions between the fields of a message.
-/

namespace ValueGen

inductive CollisionKind where
  | id
  | name
  | unknown
  deriving DecidableEq, Repr, Inhabited

namespace CollisionKind

def ofNumber : Nat → CollisionKind
  | 1 => .id
  | 2 => .name
  | _ => .unknown

def word : CollisionKind → Text
  | .id => "id"
  | .name => "name"
  | .unknown => "unknown"

end CollisionKind

/--
Two fields of one message that share an id or a name. `first` is declared before `second`.
-/
structure Collision where
  kind : CollisionKind
  first : Field
  second : Field
  deriving DecidableEq, Repr

def Collision.describe (c : Collision) : Text :=
  match c.kind with
  | .id =>
    "duplicate field id " ++ Text.ofInt c.second.id ++ ": " ++ c.first.name.quote ++ " and "
      ++ c.second.name.quote
  | _ =>
    "duplicate field name " ++ c.second.name.quote ++ ": ids " ++ Text.ofInt c.first.id ++ " and "
      ++ Text.ofInt c.second.id

/--
What is known of fields that were read in order: the earliest one for each id and for each name, and
the collisions between them.
-/
structure FieldIndex where
  byId : List (Int × Field)
  byName : List (Text × Field)
  collisions : List Collision
  deriving Repr

namespace FieldIndex

def empty : FieldIndex := ⟨[], [], []⟩

/--
Enter a field under its key. If there is an entry for the key, that stays, and the field collides
with it.
-/
def enter {κ : Type} [BEq κ] (kind : CollisionKind) (key : Field → κ)
    (entries : List (κ × Field)) (f : Field) : List (κ × Field) × List Collision :=
  match entries.lookup (key f) with
  | some first => (entries, [⟨kind, first, f⟩])
  | none => (entries ++ [(key f, f)], [])

/--
Enter a field under its id and under its name, each on its own.
-/
def add (index : FieldIndex) (f : Field) : FieldIndex :=
  let (byId, idCollisions) := enter .id Field.id index.byId f
  let (byName, nameCollisions) := enter .name Field.name index.byName f
  ⟨byId, byName, index.collisions ++ idCollisions ++ nameCollisions⟩

def ofFields (fs : List Field) : FieldIndex := fs.foldl add empty

end FieldIndex

structure Message where
  name : Text
  fields : List Field
  deriving DecidableEq, Repr, Inhabited

namespace Message

def index (m : Message) : FieldIndex := .ofFields m.fields

def fieldById? (m : Message) (id : Int) : Option Field := m.index.byId.lookup id

def fieldByName? (m : Message) (name : Text) : Option Field := m.index.byName.lookup name

/--
All collisions between the fields of a message, in the order of the later field.
-/
def collisions (m : Message) : List Collision := m.index.collisions

/--
A message is valid if no two of its fields share an id or a name.
-/
def isValid (m : Message) : Bool := m.collisions.isEmpty

def hasRepeated (m : Message) : Bool := m.fields.any Field.isRepeated

/--
The names of the messages that the fields refer to, in the order of first use.
-/
def references (m : Message) : List Text :=
  ((m.fields.filter (·.type.isMessage)).map (·.type.message)).foldl
    (fun seen name => if seen.contains name then seen else seen ++ [name]) []

end Message

end ValueGen
