import ValueGen.Text.Basic

/-!
This module contains the primitive types and the types of fields.
-/

namespace ValueGen

/--
The primitive types. `none` marks a keyword that names no primitive type, and `invalid` a number
that stands for none of the others.
-/
inductive Primitive where
  | none
  | int32
  | int64
  | float
  | double
  | bool
  | bytes
  | string
  | invalid
  deriving DecidableEq, Repr, Inhabited

namespace Primitive

/--
The primitive types that have a keyword, in the order of their numbers.
-/
def all : List Primitive := [.int32, .int64, .float, .double, .bool, .bytes, .string]

def keyword : Primitive → Text
  | .none => "none"
  | .int32 => "int32"
  | .int64 => "int64"
  | .float => "float"
  | .double => "double"
  | .bool => "bool"
  | .bytes => "bytes"
  | .string => "string"
  | .invalid => "invalid"

def ofNumber : Nat → Primitive
  | 0 => .none
  | n + 1 => all[n]?.getD .invalid

/--
The primitive type with a given keyword, `none` if there is no such type.
-/
def ofKeyword (t : Text) : Primitive := (all.find? (·.keyword == t)).getD .none

def isValid : Primitive → Bool
  | .invalid => false
  | _ => true

def isNumeric : Primitive → Bool
  | .int32 | .int64 | .float | .double => true
  | _ => false

theorem ofKeyword_mem (t : Text) : ofKeyword t = .none ∨ ofKeyword t ∈ all := by
  unfold ofKeyword
  cases h : all.find? (·.keyword == t) with
  | none => exact Or.inl rfl
  | some p => exact Or.inr (List.mem_of_find?_eq_some h)

end Primitive

/--
The type of a field: a primitive type, or the name of a message.
-/
structure FieldType where
  primitive : Primitive
  message : Text
  deriving DecidableEq, Repr, Inhabited

namespace FieldType

/--
The type that a keyword stands for. A keyword of no primitive type refers to a message.
-/
def ofKeyword (t : Text) : FieldType :=
  match Primitive.ofKeyword t with
  | .none => ⟨.none, t⟩
  | p => ⟨p, []⟩

def isMessage (t : FieldType) : Bool := t.primitive == .none && !t.message.isEmpty

def spelling (t : FieldType) : Text := if t.isMessage then t.message else t.primitive.keyword

end FieldType

end ValueGen
