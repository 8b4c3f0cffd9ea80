import ValueGen.Source.Position

/-!
This module contains the statements of a declaration source as they are read, supported or not.
-/

namespace ValueGen

/--
A field as it is written. The three labels are recorded each on its own.
-/
structure FieldStatement where
  optional : Bool
  required : Bool
  repeated : Bool
  type : Text
  name : Text
  number : Int
  hasOptions : Bool
  line : Nat
  column : Nat
  deriving DecidableEq, Repr, Inhabited

/--
A statement that is read only to be refused, with what it is called and where it starts.
-/
inductive Construct where
  | importFile (file : Text)
  | option (name : Text)
  | enum (name : Text)
  | service (name : Text)
  | oneof (name : Text)
  | mapField (name : Text)
  | group (name : Text)
  | extensions
  | reserved
  | nestedMessage (name : Text)
  deriving DecidableEq, Repr, Inhabited

inductive Member where
  | comment
  | field (f : FieldStatement)
  | other (c : Construct) (line column : Nat)
  deriving DecidableEq, Repr, Inhabited

inductive Statement where
  | comment
  | level
  | edition
  | package (name : Text) (line column : Nat)
  | message (name : Text) (isExtend : Bool) (members : List Member) (line column : Nat)
  | other (c : Construct) (line column : Nat)
  deriving DecidableEq, Repr, Inhabited

end ValueGen
