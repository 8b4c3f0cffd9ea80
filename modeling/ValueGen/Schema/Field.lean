import ValueGen.Schema.Rule
import ValueGen.Schema.Primitive
import ValueGen.Names.Camel

/-!
This module contains the fields of messages and the names that generated code uses for them.
-/

namespace ValueGen

structure Field where
  rule : Rule
  type : FieldType
  name : Text
  id : Int
  deriving DecidableEq, Repr, Inhabited

namespace Field

def isRepeated (f : Field) : Bool := f.rule == .repeated

def isRequired (f : Field) : Bool := f.rule == .required

/--
The name that the slot of a builder is derived from. It tells the accumulator of a repeated field
from the finished sequence.
-/
def slotName (f : Field) : Text := if f.isRepeated then f.name ++ "_list" else f.name

def accessor (f : Field) : Text := Camel.upper f.name

/--
The name of the storage of the value, and of the constructor's parameter.
-/
def varName (f : Field) : Text := Camel.lower f.name

def builderAccessor (f : Field) : Text := Camel.upper f.slotName

def builderVarName (f : Field) : Text := Camel.lower f.slotName

def setter (f : Field) : Text := "Set" ++ f.builderAccessor

def declaration (f : Field) : Text :=
  f.rule.keyword ++ " " ++ f.type.spelling ++ " " ++ f.name ++ " = " ++ Text.ofInt f.id

end Field

end ValueGen
