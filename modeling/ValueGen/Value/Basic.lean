import ValueGen.Decimal.Shortest

/-!
This module contains the values that the fields of generated types hold, and how they are written
as text.
-/

namespace ValueGen

/--
A value of a field. Byte strings and messages may be absent.
-/
inductive Value where
  | absent
  | text (t : Text)
  | integer (n : Int)
  | single (x : Floating)
  | double (x : Floating)
  | bool (b : Bool)
  | bytes (bs : Option Text)
  | message (shown : Option Text)
  | list (items : List Value)
  deriving Repr, Inhabited

namespace Value

/--
Floating-point numbers are written positionally from 0.0001 up to a million.
-/
def floats : FloatStyle := ⟨-4, 6⟩

/--
What is written in place of an absent value.
-/
def absentText : Text := "<nil>"

def bracketed (items : List Text) : Text := "[" ++ Text.join ", " items ++ "]"

mutual

def render : Value → Text
  | .absent => absentText
  | .text t => t
  | .integer n => Text.ofInt n
  | .single x => floats.render .single x
  | .double x => floats.render .double x
  | .bool true => "true"
  | .bool false => "false"
  | .bytes none => absentText
  | .bytes (some bs) => bracketed (bs.map fun b => Text.ofNat b.toNat)
  | .message none => absentText
  | .message (some shown) => shown
  | .list items => bracketed (renderAll items)

def renderAll : List Value → List Text
  | [] => []
  | v :: vs => render v :: renderAll vs

end

end Value

/--
A named value with named fields, as it is written: the name, and between braces each field with its
value.
-/
structure Description where
  name : Text
  fields : List (Text × Value)
  deriving Repr, Inhabited

namespace Description

def start (name : Text) : Description := ⟨name, []⟩

def add (d : Description) (name : Text) (v : Value) : Description :=
  { d with fields := d.fields ++ [(name, v)] }

def fieldText (f : Text × Value) : Text := f.1 ++ "=" ++ f.2.render

def render (d : Description) : Text :=
  d.name ++ "\x7b" ++ Text.join ", " (d.fields.map fieldText) ++ "\x7d"

end Description

end ValueGen
