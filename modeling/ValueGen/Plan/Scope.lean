import ValueGen.Text.Identifier
import ValueGen.Failure

/-!
This module contains scopes: the names declared in one place of the generated code, a struct with
its methods or the whole package.
-/

namespace ValueGen

/--
The names declared so far, each with what it names, and the owner of the scope.
-/
structure Scope where
  owner : Text
  declared : List (Text × Text)
  deriving DecidableEq, Repr, Inhabited

namespace Scope

def find? (s : Scope) (name : Text) : Option Text := s.declared.lookup name

/--
Declare a name. It has to be an identifier and new.
-/
def declare (s : Scope) (name what : Text) : Except Failure Scope :=
  if !Identifier.isValid name then
    .error (.plain (what ++ " " ++ name.quote ++ " is not a valid Go identifier"))
  else
    match s.find? name with
    | some first =>
      .error (.plain
        (what ++ " " ++ name.quote ++ " collides with " ++ first ++ " in " ++ s.owner))
    | none => .ok { s with declared := s.declared ++ [(name, what)] }

def declareAll (s : Scope) (what : Text) : List Text → Except Failure Scope
  | [] => .ok s
  | name :: names =>
    match s.declare name what with
    | .ok s => s.declareAll what names
    | .error f => .error f

def names (s : Scope) : List Text := s.declared.map Prod.fst

end Scope

end ValueGen
