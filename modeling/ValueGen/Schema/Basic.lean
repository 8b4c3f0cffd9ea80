import ValueGen.Schema.Message

/-!
This module contains schemas: the messages of one source.
-/

namespace ValueGen

/--
The messages of one source in the order of their declaration, and the package that the source
declares.
-/
structure Schema where
  space : Text
  messages : List Message
  deriving DecidableEq, Repr, Inhabited

def Schema.message? (s : Schema) (name : Text) : Option Message :=
  s.messages.find? (·.name == name)

end ValueGen
