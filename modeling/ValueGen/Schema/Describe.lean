import ValueGen.Schema.Basic
import ValueGen.Text.JsonValue

/-!
This module contains two descriptions of a schema: its declarations, and a JSON text that also says
which names generated code uses.
-/

namespace ValueGen

def Field.line (f : Field) : Text := "  " ++ f.declaration ++ ";\n"

def Message.declaration (m : Message) : Text :=
  "message " ++ m.name ++ " \x7b\n" ++ m.fields.flatMap Field.line ++ "\x7d\n"

/--
The declarations of a schema. A package comes first, and an empty line before each message.
-/
def Schema.declarations (s : Schema) : Text :=
  let package : Text := if s.space.isEmpty then [] else "package " ++ s.space ++ ";\n"
  package ++ s.messages.flatMap fun m => 10 :: m.declaration

def Field.toJson (f : Field) : JsonValue :=
  let declared : List (Text × JsonValue) := [("id", .integer f.id), ("name", .text f.name),
    ("rule", .text f.rule.keyword), ("type", .text f.type.spelling)]
  let message : List (Text × JsonValue) :=
    if f.type.isMessage then [("message", .bool true)] else []
  let generated : List (Text × JsonValue) := [("accessor", .text f.accessor),
    ("setter", .text f.setter)]
  .object (declared ++ message ++ generated)

def Message.toJson (m : Message) : JsonValue :=
  .object [("name", .text m.name), ("fields", .list (m.fields.map Field.toJson))]

def Schema.toJson (s : Schema) : JsonValue :=
  let package : List (Text × JsonValue) :=
    if s.space.isEmpty then [] else [("package", .text s.space)]
  let messages : Text × JsonValue := ("messages", .list (s.messages.map Message.toJson))
  .object (package ++ [messages])

end ValueGen
