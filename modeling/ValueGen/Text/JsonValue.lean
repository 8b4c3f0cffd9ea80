import ValueGen.Text.Glyph

/-!
This module contains JSON values and their texts, with an item to a line.
-/

namespace ValueGen

/--
A JSON value. The entries of an object are in order.
-/
inductive JsonValue where
  | bool (b : Bool)
  | integer (n : Int)
  | text (t : Text)
  | list (items : List JsonValue)
  | object (entries : List (Text × JsonValue))
  deriving Repr, Inhabited

namespace JsonValue

/--
How a character is written between quotes. The characters that mean something in markup are escaped
like control characters, and so are the two line separators beyond the ASCII characters.
-/
def escape (c : Char) : Text :=
  match c with
  | '"' => "\\\""
  | '\\' => "\\\\"
  | '\x08' => "\\b"
  | '\x0c' => "\\f"
  | '\n' => "\\n"
  | '\r' => "\\r"
  | '\t' => "\\t"
  | c =>
    if c.toNat < 0x20 || c == '<' || c == '>' || c == '&' || c.toNat == 0x2028
        || c.toNat == 0x2029 then
      "\\u" ++ Text.hex 4 c.toNat
    else
      Text.ofChar c

/--
A text between quotes. Bytes that are no part of a well-formed character are replaced.
-/
def quote (t : Text) : Text := "\"" ++ t.chars.flatMap escape ++ "\""

def newLine (depth : Nat) : Text := 10 :: List.replicate (2 * depth) 32

def bracketed (left right : Text) (depth : Nat) (items : List Text) : Text :=
  if items.isEmpty then
    left ++ right
  else
    left ++ Text.join "," (items.map (newLine (depth + 1) ++ ·)) ++ newLine depth ++ right

mutual

def render (depth : Nat) : JsonValue → Text
  | .bool b => if b then "true" else "false"
  | .integer n => Text.ofInt n
  | .text t => quote t
  | .list items => bracketed "[" "]" depth (renderItems (depth + 1) items)
  | .object entries => bracketed "\x7b" "\x7d" depth (renderEntries (depth + 1) entries)

def renderItems (depth : Nat) : List JsonValue → List Text
  | [] => []
  | v :: vs => render depth v :: renderItems depth vs

def renderEntries (depth : Nat) : List (Text × JsonValue) → List Text
  | [] => []
  | (name, v) :: es => (quote name ++ ": " ++ render depth v) :: renderEntries depth es

end

end JsonValue

end ValueGen
