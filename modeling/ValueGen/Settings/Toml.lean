import ValueGen.Settings.Option
import ValueGen.Toml.Table

/-!
This module contains the reading of settings from a TOML text. They are the items of its outermost
table; their names are compared without regard to case, and other names are passed over. A value
has to be of the very type of its setting.
-/

namespace ValueGen

/--
A name with the letters that do not differ but for their case made equal: the Kelvin sign is a
letter k, and the long s is a letter s.
-/
def Toml.foldCase (name : Text) : Text :=
  Text.ofChars (name.chars.map fun c =>
    if c.toNat == 0x212A then 'k' else if c.toNat == 0x17F then 's' else c.toLower)

/--
Give the setting that an item of a table names the value of the item.
-/
def Settings.fromItem? (s : Settings) (name : Text) (item : Toml.Item) : Option Settings :=
  let name := Toml.foldCase name
  let text (make : Text → Setting) : Option Settings :=
    match item with
    | .value (.text t) => some ((make t).set s)
    | _ => none
  let bool (make : Bool → Setting) : Option Settings :=
    match item with
    | .value (.bool b) => some ((make b).set s)
    | _ => none
  let integer (make : Int → Setting) : Option Settings :=
    match item with
    | .value (.integer n) => some ((make n).set s)
    | _ => none
  if name == "package" then text .package
  else if name == "target" then text .target
  else if name == "header" then text .header
  else if name == "runtime" then text .runtime
  else if name == "workers" then integer .workers
  else if name == "format" then bool .format
  else if name == "manifest" then bool .manifest
  else some s

def Settings.fromTable? (s : Settings) : Toml.Table → Option Settings
  | [] => some s
  | (name, item) :: rest => (s.fromItem? name item).bind fun s => s.fromTable? rest

def Settings.ofToml? (t : Text) : Option Settings :=
  (Toml.Table.ofText? t).bind Settings.default.fromTable?

end ValueGen
