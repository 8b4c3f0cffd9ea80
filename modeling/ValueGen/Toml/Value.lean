import ValueGen.Decimal.Binary

/-!
This module contains the values that TOML texts write down, and the statements they consist of.
-/

namespace ValueGen

namespace Toml

abbrev Path := List Text

inductive Value where
  | text (t : Text)
  | integer (n : Int)
  | float (x : Floating)
  | bool (b : Bool)
  | moment (t : Text)
  | array (items : List Value)
  /-- A table on the place of a value. -/
  | table (entries : List (Path × Value))
  deriving Repr, Inhabited

inductive Statement where
  /-- What follows is in the table at a path. -/
  | table (path : Path)
  /-- What follows is in a new table of the tables at a path. -/
  | element (path : Path)
  | entry (path : Path) (value : Value)
  deriving Repr, Inhabited

end Toml

end ValueGen
