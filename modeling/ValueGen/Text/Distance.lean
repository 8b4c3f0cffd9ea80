import ValueGen.Text.Basic

/-!
This module contains the edit distance of two texts: the least number of bytes that have to be
inserted, removed or replaced to get from one to the other.
-/

namespace ValueGen

namespace Text

/--
The distances of a text, one byte longer than before, to the beginnings of another text. The
distances before are `above`, and the distance to the beginning that ends here is `left`.
-/
def distanceRow (b : UInt8) (left : Nat) : List Nat → Text → List Nat
  | corner :: above :: rest, c :: t =>
    let here := if b == c then corner else min (min left above) corner + 1
    here :: distanceRow b here (above :: rest) t
  | _, _ => []

def distance (s t : Text) : Nat :=
  go 0 (List.range (t.length + 1)) s
where
  go (n : Nat) (row : List Nat) : Text → Nat
    | [] => row.getLastD 0
    | b :: s => go (n + 1) ((n + 1) :: distanceRow b (n + 1) row t) s

end Text

end ValueGen
