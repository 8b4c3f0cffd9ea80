/-!
This module contains sets of characters that are given as ranges of code points.
-/

namespace ValueGen

structure CodeRange where
  first : Nat
  last : Nat
  deriving DecidableEq, Repr

namespace CodeRange

def holds (r : CodeRange) (code : Nat) : Bool := r.first ≤ code && code ≤ r.last

def covers (rs : List CodeRange) (code : Nat) : Bool := rs.any (·.holds code)

end CodeRange

end ValueGen
