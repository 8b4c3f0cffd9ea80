/-!
This module contains the ranges of the integers of a fixed width.
-/

namespace ValueGen

namespace Word

def count (bits : Nat) : Nat := Nat.pow 2 bits

def span (bytes : Nat) : Nat := Nat.pow 256 bytes

def least (bits : Nat) : Int := -(count (bits - 1))

def greatest (bits : Nat) : Int := count (bits - 1) - 1

/--
Is an integer one of some bits in two's complement?
-/
def holds (bits : Nat) (n : Int) : Bool := least bits ≤ n && n ≤ greatest bits

theorem span_zero : span 0 = 1 := rfl

theorem span_succ (bytes : Nat) : span (bytes + 1) = span bytes * 256 := rfl

end Word

end ValueGen
