/-!
This module contains values that are computed on first use and kept.
-/

namespace ValueGen

/--
A value that is computed once: nothing has been computed yet, or the computation is over.
-/
inductive Once (α : Type) where
  | fresh
  | done (value : α)
  deriving DecidableEq, Repr

namespace Once

variable {ε α : Type}

def isFresh : Once α → Bool
  | .fresh => true
  | .done _ => false

/--
Get the value. Only the first time the computation is run. If it fails, the failure is reported
once, and the default value is kept.
-/
def get [Inhabited α] (o : Once α) (compute : Unit → Except ε α) : Except ε α × Once α :=
  match o with
  | .done v => (.ok v, .done v)
  | .fresh =>
    match compute () with
    | .ok v => (.ok v, .done v)
    | .error e => (.error e, .done default)

theorem get_isFresh [Inhabited α] (o : Once α) (compute : Unit → Except ε α) :
    (o.get compute).2.isFresh = false := by
  unfold get
  split
  · rfl
  · split <;> rfl

end Once

end ValueGen
