/-!
This module contains schedules. The files of a schema are worked on by tasks that may run side by
side, so the order in which they take effect is open, and so is the moment at which a task learns
that the work was canceled. A schedule fixes both.
-/

namespace ValueGen

/--
How a task meets the cancellation of the work it belongs to.
-/
inductive Start where
  /-- The task started before anything was canceled, so it always does its work. -/
  | early
  /-- The task does its work unless a task before it failed, which cancels the rest. -/
  | late
  /-- The work was canceled from outside before the task started. -/
  | canceled
  deriving DecidableEq, Repr, Inhabited

/--
The numbers of the tasks in the order in which they take effect.
-/
abbrev Schedule := List (Nat × Start)

namespace Schedule

/--
The tasks one after the other. If the work was canceled from outside, none of them starts.
-/
def inOrder (n : Nat) (canceled : Bool) : Schedule :=
  (List.range n).map fun i => (i, if canceled then .canceled else .late)

/--
Every one of the `n` tasks runs exactly once.
-/
def Covers (s : Schedule) (n : Nat) : Prop := (s.map Prod.fst).Perm (List.range n)

theorem inOrder_covers (n : Nat) (canceled : Bool) : (inOrder n canceled).Covers n := by
  simp [Covers, inOrder, Function.comp_def]

end Schedule

/--
The schedules of a run, for any number of tasks: one for the tasks that generate files, and one for
the tasks that write them.
-/
structure Timing where
  generation : Nat → Schedule
  writing : Nat → Schedule

def Timing.inOrder (canceled : Bool) : Timing where
  generation := fun n => Schedule.inOrder n canceled
  writing := fun n => Schedule.inOrder n canceled

end ValueGen
