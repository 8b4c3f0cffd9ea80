import ValueGen.Value.Basic

/-!
This module contains the accumulator of a repeated field. A list of values never changes; an
accumulator does, and the lists built from it do not follow its later changes.
-/

namespace ValueGen

inductive AccessFault where
  /-- The index is negative or not below the length. -/
  | outOfRange (index : Int) (length : Nat)
  | absent
  deriving DecidableEq, Repr

/--
The wording of an access fault. The length is not given for a negative index.
-/
def AccessFault.message : AccessFault → Text
  | .outOfRange index length =>
    if index < 0 then
      "runtime error: index out of range [" ++ Text.ofInt index ++ "]"
    else
      "runtime error: index out of range [" ++ Text.ofInt index ++ "] with length "
        ++ Text.ofNat length
  | .absent => "runtime error: invalid memory address or nil pointer dereference"

def elementAt {α : Type} (items : List α) (index : Int) : Except AccessFault α :=
  match index with
  | .ofNat i =>
    match items[i]? with
    | some a => .ok a
    | none => .error (.outOfRange index items.length)
  | .negSucc _ => .error (.outOfRange index items.length)

/--
An accumulator: it may be absent, and else it holds elements.
-/
inductive Accumulator (α : Type) where
  | absent
  | holding (items : List α)
  deriving DecidableEq, Repr

namespace Accumulator

variable {α : Type}

def empty : Accumulator α := .holding []

/--
The list of the elements. An absent accumulator builds the empty list.
-/
def build : Accumulator α → List α
  | .absent => []
  | .holding items => items

def size (a : Accumulator α) : Nat := a.build.length

/--
Change the elements of an accumulator that is there.
-/
def modify (a : Accumulator α) (f : List α → Except AccessFault (List α)) :
    Except AccessFault (Accumulator α) :=
  match a with
  | .absent => .error .absent
  | .holding items => (f items).map .holding

def add (a : Accumulator α) (more : List α) : Except AccessFault (Accumulator α) :=
  a.modify fun items => .ok (items ++ more)

def clear (a : Accumulator α) : Except AccessFault (Accumulator α) := a.modify fun _ => .ok []

def set (a : Accumulator α) (index : Int) (v : α) : Except AccessFault (Accumulator α) :=
  a.modify fun items => (elementAt items index).map fun _ => items.set index.toNat v

def get (a : Accumulator α) (index : Int) : Except AccessFault α :=
  match a with
  | .absent => .error .absent
  | .holding items => elementAt items index

theorem build_add {a b : Accumulator α} {more : List α} (h : a.add more = .ok b) :
    b.build = a.build ++ more := by
  cases a with
  | absent => simp [add, modify] at h
  | holding items =>
    simp only [add, modify, Except.map, Except.ok.injEq] at h
    subst h
    rfl

end Accumulator

end ValueGen
