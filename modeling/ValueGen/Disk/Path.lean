import ValueGen.Text.Basic

/-!
This module contains the texts of paths: their steps, the lexical simplification of a path, and the
path of the directory that a path lies in.
-/

namespace ValueGen

namespace Path

def separator : UInt8 := 0x2f

def isRooted (p : Text) : Bool := p.head? == some separator

/--
The steps of a path. A path that ends with a separator has a last step to the directory itself.
-/
def steps (p : Text) : List Text :=
  (p.splitOn separator).filter (!·.isEmpty)
    ++ if p.getLast? == some separator then [("." : Text)] else []

/--
Take a step away from the steps so far, with the last one first. A step up removes the last step
if there is one to remove; at the root there is nothing above.
-/
def clean.push (rooted : Bool) (taken : List Text) (step : Text) : List Text :=
  if step == "." then
    taken
  else if step == ".." then
    match taken with
    | [] => if rooted then [] else [".."]
    | last :: before => if last == ".." then ".." :: taken else before
  else
    step :: taken

/--
The shortest path that leads to the same place if there are no links.
-/
def clean (p : Text) : Text :=
  let taken := ((steps p).foldl (clean.push (isRooted p)) []).reverse
  if isRooted p then
    separator :: Text.join [separator] taken
  else if taken.isEmpty then
    "."
  else
    Text.join [separator] taken

def join (directory name : Text) : Text := clean (directory ++ separator :: name)

/--
The path of the directory that a path lies in, as it is written, unless it is the root or the
working directory.
-/
def parent? (p : Text) : Option Text :=
  let upper := ((p.reverse.dropWhile (· == separator)).dropWhile (· != separator)).reverse
  if 1 < upper.length then some upper.dropLast else none

def directory (p : Text) : Text :=
  clean (p.reverse.dropWhile (· != separator)).reverse

/--
The part of a path from the last dot of its last step.
-/
def extension (p : Text) : Text :=
  let last := p.afterLast separator
  if last.contains 0x2e then 0x2e :: last.afterLast 0x2e else []

theorem length_parent?_lt {p q : Text} (h : parent? p = some q) : q.length < p.length := by
  unfold parent? at h
  dsimp only at h
  split at h
  · rename_i hlong
    simp only [Option.some.injEq] at h
    subst h
    have h1 := (List.dropWhile_sublist (fun b : UInt8 => b == separator) (l := p.reverse)).length_le
    have h2 := (List.dropWhile_sublist (fun b : UInt8 => b != separator)
      (l := p.reverse.dropWhile (· == separator))).length_le
    simp only [List.length_reverse, List.length_dropLast] at *
    omega
  · simp at h

end Path

end ValueGen
