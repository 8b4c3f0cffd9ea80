import ValueGen.Settings.Basic

/-!
This module contains single settings and how lists of them are applied.
-/

namespace ValueGen

inductive Setting where
  | header (t : Text)
  | package (t : Text)
  | target (t : Text)
  | workers (n : Int)
  | runtime (t : Text)
  | format (b : Bool)
  | manifest (b : Bool)
  | emitter (e : Option Emitter)

namespace Setting

/--
Why a setting is refused, if it is. This does not depend on the settings it is applied to.
-/
def fault? : Setting → Option Failure
  | .package t =>
    if t.isEmpty then
      some (.setting "Package" none "package cannot be empty")
    else if !Settings.isPackageName t then
      some (.setting "Package" (some t) "not a valid Go package name")
    else
      none
  | .target t =>
    if t.isEmpty then some (.setting "Target" none "target directory cannot be empty") else none
  | .workers n =>
    if n < 0 then
      some (.setting "Workers" (some (Text.ofInt n)) "workers cannot be negative")
    else
      none
  | .runtime t =>
    if t.isEmpty then
      some (.setting "Runtime" none "runtime import path cannot be empty")
    else
      none
  | .emitter none => some (.setting "Emitter" none "emitter cannot be nil")
  | _ => none

/--
Set the item, whether or not the value is acceptable.
-/
def set (s : Settings) : Setting → Settings
  | .header t => { s with header := t }
  | .package t => { s with package := t }
  | .target t => { s with target := t }
  | .workers n => { s with workers := n }
  | .runtime t => { s with runtime := t }
  | .format b => { s with format := b }
  | .manifest b => { s with manifest := b }
  | .emitter e => { s with emitter := e }

/--
Apply a setting; a refused one changes nothing.
-/
def apply (s : Settings) (o : Setting) : Settings × Option Failure :=
  match o.fault? with
  | some f => (s, some f)
  | none => (o.set s, none)

end Setting

namespace Settings

/--
Apply settings in order up to the first that is refused.
-/
def apply (s : Settings) : List Setting → Settings × Option Failure
  | [] => (s, none)
  | o :: os =>
    match o.apply s with
    | (s, some f) => (s, some f)
    | (s, none) => s.apply os

def applyEach (s : Settings) : List Setting → Settings × List Failure
  | [] => (s, [])
  | o :: os =>
    match o.apply s with
    | (s, f) =>
      match s.applyEach os with
      | (s, fs) => (s, f.toList ++ fs)

/--
Apply all settings in order, and join why some are refused.
-/
def applyAll (s : Settings) (os : List Setting) : Settings × Option Failure :=
  match s.applyEach os with
  | (s, fs) => (s, Failure.join? fs)

/--
The default settings with other ones applied, none of which may be refused.
-/
def ofList (os : List Setting) : Except Failure Settings :=
  match Settings.default.apply os with
  | (s, none) => .ok s
  | (_, some f) => .error f

end Settings

end ValueGen
