import ValueGen.Disk.Basic
import ValueGen.Disk.Path
import ValueGen.Settings.Toml
import ValueGen.Settings.Yaml
import ValueGen.Text.LowerCase

/-!
This module contains the reading of settings from a file. What the file does not say stays as it is
by default.
-/

namespace ValueGen

inductive SettingsFormat where
  | yaml
  | toml
  deriving DecidableEq, Repr

namespace SettingsFormat

def ofPath? (path : Text) : Option SettingsFormat :=
  let extension := (Path.extension path).lowerCase
  if extension == ".yaml" || extension == ".yml" then some .yaml
  else if extension == ".toml" then some .toml
  else none

def decode? : SettingsFormat → Text → Option Settings
  | .yaml, t => Settings.ofYaml? t
  | .toml, t => Settings.ofToml? t

end SettingsFormat

/--
Read settings from a file. The file has to exist, its name has to say which format it has, and its
content has to be of that format.
-/
def Settings.load (d : Disk) (path : Text) : Except Failure Settings :=
  match d.read path with
  | .error f => .error (.wrapped "read config" f)
  | .ok content =>
    match SettingsFormat.ofPath? path with
    | none =>
      .error (.setting "Config" (some path) "unsupported config format; use .yaml, .yml or .toml")
    | some format =>
      match format.decode? content with
      | none => .error (.wrapped ("decode config " ++ path) (.plain "malformed"))
      | some s => .ok s

end ValueGen
