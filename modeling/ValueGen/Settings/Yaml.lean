import ValueGen.Settings.Option
import ValueGen.Yaml.Meaning

/-!
This module contains the reading of settings from a YAML text. The first document is a mapping from
the names of settings to scalars; other names are passed over. A setting without a value keeps the
one it has. The entries of other mappings can be merged into the mapping: they count for the names
that it does not have itself.
-/

namespace ValueGen

namespace Yaml

/--
The integral part of a floating-point number as an integer of 64 bits. A number that is too large
has none; one that is too small, and the one just above the greatest integer, give the least.
-/
def integralPart? : Floating → Option Int
  | .notANumber => none
  | .infinite negative => if negative then some (Word.least 64) else none
  | .finite negative digits exponent =>
    let n : Nat :=
      if 0 ≤ exponent then digits * Word.count exponent.toNat
      else digits / Word.count (-exponent).toNat
    if negative then
      some (if Word.holds 64 (-n) then -n else Word.least 64)
    else if Word.holds 64 n then
      some n
    else if n == Word.count 63 then
      some (Word.least 64)
    else
      none

def Meaning.integer? : Meaning → Option Int
  | .integer n => if Word.holds 64 n then some n else none
  | .float x => integralPart? x
  | _ => none

/--
The truth value that a meaning stands for. Some words stand for one only where one is wanted.
-/
def Meaning.bool? : Meaning → Option Bool
  | .bool b => some b
  | .text t =>
    if (["y", "Y", "yes", "Yes", "YES", "on", "On", "ON"] : List Text).contains t then
      some true
    else if (["n", "N", "no", "No", "NO", "off", "Off", "OFF"] : List Text).contains t then
      some false
    else
      none
  | _ => none

def Node.scalar? : Node → Option (Meaning × Text)
  | .scalar tag plain text => scalarMeaning? tag plain text
  | .alias _ target => target.scalar?
  | _ => none

/--
Are two keys the same as they are written? Collections do not differ as keys.
-/
def Node.sameKey : Node → Node → Bool
  | .scalar _ _ t, .scalar _ _ u => t == u
  | .sequence _, .sequence _ => true
  | .mapping _, .mapping _ => true
  | .alias a _, .alias b _ => a == b
  | .alias a _, .cycle b => a == b
  | .cycle a, .alias b _ => a == b
  | .cycle a, .cycle b => a == b
  | _, _ => false

def Node.isMerge : Node → Bool
  | .scalar tag plain text =>
    text == "<<" && (shortTag tag == "!!merge" || (plain && (tag.isEmpty || tag == "!")))
  | _ => false

def distinctKeys : List (Node × Node) → Bool
  | [] => true
  | (k, _) :: es => !(es.any fun e => k.sameKey e.1) && distinctKeys es

end Yaml

/--
The setting with a name that a scalar stands for. There is none if no setting has that name, or if
the scalar is not of its kind.
-/
def Setting.ofScalar? (name : Text) (m : Yaml.Meaning) (text : Text) : Option Setting :=
  if name == "package" then some (.package text)
  else if name == "target" then some (.target text)
  else if name == "header" then some (.header text)
  else if name == "runtime" then some (.runtime text)
  else if name == "workers" then m.integer?.map .workers
  else if name == "format" then m.bool?.map .format
  else if name == "manifest" then m.bool?.map .manifest
  else none

namespace Settings

def names : List Text :=
  ["package", "target", "header", "runtime", "workers", "format", "manifest"]

/--
Settings that are being read from mappings.
-/
structure Draft where
  settings : Settings
  /-- The names that count no more in a mapping that is merged. -/
  seen : List Text

def fromNode? (s : Settings) (name : Text) (n : Yaml.Node) : Option Settings :=
  match n.scalar? with
  | none => none
  | some (.absent, _) => some s
  | some (m, text) => (Setting.ofScalar? name m text).map (Setting.set s)

/--
Read the entries of a mapping, merging aside. The names that the mapping gave a value so far are in
`done`.
-/
def Draft.read? (d : Draft) (merging : Bool) (done : List Text) :
    List (Yaml.Node × Yaml.Node) → Option Draft
  | [] => some d
  | (k, v) :: es =>
    if k.isMerge then
      d.read? merging done es
    else
      match k.scalar? with
      | none => none
      | some (.absent, _) => d.read? merging done es
      | some (_, name) =>
        if merging && d.seen.contains name then
          d.read? merging done es
        else
          let d := if merging then { d with seen := name :: d.seen } else d
          if !names.contains name then
            d.read? merging done es
          else if done.contains name then
            -- The name was written in another way before.
            none
          else
            match fromNode? d.settings name v with
            | none => none
            | some s => ({ d with settings := s } : Draft).read? merging (name :: done) es

def ownNames (es : List (Yaml.Node × Yaml.Node)) : List Text :=
  es.filterMap fun (k, _) => k.scalar?.map Prod.snd

def Draft.mergeOwn? (d : Draft) (es : List (Yaml.Node × Yaml.Node)) : Option Draft :=
  if Yaml.distinctKeys es then d.read? true [] es else none

mutual

/--
Merge a mapping, an alias of one, or each one of a sequence of them. The own entries of a mapping
come first, and then what it merges.
-/
def Draft.merge? (d : Draft) : Yaml.Node → Option Draft
  | .mapping es =>
    match d.mergeOwn? es with
    | none => none
    | some d => d.mergeEntries? es
  | .alias _ (.mapping es) =>
    match d.mergeOwn? es with
    | none => none
    | some d => d.mergeEntries? es
  | .sequence ns => d.mergeEach? ns
  | _ => none
termination_by structural n => n

def Draft.mergeEntries? (d : Draft) : List (Yaml.Node × Yaml.Node) → Option Draft
  | [] => some d
  | (k, v) :: es =>
    if k.isMerge then
      match d.merge? v with
      | none => none
      | some d => d.mergeEntries? es
    else
      d.mergeEntries? es
termination_by structural es => es

def Draft.mergeEach? (d : Draft) : List Yaml.Node → Option Draft
  | [] => some d
  | .mapping es :: ns =>
    match d.mergeOwn? es with
    | none => none
    | some d =>
      match d.mergeEntries? es with
      | none => none
      | some d => d.mergeEach? ns
  | .alias _ (.mapping es) :: ns =>
    match d.mergeOwn? es with
    | none => none
    | some d =>
      match d.mergeEntries? es with
      | none => none
      | some d => d.mergeEach? ns
  | _ :: _ => none
termination_by structural ns => ns

end

def ofMapping? (es : List (Yaml.Node × Yaml.Node)) : Option Settings :=
  if Yaml.distinctKeys es then
    match (⟨.default, []⟩ : Draft).read? false [] es with
    | none => none
    | some d => (({ d with seen := ownNames es } : Draft).mergeEntries? es).map Draft.settings
  else
    none

/--
The settings of a YAML text. Without a document, or with an empty one, they are the default ones.
-/
def ofYaml? (t : Text) : Option Settings :=
  match Yaml.document? t with
  | none => none
  | some none => some .default
  | some (some (.mapping es)) => ofMapping? es
  | some (some n) =>
    match n.scalar? with
    | some (.absent, _) => some .default
    | _ => none

end Settings

end ValueGen
