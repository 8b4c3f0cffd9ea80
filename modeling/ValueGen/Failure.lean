import ValueGen.Schema.Message
import ValueGen.Source.Position

/-!
This module contains everything that can go wrong, as a tree of causes, and the wording of it.
Failures are classified in two ways: by the sentinels they match, and by the kind of the failures
found on the way down to their causes.
-/

namespace ValueGen

structure Reference where
  message : Text
  field : Text
  type : Text
  pos : Position
  deriving DecidableEq, Repr

def Reference.site (r : Reference) : Text := r.message ++ "." ++ r.field

inductive DiskFault where
  | notFound
  | notDirectory
  | isDirectory
  | notEmpty
  | exists
  | linkLoop
  | invalidName
  | nameTooLong
  deriving DecidableEq, Repr

def DiskFault.message : DiskFault → Text
  | .notFound => "no such file or directory"
  | .notDirectory => "not a directory"
  | .isDirectory => "is a directory"
  | .notEmpty => "directory not empty"
  | .exists => "file exists"
  | .linkLoop => "too many levels of symbolic links"
  | .invalidName => "invalid argument"
  | .nameTooLong => "file name too long"

inductive Failure where
  /-- A source is malformed, or it holds something other than the supported declarations. -/
  | malformed (file : Text) (line column : Int) (text : Text)
  | schema (file : Text) (faults : List Failure)
  | unknownRule (message field rule : Text) (pos : Position)
  | invalidId (message field id : Text) (pos : Position) (cause : Option Failure)
  | invalidMessage (message : Text) (pos : Position) (collisions : List Collision)
  | duplicateMessage (message : Text) (first pos : Position)
  | unresolved (names : List Text) (sites : List Reference)
  | generation (type field file text : Text) (cause : Option Failure)
  | setting (option : Text) (value : Option Text) (text : Text)
  | wrapped (text : Text) (cause : Failure)
  | joined (parts : List Failure)
  | corruptManifest (path : Text)
  | canceled
  | disk (operation path : Text) (fault : DiskFault)
  /-- The disk refused something that is named elsewhere. -/
  | refused (fault : DiskFault)
  /-- A number range of a declaration ends before it started, which stops the reading of the source
  altogether. -/
  | abrupt (text : Text)
  | plain (text : Text)
  deriving Inhabited, Repr

namespace Failure

def atPosition (p : Position) : Text := if p.isKnown then " at " ++ p.render else []

def collisionText (cs : List Collision) : Text :=
  if cs.isEmpty then [] else ": " ++ Text.join "; " (cs.map Collision.describe)

def unresolvedName (sites : List Reference) (name : Text) : Text :=
  match (sites.filter (·.type == name)).map Reference.site with
  | [] => name
  | used => name ++ " (used by " ++ Text.join ", " used ++ ")"

/--
The text `t` between `before` and `after`, and nothing if it is empty.
-/
def clause (before t after : Text) : Text := if t.isEmpty then [] else before ++ t ++ after

def malformedText (file : Text) (line column : Int) (text : Text) : Text :=
  let pos : Position := ⟨file, line, column⟩
  "protoval: syntax error" ++ clause " at " pos.render [] ++ clause ": " text []

/--
The text of a source that could not be compiled, from the texts of the reasons.
-/
def schemaText (file : Text) (reasons : List Text) : Text :=
  "protoval: invalid schema" ++ clause " " file [] ++
    match reasons with
    | [] => []
    | [r] => ": " ++ r
    | rs => ": " ++ Text.ofNat rs.length ++ " errors:" ++ rs.flatMap (("\n\t" : Text) ++ ·)

def causeText : Option Text → Text
  | none => []
  | some t => ": " ++ t

def generationText (type field file text : Text) (cause : Option Text) : Text :=
  "protoval: generation error" ++ clause " on type " type [] ++ clause " field " field []
    ++ clause " (file: " file ")" ++ clause ": " text [] ++ causeText cause

def ruleText (message field rule : Text) (pos : Position) : Text :=
  (if rule.isEmpty then
    ("protoval: missing field rule" : Text)
  else
    "protoval: unknown field rule " ++ rule.quote)
    ++ " on field " ++ message ++ "." ++ field ++ atPosition pos

def duplicateText (message : Text) (first pos : Position) : Text :=
  "protoval: duplicate message " ++ message ++ atPosition pos
    ++ if first.isKnown then ", first declared at " ++ first.render else []

def unresolvedText (names : List Text) (sites : List Reference) : Text :=
  "protoval: unresolved type reference" ++ (if 1 < names.length then ("s" : Text) else [])
    ++ clause ": " (Text.join ", " (names.map (unresolvedName sites))) []

def settingText (option : Text) (value : Option Text) (text : Text) : Text :=
  match value with
  | none => "protoval: config error for " ++ option.quote ++ ": " ++ text
  | some v => "protoval: config error for " ++ option.quote ++ " (value: " ++ v ++ "): " ++ text

mutual

def message : Failure → Text
  | .malformed file line column text => malformedText file line column text
  | .schema file faults => schemaText file (messages faults)
  | .unknownRule message field rule pos => ruleText message field rule pos
  | .invalidId message field id pos cause =>
    "protoval: invalid field id " ++ id.quote ++ " on field " ++ message ++ "." ++ field
      ++ atPosition pos ++ causeText (messageOf cause)
  | .invalidMessage message pos collisions =>
    "protoval: invalid message " ++ message ++ atPosition pos ++ collisionText collisions
  | .duplicateMessage message first pos => duplicateText message first pos
  | .unresolved names sites => unresolvedText names sites
  | .generation type field file text cause =>
    generationText type field file text (messageOf cause)
  | .setting option value text => settingText option value text
  | .wrapped text cause => text ++ ": " ++ message cause
  | .joined parts => Text.join "\n" (messages parts)
  | .corruptManifest path => "protoval: corrupt manifest " ++ path ++ ": cannot be decoded"
  | .canceled => "context canceled"
  | .disk operation path fault => operation ++ " " ++ path ++ ": " ++ fault.message
  | .refused fault => fault.message
  | .abrupt text => text
  | .plain text => text

def messages : List Failure → List Text
  | [] => []
  | f :: fs => message f :: messages fs

def messageOf : Option Failure → Option Text
  | none => none
  | some f => some (message f)

end

def causes : Failure → List Failure
  | .schema _ faults => faults
  | .invalidId _ _ _ _ cause => cause.toList
  | .generation _ _ _ _ cause => cause.toList
  | .wrapped _ cause => [cause]
  | .joined parts => parts
  | _ => []

/--
What a failure can be tested for, whatever it is wrapped in.
-/
inductive Sentinel where
  | corruptManifest
  | duplicateMessage
  | generationFailed
  | invalidId
  | invalidMessage
  | invalidSchema
  | missingSetting
  | malformed
  | unknownRule
  | unresolvedReference
  | canceled
  | notFound
  deriving DecidableEq, Repr

/--
Does the failure itself match the sentinel, its causes aside? Every reason for which a source
cannot be compiled matches the sentinel of an invalid schema.
-/
def matchesAlone : Failure → Sentinel → Bool
  | .malformed .., s => s == .malformed
  | .schema .., s => s == .invalidSchema
  | .unknownRule .., s => s == .unknownRule || s == .invalidSchema
  | .invalidId .., s => s == .invalidId || s == .invalidSchema
  | .invalidMessage .., s => s == .invalidMessage || s == .invalidSchema
  | .duplicateMessage .., s => s == .duplicateMessage || s == .invalidSchema
  | .unresolved .., s => s == .unresolvedReference || s == .invalidSchema
  | .generation .., s => s == .generationFailed
  | .setting .., s => s == .missingSetting
  | .corruptManifest _, s => s == .corruptManifest
  | .canceled, s => s == .canceled
  | .disk _ _ .notFound, s => s == .notFound
  | .refused .notFound, s => s == .notFound
  | _, _ => false

inductive Kind where
  | setting
  | generation
  | invalidMessage
  | schema
  | malformed
  | unresolved
  deriving DecidableEq, Repr

def isKind : Failure → Kind → Bool
  | .setting .., k => k == .setting
  | .generation .., k => k == .generation
  | .invalidMessage .., k => k == .invalidMessage
  | .schema .., k => k == .schema
  | .malformed .., k => k == .malformed
  | .unresolved .., k => k == .unresolved
  | _, _ => false

mutual

/--
Does the test hold of the failure or of one of its causes, however deep?
-/
def anyNode (test : Failure → Bool) : Failure → Bool
  | .schema file faults => test (.schema file faults) || anyNodes test faults
  | .invalidId m f i p cause => test (.invalidId m f i p cause) || anyNodeOf test cause
  | .generation t f n x cause => test (.generation t f n x cause) || anyNodeOf test cause
  | .wrapped text cause => test (.wrapped text cause) || anyNode test cause
  | .joined parts => test (.joined parts) || anyNodes test parts
  | f => test f

def anyNodes (test : Failure → Bool) : List Failure → Bool
  | [] => false
  | f :: fs => anyNode test f || anyNodes test fs

def anyNodeOf (test : Failure → Bool) : Option Failure → Bool
  | none => false
  | some f => anyNode test f

end

/--
Does the failure match the sentinel, by itself or through a cause?
-/
def is (f : Failure) (s : Sentinel) : Bool := f.anyNode (·.matchesAlone s)

/--
Is the failure of the kind, or is one of its causes?
-/
def has (f : Failure) (k : Kind) : Bool := f.anyNode (·.isKind k)

def isAbrupt : Failure → Bool
  | .abrupt _ => true
  | _ => false

/--
Join the failures of a list: none if there is none.
-/
def join? : List Failure → Option Failure
  | [] => none
  | fs => some (.joined fs)

end Failure

end ValueGen
