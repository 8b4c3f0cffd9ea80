import ValueGen.Source.Report
import ValueGen.Source.Statement.Parser

/-!
This module contains outlines: the messages and fields that a source declares, before they are
checked. An outline keeps the words of the source as they are.
-/

namespace ValueGen

/--
A declared field. All attributes are words of the source.
-/
structure FieldOutline where
  rule : Text
  type : Text
  name : Text
  id : Text
  pos : Position
  deriving DecidableEq, Repr, Inhabited

structure MessageOutline where
  name : Text
  pos : Position
  fields : List FieldOutline
  deriving DecidableEq, Repr, Inhabited

structure Outline where
  file : Text
  package : Text
  messages : List MessageOutline
  deriving DecidableEq, Repr, Inhabited

namespace Construct

def describe : Construct → Text
  | .importFile file => "import " ++ file.quote
  | .option name => "option " ++ name.quote
  | .enum name => "enum " ++ name.quote
  | .service name => "service " ++ name.quote
  | .oneof name => "oneof " ++ name.quote
  | .mapField name => "map field " ++ name.quote
  | .group name => "group " ++ name.quote
  | .extensions => "extensions"
  | .reserved => "reserved"
  | .nestedMessage name => "nested message " ++ name.quote

end Construct

namespace Outline

def unsupported (file : Text) (line column : Nat) (what : Text) : Failure :=
  .malformed file line column ("unsupported " ++ what)

/--
The label of a field. If there are several, the first one of optional, required and repeated
counts.
-/
def label (f : FieldStatement) : Text :=
  if f.optional then
    "optional"
  else if f.required then
    "required"
  else if f.repeated then
    "repeated"
  else
    []

/--
The fields of a message, or the first of its members that is not supported.
-/
def fields (file : Text) : List Member → Except Failure (List FieldOutline)
  | [] => .ok []
  | .comment :: ms => fields file ms
  | .other c line column :: _ => .error (unsupported file line column c.describe)
  | .field f :: ms =>
    if f.hasOptions then
      .error (unsupported file f.line f.column ("options on field " ++ f.name.quote))
    else
      (fields file ms).map fun fs =>
        ⟨label f, f.type, f.name, Text.ofInt f.number, ⟨file, f.line, f.column⟩⟩ :: fs

/--
Add the declarations of statements to an outline, up to the first statement that is not supported.
-/
def addStatements (o : Outline) : List Statement → Except Failure Outline
  | [] => .ok o
  | .comment :: ss => o.addStatements ss
  | .level :: ss => o.addStatements ss
  | .edition :: _ => .error (unsupported o.file 0 0 "*proto.Edition")
  | .package name line column :: ss =>
    if o.package.isEmpty then
      addStatements { o with package := name } ss
    else
      .error (unsupported o.file line column "second package statement")
  | .message name isExtend members line column :: ss =>
    if isExtend then
      .error (unsupported o.file line column "extend")
    else
      match fields o.file members with
      | .error f => .error f
      | .ok fs =>
        addStatements
          { o with messages := o.messages ++ [⟨name, ⟨o.file, line, column⟩, fs⟩] } ss
  | .other c line column :: _ => .error (unsupported o.file line column c.describe)

def ofStatements (file : Text) (ss : List Statement) : Except Failure Outline :=
  addStatements ⟨file, [], []⟩ ss

end Outline

namespace Source

def stopReport (place found expected : Text) : Text :=
  place ++ ": found " ++ found.quote ++ " but expected [" ++ expected ++ "]"

/--
The statements of a source. If something is wrong inside tokens, that is reported, whatever else is
wrong.
-/
def statements (file source : Text) : Except Failure (List Statement) :=
  let reader := Reader.start file source
  let (result, reader) := (Parse.statements reader.budget).run.run reader
  match result with
  | .error .brokenRange => .error (.abrupt "runtime error: index out of range [-1]")
  | .error .stuck => .error (.abrupt "the source does not end")
  | .error (.unexpected place found expected) =>
    if reader.reports.isEmpty then
      .error (Report.toFailure file (stopReport place found expected))
    else
      .error (Report.toFailure file reader.reports.flatten)
  | .ok ss =>
    if reader.reports.isEmpty then
      .ok ss
    else
      .error (Report.toFailure file reader.reports.flatten)

def outline (file source : Text) : Except Failure Outline :=
  match statements file source with
  | .error f => .error f
  | .ok ss => Outline.ofStatements file ss

end Source

end ValueGen
