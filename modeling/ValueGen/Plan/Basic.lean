import ValueGen.Code.Basic
import ValueGen.Names.Snake
import ValueGen.Plan.Scope
import ValueGen.Settings.Basic

/-!
This module contains the plan of a generated value type: all names it declares and the types of
its fields. A plan exists only if no two names of one scope are equal.
-/

namespace ValueGen

structure TypeNames where
  value : Text
  builder : Text
  /-- The private constructor of the value. -/
  construct : Text
  newBuilder : Text
  deriving DecidableEq, Repr, Inhabited

namespace TypeNames

def ofName (name : Text) : TypeNames where
  value := name
  builder := name ++ "Builder"
  construct := "new" ++ name
  newBuilder := "New" ++ name ++ "Builder"

def toList (n : TypeNames) : List Text := [n.value, n.builder, n.construct, n.newBuilder]

end TypeNames

namespace Plan

/--
The members that every value type has besides its fields.
-/
def privateMembers : List Text := ["str", "buildString"]

/--
The methods that every value type has besides its accessors.
-/
def valueMethods : List Text := ["String", "buildString"]

/--
The methods that a builder has besides those of its fields, or that are kept free.
-/
def builderMethods : List Text := ["Build", "String"]

/--
Does the name start with an ASCII character that is no lower-case letter?
-/
def startsExported : Text → Bool
  | [] => false
  | b :: _ => b < 0x80 && !Ascii.isLower b

/--
The name of a struct member that is not exported, is not reserved, and is none of the members that
every value type has.
-/
def memberName (name : Text) : Text :=
  if privateMembers.contains name || Identifier.isKeyword name || startsExported name then
    "_" ++ name
  else
    name

/--
The name of a method that does not hide one of the reserved methods.
-/
def methodName (reserved : List Text) (name : Text) : Text :=
  if reserved.contains name then "Get" ++ name else name

def elemType? (t : FieldType) : Option Code.TypeExpr :=
  if t.isMessage then
    some (.pointer (.name t.message))
  else
    match t.primitive with
    | .int32 => some (.name "int32")
    | .int64 => some (.name "int64")
    | .float => some (.name "float32")
    | .double => some (.name "float64")
    | .bool => some (.name "bool")
    | .string => some (.name "string")
    | .bytes => some (.slice (.name "byte"))
    | .none | .invalid => none

end Plan

structure FieldPlan where
  field : Field
  elem : Code.TypeExpr
  deriving DecidableEq, Repr

namespace FieldPlan

/--
The member of the value, and the parameter of its constructor.
-/
def storage (p : FieldPlan) : Text := Plan.memberName p.field.varName

def slot (p : FieldPlan) : Text := Plan.memberName p.field.builderVarName

def accessor (p : FieldPlan) : Text := Plan.methodName Plan.valueMethods p.field.accessor

def getter (p : FieldPlan) : Text := Plan.methodName Plan.builderMethods p.field.builderAccessor

def setter (p : FieldPlan) : Text := p.field.setter

/--
The method of the builder that appends to a repeated field.
-/
def adder (p : FieldPlan) : Text := "Add" ++ p.field.accessor

def ofField (message : Text) (f : Field) : Except Failure FieldPlan :=
  match Plan.elemType? f.type with
  | some t => .ok ⟨f, t⟩
  | none =>
    .error (.generation message f.name [] []
      (some (.plain ("type " ++ f.type.spelling.quote ++ " has no Go mapping"))))

end FieldPlan

structure Plan where
  names : TypeNames
  fields : List FieldPlan
  deriving DecidableEq, Repr

namespace Plan

structure Scopes where
  value : Scope
  builder : Scope
  deriving DecidableEq, Repr

/--
The scopes before any field is declared in them. They hold the reserved names.
-/
def Scopes.initial (n : TypeNames) : Scopes where
  value := ⟨"type " ++ n.value, [("str", "private field"), ("buildString", "private field"),
    ("String", "method")]⟩
  builder := ⟨"type " ++ n.builder, [("Build", "method"), ("String", "method")]⟩

def Scopes.declareField (s : Scopes) (p : FieldPlan) : Except Failure Scopes := do
  let suffix : Text := " of " ++ p.field.name
  let value ← s.value.declare p.storage ("field" ++ suffix)
  let value ← value.declare p.accessor ("accessor" ++ suffix)
  let builder ← s.builder.declare p.slot ("field" ++ suffix)
  let builder ← builder.declare p.getter ("getter" ++ suffix)
  let builder ← builder.declare p.setter ("setter" ++ suffix)
  if p.field.isRepeated then
    let builder ← builder.declare p.adder ("adder" ++ suffix)
    return ⟨value, builder⟩
  else
    return ⟨value, builder⟩

def planFields (message : Text) (s : Scopes) : List Field → Except Failure (List FieldPlan)
  | [] => .ok []
  | f :: fs => do
    let p ← FieldPlan.ofField message f
    match s.declareField p with
    | .error cause => .error (.generation message f.name [] [] (some cause))
    | .ok s =>
      let ps ← planFields message s fs
      return p :: ps

def ofMessage (m : Message) (package : Text) : Except Failure Plan := do
  if !m.isValid then
    throw (.generation m.name [] []
      ("invalid message: " ++ Text.join "; " (m.collisions.map Collision.describe)) none)
  let names := TypeNames.ofName m.name
  let scope : Scope := ⟨"package " ++ package, [("protoval", "import"), ("bytes", "import")]⟩
  -- The names of other messages do not count here.
  match scope.declareAll "type identifier" names.toList with
  | .error cause => throw (.generation m.name [] [] [] (some cause))
  | .ok _ =>
    let fields ← planFields m.name (Scopes.initial names) m.fields
    return ⟨names, fields⟩

end Plan

end ValueGen
