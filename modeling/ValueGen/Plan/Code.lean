import ValueGen.Plan.Basic

/-!
This module contains the code of a planned value type: an immutable struct with a private
constructor, accessors and a text computed once, and a builder for it.
-/

namespace ValueGen

open Code

namespace FieldPlan

/--
The type that the value exposes: one element, or a list of elements.
-/
def valueType (runtime : Text) (p : FieldPlan) : TypeExpr :=
  if p.field.isRepeated then .applied runtime "List" p.elem else p.elem

/--
The type that the builder holds: one element, or an accumulator of elements.
-/
def slotType (runtime : Text) (p : FieldPlan) : TypeExpr :=
  if p.field.isRepeated then .pointer (.applied runtime "ListBuilder" p.elem) else p.elem

def isBytes (p : FieldPlan) : Bool := !p.field.isRepeated && p.field.type.primitive == .bytes

def describe (p : FieldPlan) : Text :=
  "the " ++ p.field.rule.keyword ++ " field " ++ p.field.name ++ " (" ++ Text.ofInt p.field.id
    ++ ")"

def newList (runtime : Text) (p : FieldPlan) : Expr :=
  .call (.applied (.qualified runtime "NewListBuilder") p.elem) []

def clone (e : Expr) : Expr := .call (.qualified "bytes" "Clone") [e]

def accessorFunc (runtime : Text) (receiver : Binding) (p : FieldPlan) : Func where
  doc := some (p.accessor ++ (if p.isBytes then " returns a copy of " else " returns ")
    ++ p.describe ++ ".")
  receiver := some receiver
  name := p.accessor
  params := []
  variadic := false
  result := p.valueType runtime
  body :=
    let stored := Expr.member (.name "m") p.storage
    [.ret (if p.isBytes then clone stored else stored)]

/--
The getter of the builder. The accumulator of a repeated field is made on first use.
-/
def getterFunc (runtime : Text) (receiver : Binding) (p : FieldPlan) : Func where
  doc := some (p.getter ++ (if p.field.isRepeated then " returns the mutable accumulator of "
    else " returns the current value of ") ++ p.describe ++ ".")
  receiver := some receiver
  name := p.getter
  params := []
  variadic := false
  result := p.slotType runtime
  body :=
    let slot := Expr.member (.name "b") p.slot
    if p.field.isRepeated then [.fill slot (p.newList runtime), .ret slot] else [.ret slot]

def setterFunc (runtime : Text) (receiver : Binding) (p : FieldPlan) : Func where
  doc := some (p.setter ++ " sets " ++ p.describe ++ ".")
  receiver := some receiver
  name := p.setter
  params := [⟨"v", p.slotType runtime⟩]
  variadic := false
  result := receiver.type
  body := [.assign (.member (.name "b") p.slot) (.name "v"), .ret (.name "b")]

def adderFunc (receiver : Binding) (p : FieldPlan) : Func where
  doc := some (p.adder ++ " appends to " ++ p.describe ++ ".")
  receiver := some receiver
  name := p.adder
  params := [⟨"v", p.elem⟩]
  variadic := true
  result := receiver.type
  body := [
    .run (.call (.member (.call (.member (.name "b") p.getter) []) "Add") [.spread (.name "v")]),
    .ret (.name "b")]

def builderFuncs (runtime : Text) (receiver : Binding) (p : FieldPlan) : List Func :=
  [p.getterFunc runtime receiver, p.setterFunc runtime receiver]
    ++ if p.field.isRepeated then [p.adderFunc receiver] else []

/--
What the builder passes to the constructor of the value for a field.
-/
def argument (p : FieldPlan) : Expr :=
  let slot := Expr.member (.name "b") p.slot
  if p.field.isRepeated then
    .call (.member slot "Build") []
  else if p.isBytes then
    clone slot
  else
    slot

end FieldPlan

namespace Plan

def valueReceiver (p : Plan) : Binding := ⟨"m", .pointer (.name p.names.value)⟩

def builderReceiver (p : Plan) : Binding := ⟨"b", .pointer (.name p.names.builder)⟩

def valueStruct (runtime : Text) (p : Plan) : Struct where
  doc := p.names.value ++ " is an immutable value. Use " ++ p.names.builder ++ " to create one."
  name := p.names.value
  fields := p.fields.map (fun f => ⟨f.storage, f.valueType runtime⟩)
    ++ [⟨"str", .applied runtime "Lazy" (.name "string")⟩]

def constructFunc (runtime : Text) (p : Plan) : Func where
  doc := none
  receiver := none
  name := p.names.construct
  params := p.fields.map fun f => ⟨f.storage, f.valueType runtime⟩
  variadic := false
  result := .pointer (.name p.names.value)
  body := [.ret (.record p.names.value (p.fields.map fun f => .entry f.storage (.name f.storage)))]

def stringFunc (p : Plan) : Func where
  doc := some ("String returns the fields of the " ++ p.names.value
    ++ " in declaration order. It is computed once.")
  receiver := some p.valueReceiver
  name := "String"
  params := []
  variadic := false
  result := .name "string"
  body := [.ret (.call (.member (.member (.name "m") "str") "Get")
    [.member (.name "m") "buildString"])]

/--
The method that computes the text of the value from its fields in order.
-/
def buildStringFunc (runtime : Text) (p : Plan) : Func where
  doc := none
  receiver := some p.valueReceiver
  name := "buildString"
  params := []
  variadic := false
  result := .name "string"
  body :=
    let start := Expr.call (.qualified runtime "NewToStringHelper") [.literal p.names.value]
    let chain := p.fields.foldl
      (fun e f =>
        .call (.member e "Add") [.literal f.field.accessor, .member (.name "m") f.storage])
      start
    [.ret (.call (.member chain "String") [])]

def builderStruct (runtime : Text) (p : Plan) : Struct where
  doc := p.names.builder ++ " accumulates the fields of a " ++ p.names.value
    ++ ". Required fields are not enforced."
  name := p.names.builder
  fields := p.fields.map fun f => ⟨f.slot, f.slotType runtime⟩

def newBuilderFunc (runtime : Text) (p : Plan) : Func where
  doc := some (p.names.newBuilder ++ " returns an empty builder.")
  receiver := none
  name := p.names.newBuilder
  params := []
  variadic := false
  result := .pointer (.name p.names.builder)
  body := [.ret (.record p.names.builder
    ((p.fields.filter (·.field.isRepeated)).map fun f => .entry f.slot (f.newList runtime)))]

def buildFunc (p : Plan) : Func where
  doc := some ("Build returns a " ++ p.names.value
    ++ " holding the current values. The builder stays usable.")
  receiver := some p.builderReceiver
  name := "Build"
  params := []
  variadic := false
  result := .pointer (.name p.names.value)
  body := [.ret (.call (.name p.names.construct) (p.fields.map FieldPlan.argument))]

def valueDecls (runtime : Text) (p : Plan) : List Decl :=
  [.struct (p.valueStruct runtime), .func (p.constructFunc runtime)]
    ++ p.fields.map (fun f => .func (f.accessorFunc runtime p.valueReceiver))
    ++ [.func p.stringFunc, .func (p.buildStringFunc runtime)]

def builderDecls (runtime : Text) (p : Plan) : List Decl :=
  [.struct (p.builderStruct runtime), .func (p.newBuilderFunc runtime)]
    ++ p.fields.flatMap (fun f => (f.builderFuncs runtime p.builderReceiver).map Decl.func)
    ++ [.func p.buildFunc]

def notice : Text := "Code generated by protoval. DO NOT EDIT."

/--
The comment lines at the head of a file: the notice, and below it the header of the settings.
-/
def headerLines (header : Text) : List Text :=
  (notice :: if header.isEmpty then [] else Text.splitOn 10 (Text.trimRight (· == 10) header)).map
    Comment.ofLine

def imports (runtime : Text) (p : Plan) : List Text :=
  runtime :: if p.fields.any FieldPlan.isBytes then ["bytes"] else []

def toFile (o : Options) (p : Plan) : File where
  header := headerLines o.header
  package := o.package
  imports := p.imports o.runtimePath
  decls := p.valueDecls o.runtimePath ++ p.builderDecls o.runtimePath

end Plan

/--
The usual emitter: it plans the value type of the message and produces its code.
-/
def Emitter.values : Emitter where
  name := "go"
  emit := fun m o => do
    let p ← Plan.ofMessage m o.package
    return .code (p.toFile o)

end ValueGen
