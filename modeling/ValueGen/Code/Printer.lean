import ValueGen.Code.Basic
import ValueGen.Code.Comment
import ValueGen.Text.Quoted
import ValueGen.Text.Identifier

/-!
This module contains the printing of generated files. A file is printed only if its comments and
its type names are well-formed. Formatting a file groups its imports and changes nothing else.
-/

namespace ValueGen

namespace Code

def qualifier (path : Text) : Text :=
  if path == "bytes" || path == "C" then path else "protoval"

def TypeExpr.print : TypeExpr → Text
  | .name id => id
  | .pointer t => "*" ++ t.print
  | .slice t => "[]" ++ t.print
  | .applied path id arg => qualifier path ++ "." ++ id ++ "[" ++ arg.print ++ "]"

mutual

def Expr.print : Expr → Text
  | .name id => id
  | .qualified path id => qualifier path ++ "." ++ id
  | .literal t => t.quote
  | .member e id => e.print ++ "." ++ id
  | .applied f arg => f.print ++ "[" ++ arg.print ++ "]"
  | .call f args => f.print ++ "(" ++ Text.join ", " (Expr.printAll args) ++ ")"
  | .spread e => e.print ++ "..."
  | .record type entries =>
    "&" ++ type ++ "\x7b" ++ Text.join ", " (Expr.printAll entries) ++ "\x7d"
  | .entry key value => key ++ ": " ++ value.print

def Expr.printAll : List Expr → List Text
  | [] => []
  | e :: es => e.print :: Expr.printAll es

end

/--
A statement of a function body, with its lines indented by one tab.
-/
def Stmt.print : Stmt → Text
  | .ret e => "\treturn " ++ e.print ++ "\n"
  | .assign place value => "\t" ++ place.print ++ " = " ++ value.print ++ "\n"
  | .run e => "\t" ++ e.print ++ "\n"
  | .fill place value =>
    "\tif " ++ place.print ++ " == nil \x7b\n\t\t" ++ place.print ++ " = " ++ value.print
      ++ "\n\t\x7d\n"

def Binding.print (b : Binding) : Text := b.name ++ " " ++ b.type.print

/--
The parameters of a function; if it is variadic, the last one is marked.
-/
def printParams (variadic : Bool) : List Binding → List Text
  | [] => []
  | [b] => if variadic then [b.name ++ " ..." ++ b.type.print] else [b.print]
  | b :: c :: bs => b.print :: printParams variadic (c :: bs)

def width (name : Text) : Nat := name.glyphs.length

/--
A field of a struct on a line of its own, with its type in the given column.
-/
def printField (column : Nat) (b : Binding) : Text :=
  "\t" ++ b.name ++ (List.replicate (column - width b.name) 32 : Text) ++ b.type.print ++ "\n"

def printFields (fields : List Binding) : Text :=
  fields.flatMap (printField ((fields.map (width ·.name)).foldl max 0 + 1))

def printDoc (t : Text) : Text := Comment.print (Comment.ofLine t) ++ "\n"

def Struct.print (s : Struct) : Text :=
  printDoc s.doc ++ "type " ++ s.name ++ " struct" ++
    match s.fields with
    | [] => "\x7b\x7d\n"
    | fields => " \x7b\n" ++ printFields fields ++ "\x7d\n"

def Func.print (f : Func) : Text :=
  (f.doc.map printDoc).getD [] ++ "func "
    ++ (match f.receiver with
      | none => []
      | some b => "(" ++ b.print ++ ") ")
    ++ f.name ++ "(" ++ Text.join ", " (printParams f.variadic f.params) ++ ") " ++ f.result.print
    ++ " \x7b\n" ++ f.body.flatMap Stmt.print ++ "\x7d\n"

def Decl.print : Decl → Text
  | .struct s => s.print
  | .func f => f.print
  | .comment t => printDoc t

/--
Does a blank line stand between two declarations? There is none only before a function without a
comment that follows another function.
-/
def separated : Decl → Decl → Bool
  | .func _, .func f => f.doc.isSome
  | _, _ => true

def printDecls : List Decl → Text
  | [] => []
  | [d] => d.print
  | d :: e :: ds =>
    d.print ++ (if separated d e then ("\n" : Text) else []) ++ printDecls (e :: ds)

/--
Insert an import path into a sorted list of paths.
-/
def insertPath (path : Text) : List Text → List Text
  | [] => [path]
  | p :: ps =>
    if path == p then
      p :: ps
    else if path.le p then
      path :: p :: ps
    else
      p :: insertPath path ps

def sortPaths (paths : List Text) : List Text := paths.foldr insertPath []

/--
The group of an import: packages whose path starts with a domain name stand apart from the others.
-/
def importGroup (path : Text) : Nat :=
  if path.startsWith "appengine" then
    2
  else if (path.takeWhile (· != 47)).contains 46 then
    1
  else
    0

/--
The paths in the groups in which a formatted file lists them.
-/
def groupPaths (paths : List Text) : List (List Text) :=
  [0, 1, 2].filterMap fun n =>
    match paths.filter (importGroup · == n) with
    | [] => none
    | g => some g

def printImport (path : Text) : Text := "\t" ++ path.quote ++ "\n"

def printImports : List (List Text) → Text
  | [] => []
  | [[path]] => "import " ++ path.quote ++ "\n\n"
  | groups =>
    "import (\n"
      ++ Text.join "\n" (groups.map (·.flatMap printImport))
      ++ ")\n\n"

def printHeaderLine (line : Text) : Text := Comment.print line ++ "\n"

def File.print (f : File) (groups : List (List Text)) : Text :=
  f.header.flatMap printHeaderLine
    ++ (if f.header.isEmpty then [] else ("\n" : Text))
    ++ "package " ++ f.package ++ "\n\n" ++ printImports groups ++ printDecls f.decls

/--
Can the name stand for a type: is it an identifier, or one behind the name of a package?
-/
def isTypeName (name : Text) : Bool :=
  match Text.splitOn 46 name with
  | [id] => Identifier.isValid id
  | [package, id] => Identifier.isValid package && Identifier.isValid id
  | _ => false

/--
Is the file well-formed: is its head made of comments, and are its type names names of types?
-/
def File.isWellFormed (f : File) : Bool :=
  Comment.areComments f.header
    && f.decls.all fun d => d.types.all fun t => t.names.all isTypeName

/--
A printed file, and the same file formatted, if it can be.
-/
structure Printed where
  content : Text
  formatted : Option Text
  deriving DecidableEq, Repr, Inhabited

/--
Print a file. Nothing is printed of a file that is not well-formed.
-/
def File.print? (f : File) : Option Printed :=
  if f.isWellFormed then
    -- The formatter changes nothing but the groups of the imports.
    let paths := sortPaths f.imports
    some ⟨f.print (if paths.isEmpty then [] else [paths]), some (f.print (groupPaths paths))⟩
  else
    none

end Code

end ValueGen
