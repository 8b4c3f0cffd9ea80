import ValueGen.Text.Basic

/-!
This module contains the part of the target language that generated files are made of, as data.
-/

namespace ValueGen

namespace Code

/--
A type. A qualified type names the package that declares it by its import path.
-/
inductive TypeExpr where
  | name (id : Text)
  | pointer (target : TypeExpr)
  | slice (elem : TypeExpr)
  | applied (path id : Text) (arg : TypeExpr)
  deriving DecidableEq, Repr, Inhabited

inductive Expr where
  | name (id : Text)
  | qualified (path id : Text)
  | literal (t : Text)
  | member (of : Expr) (id : Text)
  | applied (f : Expr) (arg : TypeExpr)
  | call (f : Expr) (args : List Expr)
  /-- The elements of a slice as arguments of their own. -/
  | spread (e : Expr)
  /-- A pointer to a new struct with these entries. -/
  | record (type : Text) (entries : List Expr)
  | entry (key : Text) (value : Expr)
  deriving Repr, Inhabited

inductive Stmt where
  | ret (e : Expr)
  | assign (place value : Expr)
  /-- Evaluate an expression for its effect. -/
  | run (e : Expr)
  /-- Assign a value to a place that holds none. -/
  | fill (place value : Expr)
  deriving Repr, Inhabited

/--
A name with a type: a struct field, a receiver or a parameter.
-/
structure Binding where
  name : Text
  type : TypeExpr
  deriving DecidableEq, Repr, Inhabited

structure Struct where
  doc : Text
  name : Text
  fields : List Binding
  deriving Repr, Inhabited

/--
A function, or a method if it has a receiver. The last parameter of a variadic function takes any
number of arguments.
-/
structure Func where
  doc : Option Text
  receiver : Option Binding
  name : Text
  params : List Binding
  variadic : Bool
  result : TypeExpr
  body : List Stmt
  deriving Repr, Inhabited

inductive Decl where
  | struct (s : Struct)
  | func (f : Func)
  | comment (t : Text)
  deriving Repr, Inhabited

/--
A file: comment lines at its head, the name of its package, the import paths that its declarations
use, and the declarations.
-/
structure File where
  header : List Text
  package : Text
  imports : List Text
  decls : List Decl
  deriving Repr, Inhabited

def File.structs (f : File) : List Struct :=
  f.decls.filterMap fun
    | .struct s => some s
    | _ => none

def File.funcs (f : File) : List Func :=
  f.decls.filterMap fun
    | .func g => some g
    | _ => none

def TypeExpr.names : TypeExpr → List Text
  | .name id => [id]
  | .pointer t => t.names
  | .slice t => t.names
  | .applied _ _ t => t.names

def Decl.types : Decl → List TypeExpr
  | .struct s => s.fields.map Binding.type
  | .func f => f.result :: (f.receiver.toList ++ f.params).map Binding.type
  | .comment _ => []

end Code

end ValueGen
