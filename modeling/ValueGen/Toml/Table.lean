import ValueGen.Toml.Statement

/-!
This module contains the tables that the statements of a TOML text build up. A name may be given a
value once. A table that exists only because something in it was named may be opened once more.
-/

namespace ValueGen

namespace Toml

inductive Item where
  | value (v : Value)
  | table (entries : List (Text × Item))
  /-- Tables that were opened one after another, with the latest one first. -/
  | tables (latest : List (Text × Item)) (earlier : List (List (Text × Item)))
  deriving Repr, Inhabited

abbrev Table := List (Text × Item)

namespace Table

def get? (t : Table) (name : Text) : Option Item := (t.find? (·.1 == name)).map Prod.snd

def put (t : Table) (name : Text) (item : Item) : Table :=
  if (t.get? name).isSome then
    t.map fun (n, i) => if n == name then (n, item) else (n, i)
  else
    t ++ [(name, item)]

/--
The table at a path. Of tables that were opened one after another it is the latest.
-/
def atPath? (t : Table) : Path → Option Table
  | [] => some t
  | name :: path =>
    match t.get? name with
    | some (.table u) => atPath? u path
    | some (.tables u _) => atPath? u path
    | _ => none

def alter (t : Table) (change : Table → Table) : Path → Table
  | [] => change t
  | name :: path =>
    match t.get? name with
    | some (.table u) => t.put name (.table (alter u change path))
    | some (.tables u us) => t.put name (.tables (alter u change path) us)
    | _ => t

end Table

structure Document where
  root : Table
  /-- The tables that may be opened once more. -/
  implied : List Path
  /-- The items whose last value is an array. -/
  arrays : List Path
  deriving Repr, Inhabited

namespace Document

def empty : Document := ⟨[], [], []⟩

/--
Note that a table may be opened once more.
-/
def imply (d : Document) (path : Path) : Document := { d with implied := path :: d.implied }

/--
Note that a table may not be opened again.
-/
def settle (d : Document) (path : Path) : Document :=
  { d with implied := d.implied.filter (· != path) }

def note (d : Document) (path : Path) (isArray : Bool) : Document :=
  let others := d.arrays.filter (· != path)
  { d with arrays := if isArray then path :: others else others }

def put (d : Document) (context : Path) (name : Text) (item : Item) : Document :=
  { d with root := d.root.alter (·.put name item) context }

/--
Give an item of the table at a path a value. An item that exists has to have an array as its value,
which is replaced, or to be a table that may be opened once more, which stays as it is.
-/
def define? (d : Document) (context : Path) (name : Text) (item : Item) : Option Document :=
  let path := context ++ [name]
  match d.root.atPath? context with
  | none => none
  | some t =>
    if (t.get? name).isNone then
      some (d.put context name item)
    else if d.arrays.contains path then
      some ((d.settle path).put context name item)
    else if d.implied.contains path then
      some (d.settle path)
    else
      none

/--
Go on from the table at the path `done` and make sure that there are tables with the names that
follow, one in another.
-/
def reach? (d : Document) (done : Path) : Path → Option Document
  | [] => some d
  | name :: rest =>
    match d.root.atPath? done with
    | none => none
    | some t =>
      match t.get? name with
      | none => reach? ((d.imply (done ++ [name])).put done name (.table [])) (done ++ [name]) rest
      | some (.value _) => none
      | some _ => reach? d (done ++ [name]) rest

def openTable? (d : Document) (context : Path) (name : Text) : Option Document :=
  (d.reach? [] context).bind fun d => d.define? context name (.table [])

def openElement? (d : Document) (context : Path) (name : Text) : Option Document :=
  (d.reach? [] context).bind fun d =>
    match (d.root.atPath? context).bind (·.get? name) with
    | none => some (d.put context name (.tables [] []))
    | some (.tables u us) => some (d.put context name (.tables [] (u :: us)))
    | some _ => none

/--
Open the tables that names lead through, also such that may not be opened otherwise. The path of
the last one comes back.
-/
def descend? (d : Document) (context : Path) : Path → Option (Document × Path)
  | [] => some (d, context)
  | name :: rest =>
    ((d.imply (context ++ [name])).openTable? context name).bind fun d =>
      descend? d (context ++ [name]) rest

/--
Give an item its value, after what is written inside of the value was done.
-/
def finish? (d : Document) (context : Path) (name : Text) (v : Value) : Option Document :=
  let item := match v with
    -- The entries of such a table are there already.
    | .table _ => ((d.root.atPath? context).bind (·.get? name)).getD (.table [])
    | v => .value v
  let isArray := match v with
    | .array _ => true
    | _ => false
  (d.define? context name item).map (·.note (context ++ [name]) isArray)

mutual

/--
Do what is written inside of the value of an item: a table on the place of a value is opened, and
its entries are made.
-/
def within? (d : Document) (context : Path) (name : Text) (inArray : Bool) :
    Value → Option Document
  | .array items => withinItems? (d.note (context ++ [name]) true) context name items
  | .table entries =>
    let d := d.imply (context ++ [name])
    let d? := if inArray then d.openElement? context name else d.openTable? context name
    d?.bind fun d => withinEntries? d (context ++ [name]) entries
  | _ => some d

def withinItems? (d : Document) (context : Path) (name : Text) : List Value → Option Document
  | [] => some d
  | v :: vs => (within? d context name true v).bind fun d => withinItems? d context name vs

def withinEntries? (d : Document) (context : Path) : List (Path × Value) → Option Document
  | [] => some d
  | (path, v) :: es =>
    match d.descend? context path.dropLast, path.getLast? with
    | some (d, inner), some name =>
      (within? d inner name false v).bind fun d =>
        (d.finish? inner name v).bind fun d => withinEntries? d context es
    | _, _ => none

end

def enter? (d : Document) (context : Path) (path : Path) (v : Value) : Option Document :=
  withinEntries? d context [(path, v)]

/--
Carry out statements. The table that entries are made in is given by its path.
-/
def run? (d : Document) (context : Path) : List Statement → Option Document
  | [] => some d
  | .entry path v :: rest => (d.enter? context path v).bind fun d => d.run? context rest
  | .table path :: rest =>
    match path.getLast? with
    | none => none
    | some name =>
      (d.openTable? path.dropLast name).bind fun d => (d.note path false).run? path rest
  | .element path :: rest =>
    match path.getLast? with
    | none => none
    | some name =>
      (d.openElement? path.dropLast name).bind fun d => (d.note path false).run? path rest

end Document

/--
The table that a text stands for, unless the text is malformed or gives a name two values.
-/
def Table.ofText? (t : Text) : Option Table :=
  (Statement.ofText? t).bind fun ss => (Document.empty.run? [] ss).map Document.root

end Toml

end ValueGen
