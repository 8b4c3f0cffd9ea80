import ValueGen.Yaml.Lexer

/-!
This module contains the nodes of YAML texts, and how the tokens of the first document make up its
node. What follows the first document is not looked at.
-/

namespace ValueGen

namespace Yaml

inductive Node where
  /-- A scalar with its tag, which is empty if there is none. -/
  | scalar (tag : Text) (plain : Bool) (text : Text)
  | sequence (items : List Node)
  | mapping (entries : List (Node × Node))
  | alias (name : Text) (target : Node)
  /-- An alias of a node that the alias itself is a part of. -/
  | cycle (name : Text)
  deriving Inhabited, Repr

def Node.empty : Node := .scalar [] true []

structure Builder where
  tokens : Tokens
  position : Nat
  handles : List (Text × Text)
  /-- The nodes that have anchors, the latest first. -/
  anchors : List (Text × Node)

abbrev Build := StateT Builder Option

namespace Build

def peek : Build Token := fun b => (b.tokens.get? b.position).map fun t => (t, b)

def skip : Build Unit := modify fun b => { b with position := b.position + 1 }

def refuse {α : Type} : Build α := fun _ => none

def expect (t : Token) : Build Unit := do
  if (← peek) == t then skip else refuse

def define (name : Option Text) (n : Node) : Build Unit :=
  match name with
  | none => pure ()
  | some name => modify fun b => { b with anchors := (name, n) :: b.anchors }

/--
Put a node in the place of the latest mark that it is being read.
-/
def settle (name : Text) (n : Node) : List (Text × Node) → List (Text × Node)
  | [] => []
  | (other, .cycle x) :: rest =>
    if other == name then (name, n) :: rest else (other, .cycle x) :: settle name n rest
  | e :: rest => e :: settle name n rest

/--
Read a collection that may have a name. While it is being read, its name stands for a cycle.
-/
def named (name : Option Text) (read : Build Node) : Build Node :=
  match name with
  | none => read
  | some name => do
    define (some name) (.cycle name)
    let n ← read
    modify fun b => { b with anchors := settle name n b.anchors }
    return n

def fullTag (handle suffix : Text) : Build Text := do
  if handle.isEmpty then
    return suffix
  else
    match (← get).handles.lookup handle with
    | none => refuse
    | some start =>
      let tag := start ++ suffix
      if tag.isEmpty then refuse else return tag

/--
What stands before a node: an anchor and a tag in any order, each of them at most once.
-/
def properties : Build (Option Text × Text) := do
  match ← peek with
  | .anchor name =>
    skip
    match ← peek with
    | .tag handle suffix =>
      skip
      return (some name, ← fullTag handle suffix)
    | _ => return (some name, [])
  | .tag handle suffix =>
    skip
    match ← peek with
    | .anchor name =>
      skip
      return (some name, ← fullTag handle suffix)
    | _ => return (none, ← fullTag handle suffix)
  | _ => return (none, [])

/--
Read with a reader unless the next token is one of those that mean that nothing is written.
-/
def unlessAt (stops : List Token) (read : Build Node) : Build Node := do
  if stops.contains (← peek) then return .empty else read

mutual

/--
Read a node. Block collections are nodes only outside of flow collections, and a sequence without
an indentation of its own only as a key or a value of a mapping.
-/
def node (fuel : Nat) (block indentless : Bool) : Build Node := do
  match fuel with
  | 0 => refuse
  | fuel + 1 =>
    match ← peek with
    | .alias name =>
      skip
      match (← get).anchors.lookup name with
      | none => refuse
      | some (.cycle n) => return .cycle n
      | some target => return .alias name target
    | _ =>
      let (anchor, tag) ← properties
      match ← peek with
      | .blockEntry =>
        if indentless then named anchor (indentlessItems fuel []) else emptyWith anchor tag
      | .scalar text plain =>
        skip
        let n := Node.scalar tag plain text
        define anchor n
        return n
      | .flowSequence =>
        skip
        named anchor (flowItems fuel [])
      | .flowMapping =>
        skip
        named anchor (flowEntries fuel [])
      | .blockSequence =>
        if block then
          skip
          named anchor (blockItems fuel [])
        else
          emptyWith anchor tag
      | .blockMapping =>
        if block then
          skip
          named anchor (blockEntries fuel [])
        else
          emptyWith anchor tag
      | _ => emptyWith anchor tag

def emptyWith (anchor : Option Text) (tag : Text) : Build Node := do
  if anchor.isNone && tag.isEmpty then
    refuse
  else
    let n := Node.scalar tag true []
    define anchor n
    return n

def blockItems (fuel : Nat) (done : List Node) : Build Node := do
  match fuel with
  | 0 => refuse
  | fuel + 1 =>
    match ← peek with
    | .blockEntry =>
      skip
      let n ← unlessAt [.blockEntry, .blockEnd] (node fuel true false)
      blockItems fuel (done ++ [n])
    | .blockEnd =>
      skip
      return .sequence done
    | _ => refuse

def indentlessItems (fuel : Nat) (done : List Node) : Build Node := do
  match fuel with
  | 0 => refuse
  | fuel + 1 =>
    match ← peek with
    | .blockEntry =>
      skip
      let n ← unlessAt [.blockEntry, .key, .value, .blockEnd] (node fuel true false)
      indentlessItems fuel (done ++ [n])
    | _ => return .sequence done

def valueAfter (fuel : Nat) (block : Bool) (stops : List Token) : Build Node := do
  match fuel with
  | 0 => refuse
  | fuel + 1 =>
    match ← peek with
    | .value =>
      skip
      unlessAt stops (node fuel block block)
    | _ => return .empty

def blockEntries (fuel : Nat) (done : List (Node × Node)) : Build Node := do
  match fuel with
  | 0 => refuse
  | fuel + 1 =>
    let stops : List Token := [.key, .value, .blockEnd]
    match ← peek with
    | .key =>
      skip
      let k ← unlessAt stops (node fuel true true)
      let v ← valueAfter fuel true stops
      blockEntries fuel (done ++ [(k, v)])
    | .blockEnd =>
      skip
      return .mapping done
    | _ => refuse

/--
Read the entries of a flow sequence. An entry may be a single pair of a key and a value.
-/
def flowItems (fuel : Nat) (done : List Node) : Build Node := do
  match fuel with
  | 0 => refuse
  | fuel + 1 =>
    if (← peek) == .flowSequenceEnd then
      skip
      return .sequence done
    else
      if !done.isEmpty then
        expect .flowEntry
      match ← peek with
      | .flowSequenceEnd =>
        skip
        return .sequence done
      | .key =>
        skip
        let k ←
          if [Token.value, .flowEntry, .flowSequenceEnd].contains (← peek) then
            skip
            pure Node.empty
          else
            node fuel false false
        let v ← valueAfter fuel false [.flowEntry, .flowSequenceEnd]
        flowItems fuel (done ++ [.mapping [(k, v)]])
      | _ =>
        let n ← node fuel false false
        flowItems fuel (done ++ [n])

def flowEntries (fuel : Nat) (done : List (Node × Node)) : Build Node := do
  match fuel with
  | 0 => refuse
  | fuel + 1 =>
    if (← peek) == .flowMappingEnd then
      skip
      return .mapping done
    else
      if !done.isEmpty then
        expect .flowEntry
      match ← peek with
      | .flowMappingEnd =>
        skip
        return .mapping done
      | .key =>
        skip
        let k ← unlessAt [.value, .flowEntry, .flowMappingEnd] (node fuel false false)
        let v ← valueAfter fuel false [.flowEntry, .flowMappingEnd]
        flowEntries fuel (done ++ [(k, v)])
      | _ =>
        let k ← node fuel false false
        flowEntries fuel (done ++ [(k, .empty)])

end

/--
Read the directives before a document. There may be one for the version, which has to be the known
one, and one for each handle.
-/
def directives : Nat → Bool → Build Unit
  | 0, _ => refuse
  | fuel + 1, versioned => do
    match ← peek with
    | .version major minor =>
      if versioned || major != 1 || minor != 1 then
        refuse
      else
        skip
        directives fuel true
    | .tagHandle handle start =>
      if (← get).handles.any (·.1 == handle) then
        refuse
      else
        modify fun b => { b with handles := b.handles ++ [(handle, start)] }
        skip
        directives fuel versioned
    | _ => pure ()

def usualHandles : List (Text × Text) := [("!", "!"), ("!!", "tag:yaml.org,2002:")]

/--
Read the first document up to its end. There is none in an empty stream.
-/
def document (fuel : Nat) : Build (Option Node) := do
  skip
  let first ← peek
  let usual : Build Unit := modify fun b => { b with handles := b.handles ++ usualHandles }
  match first with
  | .streamEnd => return none
  | .version .. | .tagHandle .. | .documentStart =>
    directives fuel false
    usual
    expect .documentStart
    let n ← unlessEmpty (← peek)
    let _ ← peek
    return some n
  | _ =>
    usual
    let n ← node fuel true false
    let _ ← peek
    return some n
where
  unlessEmpty : Token → Build Node
    | .version .. | .tagHandle .. | .documentStart | .documentEnd | .streamEnd => pure .empty
    | _ => node fuel true false

end Build

/--
The node of the first document of a text. There may be no document, and the text may be refused.
-/
def document? (t : Text) : Option (Option Node) :=
  match characters? t with
  | none => none
  | some cs =>
    let tokens := Tokens.ofChars cs
    let fuel := 4 * tokens.list.length + 4
    ((Build.document fuel).run ⟨tokens, 0, [], []⟩).map Prod.fst

end Yaml

end ValueGen
