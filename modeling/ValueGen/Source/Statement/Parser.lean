import ValueGen.Source.Reader
import ValueGen.Source.Statement
import ValueGen.Text.Integer

/-!
This module contains the grammar of declaration sources.
-/

namespace ValueGen

namespace Parse

def notInteger (t : Text) (fault : IntegerFault) : Text :=
  "strconv.Atoi: parsing " ++ t.quote ++ ": " ++ fault.message

/--
Read an integer with any number of minus signs, or why there is none.
-/
def integer : Nat → Parse (Except Text Int)
  | 0 => throw .stuck
  | n + 1 => do
    let t ← next
    if t.is "-" then
      return (← integer n).map (- ·)
    else if t.kind != .number then
      return .error "non integer"
    else if Token.isHex t.text then
      -- A number that does not fit counts as zero.
      return .ok ((Token.hexInteger? t.text).getD 0)
    else
      match Text.readInteger 64 t.text with
      | .ok i => return .ok i
      | .error f => return .error (notInteger t.text f)

/-! Options and their values -/

/--
Read the name of an option: names, dots, and names in parentheses.
-/
def optionName : Nat → Text → Parse Text
  | 0, _ => throw .stuck
  | n + 1, done => do
    let t ← dotted true
    if t.is "." then
      optionName n (done ++ ".")
    else if t.kind == .word then
      optionName n (done ++ t.text)
    else if t.is "(" then
      let leading ← dotAhead
      if leading then
        let _ ← next
      let u ← dotted true
      if u.kind != .word then
        unexpected u.text "option name"
      else
        let close ← next
        if !close.is ")" then
          unexpected u.text "option full identifier closing )"
        else
          let dot : Text := if leading then "." else []
          optionName n (done ++ "(" ++ dot ++ u.text ++ ")")
    else
      putBack t
      return done

def moreQuoted : Nat → Parse Unit
  | 0 => throw .stuck
  | n + 1 => do
    let t ← next
    if t.text.isQuoted then
      moreQuoted n
    else
      putBack t

mutual

def value : Nat → Parse Unit
  | 0 => throw .stuck
  | n + 1 => do
    let t ← next
    if t.kind == .comment || t.is "-" then
      value n
    else if t.is "[" then
      -- The brackets of an empty list stand together.
      if (← get).cursor.seesChar ']' then
        let _ ← next
      else
        values n
    else if t.is "\x7b" then
      entries n false
    else
      moreQuoted (← get).budget

def values : Nat → Parse Unit
  | 0 => throw .stuck
  | n + 1 => do
    value n
    let t ← next
    if t.is "," then
      values n
    else if !t.is "]" then
      unexpected t.text ", or ]"

/--
Read the entries of an aggregate, up to its closing brace. `nonempty` tells whether there was an
entry before.
-/
def entries : Nat → Bool → Parse Unit
  | 0, _ => throw .stuck
  | n + 1, nonempty => do
    let t ← dotted true
    -- The bracket is left to the list around the aggregate.
    if t.is "]" then
      putBack t
    else if t.is "\x7d" then
      return
    else if t.is ";" || t.kind == .comment then
      entries n nonempty
    else if t.is "," then
      if nonempty then entries n nonempty else unexpected t.text "non-empty option aggregate key"
    else if !t.isName then
      unexpected t.text "option aggregate key"
    else if t.text.isQuoted && nonempty then
      -- The text goes on with the value before it.
      entries n nonempty
    else
      let u ← next
      let u ← if u.is ":" then next else pure u
      if u.is "\x7b" then
        entries n false
        entries n true
      else
        putBack u
        value n
        entries n true

end

/--
Read an option behind its keyword or inside brackets, and return its name.
-/
def option : Parse Text := do
  comments
  let n := (← get).budget
  let name ← optionName n []
  expect "=" "option value assignment ="
  -- The answer does not matter, but the blanks are passed over.
  let _ ← dotAhead
  let care := (← get).care
  modify fun r => { r with care := .escapes }
  value n
  modify fun r => { r with care := care }
  comments
  return name

/--
Read options behind an opening bracket, separated by commas, up to the closing bracket.
-/
def options : Nat → Parse Unit
  | 0 => throw .stuck
  | n + 1 => do
    let _ ← option
    let t ← next
    if t.is "," then
      options n
    else if !t.is "]" then
      unexpected t.text "option ,"

/--
Read options in brackets if there are any, and tell whether there are.
-/
def bracketed : Parse Bool := do
  let t ← next
  if t.is "[" then
    options (← get).budget
    return true
  else
    putBack t
    return false

/-! Fields -/

/--
Read a field behind its type: its name, its number and its options.
-/
def fieldRest : Parse (Text × Int × Bool) := do
  comments
  let name ← name "field identifier"
  comments
  expect "=" "field ="
  comments
  let t ← next
  if t.kind != .number then
    unexpected t.text "field sequence number"
  else
    putBack t
    match ← integer (← get).budget with
    | .error _ => unexpected t.text "field sequence number"
    | .ok number =>
      comments
      return (name, number, ← bracketed)

/--
Read a field from its type on. What cannot be a type ends the field at once.
-/
def field : Nat → FieldStatement → Parse FieldStatement
  | 0, _ => throw .stuck
  | n + 1, f => do
    let t ← typeName
    if t.kind == .comment then
      field n f
    else if t.is "repeated" then
      -- A label behind another one adds to it.
      field n { f with repeated := true }
    else if t.is "optional" then
      field n { f with optional := true }
    else if t.kind == .word then
      let (name, number, hasOptions) ← fieldRest
      return { f with type := t.text, name := name, number := number, hasOptions := hasOptions }
    else
      return f

def fieldAt (t : Token) : FieldStatement :=
  ⟨false, false, false, [], [], 0, false, t.line, t.column⟩

def mapField : Parse Text := do
  expect "<" "map keyType <"
  let key ← typeName
  if key.kind != .word then
    unexpected key.text "map identifier"
  else
    expect "," "map type separator ,"
    let value ← typeName
    if value.kind != .word then
      unexpected value.text "map valueType identifier"
    else
      expect ">" "map valueType >"
      let (name, _, _) ← fieldRest
      return name

/-! Ranges of numbers -/

/--
Read ranges of numbers. `count` is the number of ranges so far, and `open` tells whether the end
of the last one is yet to come.
-/
def ranges : Nat → Nat → Bool → Parse Unit
  | 0, _, _ => throw .stuck
  | n + 1, count, isOpen => do
    let t ← next
    if t.text.isQuoted then
      unexpected t.text "integer, <to> <max>"
    else if t.is "-" || t.is "," then
      ranges n count isOpen
    else if t.is "to" then
      ranges n count true
    else if t.is ";" || t.is "[" then
      putBack t
    else if t.is "max" then
      if !isOpen then
        unexpected t.text "to"
      else if count == 0 then
        throw .brokenRange
      else
        ranges n count isOpen
    else
      match Text.readInteger 64 t.text with
      | .error _ => unexpected t.text "range integer"
      | .ok _ =>
        if !isOpen then
          ranges n (count + 1) false
        else if count == 0 then
          throw .brokenRange
        else
          ranges n count false

/--
Read what is reserved: names in quotes and ranges of numbers.
-/
def reserved : Nat → Parse Unit
  | 0 => throw .stuck
  | n + 1 => do
    let t ← next
    match t.text with
    | [] => unexpected [] "reserved string or integer"
    | b :: _ =>
      if Ascii.isDigit b || b == 45 then
        putBack t
        ranges (← get).budget 0 false
        reserved n
      else if t.is ";" then
        putBack t
      else
        reserved n

def extensions : Parse Unit := do
  ranges (← get).budget 0 false
  let _ ← bracketed

/-! Enumerations and services -/

def enumValue : Parse Unit := do
  let _ ← identifierName "enum field identifier"
  expect "=" "enum field ="
  match ← integer (← get).budget with
  | .error e => unexpected e "enum field integer"
  | .ok _ =>
    let t ← next
    if t.is "[" then
      options (← get).budget
    else if t.is ";" then
      putBack t

def enumBody : Nat → Parse Unit
  | 0 => throw .stuck
  | n + 1 => do
    let t ← next
    if t.is "\x7d" then
      return
    else if t.kind == .endOfSource then
      unexpected [] "enum closing \x7d"
    else if t.kind == .comment || t.is ";" then
      enumBody n
    else if t.is "option" then
      let _ ← option
      enumBody n
    else if t.is "reserved" then
      reserved (← get).budget
      enumBody n
    else
      putBack t
      enumValue
      enumBody n

def enum : Parse Text := do
  let name ← name "enum identifier"
  comments
  expect "\x7b" "enum opening \x7b"
  enumBody (← get).budget
  return name

/--
Read the type of what a procedure takes or returns, in parentheses.
-/
def procedureType (expected : Text) : Parse Unit := do
  expect "(" "rpc type opening ("
  let t ← typeName
  let t ← if t.is "stream" then typeName else pure t
  if t.kind != .word then
    unexpected t.text expected
  else
    expect ")" "rpc type closing )"

/--
Read the body of a procedure. Everything but options is passed over.
-/
def procedureBody : Nat → Parse Unit
  | 0 => throw .stuck
  | n + 1 => do
    let t ← next
    if t.is "\x7d" then
      return
    else if t.is "option" then
      let _ ← option
      procedureBody n
    else
      procedureBody n

def procedure : Parse Unit := do
  let t ← next
  if t.kind != .word then
    unexpected t.text "rpc method"
  else
    procedureType "rpc stream | request type"
    expect "returns" "rpc returns"
    procedureType "rpc stream | returns type"
    let t ← next
    if t.is ";" then
      putBack t
    else if t.is "\x7b" then
      procedureBody (← get).budget

def serviceBody : Nat → Parse Unit
  | 0 => throw .stuck
  | n + 1 => do
    let t ← next
    if t.is "\x7d" then
      return
    else if t.kind == .comment || t.is ";" then
      serviceBody n
    else if t.is "option" then
      let _ ← option
      serviceBody n
    else if t.is "rpc" then
      procedure
      serviceBody n
    else
      unexpected t.text "service comment|rpc"

def service : Parse Text := do
  let name ← identifierName "service identifier"
  comments
  expect "\x7b" "service opening \x7b"
  serviceBody (← get).budget
  return name

/-! Messages -/

/--
The head of a group: its name, its number and the opening brace.
-/
def groupHead : Parse Text := do
  let name ← name "group name"
  expect "=" "group ="
  match ← integer (← get).budget with
  | .error _ => unexpected "=" "group sequence number"
  | .ok _ =>
    comments
    expect "\x7b" "group opening \x7b"
    return name

/--
The head of a message or of an extension of one: its name and the opening brace.
-/
def messageHead (kind : Text) : Parse Text := do
  let name ← identifierName (kind ++ " identifier")
  comments
  expect "\x7b" (kind ++ " opening \x7b")
  return name

/--
The head of a choice of fields: its name and the opening brace.
-/
def oneofHead : Parse Text := do
  let name ← name "oneof identifier"
  comments
  expect "\x7b" "oneof opening \x7b"
  return name

def isLabel (t : Token) : Bool := t.is "optional" || t.is "repeated" || t.is "required"

/--
Read a field or a group behind its label. `body` reads the body of a group.
-/
def labelled (body : Parse (List Member)) (t : Token) : Parse Member := do
  let u ← next
  if u.is "group" then
    let name ← groupHead
    let _ ← body
    return .other (.group name) u.line u.column
  else
    putBack u
    let f ← field (← get).budget
      { fieldAt u with
        optional := t.is "optional"
        required := t.is "required"
        repeated := t.is "repeated"
        type := u.text }
    return .field f

/--
How to go on behind a word that starts a member other than a field. `body` and `choice` read the
bodies of messages and of choices of fields.
-/
def constructInBody (body : Parse (List Member)) (choice : Parse Unit) (word : Text) :
    Option (Parse Construct) :=
  if word == "enum" then
    some do
      return .enum (← enum)
  else if word == "message" || word == "extend" then
    some do
      let name ← messageHead word
      let _ ← body
      return .nestedMessage name
  else if word == "option" then
    some do
      return .option (← option)
  else if word == "oneof" then
    some do
      let name ← oneofHead
      choice
      return .oneof name
  else if word == "map" then
    some do
      return .mapField (← mapField)
  else if word == "reserved" then
    some do
      reserved (← get).budget
      return .reserved
  else if word == "extensions" then
    some do
      extensions
      return .extensions
  else if word == "group" then
    some do
      let name ← groupHead
      let _ ← body
      return .group name
  else
    none

def member (body : Parse (List Member)) (choice : Parse Unit) (t : Token) : Parse Member := do
  if t.kind == .comment then
    return .comment
  else
    match constructInBody body choice t.text with
    | some construct =>
      let c ← construct
      return .other c t.line t.column
    | none =>
      if isLabel t then
        labelled body t
      else
        putBack t
        let f ← field (← get).budget (fieldAt t)
        return .field f

mutual

def body : Nat → Parse (List Member)
  | 0 => throw .stuck
  | n + 1 => do
    let t ← next
    if t.is "\x7d" then
      return []
    else if t.kind == .endOfSource then
      unexpected [] "extend|message|group closing \x7d"
    else if t.is ";" then
      body n
    else
      let m ← member (body n) (oneofBody n) t
      return m :: (← body n)

def oneofBody : Nat → Parse Unit
  | 0 => throw .stuck
  | n + 1 => do
    let t ← typeName
    if t.kind == .comment || t.is ";" then
      oneofBody n
    else if t.kind == .word then
      let _ ← fieldRest
      oneofBody n
    else if t.is "group" then
      let _ ← groupHead
      let _ ← body n
      oneofBody n
    else if t.is "option" then
      let _ ← option
      oneofBody n
    else if !t.is "\x7d" then
      unexpected t.text "oneof closing \x7d"

end

/-! Sources -/

/--
Read the statement of the language level or edition behind its keyword.
-/
def level (kind : Text) : Parse Unit := do
  expect "=" (kind ++ " =")
  let t ← next
  if !t.text.isQuoted then
    unexpected t.text (kind ++ " string constant")

def importFile : Nat → Parse Text
  | 0 => throw .stuck
  | n + 1 => do
    let t ← next
    if t.is "weak" || t.is "public" then
      importFile n
    else if t.kind == .word then
      return t.text.unquote
    else
      unexpected t.text "import classifier weak|public|quoted"

/--
How to go on behind a word that starts a statement which is only read to be refused.
-/
def constructInSource (word : Text) : Option (Parse Construct) :=
  if word == "option" then
    some do
      return .option (← option)
  else if word == "import" then
    some do
      return .importFile (← importFile (← get).budget)
  else if word == "enum" then
    some do
      return .enum (← enum)
  else if word == "service" then
    some do
      return .service (← service)
  else
    none

/--
Read a statement that starts with a given token. `body` reads the bodies of messages.
-/
def statement (body : Parse (List Member)) (t : Token) : Parse Statement := do
  if t.kind == .comment then
    return .comment
  else
    match constructInSource t.text with
    | some construct =>
      let c ← construct
      return .other c t.line t.column
    | none =>
      if t.is "syntax" then
        level "syntax"
        return .level
      else if t.is "edition" then
        level "edition"
        return .edition
      else if t.is "package" then
        let name ← dotted true
        if name.isName then
          return .package name.text t.line t.column
        else
          unexpected name.text "package identifier"
      else if t.is "message" || t.is "extend" then
        let name ← messageHead t.text
        return .message name (t.is "extend") (← body) t.line t.column
      else
        unexpected t.text
          ".proto element \x7bcomment|option|import|syntax|enum|service|package|message\x7d"

def statements : Nat → Parse (List Statement)
  | 0 => throw .stuck
  | n + 1 => do
    let t ← next
    if t.kind == .endOfSource then
      return []
    else if t.is ";" then
      statements n
    else
      let s ← statement (body n) t
      return s :: (← statements n)

end Parse

end ValueGen
