import ValueGen.Text.Calendar
import ValueGen.Decimal.Binary
import ValueGen.Yaml.Node

/-!
This module contains the meaning of scalars. A plain scalar without a tag may be a number, a truth
value or nothing at all, depending on its spelling; a tag asks for one kind of meaning.
-/

namespace ValueGen

namespace Yaml

inductive Meaning where
  | absent
  | bool (b : Bool)
  | integer (n : Int)
  | float (x : Floating)
  | date
  | text (t : Text)
  deriving Repr

def shortTag (tag : Text) : Text :=
  let start : Text := "tag:yaml.org,2002:"
  if tag.startsWith start then "!!" ++ tag.drop start.length else tag

def Meaning.tag : Meaning → Text
  | .absent => "!!null"
  | .bool _ => "!!bool"
  | .integer _ => "!!int"
  | .float _ => "!!float"
  | .date => "!!timestamp"
  | .text _ => "!!str"

def spelled? (t : Text) : Option Meaning :=
  if t.isEmpty || t == "~" || t == "null" || t == "Null" || t == "NULL" then some .absent
  else if t == "true" || t == "True" || t == "TRUE" then some (.bool true)
  else if t == "false" || t == "False" || t == "FALSE" then some (.bool false)
  else if t == ".nan" || t == ".NaN" || t == ".NAN" then some (.float .notANumber)
  else if t == ".inf" || t == ".Inf" || t == ".INF" then some (.float (.infinite false))
  else if t == "+.inf" || t == "+.Inf" || t == "+.INF" then some (.float (.infinite false))
  else if t == "-.inf" || t == "-.Inf" || t == "-.INF" then some (.float (.infinite true))
  else none

/--
The value of digits in a base. There has to be one, and all of them have to be below the base.
-/
def digitsIn? (base : Nat) (t : Text) : Option Nat :=
  if t.isEmpty then
    none
  else
    t.foldl (fun n b => n.bind fun n =>
      ((Ascii.hexValue? b).filter (· < base)).map (base * n + ·)) (some 0)

/--
The value of digits whose base is given by how they start. A leading zero alone means octal digits.
-/
def magnitude? (t : Text) : Option Nat :=
  match t with
  | 48 :: c :: rest =>
    match Ascii.toLower c with
    | 120 => digitsIn? 16 rest
    | 111 => digitsIn? 8 rest
    | 98 => digitsIn? 2 rest
    | _ => digitsIn? 8 (c :: rest)
  | _ => digitsIn? 10 t

def signOf : Text → Bool × Text
  | 45 :: rest => (true, rest)
  | 43 :: rest => (false, rest)
  | t => (false, t)

/--
An integer of 64 bits. Without a sign it may use all bits for the magnitude.
-/
def integer? (t : Text) : Option Int :=
  let (negative, digits) := signOf t
  match magnitude? digits with
  | none => none
  | some n =>
    if negative then
      if Word.holds 64 (-n) then some (-n) else none
    else if Word.holds 64 n || (n < Word.count 64 && digits.length == t.length) then
      some n
    else
      none

/--
Does the text have the form of a decimal fraction, possibly with an exponent?
-/
def isDecimal (t : Text) : Bool :=
  let (_, t) := signOf t
  let whole := t.takeWhile Ascii.isDigit
  let rest := t.drop whole.length
  let (point, fraction, rest) := match rest with
    | 46 :: rest =>
      let fraction := rest.takeWhile Ascii.isDigit
      (true, fraction, rest.drop fraction.length)
    | rest => (false, [], rest)
  let mantissa := if whole.isEmpty then point && !fraction.isEmpty else true
  let exponent := match rest with
    | [] => true
    | e :: rest =>
      let digits := (signOf rest).2
      Ascii.toLower e == 101 && !digits.isEmpty && digits.all Ascii.isDigit
  mantissa && exponent

def isDate (t : Text) : Bool :=
  match Calendar.afterDate? .loose t with
  | none => false
  | some [] => true
  | some (sep :: rest) =>
    match (Calendar.afterMinute? .loose rest).bind (Calendar.afterSecond? .loose) with
    | none => false
    | some zone =>
      -- Behind a blank the time has no zone.
      if sep == 32 then zone.isEmpty else (sep == 84 || sep == 116) && Calendar.isZone zone

def number? (t : Text) : Option Meaning :=
  -- Underscores may stand anywhere in a number.
  let plain := t.filter (· != 95)
  match integer? plain with
  | some n => some (.integer n)
  | none => if isDecimal plain then (Floating.ofText? .double plain).map .float else none

/--
The meaning that a spelling has on its own. Only the first byte decides what is tried.
-/
def meaningOf (t : Text) : Meaning :=
  match t with
  | [] => .absent
  | c :: _ =>
    let guess : Option Meaning :=
      if Ascii.isDigit c || c == 43 || c == 45 then
        if isDate t then some .date else number? t
      else if c == 46 then
        (Floating.ofText? .double t).map .float
      else
        none
    (spelled? t).getD (guess.getD (.text t))

def base64Value? (b : UInt8) : Option Nat :=
  if Ascii.isUpper b then some (b.toNat - 65)
  else if Ascii.isLower b then some (b.toNat - 71)
  else if Ascii.isDigit b then some (b.toNat + 4)
  else if b == 43 then some 62
  else if b == 47 then some 63
  else none

/--
The bytes that groups of four digits in base 64 stand for. The last group may be padded.
-/
def base64? : Text → Option Text
  | [] => some []
  | [a, b, 61, 61] =>
    match base64Value? a, base64Value? b with
    | some x, some y => some [(x * 4 + y / 16).toUInt8]
    | _, _ => none
  | [a, b, c, 61] =>
    match base64Value? a, base64Value? b, base64Value? c with
    | some x, some y, some z => some [(x * 4 + y / 16).toUInt8, (y * 16 + z / 4).toUInt8]
    | _, _, _ => none
  | a :: b :: c :: d :: rest =>
    match base64Value? a, base64Value? b, base64Value? c, base64Value? d with
    | some x, some y, some z, some w =>
      (base64? rest).map fun t =>
        (x * 4 + y / 16).toUInt8 :: (y * 16 + z / 4).toUInt8 :: (z * 64 + w).toUInt8 :: t
    | _, _, _, _ => none
  | _ => none

/--
The tags that ask for a kind of meaning which the spelling has to have.
-/
def askingTags : List Text := ["!!bool", "!!int", "!!float", "!!null", "!!timestamp"]

/--
The meaning of a scalar, and its text. There is none if the scalar does not have the meaning that
its tag asks for. With any other tag a scalar is a text.
-/
def scalarMeaning? (tag : Text) (plain : Bool) (t : Text) : Option (Meaning × Text) :=
  let tag := shortTag tag
  if tag.isEmpty || tag == "!" then
    some (if plain then meaningOf t else .text t, t)
  else if tag == "!!binary" then
    (base64? (t.filter fun b => b != 10 && b != 13)).map fun bytes => (.text bytes, bytes)
  else if askingTags.contains tag then
    let meaning := meaningOf t
    if meaning.tag == tag then
      some (meaning, t)
    else
      match meaning with
      | .integer n =>
        if tag == "!!float" then
          (Floating.ofText? .double (Text.ofInt n)).map fun x => (.float x, t)
        else
          none
      | _ => none
  else
    some (.text t, t)

end Yaml

end ValueGen
