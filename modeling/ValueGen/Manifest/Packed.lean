import ValueGen.Text.BigEndian

/-!
This module contains the packed form of data. Each item starts with a head: a byte that gives its
kind, and for most kinds a size or a number after it. Writing takes the smallest head that does;
reading takes any.
-/

namespace ValueGen

namespace Packed

inductive Head where
  | absent
  | bool (b : Bool)
  | integer (n : Int)
  | float (size : Nat)
  | text (size : Nat)
  | array (size : Nat)
  | map (size : Nat)
  | extension (size : Nat)
  deriving DecidableEq, Repr

/--
What has to be read after the first byte of a head.
-/
inductive Pending where
  | complete (h : Head)
  | number (width : Nat) (make : Nat → Head)
  /-- A number of some bytes, and a byte for the type of an extension. -/
  | typed (width : Nat) (size : Nat → Nat)

/--
An integer of some bytes whose first bit is the sign.
-/
def signed (width n : Nat) : Head := .integer (Int.bmod n (Word.span width))

def pending? (c : Nat) : Option Pending :=
  if c < 0x80 then some (.complete (.integer c))
  else if c < 0x90 then some (.complete (.map (c - 0x80)))
  else if c < 0xa0 then some (.complete (.array (c - 0x90)))
  else if c < 0xc0 then some (.complete (.text (c - 0xa0)))
  else
    match c with
    | 0xc0 => some (.complete .absent)
    | 0xc2 => some (.complete (.bool false))
    | 0xc3 => some (.complete (.bool true))
    -- Bytes are read like texts.
    | 0xc4 => some (.number 1 .text)
    | 0xc5 => some (.number 2 .text)
    | 0xc6 => some (.number 4 .text)
    | 0xc7 => some (.typed 1 id)
    | 0xc8 => some (.typed 2 id)
    | 0xc9 => some (.typed 4 id)
    | 0xca => some (.complete (.float 4))
    | 0xcb => some (.complete (.float 8))
    | 0xcc => some (.number 1 fun n => .integer n)
    | 0xcd => some (.number 2 fun n => .integer n)
    | 0xce => some (.number 4 fun n => .integer n)
    -- A number that needs all 64 bits wraps around.
    | 0xcf => some (.number 8 (signed 8))
    | 0xd0 => some (.number 1 (signed 1))
    | 0xd1 => some (.number 2 (signed 2))
    | 0xd2 => some (.number 4 (signed 4))
    | 0xd3 => some (.number 8 (signed 8))
    | 0xd4 => some (.typed 0 fun _ => 1)
    | 0xd5 => some (.typed 0 fun _ => 2)
    | 0xd6 => some (.typed 0 fun _ => 4)
    | 0xd7 => some (.typed 0 fun _ => 8)
    | 0xd8 => some (.typed 0 fun _ => 16)
    | 0xd9 => some (.number 1 .text)
    | 0xda => some (.number 2 .text)
    | 0xdb => some (.number 4 .text)
    | 0xdc => some (.number 2 .array)
    | 0xdd => some (.number 4 .array)
    | 0xde => some (.number 2 .map)
    | 0xdf => some (.number 4 .map)
    -- The byte 0xc1 starts nothing.
    | _ => if 0xe0 ≤ c then some (.complete (.integer (c - 256))) else none

def readHead : Text → Option (Head × Text)
  | [] => none
  | c :: rest =>
    match pending? c.toNat with
    | none => none
    | some (.complete h) => some (h, rest)
    | some (.number width make) =>
      match Text.readBigEndian 0 width rest with
      | some (n, rest) => some (make n, rest)
      | none => none
    | some (.typed width size) =>
      match Text.readBigEndian 0 width rest with
      | some (n, _ :: rest) => some (.extension (size n), rest)
      | _ => none

/--
Read an integer. An absent one is zero.
-/
def readInteger (t : Text) : Option (Int × Text) :=
  match readHead t with
  | some (.absent, rest) => some (0, rest)
  | some (.integer n, rest) => some (n, rest)
  | _ => none

/--
Read a text. An absent one is empty.
-/
def readText (t : Text) : Option (Text × Text) :=
  match readHead t with
  | some (.absent, rest) => some ([], rest)
  | some (.text size, rest) => Text.splitBytes? size rest
  | _ => none

/--
Read the size of a map, of which none stands for an absent map. The map may stand in an extension.
-/
def readMapSize (t : Text) : Option (Option Nat × Text) :=
  match readHead t with
  | some (.extension _, rest) => sizeOf (readHead rest)
  | other => sizeOf other
where
  sizeOf : Option (Head × Text) → Option (Option Nat × Text)
    | some (.absent, rest) => some (none, rest)
    | some (.map size, rest) => some (some size, rest)
    | _ => none

/--
How many items and how many bytes belong to an item, behind its head.
-/
def Head.contents : Head → Nat × Nat
  | .float size => (0, size)
  | .text size => (0, size)
  | .extension size => (0, size)
  | .array size => (size, 0)
  | .map size => (2 * size, 0)
  | _ => (0, 0)

/--
Skip a number of items. Every item takes at least a byte, so that the fuel need not be more than
one above the number of bytes.
-/
def skipItems (fuel items : Nat) (t : Text) : Option Text :=
  match fuel, items with
  | _, 0 => some t
  | 0, _ + 1 => none
  | fuel + 1, items + 1 =>
    match readHead t with
    | none => none
    | some (h, rest) =>
      match Text.splitBytes? h.contents.2 rest with
      | none => none
      | some (_, rest) => skipItems fuel (items + h.contents.1) rest

def skip (t : Text) : Option Text := skipItems (t.length + 1) 1 t

def numberHead (c : UInt8) (width n : Nat) : Text := c :: Text.bigEndian width n

def text (t : Text) : Text :=
  let n := t.length
  let head :=
    if n < 32 then [(0xa0 + n).toUInt8]
    else if n < 256 then numberHead 0xd9 1 n
    else if n < 65536 then numberHead 0xda 2 n
    else numberHead 0xdb 4 n
  head ++ t

def mapHead (n : Nat) : Text :=
  if n < 16 then [(0x80 + n).toUInt8]
  else if n < 65536 then numberHead 0xde 2 n
  else numberHead 0xdf 4 n

def integer : Int → Text
  | .ofNat n =>
    if n < 128 then [n.toUInt8]
    else if n < 256 then numberHead 0xcc 1 n
    else if n < 65536 then numberHead 0xcd 2 n
    else if n < 4294967296 then numberHead 0xce 4 n
    else numberHead 0xcf 8 n
  | .negSucc n =>
    if n < 32 then [(255 - n).toUInt8]
    else if n < 128 then numberHead 0xd0 1 (255 - n)
    else if n < 32768 then numberHead 0xd1 2 (65535 - n)
    else if n < 2147483648 then numberHead 0xd2 4 (4294967295 - n)
    else numberHead 0xd3 8 (18446744073709551615 - n)

def absent : Text := [0xc0]

end Packed

end ValueGen
