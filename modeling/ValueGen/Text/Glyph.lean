import ValueGen.Text.Basic

/-!
This module contains the decoding of texts into characters. A byte that starts no well-formed UTF-8
sequence stands for the replacement character on its own, so decoding never fails and never loses
a byte.
-/

namespace ValueGen

structure Glyph where
  char : Char
  bytes : Text
  deriving DecidableEq, Repr, Inhabited

namespace Glyph

/--
The character that stands for a byte that belongs to no well-formed sequence.
-/
def replacement : Char := Char.ofNat 0xFFFD

def isTail (b : UInt8) : Bool := 0x80 ≤ b && b ≤ 0xBF

/--
May `c` be the second byte of a sequence of three or four bytes that starts with `b`? This rules
out overlong sequences, surrogates, and numbers above the last code point.
-/
def isSecond (b c : UInt8) : Bool :=
  if b == 0xE0 then
    0xA0 ≤ c && c ≤ 0xBF
  else if b == 0xED then
    0x80 ≤ c && c ≤ 0x9F
  else if b == 0xF0 then
    0x90 ≤ c && c ≤ 0xBF
  else if b == 0xF4 then
    0x80 ≤ c && c ≤ 0x8F
  else
    isTail c

/--
The glyph of a byte that starts no well-formed sequence.
-/
def ofStrayByte (b : UInt8) : Glyph := ⟨replacement, [b]⟩

/--
Was the glyph decoded from a byte that starts no well-formed sequence?
-/
def isStray (g : Glyph) : Bool := g.char == replacement && g.bytes.length == 1

/--
The glyph at the start of `b :: t`.
-/
def leading (b : UInt8) (t : Text) : Glyph :=
  if b < 0x80 then
    ⟨Char.ofNat b.toNat, [b]⟩
  else if 0xC2 ≤ b && b ≤ 0xDF then
    match t with
    | c :: _ =>
      if isTail c then
        ⟨Char.ofNat ((b.toNat - 0xC0) * 64 + (c.toNat - 0x80)), [b, c]⟩
      else
        ofStrayByte b
    | _ => ofStrayByte b
  else if 0xE0 ≤ b && b ≤ 0xEF then
    match t with
    | c :: d :: _ =>
      if isSecond b c && isTail d then
        ⟨Char.ofNat (((b.toNat - 0xE0) * 64 + (c.toNat - 0x80)) * 64 + (d.toNat - 0x80)), [b, c, d]⟩
      else
        ofStrayByte b
    | _ => ofStrayByte b
  else if 0xF0 ≤ b && b ≤ 0xF4 then
    match t with
    | c :: d :: e :: _ =>
      if isSecond b c && isTail d && isTail e then
        ⟨Char.ofNat
            ((((b.toNat - 0xF0) * 64 + (c.toNat - 0x80)) * 64 + (d.toNat - 0x80)) * 64
              + (e.toNat - 0x80)),
          [b, c, d, e]⟩
      else
        ofStrayByte b
    | _ => ofStrayByte b
  else
    ofStrayByte b

end Glyph

def Text.glyphs (t : Text) : List Glyph :=
  go 0 t
where
  /--
  The glyphs of what is left after `skip` bytes, which belong to a glyph already decoded.
  -/
  go (skip : Nat) : Text → List Glyph
    | [] => []
    | b :: t =>
      match skip with
      | k + 1 => go k t
      | 0 =>
        let g := Glyph.leading b t
        g :: go (g.bytes.length - 1) t

def Text.chars (t : Text) : List Char := t.glyphs.map Glyph.char

def Text.isWellFormed (t : Text) : Bool := t.glyphs.all fun g => !g.isStray

def Text.ofGlyphs (gs : List Glyph) : Text := gs.flatMap Glyph.bytes

def Text.ofChars (cs : List Char) : Text := cs.flatMap Text.ofChar

/--
Every glyph is decoded from at least one byte.
-/
theorem Glyph.bytes_ne_nil (b : UInt8) (t : Text) : (Glyph.leading b t).bytes ≠ [] := by
  unfold Glyph.leading Glyph.ofStrayByte
  repeat' split
  all_goals simp

/--
The bytes of a glyph are the first bytes of what it was decoded from.
-/
theorem Glyph.bytes_isPrefix (b : UInt8) (t : Text) :
    (Glyph.leading b t).bytes <+: b :: t := by
  unfold Glyph.leading Glyph.ofStrayByte
  repeat' split
  all_goals simp [List.cons_prefix_cons]

theorem Text.glyphs.go_bytes (skip : Nat) (t : Text) :
    Text.ofGlyphs (Text.glyphs.go skip t) = t.drop skip := by
  induction t generalizing skip with
  | nil => simp [Text.glyphs.go, Text.ofGlyphs]
  | cons b t ih =>
    cases skip with
    | succ k => simp [Text.glyphs.go, ih]
    | zero =>
      have hpre := Glyph.bytes_isPrefix b t
      have hne := Glyph.bytes_ne_nil b t
      simp only [Text.glyphs.go, List.drop_zero]
      obtain ⟨rest, hrest⟩ := hpre
      cases hg : (Glyph.leading b t).bytes with
      | nil => exact absurd hg hne
      | cons c cs =>
        rw [hg] at hrest
        simp only [List.cons_append, List.cons.injEq] at hrest
        obtain ⟨hb, ht⟩ := hrest
        have hdrop : t.drop cs.length = rest := by simp [← ht]
        have ih' := ih cs.length
        simp only [Text.ofGlyphs] at ih'
        simp [Text.ofGlyphs, hg, ih', hdrop, hb, ht]

/--
Decoding loses no byte: the bytes of the glyphs of a text are the text.
-/
theorem Text.ofGlyphs_glyphs (t : Text) : Text.ofGlyphs t.glyphs = t := by
  simpa [Text.glyphs] using Text.glyphs.go_bytes 0 t

end ValueGen
