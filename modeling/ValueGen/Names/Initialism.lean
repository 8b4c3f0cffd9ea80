import ValueGen.Text.Glyph

/-!
This module contains the well-known initialisms, which names keep in upper case.
-/

namespace ValueGen

namespace Initialism

def known : List Text := ([
  "ACL", "API", "ASCII", "AWS", "CPU", "CSS", "DNS", "EOF", "GB", "GUID", "HCL", "HTML", "HTTP",
  "HTTPS", "ID", "IP", "JSON", "KB", "LHS", "MAC", "MB", "QPS", "RAM", "RHS", "RPC", "SLA", "SMTP",
  "SQL", "SSH", "SSO", "TCP", "TLS", "TTL", "UDP", "UI", "UID", "URI", "URL", "UTF8", "UUID", "VM",
  "XML", "XMPP", "XSRF", "XSS"] : List String).map Text.ofString

/--
The upper-case form of a character as far as it is an ASCII one: the ASCII letters, the dotless i
and the long s have one, and everything else stays as it is.
-/
def upper (g : Glyph) : Text :=
  match g.bytes with
  | [b] => [Ascii.toUpper b]
  | bytes =>
    if g.char == 'ı' then
      "I"
    else if g.char == 'ſ' then
      "S"
    else
      bytes

def spelling (word : Text) : Text := word.glyphs.flatMap upper

/--
The initialism that a word spells in some mixture of cases.
-/
def ofWord? (word : Text) : Option Text := known.find? (· == spelling word)

def isSpelledBy (word : Text) : Bool := known.contains (spelling word)

end Initialism

end ValueGen
