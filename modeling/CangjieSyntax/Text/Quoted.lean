import CangjieSyntax.Unicode.Printable

/-!
# Quoted text

Text in a rendering stands between quotes, with an escape for every character that would not show as
itself: the backslash, the enclosing quote, the usual control characters by their short escapes, and
all other hidden or attached characters by their code point in hexadecimal.
-/

namespace CangjieSyntax.Quoted

/-- The digits of a number in lower-case hexadecimal. -/
def hexDigits (n : Nat) : String :=
  String.ofList (Nat.toDigits 16 n)

/-- The escape that gives a character by its code point. -/
def codePointEscape (c : Char) : String :=
  "\\u\x7b" ++ hexDigits c.toNat ++ "\x7d"

/-- One character as it is written between the given quotes. -/
def escape (quote : Char) (c : Char) : String :=
  if c == '\x00' then "\\0"
  else if c == '\t' then "\\t"
  else if c == '\r' then "\\r"
  else if c == '\n' then "\\n"
  else if c == '\\' || c == quote then "\\" ++ c.toString
  else if Unicode.isAttached c || Unicode.isHidden c then codePointEscape c
  else c.toString

/-- A text between double quotes. -/
def string (s : String) : String :=
  "\"" ++ String.join (s.toList.map (escape '"')) ++ "\""

/-- A character between single quotes. -/
def char (c : Char) : String :=
  "'" ++ escape '\'' c ++ "'"

end CangjieSyntax.Quoted
