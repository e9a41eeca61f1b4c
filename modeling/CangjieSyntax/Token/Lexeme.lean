import CangjieSyntax.Token.Kind
import CangjieSyntax.Token.Flags
import CangjieSyntax.Token.Mode
import CangjieSyntax.Diagnostic.LexError

/-!
# Lexemes

A lexeme is what one step of reading yields: a token from a given place on, together with the errors
found in it and what it does to the stack of modes.
-/

namespace CangjieSyntax

/-- Lexical errors with their places, in the order of their report. -/
abbrev LexErrors := List (LexError × Bounds)

/-- A token read from a given place on. -/
structure Lexeme where
  kind : Kind
  /-- The offset behind the token. -/
  stop : Nat
  /-- The name, the digits, or the text with its escapes resolved. -/
  value : String := ""
  /-- The width behind a number. -/
  suffix : Option String := none
  flags : TokenFlags := {}
  errors : LexErrors := []
  change : ModeChange := .stay
  deriving DecidableEq, Inhabited

namespace Byte

/-- The bytes that end a line. -/
def isLineBreak (b : UInt8) : Bool :=
  b == 0x0A || b == 0x0D

/-- Space, tab and form feed. -/
def isBlank (b : UInt8) : Bool :=
  b == 0x20 || b == 0x09 || b == 0x0C

/-- The digits 0 to 9. -/
def isDigit (b : UInt8) : Bool :=
  0x30 ≤ b && b ≤ 0x39

/-- The digits of hexadecimal numbers, in either case. -/
def isHexDigit (b : UInt8) : Bool :=
  isDigit b || (0x41 ≤ b && b ≤ 0x46) || (0x61 ≤ b && b ≤ 0x66)

/-- The digits 0 to 7. -/
def isOctalDigit (b : UInt8) : Bool :=
  0x30 ≤ b && b ≤ 0x37

/-- The digits 0 and 1. -/
def isBinaryDigit (b : UInt8) : Bool :=
  b == 0x30 || b == 0x31

/-- The letters A to Z and a to z. -/
def isLetter (b : UInt8) : Bool :=
  (0x41 ≤ b && b ≤ 0x5A) || (0x61 ≤ b && b ≤ 0x7A)

end Byte

namespace Source

/-- Whether the byte at an offset satisfies `p`. -/
def byteIs (src : Source) (pos : Nat) (p : UInt8 → Bool) : Bool :=
  (src.byteAt pos).any p

/-- The character at an offset, or U+FFFD where none starts. -/
def charAtD (src : Source) (pos : Nat) : Char :=
  (src.charAt pos).getD (Char.ofNat 0xFFFD)

end Source

end CangjieSyntax
