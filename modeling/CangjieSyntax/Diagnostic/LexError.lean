import CangjieSyntax.Diagnostic.Basic
import CangjieSyntax.Text.Quoted

/-!
# Lexical errors

A lexical error ends the token it occurs in; reading resumes behind the offending text.
-/

namespace CangjieSyntax

/-- The causes of a lexical error. -/
inductive LexError where
  | unterminatedString
  | unterminatedCharLiteral
  | unterminatedRawString (quote : Char) (fence : Nat)
  | rawStringFenceMismatch (expected found : Nat)
  | unterminatedComment
  | unterminatedInterpolation
  | unterminatedRawIdentifier
  | invalidEscape (c : Char)
  /-- The escape by code point allows this many digits at most. -/
  | invalidUnicodeEscape (maxDigits : Nat)
  | invalidCodePoint (value : Nat)
  | nonAsciiByte
  | charLiteralLength
  | invalidCharacter (c : Char)
  | digitExpected
  | invalidSuffix (word : String)
  | invalidUtf8
  deriving DecidableEq, Inhabited

namespace LexError

/-- The code a lexical error is reported under. -/
def code : LexError → Nat
  | unterminatedString => 1001
  | unterminatedCharLiteral => 1002
  | unterminatedRawString .. => 1003
  | rawStringFenceMismatch .. => 1004
  | unterminatedComment => 1005
  | unterminatedInterpolation => 1006
  | unterminatedRawIdentifier => 1007
  | invalidEscape _ => 1008
  | invalidUnicodeEscape _ => 1009
  | invalidCodePoint _ => 1010
  | nonAsciiByte => 1011
  | charLiteralLength => 1012
  | invalidCharacter _ => 1013
  | digitExpected => 1014
  | invalidSuffix _ => 1015
  | invalidUtf8 => 1016

/-- The message of a lexical error. -/
def message : LexError → String
  | unterminatedString => "Unterminated string literal."
  | unterminatedCharLiteral => "Unterminated rune or byte literal."
  | unterminatedRawString quote fence =>
    "Unterminated raw string literal; expected '" ++ quote.toString ++ "' followed by "
      ++ toString fence ++ " '#'."
  | rawStringFenceMismatch expected found =>
    "Raw string opened with " ++ toString expected ++ " '#' cannot be closed with "
      ++ toString found ++ "."
  | unterminatedComment => "Unterminated block comment."
  | unterminatedInterpolation => "Unterminated interpolation; '\x7d' expected."
  | unterminatedRawIdentifier => "Unterminated raw identifier."
  | invalidEscape c => "Invalid escape sequence '\\" ++ c.toString ++ "'."
  | invalidUnicodeEscape maxDigits =>
    "Invalid unicode escape; expected '\\u\x7b' followed by 1 to " ++ toString maxDigits
      ++ " hex digits and '\x7d'."
  | invalidCodePoint value =>
    "'0x" ++ Quoted.hexDigits value ++ "' is not a valid unicode scalar value."
  | nonAsciiByte => "Only ASCII characters are allowed in byte literals."
  | charLiteralLength => "A rune or byte literal must contain exactly one character."
  | invalidCharacter c => "Invalid character '" ++ c.toString ++ "'."
  | digitExpected => "Digit expected."
  | invalidSuffix word => "Invalid numeric suffix '" ++ word ++ "'."
  | invalidUtf8 => "Source is not valid UTF-8."

/-- The report of a lexical error at a place. -/
def diagnostic (e : LexError) (span : Span) : Diagnostic :=
  { file := none, span, text := e.message, code := e.code, fault := .lexical, severity := .error
    related := [] }

end LexError

end CangjieSyntax
