import CangjieSyntax.Token.Lexeme

/-!
# Escapes

A backslash with what follows it stands for one character: a letter or mark for a fixed one, or a
code point in braces behind `u`.
-/

namespace CangjieSyntax

/-- Which escapes a literal allows. -/
structure EscapeRule where
  /-- Whether the dollar sign may be escaped. -/
  dollar : Bool
  /-- The number of hexadecimal digits allowed for a code point. -/
  maxDigits : Nat
  deriving DecidableEq, Inhabited

namespace EscapeRule

/-- In strings and runes. -/
def text : EscapeRule := ⟨true, 8⟩

/-- In bytes and byte strings. -/
def byte : EscapeRule := ⟨false, 2⟩

end EscapeRule

/-- An escape as it was read. -/
structure Escape where
  /-- The character it stands for. -/
  char : Option Char
  stop : Nat
  /-- The error found in it. -/
  error : Option (LexError × Bounds) := none
  deriving DecidableEq, Inhabited

namespace Escape

/-- The character that a backslash with a single byte stands for. -/
def simple? (rule : EscapeRule) (b : UInt8) : Option Char :=
  if b == 0x74 then some '\t'
  else if b == 0x62 then some (Char.ofNat 8)
  else if b == 0x72 then some '\r'
  else if b == 0x6E then some '\n'
  else if b == 0x27 then some '\''
  else if b == 0x22 then some '"'
  else if b == 0x5C then some '\\'
  else if b == 0x66 then some (Char.ofNat 0x0C)
  else if b == 0x76 then some (Char.ofNat 0x0B)
  else if b == 0x30 then some (Char.ofNat 0)
  else if b == 0x24 && rule.dollar then some '$'
  else none

/-- The value of a hexadecimal digit. -/
def hexDigitValue (b : UInt8) : Nat :=
  if Byte.isDigit b then b.toNat - 0x30
  else if 0x61 ≤ b then b.toNat - 0x61 + 10
  else b.toNat - 0x41 + 10

/-- The value of a run of hexadecimal digits. -/
def hexValue (digits : List UInt8) : Nat :=
  digits.foldl (fun value b => 16 * value + hexDigitValue b) 0

/-- The escape by code point whose `u` stands at `start + 1`. -/
def readCodePoint (src : Source) (rule : EscapeRule) (start : Nat) : Escape :=
  if src.byteAt (start + 2) == some 0x7B then
    let stop := src.skipWhile Byte.isHexDigit (start + 3)
    let closed := src.byteAt stop == some 0x7D
    let behind := if closed then stop + 1 else stop
    let count := stop - (start + 3)
    if !closed || count == 0 || rule.maxDigits < count then
      { char := none, stop := behind
        error := some (.invalidUnicodeEscape rule.maxDigits, ⟨start, behind⟩) }
    else
      let value := hexValue (src.bytes.extract (start + 3) stop).toList
      if value.isValidChar then
        { char := some (Char.ofNat value), stop := behind }
      else
        { char := none, stop := behind
          error := some (.invalidCodePoint value, ⟨start, behind⟩) }
  else
    { char := none, stop := start + 2
      error := some (.invalidUnicodeEscape rule.maxDigits, ⟨start, start + 2⟩) }

/-- The escape whose backslash stands at `start`. A backslash at the end of the text stands for
nothing; it is the literal around it that is reported. -/
def read (src : Source) (rule : EscapeRule) (start : Nat) : Escape :=
  match src.byteAt (start + 1) with
  | none => { char := none, stop := start + 1 }
  | some b =>
    if b == 0x75 then readCodePoint src rule start
    else match simple? rule b with
      | some c => { char := some c, stop := start + 2 }
      | none =>
        let c := src.charAtD (start + 1)
        let stop := start + 1 + c.utf8Size
        { char := none, stop, error := some (.invalidEscape c, ⟨start, stop⟩) }

/-- The flags that an escape gives to the literal around it. -/
def flags (e : Escape) : TokenFlags :=
  { invalidEscape := e.error.isSome }

theorem lt_stop_read (src : Source) (rule : EscapeRule) (start : Nat) :
    start < (read src rule start).stop := by
  unfold read
  split
  · simp
  · split
    · unfold readCodePoint
      have := src.le_skipWhile Byte.isHexDigit (start + 3)
      split
      · simp only
        split <;> split <;> first | (split <;> simp only <;> omega) | (simp only; omega)
      · simp
    · split
      · simp
      · simp only; omega

end Escape

end CangjieSyntax
