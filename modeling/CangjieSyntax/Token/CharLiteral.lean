import CangjieSyntax.Token.Escape

/-!
# Runes, bytes and byte strings

A rune or a byte holds exactly one character, a byte and a byte string only ASCII characters and
bytes by their code. None of them goes over a line break.
-/

namespace CangjieSyntax.CharLiteral

/-- The character in a literal, as far as it could be read. -/
structure Body where
  char : Option Char
  stop : Nat
  invalidEscape : Bool := false
  errors : LexErrors := []
  deriving DecidableEq, Inhabited

/-- The character at `pos`, under the rule for bytes or for runes. -/
def readBody (src : Source) (isByte : Bool) (pos : Nat) : Body :=
  if src.byteAt pos == some 0x5C then
    let escape := Escape.read src (if isByte then .byte else .text) pos
    { char := escape.char, stop := escape.stop, invalidEscape := escape.error.isSome
      errors := escape.error.toList }
  else
    let c := src.charAtD pos
    let stop := pos + c.utf8Size
    { char := some c, stop
      errors := if isByte && 0x80 ≤ c.val then [(.nonAsciiByte, ⟨pos, stop⟩)] else [] }

/-- The rune or byte at `start`: a letter, a quote, one character and the quote again. If there is
more than one character, the literal goes on to the quote on the same line, or else to the end of
the line. -/
def read (src : Source) (isByte : Bool) (quote : Quote) (start : Nat) : Lexeme :=
  let kind : Kind := if isByte then .byteLiteral else .runeLiteral
  let pos := start + 2
  if src.size ≤ pos || src.byteIs pos Byte.isLineBreak then
    { kind, stop := pos, flags := { unterminated := true }
      errors := [(.unterminatedCharLiteral, ⟨start, pos⟩)] }
  else if src.byteAt pos == some quote.byte then
    { kind, stop := pos + 1, errors := [(.charLiteralLength, ⟨start, pos + 1⟩)] }
  else
    let body := readBody src isByte pos
    let lexeme : Lexeme :=
      { kind, stop := body.stop, value := String.ofList body.char.toList
        flags := { invalidEscape := body.invalidEscape }, errors := body.errors }
    if src.byteAt body.stop == some quote.byte then
      { lexeme with stop := body.stop + 1 }
    else
      let stop := src.skipWhile (fun b => !(b == quote.byte || Byte.isLineBreak b)) body.stop
      if src.byteAt stop == some quote.byte then
        { lexeme with
          stop := stop + 1
          errors := body.errors ++ [(.charLiteralLength, ⟨start, stop + 1⟩)] }
      else
        { lexeme with
          stop
          flags := { lexeme.flags with unterminated := true }
          errors := body.errors ++ [(.unterminatedCharLiteral, ⟨start, stop⟩)] }

/-- The inside of a byte string. -/
structure ByteText where
  stop : Nat
  text : List Char := []
  closed : Bool := false
  invalidEscape : Bool := false
  errors : LexErrors := []
  deriving DecidableEq, Inhabited

/-- The inside of a byte string from `pos` on, with the closing quote if there is one on the
line. -/
def readByteText (src : Source) (pos : Nat) : ByteText :=
  if _h : src.size ≤ pos then { stop := pos }
  else if src.byteIs pos Byte.isLineBreak then { stop := pos }
  else if src.byteAt pos == some 0x22 then { stop := pos + 1, closed := true }
  else if src.byteAt pos == some 0x5C then
    let escape := Escape.read src .byte pos
    let rest := readByteText src escape.stop
    { rest with
      text := escape.char.toList ++ rest.text
      invalidEscape := escape.error.isSome || rest.invalidEscape
      errors := escape.error.toList ++ rest.errors }
  else
    let c := src.charAtD pos
    let stop := pos + c.utf8Size
    let rest := readByteText src stop
    if c.val < 0x80 then { rest with text := c :: rest.text }
    else { rest with errors := (.nonAsciiByte, ⟨pos, stop⟩) :: rest.errors }
termination_by src.size - pos
decreasing_by
  · have := Escape.lt_stop_read src .byte pos
    omega
  · have := (src.charAtD pos).utf8Size_pos
    omega

/-- The byte string at `start`. -/
def readByteString (src : Source) (start : Nat) : Lexeme :=
  let body := readByteText src (start + 2)
  { kind := .byteStringLiteral, stop := body.stop, value := String.ofList body.text
    flags := { invalidEscape := body.invalidEscape, unterminated := !body.closed }
    errors :=
      if body.closed then body.errors
      else body.errors ++ [(.unterminatedString, ⟨start, body.stop⟩)] }

end CangjieSyntax.CharLiteral
