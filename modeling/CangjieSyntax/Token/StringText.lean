import CangjieSyntax.Token.Escape

/-!
# The text of strings

Between its quotes a string consists of runs of content, holes opened by `$` and a brace, and the
closing quotes. A string on one line ends at the line break if it is not closed before.
-/

namespace CangjieSyntax.StringText

/-- Whether the string closes at `pos`: with one quote on one line, with three over several. -/
def closes (src : Source) (quote : Quote) (multiLine : Bool) (pos : Nat) : Bool :=
  if multiLine then src.startsWith pos [quote.byte, quote.byte, quote.byte]
  else src.byteAt pos == some quote.byte

/-- Whether a hole opens at `pos`. -/
def opensHole (src : Source) (pos : Nat) : Bool :=
  src.byteAt pos == some 0x24 && src.byteAt (pos + 1) == some 0x7B

/-- Whether a string on one line must end at `pos` for want of a quote. -/
def breaksOff (src : Source) (multiLine : Bool) (pos : Nat) : Bool :=
  !multiLine && src.byteIs pos Byte.isLineBreak

/-- A run of content with its escapes resolved. -/
structure Content where
  stop : Nat
  text : List Char := []
  invalidEscape : Bool := false
  errors : LexErrors := []
  deriving DecidableEq, Inhabited

/-- The content from `pos` up to the next hole or the end of the string. -/
def readContent (src : Source) (quote : Quote) (multiLine : Bool) (pos : Nat) : Content :=
  if _h : src.size ≤ pos then { stop := pos }
  else if closes src quote multiLine pos || opensHole src pos || breaksOff src multiLine pos then
    { stop := pos }
  else if src.byteAt pos == some 0x5C then
    let escape := Escape.read src .text pos
    let rest := readContent src quote multiLine escape.stop
    { rest with
      text := escape.char.toList ++ rest.text
      invalidEscape := escape.error.isSome || rest.invalidEscape
      errors := escape.error.toList ++ rest.errors }
  else
    let c := src.charAtD pos
    let rest := readContent src quote multiLine (pos + c.utf8Size)
    { rest with text := c :: rest.text }
termination_by src.size - pos
decreasing_by
  · have := Escape.lt_stop_read src .text pos
    omega
  · have := (src.charAtD pos).utf8Size_pos
    omega

/-- The end of a string that is not closed. -/
def unterminated (pos : Nat) : Lexeme :=
  { kind := .stringEnd, stop := pos, flags := { unterminated := true }
    errors := [(.unterminatedString, ⟨pos, pos⟩)], change := .leave }

/-- The next piece of a string from `pos` on. -/
def read (src : Source) (quote : Quote) (multiLine : Bool) (pos : Nat) : Lexeme :=
  if src.size ≤ pos then unterminated pos
  else if closes src quote multiLine pos then
    { kind := .stringEnd, stop := pos + if multiLine then 3 else 1, change := .leave }
  else if opensHole src pos then
    { kind := .interpolationStart, stop := pos + 2, change := .enter (.code 0) }
  else if breaksOff src multiLine pos then unterminated pos
  else
    let content := readContent src quote multiLine pos
    { kind := .stringContent, stop := content.stop, value := String.ofList content.text
      flags := { invalidEscape := content.invalidEscape }, errors := content.errors }

/-- The opening of a string whose first quote stands at `pos`. -/
def readStart (src : Source) (quote : Quote) (pos : Nat) : Lexeme :=
  if src.startsWith (pos + 1) [quote.byte, quote.byte] then
    { kind := .multiLineStringStart, stop := pos + 3, change := .enter (.text quote true) }
  else
    { kind := .stringStart, stop := pos + 1, change := .enter (.text quote false) }

end CangjieSyntax.StringText
