import CangjieSyntax.Token.Lexer

/-!
# Checked reading

Reading looks at bytes by their offsets, takes texts out between two offsets and subtracts offsets.
Here each of these accesses is checked, and a reading has no result if one of them is out of range.
Looking at a byte or a character where there may be none needs no check.

A function that is checked has the name of the one it checks. Where a loop goes on behind what an
inner one has read, it is checked as well that this lies further on.
-/

namespace CangjieSyntax

/-- The difference of two numbers, if the second one is not greater. -/
def difference? (a b : Nat) : Option Nat :=
  if b ≤ a then some (a - b) else none

/-- An offset from which on the bytes are looked at. It is not behind the end of the text. -/
def Source.suffix? (src : Source) (pos : Nat) : Option Nat :=
  if pos ≤ src.size then some pos else none

/-! ## Gaps -/

/-- The end of a comment whose inside goes on at `pos`, within the given number of comments. -/
def BlockComment.readChecked (src : Source) (pos depth : Nat) : Option BlockComment := do
  let _ ← src.suffix? pos
  match h : src.find? isMark pos with
  | none => return ⟨src.size, false, false⟩
  | some i =>
    let mark ← src.byteAt i
    if mark == 0x0A then
      let rest ← readChecked src (i + 1) depth
      return { rest with lineBreak := true }
    else if mark == 0x2A && src.byteAt (i + 1) == some 0x2F then
      let depth ← difference? depth 1
      if depth = 0 then return ⟨i + 2, false, true⟩ else readChecked src (i + 2) depth
    else if mark == 0x2F && src.byteAt (i + 1) == some 0x2A then
      readChecked src (i + 2) (depth + 1)
    else
      readChecked src (i + 1) depth
termination_by src.size - pos
decreasing_by
  all_goals
    have := Source.find?_bounds h
    omega

/-- The trivia from `pos` on. -/
def Gap.readChecked (src : Source) (pos : Nat) : Option Gap :=
  match h : src.byteAt pos with
  | none => some { stop := pos }
  | some b => do
    if Byte.isLineBreak b then
      let rest ← readChecked src (pos + 1)
      return { rest with lineBreak := true }
    else if Byte.isBlank b then
      let rest ← readChecked src (pos + 1)
      return { rest with trivia := true }
    else if b == 0x2F && src.byteAt (pos + 1) == some 0x2F then
      let _ ← src.suffix? pos
      let rest ← readChecked src (src.skipWhile (· != 0x0A) (pos + 2))
      return { rest with trivia := true }
    else if b == 0x2F && src.byteAt (pos + 1) == some 0x2A then
      let comment ← BlockComment.readChecked src (pos + 2) 1
      if pos < comment.stop then
        let rest ← readChecked src comment.stop
        return { rest with
          lineBreak := comment.lineBreak || rest.lineBreak
          trivia := true
          errors :=
            if comment.closed then rest.errors
            else (.unterminatedComment, ⟨pos, pos + 2⟩) :: rest.errors }
      else
        none
    else
      return { stop := pos }
termination_by src.size - pos
decreasing_by
  · have := Source.lt_size_of_byteAt h; omega
  · have := Source.lt_size_of_byteAt h; omega
  · have := Source.lt_size_of_byteAt h
    have := src.le_skipWhile (· != 0x0A) (pos + 2)
    omega
  · have := Source.lt_size_of_byteAt h
    omega

/-! ## Words, marks and numbers -/

namespace Word

/-- The word at `pos`. -/
def readChecked (src : Source) (pos : Nat) : Option Lexeme := do
  let _ ← src.slice? pos (skip src pos)
  return read src pos

/-- The identifier between backquotes whose first one stands at `pos`. -/
def readRawChecked (src : Source) (pos : Nat) : Option Lexeme := do
  if startsAt src (pos + 1) then
    let _ ← src.slice? (pos + 1) (skip src (pos + 1))
  return readRaw src pos

/-- The token at the dollar sign at `pos`. -/
def readDollarChecked (src : Source) (pos : Nat) : Option Lexeme := do
  if startsAt src (pos + 1) then
    let _ ← src.slice? (pos + 1) (skip src (pos + 1))
  return readDollar src pos

end Word

namespace Numeral

/-- Whether a number starts with the point at `start`. -/
def startsWithPointChecked (src : Source) (start : Nat) : Option Bool := do
  if src.byteAt start == some 0x2E && start != 0 then
    let _ ← src.byteAt (← difference? start 1)
  return startsWithPoint src start

/-- A number together with the word that touches it. -/
def withSuffixChecked (src : Source) (start : Nat) (body : Body) : Option Lexeme := do
  let _ ← src.slice? start body.stop
  if (src.charAt body.stop).any Unicode.isIdentifierStart then
    let _ ← src.slice? body.stop (src.skipChars Unicode.isIdentifierPart body.stop)
  return withSuffix src start body

/-- The number that starts with a digit at `start`. -/
def readChecked (src : Source) (start : Nat) : Option Lexeme := do
  let _ ← src.byteAt start
  let base :=
    if src.byteAt start == some 0x30 then (src.byteAt (start + 1)).bind Base.ofByte? else none
  withSuffixChecked src start <| match base with
    | some base => readBased src start base
    | none => readDecimal src start

end Numeral

/-- A mark, or a character that belongs to no token. -/
def Lexeme.readMarkChecked (src : Source) (pos : Nat) : Option Lexeme := do
  let _ ← src.suffix? pos
  return readMark src pos

/-! ## Escapes, strings and literals -/

/-- The escape whose backslash stands at `start`. The digits of a code point are taken out. -/
def Escape.readChecked (src : Source) (rule : EscapeRule) (start : Nat) : Option Escape := do
  if src.byteAt (start + 1) == some 0x75 && src.byteAt (start + 2) == some 0x7B then
    let _ ← src.slice? (start + 3) (src.skipWhile Byte.isHexDigit (start + 3))
  return read src rule start

namespace StringText

/-- Whether the string closes at `pos`. -/
def closesChecked (src : Source) (quote : Quote) (multiLine : Bool) (pos : Nat) : Option Bool := do
  if multiLine then
    let _ ← src.suffix? pos
  return closes src quote multiLine pos

/-- The bytes that are taken over as they stand: neither a quote, a backslash or a dollar sign nor,
in a string on one line, a line break. -/
def isPlain (quote : Quote) (multiLine : Bool) (b : UInt8) : Bool :=
  !(b == quote.byte || b == 0x5C || b == 0x24 || !multiLine && Byte.isLineBreak b)

/-- The content from `pos` up to the next hole or the end of the string. Plain bytes are taken out
in one piece. -/
def readContentChecked (src : Source) (quote : Quote) (multiLine : Bool) (pos : Nat) :
    Option Content :=
  if _h : src.size ≤ pos then some { stop := pos }
  else do
    if (← closesChecked src quote multiLine pos) || opensHole src pos
        || breaksOff src multiLine pos then
      return { stop := pos }
    else if src.byteAt pos == some 0x5C then
      let escape ← Escape.readChecked src .text pos
      if pos < escape.stop then
        let rest ← readContentChecked src quote multiLine escape.stop
        return { rest with
          text := escape.char.toList ++ rest.text
          invalidEscape := escape.error.isSome || rest.invalidEscape
          errors := escape.error.toList ++ rest.errors }
      else
        none
    else
      let _ ← src.suffix? pos
      let stop := src.skipWhile (isPlain quote multiLine) pos
      if pos < stop then
        let text ← src.slice? pos stop
        let rest ← readContentChecked src quote multiLine stop
        return { rest with text := text.toList ++ rest.text }
      else
        let c := (src.charAt pos).getD '$'
        let rest ← readContentChecked src quote multiLine (pos + c.utf8Size)
        return { rest with text := c :: rest.text }
termination_by src.size - pos
decreasing_by
  · omega
  · omega
  · have := ((src.charAt pos).getD '$').utf8Size_pos
    omega

/-- The next piece of a string from `pos` on. -/
def readChecked (src : Source) (quote : Quote) (multiLine : Bool) (pos : Nat) : Option Lexeme := do
  if src.size ≤ pos then return unterminated pos
  else if ← closesChecked src quote multiLine pos then
    return { kind := .stringEnd, stop := pos + if multiLine then 3 else 1, change := .leave }
  else if opensHole src pos then
    return { kind := .interpolationStart, stop := pos + 2, change := .enter (.code 0) }
  else if breaksOff src multiLine pos then return unterminated pos
  else
    let content ← readContentChecked src quote multiLine pos
    return { kind := .stringContent, stop := content.stop, value := String.ofList content.text
             flags := { invalidEscape := content.invalidEscape }, errors := content.errors }

end StringText

namespace CharLiteral

/-- The character at `pos`, under the rule for bytes or for runes. The report on a character that is
no byte goes back to where it starts. -/
def readBodyChecked (src : Source) (isByte : Bool) (pos : Nat) : Option Body := do
  if src.byteAt pos == some 0x5C then
    let _ ← Escape.readChecked src (if isByte then .byte else .text) pos
  else
    let c := src.charAtD pos
    if isByte && 0x80 ≤ c.val then
      let _ ← difference? (pos + c.utf8Size) c.utf8Size
  return readBody src isByte pos

/-- The rune or byte at `start`. The quote is looked up behind the first letter. -/
def readLiteralChecked (src : Source) (isByte : Bool) (quote : Quote) (start : Nat) :
    Option Lexeme := do
  let _ ← src.byteAt (start + 1)
  let pos := start + 2
  if !(src.size ≤ pos || src.byteIs pos Byte.isLineBreak) && src.byteAt pos != some quote.byte then
    let body ← readBodyChecked src isByte pos
    if src.byteAt body.stop != some quote.byte then
      let _ ← src.suffix? body.stop
  return read src isByte quote start

/-- The inside of a byte string from `pos` on. -/
def readByteTextChecked (src : Source) (pos : Nat) : Option ByteText :=
  if _h : src.size ≤ pos then some { stop := pos }
  else if src.byteIs pos Byte.isLineBreak then some { stop := pos }
  else if src.byteAt pos == some 0x22 then some { stop := pos + 1, closed := true }
  else if src.byteAt pos == some 0x5C then do
    let escape ← Escape.readChecked src .byte pos
    if pos < escape.stop then
      let rest ← readByteTextChecked src escape.stop
      return { rest with
        text := escape.char.toList ++ rest.text
        invalidEscape := escape.error.isSome || rest.invalidEscape
        errors := escape.error.toList ++ rest.errors }
    else
      none
  else do
    let c := src.charAtD pos
    let stop := pos + c.utf8Size
    let rest ← readByteTextChecked src stop
    if c.val < 0x80 then return { rest with text := c :: rest.text }
    else return { rest with errors := (.nonAsciiByte, ⟨pos, stop⟩) :: rest.errors }
termination_by src.size - pos
decreasing_by
  · omega
  · have := (src.charAtD pos).utf8Size_pos
    omega

/-- The byte string at `start`. -/
def readByteStringChecked (src : Source) (start : Nat) : Option Lexeme := do
  let _ ← readByteTextChecked src (start + 2)
  return readByteString src start

end CharLiteral

namespace RawString

/-- The first quote from `pos` on with at least `fence` hash signs behind it. -/
def closerChecked (src : Source) (quote : Quote) (fence : Nat) (pos : Nat) :
    Option (Option Nat) := do
  let _ ← src.suffix? pos
  match h : src.find? (· == quote.byte) pos with
  | none => return none
  | some found =>
    let _ ← src.suffix? (found + 1)
    if fence ≤ hashes src (found + 1) then return some found
    else closerChecked src quote fence (found + 1)
termination_by src.size - pos
decreasing_by
  have := Source.find?_bounds h
  omega

/-- The raw string at `start` with the given fence in front of its quote. -/
def readLiteralChecked (src : Source) (fence : Nat) (quote : Quote) (start : Nat) :
    Option Lexeme := do
  let body := start + fence + 1
  match ← closerChecked src quote fence body with
  | some found =>
    let _ ← src.slice? body found
  | none =>
    let _ ← src.slice? body src.size
  return read src fence quote start

/-- The token at the hash sign at `start`. -/
def readHashChecked (src : Source) (start : Nat) : Option Lexeme := do
  let _ ← src.suffix? start
  let fence := hashes src start
  match (src.byteAt (start + fence)).bind Quote.ofByte? with
  | some quote => readLiteralChecked src fence quote start
  | none => return { kind := .mark .hash, stop := start + 1 }

end RawString

/-! ## Any token -/

namespace Lexeme

/-- The token in code whose first byte stands at `pos`. -/
def readCodeChecked (src : Source) (modes : List Mode) (pos : Nat) (first : UInt8) :
    Option Lexeme := do
  let quoteBehind := (src.byteAt (pos + 1)).bind Quote.ofByte?
  if first == 0x7B then return { kind := .mark .openBrace, stop := pos + 1, change := .openBrace }
  else if first == 0x7D then return closeBrace modes pos
  else if first == 0x24 then Word.readDollarChecked src pos
  else if first == 0x23 then RawString.readHashChecked src pos
  else if first == 0x60 then Word.readRawChecked src pos
  else if Byte.isDigit first then Numeral.readChecked src pos
  else if ← Numeral.startsWithPointChecked src pos then
    Numeral.withSuffixChecked src pos (Numeral.readPointFirst src pos)
  else match Quote.ofByte? first, quoteBehind with
    | some quote, _ => return StringText.readStart src quote pos
    | none, some quote =>
      if first == 0x72 then CharLiteral.readLiteralChecked src false quote pos
      else if first == 0x62 then
        match quote with
        | .single => CharLiteral.readLiteralChecked src true .single pos
        | .double => CharLiteral.readByteStringChecked src pos
      else if Word.startsAt src pos then Word.readChecked src pos
      else readMarkChecked src pos
    | none, none =>
      if Word.startsAt src pos then Word.readChecked src pos else readMarkChecked src pos

/-- The next token from `pos` on, and the offset where it starts. -/
def readChecked (src : Source) (modes : List Mode) (pos : Nat) : Option (Nat × Lexeme) := do
  match Mode.top modes with
  | .text quote multiLine => return (pos, ← StringText.readChecked src quote multiLine pos)
  | .code _ =>
    let gap ← Gap.readChecked src pos
    let lexeme ←
      if src.size ≤ gap.stop then some (endOfFile src modes gap.stop)
      else do readCodeChecked src modes gap.stop (← src.byteAt gap.stop)
    return (gap.stop,
      { lexeme with flags := gap.flags.union lexeme.flags, errors := gap.errors ++ lexeme.errors })

end Lexeme

namespace Lexer

/-- The state after the next token. -/
def scanChecked (src : Source) (l : Lexer) : Option Lexer := do
  let (start, lexeme) ← Lexeme.readChecked src l.modes l.pos
  return l.accept start lexeme

/-- The state in front of an offset in plain code. The outermost mode is looked up and replaced. -/
def seekChecked (src : Source) (pos : Nat) (l : Lexer) : Option Lexer := do
  let _ ← l.modes.getLast?
  return l.seek src pos

end Lexer

end CangjieSyntax
