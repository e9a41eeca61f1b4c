import CangjieSyntax.Token.Trivia
import CangjieSyntax.Token.Numeral
import CangjieSyntax.Token.StringText
import CangjieSyntax.Token.CharLiteral
import CangjieSyntax.Token.RawString
import CangjieSyntax.Token.Word

/-!
# Reading one token

`Lexeme.readCode` reads the token at a place in code; its first byte decides which rule applies.
`Lexeme.read` reads the next token in any mode, with the trivia in front of it.
-/

namespace CangjieSyntax.Lexeme

/-- A closing brace. It ends the hole around it if it matches no brace opened in the hole. -/
def closeBrace (modes : List Mode) (pos : Nat) : Lexeme :=
  if Mode.top modes = .code 0 ∧ 1 < modes.length then
    { kind := .interpolationEnd, stop := pos + 1, change := .leave }
  else
    { kind := .mark .closeBrace, stop := pos + 1, change := .closeBrace }

/-- A mark, or a character that belongs to no token. Where no character starts, one byte is passed
over without a report. -/
def readMark (src : Source) (pos : Nat) : Lexeme :=
  match Punctuation.munch? src pos with
  | some (p, stop) => { kind := .mark p, stop }
  | none =>
    match src.charAt pos with
    | some c =>
      let stop := pos + c.utf8Size
      { kind := .unknown, stop, errors := [(.invalidCharacter c, ⟨pos, stop⟩)] }
    | none => { kind := .unknown, stop := pos + 1 }

/-- The token in code whose first byte stands at `pos`. -/
def readCode (src : Source) (modes : List Mode) (pos : Nat) (first : UInt8) : Lexeme :=
  let quoteBehind := (src.byteAt (pos + 1)).bind Quote.ofByte?
  if first == 0x7B then { kind := .mark .openBrace, stop := pos + 1, change := .openBrace }
  else if first == 0x7D then closeBrace modes pos
  else if first == 0x24 then Word.readDollar src pos
  else if first == 0x23 then RawString.readHash src pos
  else if first == 0x60 then Word.readRaw src pos
  else if Byte.isDigit first then Numeral.read src pos
  else if Numeral.startsWithPoint src pos then
    Numeral.withSuffix src pos (Numeral.readPointFirst src pos)
  else match Quote.ofByte? first, quoteBehind with
    | some quote, _ => StringText.readStart src quote pos
    | none, some quote =>
      if first == 0x72 then CharLiteral.read src false quote pos
      else if first == 0x62 then
        match quote with
        | .single => CharLiteral.read src true .single pos
        | .double => CharLiteral.readByteString src pos
      else if Word.startsAt src pos then Word.read src pos
      else readMark src pos
    | none, none =>
      if Word.startsAt src pos then Word.read src pos else readMark src pos

/-- The end of the text. Strings and holes still open end with it. -/
def endOfFile (src : Source) (modes : List Mode) (pos : Nat) : Lexeme :=
  if 1 < modes.length then
    { kind := .endOfFile, stop := pos, change := .unwind
      errors := [(.unterminatedInterpolation, ⟨src.size, src.size⟩)] }
  else
    { kind := .endOfFile, stop := pos }

/-- The next token from `pos` on, and the offset where it starts. -/
def read (src : Source) (modes : List Mode) (pos : Nat) : Nat × Lexeme :=
  match Mode.top modes with
  | .text quote multiLine => (pos, StringText.read src quote multiLine pos)
  | .code _ =>
    let gap := Gap.read src pos
    let lexeme := match src.byteAt gap.stop with
      | none => endOfFile src modes gap.stop
      | some first => readCode src modes gap.stop first
    (gap.stop,
      { lexeme with flags := gap.flags.union lexeme.flags, errors := gap.errors ++ lexeme.errors })

end CangjieSyntax.Lexeme
