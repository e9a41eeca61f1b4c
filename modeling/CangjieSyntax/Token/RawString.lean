import CangjieSyntax.Token.Lexeme

/-!
# Raw strings

A raw string stands between a quote with a fence of hash signs before it and the next such quote
with at least as many behind it. Nothing inside is special.
-/

namespace CangjieSyntax.RawString

/-- How many hash signs stand at `pos`. -/
def hashes (src : Source) (pos : Nat) : Nat :=
  src.skipWhile (· == 0x23) pos - pos

/-- The first quote from `pos` on with at least `fence` hash signs behind it. -/
def closer? (src : Source) (quote : Quote) (fence : Nat) (pos : Nat) : Option Nat :=
  match h : src.find? (· == quote.byte) pos with
  | none => none
  | some found =>
    if fence ≤ hashes src (found + 1) then some found
    else closer? src quote fence (found + 1)
termination_by src.size - pos
decreasing_by
  have := Source.find?_bounds h
  omega

/-- The raw string at `start` with the given fence in front of its quote. One that is not closed
takes the rest of the text; the report is at the first quote with a fence too short, if there is
one. -/
def read (src : Source) (fence : Nat) (quote : Quote) (start : Nat) : Lexeme :=
  let body := start + fence + 1
  let flags : TokenFlags := { singleQuote := quote == .single }
  match closer? src quote fence body with
  | some found =>
    { kind := .rawStringLiteral, stop := found + 1 + fence, value := src.slice body found, flags }
  | none =>
    let error := match closer? src quote 1 body with
      | some found =>
        let short := hashes src (found + 1)
        (LexError.rawStringFenceMismatch fence short, ⟨found, found + 1 + short⟩)
      | none => (LexError.unterminatedRawString quote.char fence, ⟨start, body⟩)
    { kind := .rawStringLiteral, stop := src.size, value := src.slice body src.size
      flags := { flags with unterminated := true }, errors := [error] }

/-- The token at the hash sign at `start`: a raw string, or the sign by itself. -/
def readHash (src : Source) (start : Nat) : Lexeme :=
  let fence := hashes src start
  match (src.byteAt (start + fence)).bind Quote.ofByte? with
  | some quote => read src fence quote start
  | none => { kind := .mark .hash, stop := start + 1 }

end CangjieSyntax.RawString
