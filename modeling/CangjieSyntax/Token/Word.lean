import CangjieSyntax.Token.Lexeme
import CangjieSyntax.Unicode.Identifier

/-!
# Words

Keywords and identifiers, plain, between backquotes or behind a dollar sign. The underscore by
itself is a mark.
-/

namespace CangjieSyntax.Word

/-- The end of the word that starts at `pos`. -/
def skip (src : Source) (pos : Nat) : Nat :=
  src.skipChars Unicode.isIdentifierPart pos

/-- Whether a word starts at `pos`. -/
def startsAt (src : Source) (pos : Nat) : Bool :=
  (src.charAt pos).any Unicode.isIdentifierStart

/-- The word at `pos`. -/
def read (src : Source) (pos : Nat) : Lexeme :=
  let stop := skip src pos
  let text := src.slice pos stop
  if text == "_" then { kind := .mark .underscore, stop }
  else match Keyword.ofText? text with
    | some k => { kind := .keyword k, stop }
    | none => { kind := .identifier, stop, value := text }

/-- The identifier between backquotes whose first one stands at `pos`. -/
def readRaw (src : Source) (pos : Nat) : Lexeme :=
  let stop := if startsAt src (pos + 1) then skip src (pos + 1) else pos + 1
  let text := src.slice (pos + 1) stop
  if stop != pos + 1 && src.byteAt stop == some 0x60 then
    { kind := .rawIdentifier, stop := stop + 1, value := text }
  else
    { kind := .rawIdentifier, stop, value := text
      errors := [(.unterminatedRawIdentifier, ⟨pos, stop⟩)] }

/-- The token at the dollar sign at `pos`. -/
def readDollar (src : Source) (pos : Nat) : Lexeme :=
  if startsAt src (pos + 1) then
    let stop := skip src (pos + 1)
    { kind := .dollarIdentifier, stop, value := src.slice (pos + 1) stop }
  else
    { kind := .mark .dollar, stop := pos + 1 }

end CangjieSyntax.Word
