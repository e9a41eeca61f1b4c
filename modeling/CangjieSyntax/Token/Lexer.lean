import CangjieSyntax.Token.Read
import CangjieSyntax.Diagnostic.Basic

/-!
# The lexer

The state between two tokens: the current token, the place behind it, the stack of modes and the log
of lexical errors. The text itself never changes and is handed to each operation. States are values,
so looking ahead is reading on from a state and going back to it.
-/

namespace CangjieSyntax

/-- The current token and all that reading on depends on. -/
structure Lexer where
  /-- The offset behind the current token. -/
  pos : Nat
  /-- The offset where the current token starts. -/
  start : Nat
  kind : Kind
  value : String
  suffix : Option String
  flags : TokenFlags
  /-- The modes, innermost first. -/
  modes : List Mode
  log : Log
  deriving Inhabited

/-- A token with its place. -/
structure Token where
  kind : Kind
  span : Span
  value : String
  suffix : Option String
  flags : TokenFlags
  deriving DecidableEq, Inhabited

/-- The byte-order mark that may stand at the start of a text. -/
def Source.byteOrderMark : List UInt8 :=
  [0xEF, 0xBB, 0xBF]

namespace Lexer

/-- In front of the first token. A byte-order mark is passed over. -/
def ofSource (src : Source) : Lexer where
  pos := if src.startsWith 0 Source.byteOrderMark then Source.byteOrderMark.length else 0
  start := 0
  kind := .unknown
  value := ""
  suffix := none
  flags := {}
  modes := [.code 0]
  log := #[]

/-- The span of the current token. -/
def span (l : Lexer) : Span :=
  .ofBounds l.start l.pos

/-- The current token. -/
def token (l : Lexer) : Token :=
  { kind := l.kind, span := l.span, value := l.value, suffix := l.suffix, flags := l.flags }

/-- How many modes are stacked; 1 in the code of the file. -/
def depth (l : Lexer) : Nat :=
  l.modes.length

/-- The state after a token that starts at `start`. -/
def accept (l : Lexer) (start : Nat) (lexeme : Lexeme) : Lexer where
  pos := lexeme.stop
  start := start
  kind := lexeme.kind
  value := lexeme.value
  suffix := lexeme.suffix
  flags := lexeme.flags
  modes := lexeme.change.apply l.modes
  log := l.log ++ (lexeme.errors.map fun e => e.1.diagnostic e.2.span)

/-- The state after the next token. -/
def scan (src : Source) (l : Lexer) : Lexer :=
  let (start, lexeme) := Lexeme.read src l.modes l.pos
  l.accept start lexeme

/-- The state with a current `>` joined to what touches it. -/
def joinGreater (src : Source) (l : Lexer) : Lexer :=
  if l.kind = .mark .greater then
    match Punctuation.joinGreater? src l.pos with
    | some (p, stop) => { l with kind := .mark p, pos := stop }
    | none => l
  else
    l

/-- The state with further flags on the current token. -/
def addFlags (l : Lexer) (flags : TokenFlags) : Lexer :=
  { l with flags := l.flags.union flags }

/-- The state in front of an offset in plain code, as at the start of a text. -/
def seek (src : Source) (pos : Nat) (l : Lexer) : Lexer :=
  let pos := min pos src.size
  { l with
    pos, start := pos, kind := .unknown, value := "", suffix := none, flags := {}
    modes := [.code 0] }

/-- An earlier state, with what was in the log of the current one by then. -/
def restore (saved : Lexer) (l : Lexer) : Lexer :=
  { saved with log := l.log.take saved.log.size }

/-- What a function finds reading on from a state, and the state itself again. -/
def lookAhead {α : Type} (l : Lexer) (f : Lexer → α × Lexer) : α × Lexer :=
  let (a, ahead) := f l
  (a, l.restore ahead)

/-- The state after the next token, passing over characters that belong to none. They count as
trivia in front of the token; a line break before one of them counts as well. -/
def scanKnown (src : Source) (l : Lexer) : Lexer :=
  go (src.size + 1) {} l
where
  /-- At most one character is passed over for each byte of the text. -/
  go : Nat → TokenFlags → Lexer → Lexer
    | 0, _, l => l
    | rounds + 1, skipped, l =>
      let l := l.scan src
      if l.kind = .unknown then
        go rounds (skipped.union { lineBreak := l.flags.lineBreak, trivia := true }) l
      else
        l.addFlags skipped

/-- The tokens up to the end of the text with the depth of the modes behind each, and the last
state. A text has at most two tokens for each byte. -/
def scanAll (src : Source) (l : Lexer) : List (Token × Nat) × Lexer :=
  go (2 * src.size + l.depth + 1) l
where
  /-- The tokens of the given number of steps at most. -/
  go : Nat → Lexer → List (Token × Nat) × Lexer
    | 0, l => ([], l)
    | rounds + 1, l =>
      let l := l.scan src
      if l.kind = .endOfFile then ([(l.token, l.depth)], l)
      else
        let (tokens, last) := go rounds l
        ((l.token, l.depth) :: tokens, last)

end Lexer

end CangjieSyntax
