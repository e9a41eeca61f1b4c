import CangjieSyntax.Token.Lexer
import CangjieSyntax.Diagnostic.Message
import CangjieSyntax.Name.Table
import CangjieSyntax.Settings.Basic
import CangjieSyntax.Tree.Node

/-!
# The state of a parse

What a parse knows while it goes through the tokens, and the steps that change it: taking a token,
reporting a fault, allocating a node, and the bookkeeping of tentative readings. While a reading is
tentative nothing is reported; a fault only makes the attempt fail, and from then on the parse sees
the end of the text, so that every rule of the attempt comes to its end.
-/

namespace CangjieSyntax

/-- What a parse reads and never changes. -/
structure Env where
  src : Source
  settings : Settings
  /-- A `<` once found to be a comparison is taken for one from then on, without another attempt to
  read type arguments there. -/
  remembers : Bool := true

namespace Env

/-- How often a rule may repeat itself. Each round takes a token, and a text has at most two for
each byte, the end not counted. Texts whose offsets have 32 bits are all allowed the same. -/
@[irreducible]
def rounds (env : Env) : Nat :=
  2 * max env.src.size (Nat.pow 2 32) + 4

theorem one_le_rounds (env : Env) : 1 ≤ env.rounds := by
  unfold rounds
  exact Nat.le_add_left _ _

/-- A longer text is allowed no fewer rounds. -/
theorem rounds_le_rounds {env env' : Env} (h : env.src.size ≤ env'.src.size) :
    env.rounds ≤ env'.rounds := by
  unfold rounds
  omega

theorem rounds_eq_rounds {env env' : Env} (h : env.src.size ≤ Nat.pow 2 32)
    (h' : env'.src.size ≤ Nat.pow 2 32) : env.rounds = env'.rounds := by
  unfold rounds
  omega

/-- How deeply rules may be nested. Only a few can be nested without a token between them. -/
def nesting (env : Env) : Nat :=
  16 * env.rounds

end Env

/-- The tentative readings under way. -/
structure Tentative where
  /-- How many there are, one inside the other. -/
  depth : Nat := 0
  /-- The count of tokens that none of them may go past. -/
  limit : Option Nat := none
  /-- The innermost one has failed. -/
  failed : Bool := false
  /-- It has failed for want of tokens. -/
  exhausted : Bool := false
  deriving DecidableEq, Inhabited

/-- The state of a parse. -/
structure ParseState where
  lexer : Lexer
  nodes : Nodes := {}
  /-- Every name met so far, also in readings that were given up. -/
  names : NameTable := .empty
  log : Log := #[]
  /-- How many constructs are nested around the place. -/
  depth : Nat := 0
  /-- The offset behind the last token taken; spans of nodes end there. -/
  prevStop : Nat := 0
  prevSpan : Span := .empty 0
  prevKind : Kind := .unknown
  /-- How many tokens were taken, in readings that were given up as well. -/
  tokenCount : Nat := 0
  tentative : Tentative := {}
  /-- The offsets of each `<` that was found to be a comparison. -/
  comparisons : List Nat := []
  /-- Reports are held back until the parse has recovered from a fatal fault. -/
  muted : Bool := false
  lastErrorStart : Option Nat := none
  /-- How many faults were met outside tentative readings, reported or held back. -/
  errorCount : Nat := 0
  /-- The type whose body is being read, which a primary initializer must name. -/
  enclosingType : Option String := none
  deriving Inhabited

namespace ParseState

/-- In front of the first token of a text. -/
def ofSource (src : Source) : ParseState :=
  { lexer := .ofSource src }

/-- Whether some reading is tentative. -/
def isTentative (s : ParseState) : Bool :=
  s.tentative.depth != 0

/-- The kind of the current token, as far as a failed attempt still sees one. -/
def kind (s : ParseState) : Kind :=
  if s.tentative.failed then .endOfFile else s.lexer.kind

/-- The kind of the token behind the current one. -/
def peek (src : Source) (s : ParseState) : Kind :=
  (s.lexer.scan src).kind

/-- The offset where the current token starts. -/
def start (s : ParseState) : Nat :=
  s.lexer.start

/-- The span from an offset up to the last token taken. -/
def spanFrom (s : ParseState) (start : Nat) : Span :=
  .ofBounds start (max s.prevStop start)

/-- The state in which the attempt under way has failed. -/
def fail (s : ParseState) : ParseState :=
  { s with tentative := { s.tentative with failed := true } }

/-- The state in which the attempt under way has failed for want of tokens. -/
def exhaust (s : ParseState) : ParseState :=
  { s with tentative := { s.tentative with failed := true, exhausted := true } }

/-- The state after a count of tokens that goes past the limit, if there is one. -/
def checkLimit (s : ParseState) : ParseState :=
  match s.tentative.limit with
  | some limit => if limit < s.tokenCount then s.exhaust else s
  | none => s

/-- The state after a lexical fault. It has been reported by the lexer, and the item that it occurs
in reports nothing more. -/
def lexicalFault (s : ParseState) : ParseState :=
  if s.isTentative then s.fail
  else { s with errorCount := s.errorCount + 1, muted := true }

/-- The state after taking the current token. -/
def advance (src : Source) (s : ParseState) : ParseState :=
  let s := { s with
    prevStop := s.lexer.pos, prevSpan := s.lexer.span, prevKind := s.lexer.kind
    tokenCount := s.tokenCount + 1 }.checkLimit
  let reported := s.lexer.log.size
  let s := { s with lexer := s.lexer.scanKnown src }
  if reported < s.lexer.log.size then s.lexicalFault else s

/-- The state after a fault at a place. At most one fault is reported for each place in a row. -/
def report (s : ParseState) (span : Span) (m : Message) (args : List String) : ParseState :=
  if s.isTentative then s.fail
  else
    let s := { s with errorCount := s.errorCount + 1 }
    if s.muted || s.lastErrorStart == some span.start then s
    else { s with lastErrorStart := some span.start, log := s.log.push (m.diagnostic span args) }

/-- The state after nesting went past the given depth. Nothing more is reported for the item. -/
def reportDepth (s : ParseState) (span : Span) (maxDepth : Nat) : ParseState :=
  if s.isTentative then s.fail
  else
    { s with
      log :=
        if s.muted then s.log
        else s.log.push (Message.recursionLimitExceeded.diagnostic span [toString maxDepth])
      errorCount := s.errorCount + 1
      muted := true }

/-- An earlier state of a reading that is given up: tokens, nodes and nesting are as they were then.
What is never taken back is the count of tokens, the names, and the reports. -/
def rewind (saved s : ParseState) : ParseState :=
  { s with
    lexer := saved.lexer.restore s.lexer
    nodes := s.nodes.truncate saved.nodes.counts
    prevStop := saved.prevStop, prevSpan := saved.prevSpan, prevKind := saved.prevKind
    depth := saved.depth }

/-- The state inside one more tentative reading of at most `budget` tokens. -/
def enterTentative (s : ParseState) (budget : Nat) : ParseState :=
  let own := s.tokenCount + budget
  { s with tentative := { s.tentative with
      depth := s.tentative.depth + 1
      limit := some ((s.tentative.limit.map fun limit => min limit own).getD own) } }

/-- The state after the innermost tentative reading, with the limit of the one around it. -/
def leaveTentative (s : ParseState) (limit : Option Nat) : ParseState :=
  { s with tentative := { depth := s.tentative.depth - 1, limit } }

/-- All reports of a parse, in the order of their places. -/
def diagnostics (s : ParseState) : Log :=
  Log.sorted (s.lexer.log ++ s.log)

end ParseState

end CangjieSyntax
