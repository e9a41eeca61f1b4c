import CangjieSyntax.Grammar.Rule
import CangjieSyntax.Grammar.Lookahead

/-!
# Recovery

After a fault the parse goes on at the next statement or declaration. A statement ends at a
semicolon, at the end of a line, or in front of the brace that closes the block around it.
-/

namespace CangjieSyntax

namespace ParseState

/-- Whether the current token is a modifier word in front of a declaration. -/
def atModifier (src : Source) (s : ParseState) : Bool :=
  s.kind == .identifier && s.lexer.atModifier src

/-- Whether a declaration can start here. -/
def atDeclaration (src : Source) (s : ParseState) : Bool :=
  if s.kind == .keyword .kwUnsafe then
    s.peek src != .mark .openBrace
  else
    s.kind.isDeclarationKeyword || s.kind == .mark .atSign || s.kind == .mark .tilde
      || s.atModifier src

end ParseState

namespace Rule

/-- A missing expression, with the placeholder for it. The token in its place is passed over unless
the construct around it needs it. -/
def expressionExpected : Rule ExprId := do
  let span ← tokenSpan
  reportAt span .expressionExpected []
  unless (← kind).isRecoveryAnchor do advance
  errorExpr span

/-- Whether the statement just read ends here. A semicolon is taken. -/
def atStatementEnd (stop : Kind → Bool) : Rule Bool := do
  let k ← kind
  if k == .mark .semicolon then
    advance
    return true
  else
    view fun _ s =>
      k.endsItems || stop k || s.lexer.flags.lineBreak || s.prevKind == .mark .closeBrace

/-- Reports that nothing separates the statement just read from the current token. -/
def separatorExpected : Rule Unit := do
  let previous := ((← get).prevSpan.text? (← read).src).getD ""
  report .statementSeparatorExpected [previous]

/-- Faults are reported again. -/
def unmute : Rule Unit :=
  modify fun s => { s with muted := false }

/-- Passes over the next token of a statement, given how many brackets are open and whether the token
must be passed over. -/
def skipStatementRound : Nat × Bool → Rule (Nat × Bool ⊕ Unit) := fun (depth, must) => do
  let k ← kind
  if k == .endOfFile then return .inr ()
  else if depth == 0 && (k == .mark .closeBrace || k == .interpolationEnd) then return .inr ()
  else if depth == 0 && k == .mark .semicolon then
    advance
    return .inr ()
  else if depth == 0 && !must && (← lineBreakBefore) then return .inr ()
  else
    advance
    return .inl (Kind.bracketDepth depth k, false)

/-- Passes over tokens up to the end of the statement: behind a semicolon, or in front of a token on
a new line, of the closing brace of the block, or of the end of the text. What lies in brackets
opened on the way does not count. With `must`, at least one token is passed over unless the block
ends. -/
def skipStatement (must : Bool) : Rule Unit := do
  loop skipStatementRound (0, must)
  unmute

/-- Passes over the next token on the way to a declaration, given how many brackets are open and
whether the token must be passed over. -/
def skipDeclarationRound : Nat × Bool → Rule (Nat × Bool ⊕ Unit) := fun (depth, must) => do
  let k ← kind
  if k == .endOfFile then return .inr ()
  else if depth == 0 && !must && k == .mark .semicolon then
    advance
    return .inr ()
  else if ← view fun src s =>
      depth == 0 && !must && s.lexer.flags.lineBreak && s.atDeclaration src then
    return .inr ()
  else
    advance
    return .inl (Kind.bracketDepth depth k, false)

/-- Passes over tokens up to a line that starts with a declaration, or behind a semicolon. What lies
in brackets opened on the way does not count. With `must`, at least one token is passed over. -/
def skipDeclaration (must : Bool) : Rule Unit := do
  loop skipDeclarationRound (0, must)
  unmute

/-- Brings one statement or member to its end, given where it started and how many faults there were
then. One with faults is passed over; a good one must be separated from what follows. -/
def endItem (start errors : Nat) (stop : Kind → Bool) : Rule Unit := do
  let s ← get
  let progressed := s.start != start
  if s.errorCount != errors || !progressed then skipStatement (!progressed)
  else if !(← atStatementEnd stop) then
    separatorExpected
    skipStatement false

end Rule

end CangjieSyntax
