import CangjieSyntax.Grammar.Items
import CangjieSyntax.Grammar.Patterns

/-!
# Control flow

Branches, loops, exceptions and threads.
-/

namespace CangjieSyntax.Rule

variable (call : Call)

/-- An expression, or a pattern with the value to match it against. -/
def condition : Rule Condition := do
  if ← optional (.keyword .kwLet) then
    let pattern ← call (.pattern .matchCase)
    require (.mark .backArrow)
    return .letPattern pattern (← call .expression)
  else
    return .expr (← call .expression)

/-- Something in parentheses. -/
def inParens {α : Type} (inner : Rule α) : Rule α := do
  require (.mark .openParen)
  let a ← inner
  require (.mark .closeParen)
  return a

/-- What stands in parentheses, where they stand. -/
def inParens? {α : Type} (inner : Rule α) : Rule (Option α) := do
  if ← optional (.mark .openParen) then
    let a ← inner
    require (.mark .closeParen)
    return some a
  else
    return none

/-- An `if` with all its branches. -/
def ifThen : Rule ExprId := do
  let start ← start
  advance
  let condition ← inParens (condition call)
  let body ← block call
  let otherwise ←
    if ← optional (.keyword .kwElse) then
      if ← isAt (.keyword .kwIf) then pure (some (← call .ifThen))
      else
        let elseStart ← Rule.start
        let body ← block call
        pure (some (← exprFrom elseStart (.block body)))
    else pure none
  exprFrom start (.ifThen condition body otherwise)

/-- A case of a `match`, from its keyword on. -/
def matchArm (hasSelector : Bool) : Rule MatchArm := do
  let start ← start
  advance
  let test ←
    if hasSelector then pure (CaseTest.pattern (← call (.pattern .matchCase)))
    else pure (CaseTest.condition (← call .expression))
  let guard ← behind (.keyword .kwWhere) (call .expression)
  require (.mark .fatArrow)
  let bodyStart ← Rule.start
  let items ← items call (· == .keyword .kwCase)
  let bodySpan ← spanFrom bodyStart
  return { test, guard, body := ⟨items, bodySpan⟩, span := ← spanFrom start }

/-- The next case of a `match`, or a token that starts none, given whether the token in front of it
started none and was reported. -/
def matchArmsRound (hasSelector : Bool) :
    List MatchArm × Bool → Rule (List MatchArm × Bool ⊕ List MatchArm) := fun (arms, reported) => do
  let k ← kind
  if k == .mark .closeBrace || k == .endOfFile then return .inr arms
  else if k == .keyword .kwCase then
    return .inl (arms ++ [← matchArm call hasSelector], false)
  else
    unless reported do report .expected [Keyword.kwCase.text]
    advance
    return .inl (arms, true)

/-- The cases of a `match`. Of tokens in a row that start none, only the first is reported. -/
def matchArms (hasSelector : Bool) : Rule (List MatchArm) :=
  loop (matchArmsRound call hasSelector) ([], false)

/-- A `match`, with a selector or without. -/
def matchCases : Rule ExprId := do
  let start ← start
  advance
  let selector ← inParens? (call .expression)
  require (.mark .openBrace)
  let arms ← matchArms call selector.isSome
  require (.mark .closeBrace)
  exprFrom start (.matchCases selector arms)

/-- A loop over the elements of something. -/
def forIn : Rule ExprId := do
  let start ← start
  advance
  let (pattern, iterable, guard) ← inParens do
    let pattern ← call (.pattern .forIn)
    require (.keyword .kwIn)
    let iterable ← call .expression
    let guard ← behind (.keyword .kwWhere) (call .expression)
    return (pattern, iterable, guard)
  let body ← block call
  exprFrom start (.forIn pattern iterable guard body)

/-- A loop with its condition in front. -/
def whileLoop : Rule ExprId := do
  let start ← start
  advance
  let condition ← inParens (condition call)
  let body ← block call
  exprFrom start (.whileLoop condition body)

/-- A loop with its condition behind. -/
def doWhile : Rule ExprId := do
  let start ← start
  advance
  let body ← block call
  require (.keyword .kwWhile)
  let condition ← inParens (call .expression)
  exprFrom start (.doWhile body condition)

/-- A resource of a `try`. -/
def tryResource : Rule TryResource := do
  let name ← identifier
  let type ← typeBehind call (.mark .colon)
  require (.mark .equals)
  let value ← call .expression
  return { name, type, value }

/-- The next `catch` clause of a `try`. -/
def catchClausesRound (catches : List CatchClause) :
    Rule (List CatchClause ⊕ List CatchClause) := do
  if ← optional (.keyword .kwCatch) then
    let pattern ← inParens (call (.pattern .catchClause))
    let body ← block call
    return .inl (catches ++ [⟨pattern, body⟩])
  else return .inr catches

/-- The `catch` clauses of a `try`. -/
def catchClauses : Rule (List CatchClause) :=
  loop (catchClausesRound call) []

/-- A `try`. One without resources needs a `catch` or a `finally`. -/
def tryCatch : Rule ExprId := do
  let start ← start
  advance
  let resources ← inParens? (list (.mark .closeParen) (tryResource call))
  let resources := resources.getD []
  let body ← block call
  let catches ← catchClauses call
  let finalBody ← behind (.keyword .kwFinally) (block call)
  if resources.isEmpty && catches.isEmpty && finalBody.isNone then
    report .expected [Keyword.kwCatch.text]
  exprFrom start (.tryCatch resources body catches finalBody)

/-- A new thread. The arrow of its body may be left out. -/
def spawn : Rule ExprId := do
  let start ← start
  advance
  let context ← inParens? (call .expression)
  let bodyStart ← Rule.start
  let items ←
    if ← expect (.mark .openBrace) then
      let _ ← optional (.mark .fatArrow)
      let items ← allItems call
      require (.mark .closeBrace)
      pure items
    else pure []
  let span ← spanFrom bodyStart
  exprFrom start (.spawn context ⟨items, span⟩)

/-- A block under a lock. -/
def synchronized : Rule ExprId := do
  let start ← start
  advance
  let lock ← inParens (call .expression)
  let body ← block call
  exprFrom start (.synchronized lock body)

/-- A block of unsafe code. -/
def unsafeBlock : Rule ExprId := do
  let start ← start
  advance
  let body ← block call
  exprFrom start (.unsafeBlock body)

/-- A `throw` with its value. -/
def throwValue : Rule ExprId := do
  let start ← start
  advance
  let value ← call .expression
  exprFrom start (.throwValue value)

/-- A `return`, with a value if one starts on the same line. -/
def returnValue : Rule ExprId := do
  let start ← start
  advance
  let hasValue ← view fun _ s => !s.lexer.flags.lineBreak && s.kind.startsExpression
  let value ← if hasValue then pure (some (← call .expression)) else pure none
  exprFrom start (.returnValue value)

end CangjieSyntax.Rule
