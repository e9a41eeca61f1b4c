import CangjieSyntax.Grammar.Primary
import CangjieSyntax.Grammar.Control
import CangjieSyntax.Grammar.Quoting

/-!
# Expressions

From the strongest binding to the weakest: primary expressions, chains of links behind them,
operators behind and in front of an operand, operators between operands by their level, and
assignments, which are allowed only as statements.
-/

namespace CangjieSyntax.Rule

variable (call : Call)

/-! ## Primary expressions -/

/-- A name, perhaps with type arguments. -/
def nameExpr : Rule ExprId := do
  let start ← start
  let name ← identifier
  let typeArgs ← typeArguments? call
  exprFrom start (.identifier name typeArgs)

/-- A dollar identifier outside quoted code. -/
def strayDollar : Rule ExprId := do
  let span ← tokenSpan
  reportAt span .unexpectedToken ["$" ++ (← tokenValue)]
  advance
  errorExpr span

/-- A type in the place of a value. -/
def typeValue : Rule ExprId := do
  let start ← start
  let type ← call .type
  exprFrom start (.typeValue type)

/-- An expression that starts with a keyword. -/
def keywordExpr (k : Keyword) : Rule ExprId :=
  match k with
  | .kwTrue | .kwFalse => literal
  | .kwThis => tokenExpr .this
  | .kwSuper => tokenExpr .super
  | .kwBreak => tokenExpr .breakLoop
  | .kwContinue => tokenExpr .continueLoop
  | .kwIf => ifThen call
  | .kwMatch => matchCases call
  | .kwFor => forIn call
  | .kwWhile => whileLoop call
  | .kwDo => doWhile call
  | .kwTry => tryCatch call
  | .kwThrow => throwValue call
  | .kwReturn => returnValue call
  | .kwSpawn => spawn call
  | .kwSynchronized => synchronized call
  | .kwUnsafe => unsafeBlock call
  | .kwQuote => quote call
  | _ => expressionExpected

/-- An expression that starts with a mark. -/
def markExpr (p : Punctuation) : Rule ExprId :=
  match p with
  | .underscore => tokenExpr .wildcard
  | .openParen => parenthesized call
  | .openBracket => array call
  | .openBrace => lambda call true
  | .question | .questionQuestion => typeValue call
  | .atSign => macroCall
  | _ => expressionExpected

/-- An expression without operators and links. -/
def primary : Rule ExprId := do
  match ← kind with
  | .keyword k => keywordExpr call k
  | .mark p => markExpr call p
  | .stringStart | .multiLineStringStart => string call
  | .identifier | .rawIdentifier => nameExpr call
  | .dollarIdentifier => strayDollar
  | k => if k.isLiteral then literal else expressionExpected

/-! ## Chains -/

/-- Whether a question mark with a link behind it stands here. Only a point may start a line. -/
def atOptionalLink : Rule Bool :=
  view fun src s =>
    s.kind == .mark .question &&
      match s.peek src with
      | .mark .dot => true
      | .mark .openParen | .mark .openBracket | .mark .openBrace => !s.lexer.flags.lineBreak
      | _ => false

/-- The name of a member, which may be a keyword. -/
def memberName : Rule Name := do
  let k ← kind
  if k.isIdentifier || k.isKeyword then
    let name ← name (k.keywordText?.getD (← tokenValue)) (← tokenSpan)
    advance
    return name
  else
    report .identifierExpected []
    missingName

/-- A member of what stands in front. -/
def fieldLink (target : ExprId) (start : Nat) (isOptional : Bool) : Rule ExprId := do
  advance
  let name ← memberName
  let typeArgs ← typeArguments? call
  exprFrom start (.field target name typeArgs isOptional)

/-- An argument, perhaps with its name. -/
def argument : Rule Argument := do
  let start ← start
  let name ← label?
  let inout ← optional (.keyword .kwInout)
  let value ← call .expression
  return { name, inout, value, span := ← spanFrom start }

/-- A call of what stands in front. -/
def callLink (callee : ExprId) (start : Nat) (isOptional : Bool) : Rule ExprId := do
  advance
  let args ← list (.mark .closeParen) (argument call)
  require (.mark .closeParen)
  exprFrom start (.call callee args isOptional)

/-- A range behind its lower end, with the upper end and the step if they are there. -/
def rangeTail (lower : Option ExprId) (start : Nat) : Rule ExprId := do
  let inclusive ← isAt (.mark .dotDotEquals)
  advance
  let above := Precedence.range.strength
  let stop ←
    if (← kind).startsExpression then pure (some (← call (.binary above))) else pure none
  let step ← behind (.mark .colon) (call (.binary above))
  exprFrom start (.range lower stop inclusive step)

/-- An element of what stands in front; a range may lack its lower end. -/
def indexLink (target : ExprId) (start : Nat) (isOptional : Bool) : Rule ExprId := do
  advance
  let k ← kind
  let index ←
    if k == .mark .dotDot || k == .mark .dotDotEquals then rangeTail call none (← Rule.start)
    else call .expression
  require (.mark .closeBracket)
  exprFrom start (.index target index isOptional)

/-- A lambda given to what stands in front. -/
def lambdaLink (callee : ExprId) (start : Nat) (isOptional : Bool) : Rule ExprId := do
  let lambda ← lambda call false
  exprFrom start (.trailingLambda callee lambda isOptional)

/-- The link that starts with a token, if one does. Calls, elements and lambdas must start on the
line of what stands in front of them; a point may start a new one. -/
def link? (operand : ExprId) (start : Nat) (isOptional sameLine : Bool) :
    Kind → Option (Rule ExprId)
  | .mark .dot => some (fieldLink call operand start isOptional)
  | .mark .openParen => if sameLine then some (callLink call operand start isOptional) else none
  | .mark .openBracket => if sameLine then some (indexLink call operand start isOptional) else none
  | .mark .openBrace => if sameLine then some (lambdaLink call operand start isOptional) else none
  | _ => none

/-- The next link of a chain, given whether an optional one stands in front of it. -/
def chainRound (start : Nat) : ExprId × Bool → Rule (ExprId × Bool ⊕ ExprId) :=
  fun (operand, hasOptional) => do
    let isOptional ← atOptionalLink
    if isOptional then advance
    let hasOptional := hasOptional || isOptional
    let sameLine := isOptional || !(← lineBreakBefore)
    match link? call operand start isOptional sameLine (← kind) with
    | some link => return .inl (← link, hasOptional)
    | none =>
      if hasOptional then return .inr (← exprFrom start (.optionalChain operand))
      else return .inr operand

/-- A primary expression with all links behind it. -/
def chain : Rule ExprId := do
  let start ← start
  let operand ← primary call
  loop (chainRound call start) (operand, false)

/-! ## Operators -/

/-- The operator behind an operand that a token writes. -/
def stepOp? : Kind → Option StepOp
  | .mark .plusPlus => some .increment
  | .mark .minusMinus => some .decrement
  | _ => none

/-- The next operator behind an operand. -/
def stepsRound (start : Nat) (operand : ExprId) : Rule (ExprId ⊕ ExprId) := do
  match stepOp? (← kind), ← lineBreakBefore with
  | some op, false =>
    advance
    return .inl (← exprFrom start (.step op operand))
  | _, _ => return .inr operand

/-- A chain with the operators behind it, on the same line. -/
def steps : Rule ExprId := do
  let start ← start
  let operand ← chain call
  loop (stepsRound start) operand

/-- The operator in front of an operand that a token writes. -/
def unaryOp? : Kind → Option UnaryOp
  | .mark .minus => some .negate
  | .mark .bang => some .not
  | _ => none

/-- An operand with the operators in front of it. -/
def unary : Rule ExprId := do
  match unaryOp? (← kind) with
  | some op =>
    let start ← start
    advance
    let operand ← nested errorExpr (call .unary)
    exprFrom start (.unary op operand op.precedence)
  | none => steps call

/-- The level above which the right operand of an operator binds. -/
def rightAbove (op : BinaryOp) : Nat :=
  match op.associativity with
  | .left => op.precedence.strength
  | .right => op.precedence.strength - 1

/-- A cast or a type check of what stands in front. -/
def typeTest (start : Nat) (form : TypeId → ExprForm) : Rule ExprId := do
  advance
  let type ← typeOperand call
  exprFrom start (form type)

/-- The operation with what stands in front as its left operand, if a token stands here that writes
one stronger than the given level. A minus sign that starts a line starts a statement. -/
def operation? (above start : Nat) (lhs : ExprId) : Rule (Option ExprId) := do
  let k ← operatorKind
  match k with
  | .keyword .kwAs =>
    if Precedence.cast.strength ≤ above then return none
    else return some (← typeTest call start (.typeCast lhs))
  | .keyword .kwIs =>
    if Precedence.typeCheck.strength ≤ above then return none
    else return some (← typeTest call start (.typeCheck lhs))
  | .mark .dotDot | .mark .dotDotEquals =>
    if Precedence.range.strength ≤ above then return none
    else return some (← rangeTail call (some lhs) start)
  | _ =>
    match k.binaryOp? with
    | none => return none
    | some op =>
      if op.precedence.strength ≤ above then return none
      else if op == .subtract && (← lineBreakBefore) then return none
      else
        advance
        let rhs ← call (.binary (rightAbove op))
        return some (← exprFrom start (.binary op lhs rhs op.precedence))

/-- The next operation, with all of the ones before it as its left operand. -/
def operationRound (above start : Nat) (lhs : ExprId) : Rule (ExprId ⊕ ExprId) := do
  match ← operation? call above start lhs with
  | some operation => return .inl operation
  | none => return .inr lhs

/-- Operands with operators stronger than the given level between them. -/
def binary (above : Nat) : Rule ExprId :=
  nested errorExpr do
    let start ← start
    let operand ← unary call
    loop (operationRound call above start) operand

/-- An expression as a statement, where it may be an assignment. -/
def statement : Rule ExprId := do
  let start ← start
  let target ← binary call Precedence.lowest.strength
  match (← operatorKind).assignOp? with
  | none => return target
  | some op =>
    advance
    unless ← isAssignable target do
      reportAt (← exprSpan target) .invalidAssignmentTarget []
    let value ← call .statement
    exprFrom start (.assign op target value)

/-- An expression as a value. An assignment is reported, and built all the same. -/
def expression : Rule ExprId := do
  let start ← start
  let target ← binary call Precedence.lowest.strength
  match (← operatorKind).assignOp? with
  | none => return target
  | some op =>
    report .assignmentOnlyAsStatement []
    advance
    let value ← call .expression
    exprFrom start (.assign op target value)

end CangjieSyntax.Rule
