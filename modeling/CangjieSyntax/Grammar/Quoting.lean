import CangjieSyntax.Grammar.Rule

/-!
# Quoted code and macro calls

Both keep a run of tokens as it stands. In quoted code a dollar sign splices a name or an expression
in, and a backslash takes away what is special about the token behind it.
-/

namespace CangjieSyntax.Rule

variable (call : Call)

/-- The pieces of quoted code so far. -/
structure Quotation where
  parts : List QuotePart := []
  /-- The start of the run of tokens that has not ended yet. -/
  run : Option Nat := none
  /-- How many parentheses are open inside. -/
  depth : Nat := 0

/-- The pieces with the run of tokens ended by the last token taken. -/
def Quotation.endRun (q : Quotation) (prevStop : Nat) : Quotation :=
  match q.run with
  | some start => { q with parts := q.parts ++ [.tokens (.ofBounds start prevStop)], run := none }
  | none => q

/-- A name spliced in. -/
def nameSplice : Rule ExprId := do
  let span ← tokenSpan
  let name ← name (← tokenValue) span
  advance
  allocExpr (.identifier name []) span

/-- An expression spliced in, from its dollar sign on. -/
def exprSplice : Rule ExprId := do
  advance
  advance
  let value ← call .expression
  require (.mark .closeParen)
  return value

/-- A token of quoted code that is kept as it stands. -/
def keptToken (q : Quotation) (k : Kind) : Rule Quotation := do
  let run := q.run.getD (← start)
  if k == .mark .backslash then advance
  advance
  let depth := match k with
    | .mark .openParen => q.depth + 1
    | .mark .closeParen => q.depth - 1
    | _ => q.depth
  return { q with run := some run, depth }

/-- The next token or splice of quoted code. -/
def quotePartsRound (q : Quotation) : Rule (Quotation ⊕ List QuotePart) := do
  let prevStop := (← get).prevStop
  let k ← kind
  if k == .endOfFile || (k == .mark .closeParen && q.depth == 0) then
    return .inr (q.endRun prevStop).parts
  else if k == .dollarIdentifier then
    let q := q.endRun prevStop
    let splice ← nameSplice
    return .inl { q with parts := q.parts ++ [.splice splice] }
  else if ← view fun src s => k == .mark .dollar && s.peek src == .mark .openParen then
    let q := q.endRun prevStop
    let splice ← exprSplice call
    return .inl { q with parts := q.parts ++ [.splice splice] }
  else
    return .inl (← keptToken q k)

/-- The pieces of quoted code up to the parenthesis that closes it. -/
def quoteParts : Rule (List QuotePart) :=
  loop (quotePartsRound call) {}

/-- Quoted code. -/
def quote : Rule ExprId := do
  let start ← start
  advance
  let parts ←
    if ← expect (.mark .openParen) then
      let parts ← quoteParts call
      require (.mark .closeParen)
      pure parts
    else pure []
  exprFrom start (.quote parts)

/-- Passes over the next token inside brackets, given how many of them are open inside. -/
def balancedRound (opening closing : Punctuation) (innerStart depth : Nat) : Rule (Nat ⊕ Span) := do
  let s ← get
  let k := s.kind
  if k == .endOfFile then
    report .expected [closing.text]
    return .inr (.ofBounds innerStart (max s.prevStop innerStart))
  else if k == .mark closing && depth == 0 then
    advance
    return .inr (.ofBounds innerStart s.start)
  else
    advance
    return .inl <|
      if k == .mark closing then depth - 1 else if k == .mark opening then depth + 1 else depth

/-- The span strictly inside the brackets that open here, which are passed over. -/
def balanced (opening closing : Punctuation) : Rule Span := do
  let innerStart := (← get).lexer.pos
  advance
  loop (balancedRound opening closing innerStart) 0

/-- A macro call: a name, perhaps attributes in brackets, and the input in parentheses. -/
def macroCall : Rule ExprId := do
  let start ← start
  advance
  let name ← dottedName
  let hasAttributes ← view fun _ s => s.kind == .mark .openBracket && !s.lexer.flags.lineBreak
  let attributes ←
    if hasAttributes then pure (some (← balanced .openBracket .closeBracket)) else pure none
  let input ←
    if ← isAt (.mark .openParen) then balanced .openParen .closeParen
    else
      report .expected [Punctuation.openParen.text]
      pure (.empty (← Rule.start))
  exprFrom start (.macroCall name attributes input)

end CangjieSyntax.Rule
