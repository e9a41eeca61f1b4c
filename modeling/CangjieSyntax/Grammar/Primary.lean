import CangjieSyntax.Grammar.Items
import CangjieSyntax.Grammar.Reading

/-!
# Literals, lists and lambdas

The expressions that stand by themselves: literals, strings with holes, lists in parentheses or
brackets, and lambdas.
-/

namespace CangjieSyntax

/-- The byte with the code of a character, or zero if there is none. -/
def Literal.byteOfChar (c : Char) : UInt8 :=
  if c.val < 0x100 then c.val.toUInt8 else 0

/-- The literal that a token by itself stands for. -/
def Literal.ofToken (src : Source) (t : Token) : Literal :=
  match t.kind with
  | .integerLiteral => .integer ⟨t.value, t.suffix⟩
  | .floatLiteral => .float ⟨t.value, t.suffix⟩
  | .runeLiteral => .rune (t.value.toList.headD (Char.ofNat 0))
  | .byteLiteral => .byte ((t.value.toList.head?.map byteOfChar).getD 0)
  | .byteStringLiteral => .byteString (t.value.toList.map byteOfChar)
  | .rawStringLiteral => .rawString t.value (RawString.hashes src t.span.start)
  | .keyword .kwTrue => .bool true
  | _ => .bool false

/-- The pieces of a string with a run of text added; runs next to each other are one piece. -/
def StringPart.addText (parts : List StringPart) (run : String) : List StringPart :=
  match parts.getLast? with
  | some (.text before) => parts.dropLast ++ [.text (before ++ run)]
  | _ => parts ++ [.text run]

namespace Rule

variable (call : Call)

/-- An expression that is a single token. -/
def tokenExpr (form : ExprForm) : Rule ExprId := do
  let span ← tokenSpan
  advance
  allocExpr form span

/-- A literal that is a single token. -/
def literal : Rule ExprId := do
  tokenExpr (.literal (← view fun src s => .ofToken src s.lexer.token))

/-- A hole in a string, from its opening on. -/
def hole : Rule Block := do
  let start ← start
  advance
  let items ← allItems call
  unless ← optional .interpolationEnd do
    unless ← isAt .endOfFile do report .expected ["\x7d"]
  return ⟨items, ← spanFrom start⟩

/-- The next piece of a string, or its end. -/
def stringRound (parts : List StringPart) : Rule (List StringPart ⊕ List StringPart) := do
  match ← kind with
  | .stringContent =>
    let parts := StringPart.addText parts (← tokenValue)
    advance
    return .inl parts
  | .interpolationStart => return .inl (parts ++ [.interpolation (← hole call)])
  | .stringEnd =>
    advance
    return .inr parts
  | _ => return .inr parts

/-- A string with its holes. -/
def string : Rule ExprId := do
  let start ← start
  let multiLine ← isAt .multiLineStringStart
  advance
  let parts ← loop (stringRound call) []
  exprFrom start (.literal (.string multiLine parts))

/-! ## Lists in parentheses and brackets -/

/-- A function type in the place of a value, behind its parameters. -/
def functionType (start : Nat) (elements : List (Option Name × ExprId)) : Rule ExprId := do
  advance
  let params ← elementsToTypes elements
  let result ← call .type
  let span ← spanFrom start
  let type ← allocType (.arrow params result) span
  allocExpr (.typeValue type) span

/-- An element in parentheses: an expression, or a type behind a label. -/
def parenElement : Rule (Option Name × ExprId) := do
  let start ← start
  match ← label? with
  | some label =>
    let type ← call .type
    return (some label, ← exprFrom start (.typeValue type))
  | none => return (none, ← call .expression)

/-- The next element in parentheses with the comma behind it. -/
def parenElementsRound : List (Option Name × ExprId) × Bool →
    Rule (List (Option Name × ExprId) × Bool ⊕ List (Option Name × ExprId) × Bool) :=
  fun (elements, trailingComma) => do
    if ← isAt .endOfFile then
      return .inr (elements, trailingComma)
    else
      let elements := elements ++ [← parenElement call]
      let comma ← optional (.mark .comma)
      if !comma || (← isAt (.mark .closeParen)) then return .inr (elements, comma)
      else return .inl (elements, comma)

/-- The elements in parentheses, and whether a comma follows the last one. -/
def parenElements : Rule (List (Option Name × ExprId) × Bool) :=
  loop (parenElementsRound call) ([], false)

/-- The form of a list in parentheses without labels and without an arrow behind it. -/
def parenForm (elements : List (Option Name × ExprId)) (trailingComma : Bool) : ExprForm :=
  match elements, trailingComma with
  | [(_, only)], false => .parenthesized only
  | elements, _ => .tuple (elements.map Prod.snd)

/-- The unit value, an expression in parentheses, a tuple, or a function type. -/
def parenthesized : Rule ExprId := do
  let start ← start
  advance
  if ← optional (.mark .closeParen) then
    if ← isAt (.mark .thinArrow) then functionType call start []
    else exprFrom start .unit
  else
    let (elements, trailingComma) ← parenElements call
    require (.mark .closeParen)
    if ← isAt (.mark .thinArrow) then functionType call start elements
    else if elements.any fun e => e.1.isSome then
      let span ← spanFrom start
      reportAt span .namedElementsRequireArrow []
      let elements ← elementsToTypes elements
      let type ← allocType (.tuple elements) span
      allocExpr (.typeValue type) span
    else
      exprFrom start (parenForm elements trailingComma)

/-- An element of an array; a star spreads it. -/
def arrayElement : Rule ExprId := do
  let start ← start
  if ← optional (.mark .star) then
    let inner ← call .expression
    exprFrom start (.spread inner)
  else
    call .expression

/-- An array. -/
def array : Rule ExprId := do
  let start ← start
  advance
  let items ← list (.mark .closeBracket) (arrayElement call)
  require (.mark .closeBracket)
  exprFrom start (.array items)

/-! ## Lambdas -/

/-- The next parameter of a lambda with the comma behind it, if one stands here. -/
def lambdaParamsRound (params : List LambdaParam) :
    Rule (List LambdaParam ⊕ Option (List LambdaParam)) := do
  let k ← kind
  if k == .mark .fatArrow then return .inr (some params)
  else if k != .mark .underscore && !k.isIdentifier then return .inr none
  else
    let start ← start
    let name ← if k == .mark .underscore then advance; pure none else pure (some (← identifier))
    let type ← typeBehind call (.mark .colon)
    let params := params ++ [⟨name, type, ← spanFrom start⟩]
    if ← optional (.mark .comma) then return .inl params else return .inr (some params)

/-- The parameters of a lambda with the arrow behind them, if this is what stands here. -/
def lambdaParams? : Rule (Option (List LambdaParam)) := do
  let params ← loop (lambdaParamsRound call) []
  match params with
  | some params => return if ← optional (.mark .fatArrow) then some params else none
  | none => return none

/-- A lambda. Behind an operand it may leave out the arrow if it has no parameters. -/
def lambda (needsArrow : Bool) : Rule ExprId := do
  let start ← start
  advance
  let params ← match ← attempt (lambdaParams? call) with
    | .committed params => pure params
    | _ =>
      if needsArrow then report .expected [Punctuation.fatArrow.text]
      pure []
  let items ← allItems call
  require (.mark .closeBrace)
  let span ← spanFrom start
  allocExpr (.lambda params ⟨items, span⟩) span

end Rule

end CangjieSyntax
