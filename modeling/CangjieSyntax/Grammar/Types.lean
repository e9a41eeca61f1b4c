import CangjieSyntax.Grammar.Recovery

/-!
# Types

Types, and type arguments in the place of a value. There a `<` may as well be a comparison: the list
is read tentatively, and what follows the closing `>` decides.
-/

namespace CangjieSyntax

/-- The type that a dotted path names: a builtin type if it is a single name without arguments. -/
def TypeForm.ofPath (segments : List PathSegment) : TypeForm :=
  match segments with
  | [⟨name, []⟩] =>
    match BuiltinType.ofName? name.text with
    | some type => .builtin type
    | none => .named segments
  | _ => .named segments

namespace Rule

variable (call : Call)

/-- The placeholder of a type. -/
def errorType (span : Span) : Rule TypeId :=
  allocType .error span

/-- Type arguments in angle brackets. -/
def typeArguments : Rule (List TypeId) := do
  require (.mark .less)
  let args ← list (.mark .greater) (call .type)
  require (.mark .greater)
  return args

/-- Type arguments, if they may stand in front of what follows them. -/
def fittingArguments? : Rule (Option (List TypeId)) := do
  let args ← typeArguments call
  let fits ← view fun _ s =>
    s.kind.allowsTypeArguments s.lexer.flags.lineBreak (!s.lexer.flags.separated)
  return if fits then some args else none

/-- The type arguments in the place of a value, if the current token opens any. They are read once
for each `<` that turns out to be a comparison, and must touch the name in front of them. -/
def typeArguments? : Rule (List TypeId) := do
  let remembers := (← read).remembers
  let candidate ← view fun _ s =>
    s.kind == .mark .less && !s.lexer.flags.separated
      && !(remembers && s.comparisons.contains s.start)
  if !candidate then return []
  let opening ← tokenSpan
  match ← attempt (fittingArguments? call) with
  | .committed args => return args
  | .rewound =>
    modify fun s => { s with comparisons := opening.start :: s.comparisons }
    return []
  | .exhausted =>
    let budget := (← read).settings.budget
    reportAt opening .ambiguityExhausted ["<", toString budget]
    return []

/-- The next segment of a path, with its type arguments and the point behind it. -/
def segmentsRound (inValue : Bool) (segments : List PathSegment) :
    Rule (List PathSegment ⊕ List PathSegment) := do
  let name ← identifier
  let args ←
    if inValue then typeArguments? call
    else if ← isAt (.mark .less) then typeArguments call
    else pure []
  let segments := segments ++ [⟨name, args⟩]
  if ← view fun src s => s.kind == .mark .dot && (s.peek src).isIdentifier then
    advance
    return .inl segments
  else
    return .inr segments

/-- A dotted path with type arguments behind its segments. Where a value could stand, a `<` opens
type arguments only if `typeArguments?` finds them. -/
def namedType (inValue : Bool) : Rule TypeId := do
  let start ← start
  let segments ← loop (segmentsRound call inValue) []
  typeFrom start (.ofPath segments)

/-- The next element of a type in parentheses with the comma behind it. -/
def typeElementsRound :
    List TypeElement × Bool → Rule (List TypeElement × Bool ⊕ List TypeElement × Bool) :=
  fun (elements, trailingComma) => do
    let k ← kind
    if k == .mark .closeParen || k == .endOfFile then
      return .inr (elements, trailingComma)
    else
      let label ← label?
      let elements := elements ++ [⟨label, ← call .type⟩]
      if ← optional (.mark .comma) then return .inl (elements, true)
      else return .inr (elements, false)

/-- The elements of a type in parentheses, and whether a comma follows the last one. -/
def typeElements : Rule (List TypeElement × Bool) :=
  loop (typeElementsRound call) ([], false)

/-- The form of a list in parentheses that no arrow follows. -/
def tupleForm (elements : List TypeElement) (trailingComma : Bool) : TypeForm :=
  match elements, trailingComma with
  | [], _ => .builtin .unit
  | [⟨none, type⟩], false => .parenthesized type
  | elements, _ => .tuple elements

/-- The unit type, a type in parentheses, a tuple, or the parameters of a function type with its
result. -/
def parenType : Rule TypeId := do
  let start ← start
  advance
  let (elements, trailingComma) ← typeElements call
  require (.mark .closeParen)
  if ← optional (.mark .thinArrow) then
    let result ← call .type
    typeFrom start (.arrow elements result)
  else
    let span ← spanFrom start
    if elements.any fun e => e.label.isSome then reportAt span .namedElementsRequireArrow []
    allocType (tupleForm elements trailingComma) span

/-- A type, whatever nesting there is around it. -/
def plainType : Rule TypeId := do
  let start ← start
  let k ← kind
  match k with
  | .mark .question =>
    advance
    let inner ← call .type
    typeFrom start (.optional inner)
  | .mark .questionQuestion =>
    advance
    let inner ← call .type
    let span ← spanFrom start
    let once ← allocType (.optional inner) span
    allocType (.optional once) span
  | .mark .openParen => parenType call
  | _ =>
    if k.isIdentifier then namedType call false
    else
      let span ← tokenSpan
      reportAt span .typeExpected []
      errorType span

/-- A type. -/
def type : Rule TypeId :=
  nested errorType (plainType call)

/-- The type behind `as` or `is`. -/
def typeOperand : Rule TypeId :=
  nested errorType do
    if (← kind).isIdentifier then namedType call true else plainType call

/-- The type behind a token, where the token stands. -/
def typeBehind (k : Kind) : Rule (Option TypeId) :=
  behind k (call .type)

end Rule

end CangjieSyntax
