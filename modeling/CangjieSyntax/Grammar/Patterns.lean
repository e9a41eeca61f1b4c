import CangjieSyntax.Grammar.Types

/-!
# Patterns

Patterns in a `case`, in a `catch`, in a declaration of variables and in a loop. Only a `case`
admits patterns that can fail to match; only a `case` and a `catch` admit a type behind a name.
-/

namespace CangjieSyntax

namespace PatternPlace

/-- What a place is called in a message. -/
def describe : PatternPlace → String
  | matchCase => "a match case"
  | catchClause => "a catch clause"
  | declaration => "a variable declaration"
  | forIn => "a for-in binding"

/-- Whether a pattern that can fail to match is admitted. -/
def allowsRefutable : PatternPlace → Bool
  | matchCase => true
  | _ => false

/-- Whether a type behind a name is admitted. -/
def allowsAnnotation : PatternPlace → Bool
  | matchCase | catchClause => true
  | _ => false

end PatternPlace

namespace PatternForm

/-- The values that a pattern of an alternation stands for. -/
def constants : PatternForm → List ExprId
  | constant values => values
  | _ => []

/-- The variants that a pattern of an alternation stands for; a name is a variant without
arguments. -/
def variants (span : Span) : PatternForm → List VariantPattern
  | variant variants => variants
  | binding name => [{ path := [name], typeArgs := [], args := [], span }]
  | _ => []

/-- Whether a pattern can stand in an alternation. -/
def isAlternative : PatternForm → Bool
  | constant _ | variant _ | binding _ | error => true
  | _ => false

/-- The form of an alternation: its alternatives must all be values or all be variants. -/
def alternation? (patterns : List PatternNode) : Option PatternForm :=
  let values := patterns.flatMap fun p => p.form.constants
  let variants := patterns.flatMap fun p => p.form.variants p.span
  if !(patterns.all fun p => p.form.isAlternative) then none
  else match values, variants with
    | [], [] => some .error
    | values, [] => some (.constant values)
    | [], variants => some (.variant variants)
    | _, _ => none

end PatternForm

namespace Rule

variable (call : Call)

/-- The placeholder of a pattern. -/
def errorPattern (span : Span) : Rule PatternId :=
  allocPattern .error span

/-- Reports a pattern that its place does not admit. -/
def invalidPattern (span : Span) (place : String) : Rule PatternId := do
  reportAt span .invalidPattern [place]
  errorPattern span

/-- A pattern that can fail to match, where the place admits one. -/
def refutablePattern (place : PatternPlace) (form : PatternForm) (span : Span) :
    Rule PatternId := do
  if place.allowsRefutable then allocPattern form span else invalidPattern span place.describe

/-- The types behind a colon; a `catch` admits several. -/
def patternTypes (place : PatternPlace) : Rule (List TypeId) := do
  advance
  if place = .catchClause then separated (.mark .bar) (call .type)
  else return [← call .type]

/-- An underscore, perhaps with a type. -/
def wildcardPattern (place : PatternPlace) : Rule PatternId := do
  let start ← start
  advance
  if place.allowsAnnotation && (← isAt (.mark .colon)) then
    let types ← patternTypes call place
    patternFrom start (.typeAnnotated none types)
  else
    patternFrom start .wildcard

/-- A literal or a negated number. -/
def constantPattern (place : PatternPlace) : Rule PatternId := do
  let start ← start
  let value ← call .unary
  refutablePattern place (.constant [value]) (← spanFrom start)

/-- The next element of a tuple with the comma behind it. -/
def patternElementsRound (place : PatternPlace) :
    List PatternId × Bool → Rule (List PatternId × Bool ⊕ List PatternId × Bool) :=
  fun (items, trailingComma) => do
    if ← isAt .endOfFile then
      return .inr (items, trailingComma)
    else
      let items := items ++ [← call (.pattern place)]
      let comma ← optional (.mark .comma)
      if !comma || (← isAt (.mark .closeParen)) then return .inr (items, comma)
      else return .inl (items, comma)

/-- The elements of a tuple, and whether a comma follows the last one. -/
def patternElements (place : PatternPlace) : Rule (List PatternId × Bool) :=
  loop (patternElementsRound call place) ([], false)

/-- The unit value, a pattern in parentheses or a tuple. -/
def tuplePattern (place : PatternPlace) : Rule PatternId := do
  let start ← start
  advance
  if ← optional (.mark .closeParen) then
    let span ← spanFrom start
    if place.allowsRefutable then
      let unit ← allocExpr .unit span
      allocPattern (.constant [unit]) span
    else
      invalidPattern span place.describe
  else
    let (items, trailingComma) ← patternElements call place
    require (.mark .closeParen)
    match items, trailingComma with
    | [only], false => return only
    | items, _ => patternFrom start (.tuple items)

/-- A variant behind its path and type arguments. -/
def variantPattern (place : PatternPlace) (start : Nat) (path : List Name)
    (typeArgs : List TypeId) : Rule PatternId := do
  let args ←
    if ← optional (.mark .openParen) then
      let args ← list (.mark .closeParen) (call (.pattern place))
      require (.mark .closeParen)
      pure args
    else pure []
  let span ← spanFrom start
  refutablePattern place (.variant [{ path, typeArgs, args, span }]) span

/-- A name, perhaps with a type, or a variant of an enum. -/
def namePattern (place : PatternPlace) : Rule PatternId := do
  let start ← start
  let path ← dottedName
  let opensArgs ← view fun _ s => s.kind == .mark .less && !s.lexer.flags.separated
  let typeArgs ← if opensArgs then typeArguments call else pure []
  match path, typeArgs with
  | [name], [] =>
    if place.allowsAnnotation && (← isAt (.mark .colon)) then
      let types ← patternTypes call place
      patternFrom start (.typeAnnotated (some name) types)
    else if ← isAt (.mark .openParen) then
      variantPattern call place start path typeArgs
    else
      patternFrom start (.binding name)
  | _, _ => variantPattern call place start path typeArgs

/-- A pattern that is no alternation. -/
def singlePattern (place : PatternPlace) : Rule PatternId := do
  let k ← kind
  if k = .mark .underscore then wildcardPattern call place
  else if k = .mark .openParen then tuplePattern call place
  else if k.isLiteral || k.isStringStart || k == .mark .minus then constantPattern call place
  else if k.isIdentifier then namePattern call place
  else
    let span ← tokenSpan
    reportAt span .patternExpected []
    unless k.isRecoveryAnchor do advance
    errorPattern span

/-- The nodes of patterns. -/
def patternNodes (ids : List PatternId) : Rule (List PatternNode) :=
  view fun _ s => ids.filterMap s.nodes.patterns.get?

/-- The next bar with a pattern behind it. -/
def alternativesRound (place : PatternPlace) (rest : List PatternId) :
    Rule (List PatternId ⊕ List PatternId) := do
  if ← optional (.mark .bar) then return .inl (rest ++ [← singlePattern call place])
  else return .inr rest

/-- Patterns with bars between them, as one node. -/
def plainPattern (place : PatternPlace) : Rule PatternId := do
  let start ← start
  let first ← singlePattern call place
  if !(← isAt (.mark .bar)) then return first
  let rest ← loop (alternativesRound call place) []
  let span ← spanFrom start
  if !place.allowsRefutable then
    invalidPattern span place.describe
  else
    match PatternForm.alternation? (← patternNodes (first :: rest)) with
    | some form => allocPattern form span
    | none => invalidPattern span "a '|' alternation"

/-- A pattern. -/
def pattern (place : PatternPlace) : Rule PatternId :=
  nested errorPattern (plainPattern call place)

end Rule

end CangjieSyntax
