import CangjieSyntax.Grammar.State

/-!
# Rules

A rule of the grammar takes tokens and yields what it has read. The basic rules are below: one
token, names, lists, reports, nesting and tentative readings.

Rules refer to each other in circles. A rule that is used before it can be defined is called by its
`Nonterminal`, through a function that is handed down to every rule. A rule that repeats itself goes
through `Rule.loop`, which allows only so many rounds. A parse has an answer unless it runs out of
rounds or of nesting, and both are generous: a text that has no answer is one on which the rules
would go on for ever.
-/

namespace CangjieSyntax

/-- A rule that yields an `α`. It has no answer if it goes on for ever. -/
abbrev Rule (α : Type) := ReaderT Env (StateT ParseState Option) α

/-- Where a pattern stands; each place admits forms of its own. -/
inductive PatternPlace where
  /-- In a `case`, or behind the `let` of an `if` or a `while`. -/
  | matchCase
  | catchClause
  /-- In a declaration of variables. -/
  | declaration
  | forIn
  deriving DecidableEq, Inhabited

/-- Where a declaration stands. -/
inductive DeclPlace where
  | topLevel
  /-- In a block. -/
  | inBlock
  /-- In the body of a type, an extension or a foreign block. -/
  | member
  deriving DecidableEq, Inhabited

/-- The rules that are called by name, with what they yield. -/
inductive Nonterminal : Type → Type where
  | statement : Nonterminal ExprId
  | expression : Nonterminal ExprId
  /-- Operators stronger than the given level. -/
  | binary (above : Nat) : Nonterminal ExprId
  | unary : Nonterminal ExprId
  | ifThen : Nonterminal ExprId
  | type : Nonterminal TypeId
  | pattern (place : PatternPlace) : Nonterminal PatternId
  | blockItem : Nonterminal BlockItem
  | declaration (place : DeclPlace) : Nonterminal DeclId
  /-- The paths of an import behind the given names. -/
  | importPaths (leading : List Name) : Nonterminal (List ImportItem)

/-- How rules call each other by name. -/
abbrev Call := ∀ {α : Type}, Nonterminal α → Rule α

/-- What became of a tentative reading. -/
inductive Attempt (α : Type) where
  | committed (a : α)
  /-- It did not fit. -/
  | rewound
  /-- It ran out of tokens before it was decided. -/
  | exhausted
  deriving DecidableEq, Inhabited

namespace Rule

variable {α β : Type}

/-- The rule without an answer. -/
def endless : Rule α :=
  fun _ _ => none

/-- Repeats a step until it yields a result, in at most the given number of rounds. -/
def loopUpTo (step : β → Rule (β ⊕ α)) : Nat → β → Rule α
  | 0, _ => endless
  | rounds + 1, b => do
    match ← step b with
    | .inl b => loopUpTo step rounds b
    | .inr a => return a

/-- Repeats a step until it yields a result. -/
def loop (step : β → Rule (β ⊕ α)) (b : β) : Rule α := do
  loopUpTo step (← read).rounds b

/-! ## Tokens -/

/-- What a function finds in the state. -/
def view (f : Source → ParseState → α) : Rule α :=
  fun env s => some (f env.src s, s)

/-- The kind of the current token. -/
def kind : Rule Kind :=
  view fun _ s => s.kind

/-- Whether the current token is of the given kind. -/
def isAt (k : Kind) : Rule Bool :=
  view fun _ s => s.kind == k

/-- The offset where the current token starts. -/
def start : Rule Nat :=
  view fun _ s => s.start

/-- The span of the current token. -/
def tokenSpan : Rule Span :=
  view fun _ s => s.lexer.span

/-- The text of the current token. -/
def tokenValue : Rule String :=
  view fun _ s => s.lexer.value

/-- Whether the current token starts a line. -/
def lineBreakBefore : Rule Bool :=
  view fun _ s => s.lexer.flags.lineBreak

/-- The span from an offset up to the last token taken. -/
def spanFrom (start : Nat) : Rule Span :=
  view fun _ s => s.spanFrom start

/-- The kind of the token behind the current one. -/
def peek : Rule Kind :=
  view ParseState.peek

/-- Takes the current token. -/
def advance : Rule Unit := do
  let src := (← read).src
  modify fun s => s.advance src

/-- The kind of the current token where an operator may stand; a `>` is joined to what touches
it. -/
def operatorKind : Rule Kind := do
  let k ← kind
  if k = .mark .greater then
    let src := (← read).src
    modify fun s => { s with lexer := s.lexer.joinGreater src }
    return (← get).lexer.kind
  else
    return k

/-- Takes the current token if it is of the given kind. -/
def optional (k : Kind) : Rule Bool := do
  if ← isAt k then
    advance
    return true
  else
    return false

/-! ## Reports -/

/-- Reports a fault at a span. -/
def reportAt (span : Span) (m : Message) (args : List String) : Rule Unit :=
  modify fun s => s.report span m args

/-- Reports a fault at the current token. -/
def report (m : Message) (args : List String) : Rule Unit := do
  reportAt (← tokenSpan) m args

/-- Takes a token that must be of the given kind. -/
def expect (k : Kind) : Rule Bool := do
  if ← optional k then
    return true
  else
    report .expected [k.describe]
    return false

/-- Takes a token that must be of the given kind. -/
def require (k : Kind) : Rule Unit := do
  let _ ← expect k

/-! ## Nodes -/

/-- Allocates an expression. -/
def allocExpr (form : ExprForm) (span : Span) : Rule ExprId := do
  let id := (← get).nodes.exprs.next
  modify fun s => { s with nodes := { s.nodes with exprs := s.nodes.exprs.push ⟨form, span⟩ } }
  return id

/-- Allocates a type. -/
def allocType (form : TypeForm) (span : Span) : Rule TypeId := do
  let id := (← get).nodes.types.next
  modify fun s => { s with nodes := { s.nodes with types := s.nodes.types.push ⟨form, span⟩ } }
  return id

/-- Allocates a pattern. -/
def allocPattern (form : PatternForm) (span : Span) : Rule PatternId := do
  let id := (← get).nodes.patterns.next
  modify fun s =>
    { s with nodes := { s.nodes with patterns := s.nodes.patterns.push ⟨form, span⟩ } }
  return id

/-- Allocates a declaration. -/
def allocDecl (node : DeclNode) : Rule DeclId := do
  let id := (← get).nodes.decls.next
  modify fun s => { s with nodes := { s.nodes with decls := s.nodes.decls.push node } }
  return id

/-- Allocates an expression that starts at an offset and ends with the last token taken. -/
def exprFrom (start : Nat) (form : ExprForm) : Rule ExprId := do
  allocExpr form (← spanFrom start)

/-- Allocates a type that starts at an offset and ends with the last token taken. -/
def typeFrom (start : Nat) (form : TypeForm) : Rule TypeId := do
  allocType form (← spanFrom start)

/-- Allocates a pattern that starts at an offset and ends with the last token taken. -/
def patternFrom (start : Nat) (form : PatternForm) : Rule PatternId := do
  allocPattern form (← spanFrom start)

/-! ## Names -/

/-- Notes a name as met. -/
def intern (text : String) : Rule Unit :=
  modify fun s => { s with names := s.names.insert text }

/-- The name with the given text and span. -/
def name (text : String) (span : Span) : Rule Name := do
  intern text
  return ⟨text, span⟩

/-- The name that stands for a missing one in front of the current token. -/
def missingName : Rule Name := do
  name "" (.empty (← start))

/-- Takes an identifier; keywords are none. -/
def identifier : Rule Name := do
  if (← kind).isIdentifier then
    let n ← name (← tokenValue) (← tokenSpan)
    advance
    return n
  else
    report .identifierExpected []
    missingName

/-- The next point with an identifier behind it. -/
def dottedNameRound (path : List Name) : Rule (List Name ⊕ List Name) := do
  if ← view fun src s => s.kind == .mark .dot && (s.peek src).isIdentifier then
    advance
    return .inl (path ++ [← identifier])
  else
    return .inr path

/-- Takes identifiers with points between them. -/
def dottedName : Rule (List Name) := do
  let first ← identifier
  loop dottedNameRound [first]

/-- Takes a label with its colon, where there is one. -/
def label? : Rule (Option Name) := do
  if ← view fun src s => s.kind.isIdentifier && s.peek src == .mark .colon then
    let n ← identifier
    advance
    return some n
  else
    return none

/-! ## Lists -/

/-- The next element of a list with the comma behind it. -/
def listRound (close : Kind) (element : Rule α) (items : List α) : Rule (List α ⊕ List α) := do
  let k ← kind
  if k == close || k == .endOfFile then
    return .inr items
  else
    let items := items ++ [← element]
    if ← optional (.mark .comma) then return .inl items else return .inr items

/-- Elements with commas between them, up to a closing token, which is not taken. -/
def list (close : Kind) (element : Rule α) : Rule (List α) :=
  loop (listRound close element) []

/-- The element behind a token, where the token stands. -/
def behind (k : Kind) (element : Rule α) : Rule (Option α) := do
  if ← optional k then return some (← element) else return none

/-- The next separator with an element behind it. -/
def separatedRound (separator : Kind) (element : Rule α) (items : List α) :
    Rule (List α ⊕ List α) := do
  if ← optional separator then return .inl (items ++ [← element]) else return .inr items

/-- Elements with a separator between them. -/
def separated (separator : Kind) (element : Rule α) : Rule (List α) := do
  let first ← element
  loop (separatedRound separator element) [first]

/-! ## Nesting and tentative readings -/

/-- Reads one level deeper. Past the depth allowed, `fallback` gives a node for the current token
instead. -/
def nested (fallback : Span → Rule α) (body : Rule α) : Rule α := do
  let maxDepth := (← read).settings.maxDepth
  if maxDepth ≤ (← get).depth then
    let span ← tokenSpan
    modify fun s => s.reportDepth span maxDepth
    fallback span
  else
    modify fun s => { s with depth := s.depth + 1 }
    let a ← body
    modify fun s => { s with depth := s.depth - 1 }
    return a

/-- Tries a reading. It is committed if it yields something, reports no fault and keeps within the
budget of tokens; otherwise the tokens and nodes are as if it had not been tried. -/
def attempt (body : Rule (Option α)) : Rule (Attempt α) := do
  let saved ← get
  let outer := saved.tentative.limit
  let budget := (← read).settings.budget
  modify fun s => s.enterTentative budget
  let result ← body
  let tentative := (← get).tentative
  modify fun s => s.leaveTentative outer
  match result, tentative.failed with
  | some a, false => return .committed a
  | _, _ =>
    modify fun s => (saved.rewind s).checkLimit
    return if tentative.exhausted then .exhausted else .rewound

/-- Sets the type whose body is being read while a rule goes on. -/
def enclosedBy (owner : Option String) (body : Rule α) : Rule α := do
  let outer := (← get).enclosingType
  modify fun s => { s with enclosingType := owner }
  let a ← body
  modify fun s => { s with enclosingType := outer }
  return a

/-- The placeholder of an expression. -/
def errorExpr (span : Span) : Rule ExprId :=
  allocExpr .error span

end Rule

end CangjieSyntax
