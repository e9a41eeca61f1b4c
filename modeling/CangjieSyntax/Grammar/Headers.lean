import CangjieSyntax.Grammar.Expressions

/-!
# Parts of declarations

Modifiers and annotations in front of a declaration, and the parts that several kinds of
declarations share: type parameters, parameters, bounds and function names.
-/

namespace CangjieSyntax

/-- The modifiers that make no sense in a place. -/
def DeclPlace.disallowed : DeclPlace → List Modifier
  | topLevel => [.mStatic, .mOverride, .mRedef, .mMut, .mOperator]
  | inBlock =>
    [.mPublic, .mPrivate, .mProtected, .mInternal, .mOpen, .mAbstract, .mSealed, .mStatic,
     .mOverride, .mRedef, .mMut, .mOperator, .mForeign]
  | member => []

/-- The modifier that the current token is. Some keywords are modifiers only in front of others. -/
def ParseState.modifier? (src : Source) (s : ParseState) : Option Modifier :=
  match s.kind with
  | .identifier => if s.atModifier src then Modifier.ofWord? s.lexer.value else none
  | .keyword .kwStatic => some .mStatic
  | .keyword .kwOperator => some .mOperator
  | .keyword .kwUnsafe => if s.peek src == .mark .openBrace then none else some .mUnsafe
  | .keyword .kwForeign =>
    match s.peek src with
    | .keyword .kwFunc | .keyword .kwLet | .keyword .kwVar => some .mForeign
    | _ => none
  | .keyword .kwConst =>
    match s.peek src with
    | .keyword .kwFunc | .keyword .kwInit => some .mConst
    | _ => none
  | _ => none

namespace Rule

variable (call : Call)

/-- The next modifier. One that makes no sense is reported and kept. -/
def modifiersRound (disallowed : List Modifier) (ms : Modifiers) :
    Rule (Modifiers ⊕ Modifiers) := do
  match ← view ParseState.modifier? with
  | some m =>
    if disallowed.contains m then report .modifierNotAllowed [m.word]
    advance
    return .inl (ms.insert m)
  | none => return .inr ms

/-- The modifiers that stand here. -/
def modifiers (disallowed : List Modifier) : Rule Modifiers :=
  loop (modifiersRound disallowed) Modifiers.none

/-- An annotation, perhaps with arguments in brackets on the same line. -/
def annotation : Rule Annotation := do
  let start ← start
  advance
  let path ← dottedName
  let hasArgs ← view fun _ s => s.kind == .mark .openBracket && !s.lexer.flags.lineBreak
  let args ←
    if hasArgs then
      advance
      let args ← list (.mark .closeBracket) (argument call)
      require (.mark .closeBracket)
      pure args
    else pure []
  return { path, args, span := ← spanFrom start }

/-- Type parameters in angle brackets, where they stand. -/
def generics : Rule (List Name) := do
  if ← optional (.mark .less) then
    let names ← list (.mark .greater) identifier
    require (.mark .greater)
    return names
  else
    return []

/-- The keyword with which a parameter declares a member. -/
def memberKeyword? : Kind → Option VarKind
  | .keyword .kwLet => some .letVar
  | .keyword .kwVar => some .varVar
  | _ => none

/-- The name of a parameter, which may be the underscore. -/
def paramName : Rule Name := do
  if ← isAt (.mark .underscore) then
    let name ← name Punctuation.underscore.text (← tokenSpan)
    advance
    return name
  else
    identifier

/-- A parameter of a function. -/
def param : Rule Param := do
  let start ← start
  let _ ← modifiers []
  let member := memberKeyword? (← kind)
  if member.isSome then advance
  let name ← paramName
  let named ← optional (.mark .bang)
  require (.mark .colon)
  let type ← call .type
  let default ← behind (.mark .equals) (call .expression)
  return { name, named, member, type, default, span := ← spanFrom start }

/-- The parameters of a function. -/
def params : Rule (List Param) := do
  if ← expect (.mark .openParen) then
    let params ← list (.mark .closeParen) (param call)
    require (.mark .closeParen)
    return params
  else
    return []

/-- Types of which all must hold. -/
def bounds : Rule (List TypeId) :=
  separated (.mark .amp) (call .type)

/-- The bounds of type parameters, where they stand. -/
def constraints : Rule (List Constraint) := do
  if ← optional (.keyword .kwWhere) then
    separated (.mark .comma) do
      let param ← identifier
      require (.mark .subtype)
      return { param, bounds := ← bounds call }
  else
    return []

/-- The supertypes of a type, where they stand. -/
def supertypes : Rule (List TypeId) := do
  if ← optional (.mark .subtype) then bounds call else return []

/-- The body of a function, where it stands. -/
def body? : Rule (Option Block) := do
  if ← isAt (.mark .openBrace) then return some (← block call) else return none

/-- The operator that a function overloads, if one stands here; of a pair of brackets only the
second one is left to take. -/
def operatorName? : Rule (Option String) := do
  match ← kind with
  | .mark .openBracket =>
    if (← peek) == .mark .closeBracket then
      advance
      return some "[]"
    else return none
  | .mark .openParen =>
    if (← peek) == .mark .closeParen then
      advance
      return some "()"
    else return none
  | .mark .bang => return some UnaryOp.not.symbol
  | _ => return (← operatorKind).binaryOp?.map BinaryOp.symbol

/-- The name of a function, or the operator it overloads. -/
def functionName : Rule Name := do
  if (← kind).isIdentifier then identifier
  else
    let start ← start
    match ← operatorName? with
    | some text =>
      advance
      name text (← spanFrom start)
    | none =>
      report .identifierExpected []
      missingName

end Rule

end CangjieSyntax
