import CangjieSyntax.Grammar.Headers

/-!
# Declarations

Functions, variables, types with their members, extensions and macros. Which ones are admitted
depends on the place.
-/

namespace CangjieSyntax.Rule

variable (call : Call)

/-! ## Functions -/

/-- A function. -/
def function : Rule FunctionParts := do
  advance
  let name ← functionName
  let generics ← generics
  let params ← params call
  let result ← typeBehind call (.mark .colon)
  let constraints ← constraints call
  let body ← body? call
  return { name, generics, params, result, constraints, body }

/-- The main function. -/
def mainFunction : Rule FunctionParts := do
  let name ← name Keyword.kwMain.text (← tokenSpan)
  advance
  let params ← params call
  let result ← typeBehind call (.mark .colon)
  let body ← block call
  return { name, generics := [], params, result, constraints := [], body := some body }

/-- The body of a macro: a block, or an expression behind an equals sign. -/
def macroBody : Rule Block := do
  if ← optional (.mark .equals) then
    let start ← start
    let value ← call .expression
    return ⟨[.expr value], ← spanFrom start⟩
  else
    block call

/-- A macro. -/
def macroDefinition : Rule FunctionParts := do
  advance
  let name ← identifier
  let params ← params call
  let result ← typeBehind call (.mark .colon)
  let body ← macroBody call
  return { name, generics := [], params, result, constraints := [], body := some body }

/-! ## Variables and aliases -/

/-- Variables. -/
def varDecl (kind : VarKind) : Rule DeclForm := do
  advance
  let pattern ← call (.pattern .declaration)
  let type ← typeBehind call (.mark .colon)
  let value ← behind (.mark .equals) (call .expression)
  return .varDecl kind pattern type value

/-- A name for a type. -/
def typeAlias : Rule DeclForm := do
  advance
  let name ← identifier
  let generics ← generics
  require (.mark .equals)
  let type ← call .type
  return .typeAlias name generics type

/-! ## Types with members -/

/-- The next member of a body, brought to its end, or a semicolon. -/
def membersRound (members : List DeclId) : Rule (List DeclId ⊕ List DeclId) := do
  let k ← kind
  if k == .mark .closeBrace || k == .endOfFile then return .inr members
  else if k == .mark .semicolon then
    advance
    return .inl members
  else
    let s ← get
    let member ← nested
      (fun span => allocDecl { form := .error, span, annotations := [], modifiers := .none })
      (call (.declaration .member))
    endItem s.start s.errorCount fun _ => false
    return .inl (members ++ [member])

/-- The members of a body. -/
def members : Rule (List DeclId) :=
  loop (membersRound call) []

/-- A body of members in braces; `owner` is the type that a primary initializer in it names. -/
def memberBody (owner : Option String) : Rule (List DeclId) := do
  if ← expect (.mark .openBrace) then
    enclosedBy owner do
      let members ← members call
      require (.mark .closeBrace)
      return members
  else
    return []

/-- A class, a struct or an interface. -/
def typeBody (kind : TypeDeclKind) : Rule DeclForm := do
  advance
  let name ← identifier
  let generics ← generics
  let supertypes ← supertypes call
  let constraints ← constraints call
  let members ← memberBody call (some name.text)
  return .typeBody kind name generics supertypes constraints members

/-- A case of an enum. -/
def enumCase : Rule EnumCase := do
  let start ← start
  let name ← identifier
  let params ← inParens? (list (.mark .closeParen) (call .type))
  return { name, params := params.getD [], span := ← spanFrom start }

/-- The next case of an enum, or dots, with the bar behind them. -/
def enumCasesRound :
    List EnumCase × Bool → Rule (List EnumCase × Bool ⊕ List EnumCase × Bool) :=
  fun (cases, nonExhaustive) => do
    let case? : Option (List EnumCase × Bool) ← do
      if ← isAt (.mark .dotDotDot) then
        advance
        pure (some (cases, true))
      else if ← view fun src s => s.kind == .identifier && !s.atModifier src then
        pure (some (cases ++ [← enumCase call], nonExhaustive))
      else pure none
    match case? with
    | none => return .inr (cases, nonExhaustive)
    | some cases => if ← optional (.mark .bar) then return .inl cases else return .inr cases

/-- The cases of an enum with bars between them, and whether dots among them leave room for more. -/
def enumCases : Rule (List EnumCase × Bool) := do
  let _ ← optional (.mark .bar)
  loop (enumCasesRound call) ([], false)

/-- An enum. -/
def enumType : Rule DeclForm := do
  advance
  let name ← identifier
  let generics ← generics
  let supertypes ← supertypes call
  let constraints ← constraints call
  let (cases, nonExhaustive, members) ←
    if ← expect (.mark .openBrace) then
      enclosedBy (some name.text) do
        let (cases, nonExhaustive) ← enumCases call
        let members ← members call
        require (.mark .closeBrace)
        return (cases, nonExhaustive, members)
    else pure ([], false, [])
  return .enumType name generics supertypes constraints cases nonExhaustive members

/-- An extension of a type. -/
def extension : Rule DeclForm := do
  advance
  let generics ← generics
  let target ← call .type
  let supertypes ← supertypes call
  let constraints ← constraints call
  let members ← memberBody call none
  return .extension generics target supertypes constraints members

/-- A block of foreign declarations. -/
def foreignBlock : Rule DeclForm := do
  advance
  return .foreignBlock (← memberBody call none)

/-! ## Members -/

/-- The accessors of a property read so far. -/
structure Accessors where
  getter : Option Block := none
  setter : Option (Name × Block) := none
  /-- A token that starts no accessor was reported. -/
  reported : Bool := false

/-- The word that introduces the reading accessor. -/
def getWord : String := "get"

/-- The word that introduces the writing accessor. -/
def setWord : String := "set"

/-- Whether the current token is the given word. -/
def atWord (word : String) : Rule Bool :=
  view fun _ s => s.kind == .identifier && s.lexer.value == word

/-- The next accessor of a property, or a token that starts none. -/
def accessorsRound (a : Accessors) : Rule (Accessors ⊕ Accessors) := do
  let k ← kind
  if k == .mark .closeBrace || k == .endOfFile then return .inr a
  else if ← atWord getWord then
    advance
    inParens (pure ())
    return .inl { a with getter := some (← block call) }
  else if ← atWord setWord then
    advance
    let name ← inParens identifier
    return .inl { a with setter := some (name, ← block call) }
  else
    unless a.reported do report .expected [getWord]
    advance
    return .inl { a with reported := true }

/-- The accessors of a property up to the brace behind them. -/
def accessors : Rule Accessors :=
  loop (accessorsRound call) {}

/-- A property. -/
def property : Rule DeclForm := do
  advance
  let name ← identifier
  require (.mark .colon)
  let type ← call .type
  if ← optional (.mark .openBrace) then
    let a ← accessors call
    require (.mark .closeBrace)
    return .property name type a.getter a.setter
  else
    return .property name type none none

/-- An initializer behind what introduces it. -/
def initializer (kind : InitKind) (name : Option Name) : Rule DeclForm := do
  let params ← params call
  let body ← body? call
  return .initializer kind name params body

/-- Whether a primary initializer stands here: the name of the type around it with a parenthesis
behind it. The name is met even if it is another one. -/
def atPrimaryInit : Rule Bool := do
  match (← get).enclosingType with
  | none => return false
  | some owner =>
    intern (← tokenValue)
    view fun src s => s.lexer.value == owner && s.peek src == .mark .openParen

/-! ## Any declaration -/

/-- Reports that no declaration stands here and passes over the statement in its place. -/
def declarationExpected (place : DeclPlace) : Rule DeclForm := do
  report (if place = .member then .memberDeclarationExpected else .declarationExpected) []
  skipStatement true
  return .error

/-- A declaration behind its modifiers. -/
def declarationForm (place : DeclPlace) (modifiers : Modifiers) : Rule DeclForm := do
  match ← kind, place with
  | .keyword .kwFunc, _ => return .function (← function call)
  | .keyword .kwLet, _ => varDecl call .letVar
  | .keyword .kwVar, _ => varDecl call .varVar
  | .keyword .kwConst, _ => varDecl call .constVar
  | .keyword .kwClass, _ => typeBody call .classType
  | .keyword .kwStruct, _ => typeBody call .structType
  | .keyword .kwInterface, _ => typeBody call .interfaceType
  | .keyword .kwEnum, _ => enumType call
  | .keyword .kwType, _ => typeAlias call
  | .keyword .kwExtend, .topLevel | .keyword .kwExtend, .member => extension call
  | .keyword .kwForeign, .topLevel | .keyword .kwForeign, .member => foreignBlock call
  | .keyword .kwMacro, .topLevel => return .macroDefinition (← macroDefinition call)
  | .keyword .kwMain, .topLevel => return .mainFunction (← mainFunction call)
  | .keyword .kwProp, .member => property call
  | .keyword .kwInit, .member =>
    advance
    initializer call (if modifiers.contains .mStatic then .staticInit else .regular) none
  | .mark .tilde, .member =>
    if (← peek) == .keyword .kwInit then
      advance
      advance
      initializer call .finalizer none
    else declarationExpected place
  | .identifier, .member =>
    if ← atPrimaryInit then
      let name ← identifier
      initializer call .primary (some name)
    else declarationExpected place
  | _, _ => declarationExpected place

/-- The next annotation in front of a declaration, or a macro call in its place. -/
def annotationsRound (annotations : List Annotation) :
    Rule (List Annotation ⊕ List Annotation × Option ExprId) := do
  if ← isAt (.mark .atSign) then
    if ← view fun src s => s.lexer.atMacroCall src then
      let expansion ← macroCall
      return .inr (annotations, some expansion)
    else return .inl (annotations ++ [← annotation call])
  else return .inr (annotations, none)

/-- The annotations in front of a declaration, up to a macro call in its place, where there is
one. -/
def annotations : Rule (List Annotation × Option ExprId) :=
  loop (annotationsRound call) []

/-- A declaration. -/
def declaration (place : DeclPlace) : Rule DeclId := do
  let start ← start
  let (annotations, expansion?) ← annotations call
  match expansion? with
  | some expansion =>
    let span ← spanFrom start
    allocDecl { form := .macroExpansion expansion, span, annotations, modifiers := .none }
  | none =>
    let modifiers ← modifiers place.disallowed
    let form ← declarationForm call place modifiers
    allocDecl { form, span := ← spanFrom start, annotations, modifiers }

end CangjieSyntax.Rule
