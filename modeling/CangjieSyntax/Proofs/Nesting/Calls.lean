import CangjieSyntax.Proofs.Nesting.Grammar

/-!
# Every rule comes back to where it started

Whatever rule of the grammar is run from whatever state: if it has an answer, then as many
constructs and attempts are around the place as before, with the same limit on the tokens, in the
body of the same type. On the way no construct is nested deeper than the settings allow, unless the
rule was started deeper: a run in which rules have no answer above that ceiling comes to the same.
-/

namespace CangjieSyntax

namespace Rule

variable {env : Env} {ceiling nesting : Nat} {call call' : Call} {α β : Type}

/-- A rule that has an answer only where constructs are nested no deeper than a ceiling. -/
def within (ceiling : Nat) (r : Rule α) : Rule α :=
  fun env s => if s.depth ≤ ceiling then r env s else none

/-- How rules call each other if none has an answer above a ceiling. -/
def callWithin (ceiling : Nat) : Nat → Call
  | 0, _, _ => endless
  | nesting + 1, _, g => within ceiling (ofNonterminal (callWithin ceiling nesting) g)

/-- The rules of the grammar, those that are not called by name included. -/
inductive IsProduction : {α : Type} → (Call → Rule α) → Prop
  | named {α : Type} (g : Nonterminal α) : IsProduction fun call => ofNonterminal call g
  | list {α : Type} {element : Call → Rule α} (close : Kind) (h : IsProduction element) :
    IsProduction fun call => list close (element call)
  -- Names
  | identifier : IsProduction fun _ => identifier
  | dottedName : IsProduction fun _ => dottedName
  | label : IsProduction fun _ => label?
  -- Recovery
  | expressionExpected : IsProduction fun _ => expressionExpected
  | atStatementEnd (stop : Kind → Bool) : IsProduction fun _ => atStatementEnd stop
  | separatorExpected : IsProduction fun _ => separatorExpected
  | skipStatement (must : Bool) : IsProduction fun _ => skipStatement must
  | skipDeclaration (must : Bool) : IsProduction fun _ => skipDeclaration must
  | endItem (start errors : Nat) (stop : Kind → Bool) :
    IsProduction fun _ => endItem start errors stop
  | endFileItem (start errors : Nat) : IsProduction fun _ => endFileItem start errors
  -- Types
  | typeArguments : IsProduction typeArguments
  | fittingArguments : IsProduction fittingArguments?
  | valueTypeArguments : IsProduction typeArguments?
  | namedType (inValue : Bool) : IsProduction fun call => namedType call inValue
  | parenType : IsProduction parenType
  | typeElements : IsProduction typeElements
  | plainType : IsProduction plainType
  | typeOperand : IsProduction typeOperand
  | typeBehind (k : Kind) : IsProduction fun call => typeBehind call k
  | exprToType (id : ExprId) : IsProduction fun _ => exprToType id
  | elementsToTypes (elements : List (Option Name × ExprId)) :
    IsProduction fun _ => elementsToTypes elements
  -- Blocks
  | items (stop : Kind → Bool) : IsProduction fun call => items call stop
  | block : IsProduction block
  -- Literals, lists and lambdas
  | literal : IsProduction fun _ => literal
  | tokenExpr (form : ExprForm) : IsProduction fun _ => tokenExpr form
  | hole : IsProduction hole
  | string : IsProduction string
  | functionType (start : Nat) (elements : List (Option Name × ExprId)) :
    IsProduction fun call => functionType call start elements
  | parenElement : IsProduction parenElement
  | parenElements : IsProduction parenElements
  | parenthesized : IsProduction parenthesized
  | arrayElement : IsProduction arrayElement
  | array : IsProduction array
  | lambdaParams : IsProduction lambdaParams?
  | lambda (needsArrow : Bool) : IsProduction fun call => lambda call needsArrow
  -- Patterns
  | patternTypes (place : PatternPlace) : IsProduction fun call => patternTypes call place
  | wildcardPattern (place : PatternPlace) : IsProduction fun call => wildcardPattern call place
  | constantPattern (place : PatternPlace) : IsProduction fun call => constantPattern call place
  | tuplePattern (place : PatternPlace) : IsProduction fun call => tuplePattern call place
  | patternElements (place : PatternPlace) : IsProduction fun call => patternElements call place
  | variantPattern (place : PatternPlace) (start : Nat) (path : List Name)
    (typeArgs : List TypeId) :
    IsProduction fun call => variantPattern call place start path typeArgs
  | namePattern (place : PatternPlace) : IsProduction fun call => namePattern call place
  | singlePattern (place : PatternPlace) : IsProduction fun call => singlePattern call place
  | plainPattern (place : PatternPlace) : IsProduction fun call => plainPattern call place
  -- Control flow
  | condition : IsProduction condition
  | matchArm (hasSelector : Bool) : IsProduction fun call => matchArm call hasSelector
  | matchArms (hasSelector : Bool) : IsProduction fun call => matchArms call hasSelector
  | matchCases : IsProduction matchCases
  | forIn : IsProduction forIn
  | whileLoop : IsProduction whileLoop
  | doWhile : IsProduction doWhile
  | tryResource : IsProduction tryResource
  | catchClauses : IsProduction catchClauses
  | tryCatch : IsProduction tryCatch
  | spawn : IsProduction spawn
  | synchronized : IsProduction synchronized
  | unsafeBlock : IsProduction unsafeBlock
  | throwValue : IsProduction throwValue
  | returnValue : IsProduction returnValue
  -- Quoted code and macro calls
  | exprSplice : IsProduction exprSplice
  | nameSplice : IsProduction fun _ => nameSplice
  | quoteParts : IsProduction quoteParts
  | quote : IsProduction quote
  | balanced (opening closing : Punctuation) : IsProduction fun _ => balanced opening closing
  | macroCall : IsProduction fun _ => macroCall
  -- Expressions
  | nameExpr : IsProduction nameExpr
  | strayDollar : IsProduction fun _ => strayDollar
  | typeValue : IsProduction typeValue
  | keywordExpr (k : Keyword) : IsProduction fun call => keywordExpr call k
  | markExpr (p : Punctuation) : IsProduction fun call => markExpr call p
  | primary : IsProduction primary
  | memberName : IsProduction fun _ => memberName
  | argument : IsProduction argument
  | rangeTail (lower : Option ExprId) (start : Nat) :
    IsProduction fun call => rangeTail call lower start
  | fieldLink (target : ExprId) (start : Nat) (isOptional : Bool) :
    IsProduction fun call => fieldLink call target start isOptional
  | callLink (target : ExprId) (start : Nat) (isOptional : Bool) :
    IsProduction fun call => callLink call target start isOptional
  | indexLink (target : ExprId) (start : Nat) (isOptional : Bool) :
    IsProduction fun call => indexLink call target start isOptional
  | lambdaLink (target : ExprId) (start : Nat) (isOptional : Bool) :
    IsProduction fun call => lambdaLink call target start isOptional
  | chain : IsProduction chain
  | steps : IsProduction steps
  | typeTest (start : Nat) (form : TypeId → ExprForm) :
    IsProduction fun call => typeTest call start form
  | operation (above start : Nat) (lhs : ExprId) :
    IsProduction fun call => operation? call above start lhs
  -- Parts of declarations
  | modifiers (disallowed : List Modifier) : IsProduction fun _ => modifiers disallowed
  | annotation : IsProduction annotation
  | generics : IsProduction fun _ => generics
  | param : IsProduction param
  | params : IsProduction params
  | bounds : IsProduction bounds
  | constraints : IsProduction constraints
  | supertypes : IsProduction supertypes
  | body : IsProduction body?
  | functionName : IsProduction fun _ => functionName
  -- Declarations
  | function : IsProduction function
  | mainFunction : IsProduction mainFunction
  | macroDefinition : IsProduction macroDefinition
  | macroBody : IsProduction macroBody
  | varDecl (kind : VarKind) : IsProduction fun call => varDecl call kind
  | typeAlias : IsProduction typeAlias
  | members : IsProduction members
  | memberBody (owner : Option String) : IsProduction fun call => memberBody call owner
  | typeBody (kind : TypeDeclKind) : IsProduction fun call => typeBody call kind
  | enumCase : IsProduction enumCase
  | enumCases : IsProduction enumCases
  | enumType : IsProduction enumType
  | extension : IsProduction extension
  | foreignBlock : IsProduction foreignBlock
  | accessors : IsProduction accessors
  | property : IsProduction property
  | initializer (kind : InitKind) (name : Option Name) :
    IsProduction fun call => initializer call kind name
  | atPrimaryInit : IsProduction fun _ => atPrimaryInit
  | declarationExpected (place : DeclPlace) : IsProduction fun _ => declarationExpected place
  | declarationForm (place : DeclPlace) (ms : Modifiers) :
    IsProduction fun call => declarationForm call place ms
  | annotations : IsProduction annotations
  -- Files
  | packageHeader : IsProduction fun _ => packageHeader
  | importDecl : IsProduction importDecl
  | placeHeader (tree : FileTree) : IsProduction fun _ => placeHeader tree
  | placeDeclaration (tree : FileTree) : IsProduction fun call => placeDeclaration call tree
  | placeItem (tree : FileTree) : IsProduction fun call => placeItem call tree
  | file : IsProduction file

lemma restores_ofNonterminal (h : CallsWithin env ceiling call call') (g : Nonterminal α) :
    Restores env ceiling (ofNonterminal call g) (ofNonterminal call' g) := by
  cases g with
  | statement => exact restores_statement h
  | expression => exact restores_expression h
  | binary above => exact restores_binary h above
  | unary => exact restores_unary h
  | ifThen => exact restores_ifThen h
  | type => exact restores_type h
  | pattern place => exact restores_pattern h place
  | blockItem => exact restores_blockItem h
  | declaration place => exact restores_declaration h place
  | importPaths leading => exact restores_importPaths h leading

/-- Rules that are called by name are called from below the ceiling only. -/
lemma callsWithin_callTo (hceiling : env.settings.maxDepth ≤ ceiling) (nesting : Nat) :
    CallsWithin env ceiling (callTo nesting) (callWithin ceiling nesting) := by
  induction nesting with
  | zero => exact ⟨hceiling, fun _ => .endless⟩
  | succ nesting ih =>
    refine ⟨hceiling, fun g => ?_⟩
    have restored := restores_ofNonterminal ih g
    exact ⟨fun hs => (if_pos hs).trans (restored.agrees hs), restored.restores⟩

lemma IsProduction.restores {r : Call → Rule α} (hr : IsProduction r)
    (h : CallsWithin env ceiling call call') : Restores env ceiling (r call) (r call') := by
  induction hr with
  | named g => exact restores_ofNonterminal h g
  | list close _ ih => exact restores_list ih close
  | _ => grind

/-- What is nested in a place below the ceiling starts below it. -/
lemma nested_within (hceiling : env.settings.maxDepth ≤ ceiling) (fallback : Span → Rule α)
    (body : Rule α) (s : ParseState) :
    nested fallback (within ceiling body) env s = nested fallback body env s := by
  rw [nested_apply, nested_apply]
  split
  · rfl
  case isFalse hdepth =>
    rw [within, if_pos (ParseState.deeper_le hceiling hdepth)]

/-- A rule that has an answer leaves everything that is around the place as it was. In its run,
however deeply rules may call each other, neither is a rule called nor does the body of a construct
start where more constructs are nested than the settings allow, or than were in front of the rule if
these are more. -/
theorem surroundings_restored {r : Call → Rule α} (hr : IsProduction r) (nesting : Nat) (env : Env)
    (s : ParseState) :
    let ceiling := max env.settings.maxDepth s.depth
    (∀ a t, r (callTo nesting) env s = some (a, t) →
      t.depth = s.depth ∧ t.enclosingType = s.enclosingType
        ∧ t.tentative.depth = s.tentative.depth ∧ t.tentative.limit = s.tentative.limit)
      ∧ r (callWithin ceiling nesting) env s = r (callTo nesting) env s
      ∧ ∀ {β : Type} (fallback : Span → Rule β) (body : Rule β) (u : ParseState),
        nested fallback (within ceiling body) env u = nested fallback body env u := by
  intro ceiling
  have hceiling : env.settings.maxDepth ≤ ceiling := Nat.le_max_left ..
  have hs : s.depth ≤ ceiling := Nat.le_max_right ..
  have restored := hr.restores (callsWithin_callTo hceiling nesting)
  refine ⟨fun a t e => ?_, restored.agrees hs, fun fallback body => nested_within hceiling _ _⟩
  have around := restored.restores hs e
  simpa only [ParseState.surroundings, Prod.mk.injEq] using around

/-- An enum with a member in which the operand in parentheses would be nested deeper than is
allowed, which is reported. -/
theorem surroundings_restored_of_enum :
    let env : Env := {
      src := .ofString "enum E \x7b A | B(C) func f() \x7b (1) \x7d \x7d"
      settings := { maxDepth := 3 } }
    let s := { (ParseState.ofSource env.src).advance env.src with enclosingType := some "D" }
    IsProduction enumType
      ∧ (∃ a t, enumType (callTo 100) env s = some (a, t) ∧ t.depth = 0 ∧ t.enclosingType = some "D"
        ∧ t.tentative.depth = 0 ∧ t.tentative.limit = none ∧ t.log.size = 1)
      ∧ enumType (callWithin 3 100) env s = enumType (callTo 100) env s := by
  intro env s
  obtain ⟨restored, agrees, -⟩ := surroundings_restored .enumType 100 env s
  have run : (enumType (callTo 100) env s).map (fun p => p.2.log.size) = some 1 := by
    decide +kernel
  obtain ⟨⟨a, t⟩, e, hlog⟩ := Option.map_eq_some_iff.1 run
  obtain ⟨hdepth, howner, hattempts, hlimit⟩ := restored a t e
  have start : s.depth = 0 ∧ s.tentative.depth = 0 ∧ s.tentative.limit = none := by
    decide +kernel
  have ceiling : max env.settings.maxDepth s.depth = 3 := by decide +kernel
  refine ⟨.enumType, ⟨a, t, e, ?_⟩, ?_⟩
  · exact ⟨hdepth.trans start.1, howner, hattempts.trans start.2.1, hlimit.trans start.2.2, hlog⟩
  · rw [← ceiling]
    exact agrees

end Rule

end CangjieSyntax
