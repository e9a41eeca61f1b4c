import CangjieSyntax.Proofs.Lockstep.Grammar
import CangjieSyntax.Proofs.Nesting.Rule

/-!
# The rules of the grammar restore what is around the place

A rule does so if the rules in it do. What a rule begins with is written out where what it goes on
with depends on it.
-/

namespace CangjieSyntax

/-- Rules that are called by name restore what is around the place, and may be nested up to the
ceiling. -/
@[grind cases eager]
structure CallsWithin (env : Env) (ceiling : Nat) (call call' : Call) : Prop where
  maxDepth : env.settings.maxDepth ≤ ceiling
  calls : ∀ {α : Type} (g : Nonterminal α), Restores env ceiling (call g) (call' g)

namespace Rule

variable {env : Env} {ceiling : Nat} {call call' : Call} {α : Type}

/-! ## Recovery -/

@[grind ←]
lemma restores_errorType (span : Span) : RestoresFlat env ceiling (errorType span) := by
  unfold errorType
  grind

@[grind ←]
lemma restores_errorPattern (span : Span) : RestoresFlat env ceiling (errorPattern span) := by
  unfold errorPattern
  grind

@[grind ←]
lemma restores_expressionExpected : RestoresFlat env ceiling expressionExpected := by
  unfold expressionExpected
  grind

@[grind ←]
lemma restores_atStatementEnd (stop : Kind → Bool) :
    RestoresFlat env ceiling (atStatementEnd stop) := by
  unfold atStatementEnd
  grind

@[grind ←]
lemma restores_separatorExpected : RestoresFlat env ceiling separatorExpected := by
  unfold separatorExpected
  grind

@[grind ←]
lemma restores_unmute : RestoresFlat env ceiling unmute :=
  .modify fun _ => rfl

@[grind ←]
lemma restores_skipStatement (must : Bool) : RestoresFlat env ceiling (skipStatement must) := by
  unfold skipStatement skipStatementRound
  grind

@[grind ←]
lemma restores_skipDeclaration (must : Bool) : RestoresFlat env ceiling (skipDeclaration must) := by
  unfold skipDeclaration skipDeclarationRound
  grind

@[grind ←]
lemma restores_endItem (start errors : Nat) (stop : Kind → Bool) :
    RestoresFlat env ceiling (endItem start errors stop) := by
  unfold endItem
  grind

@[grind ←]
lemma restores_endFileItem (start errors : Nat) :
    RestoresFlat env ceiling (endFileItem start errors) := by
  unfold endFileItem
  grind

/-! ## Rules without others in them -/

@[grind ←]
lemma restores_tokenExpr (form : ExprForm) : RestoresFlat env ceiling (tokenExpr form) := by
  unfold tokenExpr
  grind

@[grind ←]
lemma restores_literal : RestoresFlat env ceiling literal := by
  unfold literal
  grind

@[grind ←]
lemma restores_find (f : Nodes → Option α) : RestoresFlat env ceiling (find f) := by
  refine ⟨fun _ => rfl, fun _ e => ?_⟩
  obtain ⟨a, -, e⟩ := Option.map_eq_some_iff.1 e
  cases e
  rfl

@[grind ←]
lemma restores_exprToType (id : ExprId) : RestoresFlat env ceiling (exprToType id) := by
  have within (depth : Nat) (id : ExprId) : RestoresFlat env ceiling (exprToTypeTo depth id) := by
    induction depth generalizing id with
    | zero => exact .endless
    | succ depth ih =>
      unfold exprToTypeTo exprSpan exprPath? notAType
      grind
  exact within _ id

@[grind ←]
lemma restores_elementsToTypes (elements : List (Option Name × ExprId)) :
    RestoresFlat env ceiling (elementsToTypes elements) := by
  unfold elementsToTypes
  grind

@[grind ←]
lemma restores_strayDollar : RestoresFlat env ceiling strayDollar := by
  unfold strayDollar
  grind

@[grind ←]
lemma restores_memberName : RestoresFlat env ceiling memberName := by
  unfold memberName
  grind

@[grind ←]
lemma restores_nameSplice : RestoresFlat env ceiling nameSplice := by
  unfold nameSplice
  grind

@[grind ←]
lemma restores_keptToken (q : Quotation) (k : Kind) : RestoresFlat env ceiling (keptToken q k) := by
  unfold keptToken
  grind

@[grind ←]
lemma restores_balanced (opening closing : Punctuation) :
    RestoresFlat env ceiling (balanced opening closing) := by
  unfold balanced balancedRound
  grind

@[grind ←]
lemma restores_macroCall : RestoresFlat env ceiling macroCall := by
  refine .bind restores_start fun start => .bind restores_advance fun _ => ?_
  refine .bind restores_dottedName fun name => .bind (.view _) fun hasAttributes => ?_
  grind

@[grind ←]
lemma restores_modifiers (disallowed : List Modifier) :
    RestoresFlat env ceiling (modifiers disallowed) := by
  unfold modifiers modifiersRound
  grind

@[grind ←]
lemma restores_generics : RestoresFlat env ceiling generics := by
  unfold generics
  grind

@[grind ←]
lemma restores_paramName : RestoresFlat env ceiling paramName := by
  unfold paramName
  grind

@[grind ←]
lemma restores_operatorName? : RestoresFlat env ceiling operatorName? := by
  unfold operatorName?
  grind

@[grind ←]
lemma restores_functionName : RestoresFlat env ceiling functionName := by
  unfold functionName
  grind

@[grind ←]
lemma restores_atPrimaryInit : RestoresFlat env ceiling atPrimaryInit := by
  unfold atPrimaryInit
  grind

@[grind ←]
lemma restores_declarationExpected (place : DeclPlace) :
    RestoresFlat env ceiling (declarationExpected place) := by
  unfold declarationExpected
  grind

@[grind ←]
lemma restores_packageHeader : RestoresFlat env ceiling packageHeader := by
  unfold packageHeader
  grind

@[grind ←]
lemma restores_placeHeader (tree : FileTree) : RestoresFlat env ceiling (placeHeader tree) := by
  unfold placeHeader
  grind

@[grind ←]
lemma restores_refutablePattern (place : PatternPlace) (form : PatternForm) (span : Span) :
    RestoresFlat env ceiling (refutablePattern place form span) := by
  unfold refutablePattern invalidPattern
  grind

@[grind ←]
lemma restores_inParens {inner inner' : Rule α} (h : Restores env ceiling inner inner') :
    Restores env ceiling (inParens inner) (inParens inner') := by
  unfold inParens
  grind -funext

@[grind ←]
lemma restores_inParens? {inner inner' : Rule α} (h : Restores env ceiling inner inner') :
    Restores env ceiling (inParens? inner) (inParens? inner') := by
  unfold inParens?
  grind -funext

variable (h : CallsWithin env ceiling call call')

include h

/-! ## Types -/

@[grind ←]
lemma restores_typeArguments :
    Restores env ceiling (typeArguments call) (typeArguments call') := by
  unfold typeArguments
  grind -funext

@[grind ←]
lemma restores_fittingArguments? :
    Restores env ceiling (fittingArguments? call) (fittingArguments? call') := by
  unfold fittingArguments?
  grind -funext

@[grind ←]
lemma restores_typeArguments? :
    Restores env ceiling (typeArguments? call) (typeArguments? call') := by
  refine .bind .read fun env' => .bind (.view _) fun candidate => ?_
  split
  · exact .pure []
  · refine .bind restores_tokenSpan fun opening => ?_
    refine .bind (.attempt (restores_fittingArguments? h)) fun result => ?_
    cases result with
    | committed args => exact .pure args
    | rewound => exact .bind (.modify fun _ => rfl) fun _ => .pure []
    | exhausted => grind

@[grind ←]
lemma restores_namedType (inValue : Bool) :
    Restores env ceiling (namedType call inValue) (namedType call' inValue) := by
  refine .bind restores_start fun start => .bind (.loop (fun segments => ?_) []) fun segments =>
    restores_typeFrom start _
  refine .bind restores_identifier fun name => ?_
  grind -funext

@[grind ←]
lemma restores_typeElements :
    Restores env ceiling (typeElements call) (typeElements call') := by
  unfold typeElements typeElementsRound
  grind -funext

@[grind ←]
lemma restores_parenType :
    Restores env ceiling (parenType call) (parenType call') := by
  unfold parenType
  grind -funext

@[grind ←]
lemma restores_plainType :
    Restores env ceiling (plainType call) (plainType call') := by
  unfold plainType
  grind -funext

@[grind ←]
lemma restores_type :
    Restores env ceiling (type call) (type call') := by
  unfold type
  grind -funext

@[grind ←]
lemma restores_typeOperand :
    Restores env ceiling (typeOperand call) (typeOperand call') := by
  unfold typeOperand
  grind -funext

@[grind ←]
lemma restores_typeBehind (k : Kind) :
    Restores env ceiling (typeBehind call k) (typeBehind call' k) := by
  unfold typeBehind
  grind -funext

/-! ## Blocks -/

@[grind ←]
lemma restores_items (stop : Kind → Bool) :
    Restores env ceiling (items call stop) (items call' stop) := by
  unfold items itemsRound
  grind -funext

@[grind ←]
lemma restores_allItems :
    Restores env ceiling (allItems call) (allItems call') := by
  unfold allItems
  grind -funext

@[grind ←]
lemma restores_block :
    Restores env ceiling (block call) (block call') := by
  unfold block
  grind -funext

@[grind ←]
lemma restores_blockItem :
    Restores env ceiling (blockItem call) (blockItem call') := by
  refine .bind (.view _) fun here => ?_
  split
  · exact .bind (h.calls _) fun id => .pure _
  · exact .bind (h.calls _) fun id => .pure _

/-! ## Literals, lists and lambdas -/

@[grind ←]
lemma restores_hole :
    Restores env ceiling (hole call) (hole call') := by
  unfold hole
  grind -funext

@[grind ←]
lemma restores_string :
    Restores env ceiling (string call) (string call') := by
  refine .bind restores_start fun start => .bind (restores_isAt _) fun multiLine => ?_
  refine .bind restores_advance fun _ => .bind (.loop (fun parts => ?_) []) fun parts => ?_
  · refine .bind restores_kind fun k => ?_
    split <;> grind -funext
  · grind -funext

@[grind ←]
lemma restores_functionType (start : Nat) (elements : List (Option Name × ExprId)) :
    Restores env ceiling (functionType call start elements)
      (functionType call' start elements) := by
  unfold functionType
  grind -funext

@[grind ←]
lemma restores_parenElement :
    Restores env ceiling (parenElement call) (parenElement call') := by
  unfold parenElement
  grind -funext

@[grind ←]
lemma restores_parenElements :
    Restores env ceiling (parenElements call) (parenElements call') := by
  unfold parenElements parenElementsRound
  grind -funext

@[grind ←]
lemma restores_parenthesized :
    Restores env ceiling (parenthesized call) (parenthesized call') := by
  refine .bind restores_start fun start => .bind restores_advance fun _ => ?_
  refine .bind (restores_optional _) fun empty => ?_
  split
  · grind -funext
  · refine .bind (restores_parenElements h) fun (elements, trailingComma) => ?_
    grind -funext

@[grind ←]
lemma restores_arrayElement :
    Restores env ceiling (arrayElement call) (arrayElement call') := by
  unfold arrayElement
  grind -funext

@[grind ←]
lemma restores_array :
    Restores env ceiling (array call) (array call') := by
  unfold array
  grind -funext

@[grind ←]
lemma restores_lambdaParams? :
    Restores env ceiling (lambdaParams? call) (lambdaParams? call') := by
  refine .bind (.loop (fun params => ?_) []) fun params => ?_
  · refine .bind restores_kind fun k => ?_
    grind -funext [lambdaParamsRound]
  · grind -funext

@[grind ←]
lemma restores_lambda (needsArrow : Bool) :
    Restores env ceiling (lambda call needsArrow) (lambda call' needsArrow) := by
  refine .bind restores_start fun start => .bind restores_advance fun _ => ?_
  refine .bind (.attempt (restores_lambdaParams? h)) fun result => ?_
  grind -funext

/-! ## Patterns -/

@[grind ←]
lemma restores_patternTypes (place : PatternPlace) :
    Restores env ceiling (patternTypes call place) (patternTypes call' place) := by
  unfold patternTypes
  grind -funext

@[grind ←]
lemma restores_wildcardPattern (place : PatternPlace) :
    Restores env ceiling (wildcardPattern call place) (wildcardPattern call' place) := by
  unfold wildcardPattern
  grind -funext

@[grind ←]
lemma restores_constantPattern (place : PatternPlace) :
    Restores env ceiling (constantPattern call place) (constantPattern call' place) := by
  unfold constantPattern
  grind -funext

@[grind ←]
lemma restores_patternElements (place : PatternPlace) :
    Restores env ceiling (patternElements call place) (patternElements call' place) := by
  unfold patternElements patternElementsRound
  grind -funext

@[grind ←]
lemma restores_tuplePattern (place : PatternPlace) :
    Restores env ceiling (tuplePattern call place) (tuplePattern call' place) := by
  unfold tuplePattern invalidPattern
  grind -funext

@[grind ←]
lemma restores_variantPattern (place : PatternPlace) (start : Nat) (path : List Name)
    (typeArgs : List TypeId) :
    Restores env ceiling (variantPattern call place start path typeArgs)
      (variantPattern call' place start path typeArgs) := by
  unfold variantPattern
  grind -funext

@[grind ←]
lemma restores_namePattern (place : PatternPlace) :
    Restores env ceiling (namePattern call place) (namePattern call' place) := by
  refine .bind restores_start fun start => .bind restores_dottedName fun path => ?_
  refine .bind (.view _) fun opensArgs => ?_
  extract_lets rest rest'
  have hrest (typeArgs : List TypeId) : Restores env ceiling (rest typeArgs) (rest' typeArgs) := by
    unfold rest rest'
    split <;> grind -funext
  clear_value rest rest'
  grind -funext

@[grind ←]
lemma restores_singlePattern (place : PatternPlace) :
    Restores env ceiling (singlePattern call place) (singlePattern call' place) := by
  unfold singlePattern
  grind -funext

@[grind ←]
lemma restores_plainPattern (place : PatternPlace) :
    Restores env ceiling (plainPattern call place) (plainPattern call' place) := by
  refine .bind restores_start fun start => ?_
  refine .bind (restores_singlePattern h place) fun first => ?_
  refine .bind (restores_isAt _) fun bar => ?_
  split
  · exact .pure first
  · refine .bind (.loop (fun rest => ?_) []) fun rest => ?_
    · unfold alternativesRound
      grind -funext
    · unfold patternNodes invalidPattern
      grind

@[grind ←]
lemma restores_pattern (place : PatternPlace) :
    Restores env ceiling (pattern call place) (pattern call' place) := by
  unfold pattern
  grind -funext

/-! ## Control flow -/

@[grind ←]
lemma restores_condition :
    Restores env ceiling (condition call) (condition call') := by
  unfold condition
  grind -funext

@[grind ←]
lemma restores_ifThen :
    Restores env ceiling (ifThen call) (ifThen call') := by
  refine .bind restores_start fun start => .bind restores_advance fun _ => ?_
  refine .bind (restores_inParens (restores_condition h)) fun condition => ?_
  refine .bind (restores_block h) fun body => ?_
  grind -funext

@[grind ←]
lemma restores_matchArm (hasSelector : Bool) :
    Restores env ceiling (matchArm call hasSelector) (matchArm call' hasSelector) := by
  refine .bind restores_start fun start => .bind restores_advance fun _ => ?_
  split
  · refine .bind (h.calls _) fun id => ?_
    grind -funext
  · refine .bind (h.calls _) fun id => ?_
    grind -funext

@[grind ←]
lemma restores_matchArms (hasSelector : Bool) :
    Restores env ceiling (matchArms call hasSelector) (matchArms call' hasSelector) := by
  unfold matchArms matchArmsRound
  grind -funext

@[grind ←]
lemma restores_matchCases :
    Restores env ceiling (matchCases call) (matchCases call') := by
  unfold matchCases
  grind -funext

@[grind ←]
lemma restores_forIn :
    Restores env ceiling (forIn call) (forIn call') := by
  refine .bind restores_start fun start => .bind restores_advance fun _ => ?_
  refine .bind (restores_inParens ?_) fun (pattern, iterable, guard) => ?_
  · grind -funext
  · grind -funext

@[grind ←]
lemma restores_whileLoop :
    Restores env ceiling (whileLoop call) (whileLoop call') := by
  unfold whileLoop
  grind -funext

@[grind ←]
lemma restores_doWhile :
    Restores env ceiling (doWhile call) (doWhile call') := by
  unfold doWhile
  grind -funext

@[grind ←]
lemma restores_tryResource :
    Restores env ceiling (tryResource call) (tryResource call') := by
  unfold tryResource
  grind -funext

@[grind ←]
lemma restores_catchClauses :
    Restores env ceiling (catchClauses call) (catchClauses call') := by
  unfold catchClauses catchClausesRound
  grind -funext

@[grind ←]
lemma restores_tryCatch :
    Restores env ceiling (tryCatch call) (tryCatch call') := by
  unfold tryCatch
  grind -funext

@[grind ←]
lemma restores_spawn :
    Restores env ceiling (spawn call) (spawn call') := by
  refine .bind restores_start fun start => .bind restores_advance fun _ => ?_
  refine .bind (restores_inParens? (h.calls _)) fun context => ?_
  refine .bind restores_start fun bodyStart => .bind (restores_expect _) fun opened => ?_
  grind -funext

@[grind ←]
lemma restores_synchronized :
    Restores env ceiling (synchronized call) (synchronized call') := by
  unfold synchronized
  grind -funext

@[grind ←]
lemma restores_unsafeBlock :
    Restores env ceiling (unsafeBlock call) (unsafeBlock call') := by
  unfold unsafeBlock
  grind -funext

@[grind ←]
lemma restores_throwValue :
    Restores env ceiling (throwValue call) (throwValue call') := by
  unfold throwValue
  grind -funext

@[grind ←]
lemma restores_returnValue :
    Restores env ceiling (returnValue call) (returnValue call') := by
  unfold returnValue
  grind -funext

/-! ## Quoted code -/

@[grind ←]
lemma restores_exprSplice :
    Restores env ceiling (exprSplice call) (exprSplice call') := by
  unfold exprSplice
  grind -funext

@[grind ←]
lemma restores_quoteParts :
    Restores env ceiling (quoteParts call) (quoteParts call') := by
  unfold quoteParts quotePartsRound
  grind -funext

@[grind ←]
lemma restores_quote :
    Restores env ceiling (quote call) (quote call') := by
  unfold quote
  grind -funext

/-! ## Expressions -/

@[grind ←]
lemma restores_nameExpr :
    Restores env ceiling (nameExpr call) (nameExpr call') := by
  unfold nameExpr
  grind -funext

@[grind ←]
lemma restores_typeValue :
    Restores env ceiling (typeValue call) (typeValue call') := by
  unfold typeValue
  grind -funext

@[grind ←]
lemma restores_keywordExpr (k : Keyword) :
    Restores env ceiling (keywordExpr call k) (keywordExpr call' k) := by
  unfold keywordExpr
  grind -funext

@[grind ←]
lemma restores_markExpr (p : Punctuation) :
    Restores env ceiling (markExpr call p) (markExpr call' p) := by
  unfold markExpr
  grind -funext

@[grind ←]
lemma restores_primary :
    Restores env ceiling (primary call) (primary call') := by
  unfold primary
  grind -funext

@[grind ←]
lemma restores_argument :
    Restores env ceiling (argument call) (argument call') := by
  unfold argument
  grind -funext

@[grind ←]
lemma restores_rangeTail (lower : Option ExprId) (start : Nat) :
    Restores env ceiling (rangeTail call lower start) (rangeTail call' lower start) := by
  unfold rangeTail
  grind -funext

@[grind ←]
lemma restores_fieldLink (target : ExprId) (start : Nat) (isOptional : Bool) :
    Restores env ceiling (fieldLink call target start isOptional)
      (fieldLink call' target start isOptional) := by
  unfold fieldLink
  grind -funext

@[grind ←]
lemma restores_callLink (target : ExprId) (start : Nat) (isOptional : Bool) :
    Restores env ceiling (callLink call target start isOptional)
      (callLink call' target start isOptional) := by
  unfold callLink
  grind -funext

@[grind ←]
lemma restores_indexLink (target : ExprId) (start : Nat) (isOptional : Bool) :
    Restores env ceiling (indexLink call target start isOptional)
      (indexLink call' target start isOptional) := by
  unfold indexLink
  grind -funext

@[grind ←]
lemma restores_lambdaLink (target : ExprId) (start : Nat) (isOptional : Bool) :
    Restores env ceiling (lambdaLink call target start isOptional)
      (lambdaLink call' target start isOptional) := by
  unfold lambdaLink
  grind -funext

/-- The same link stands here for either run. -/
lemma restores_link? (operand : ExprId) (start : Nat) (isOptional sameLine : Bool) (k : Kind) :
    Option.Rel (Restores env ceiling) (link? call operand start isOptional sameLine k)
      (link? call' operand start isOptional sameLine k) := by
  unfold link?
  split
  · exact .some (restores_fieldLink h operand start isOptional)
  · split
    · exact .some (restores_callLink h operand start isOptional)
    · exact .none
  · split
    · exact .some (restores_indexLink h operand start isOptional)
    · exact .none
  · split
    · exact .some (restores_lambdaLink h operand start isOptional)
    · exact .none
  · exact .none

lemma restores_chainRound (start : Nat) (state : ExprId × Bool) :
    Restores env ceiling (chainRound call start state) (chainRound call' start state) := by
  obtain ⟨operand, hasOptional⟩ := state
  refine .bind (.view _) fun isOptional => ?_
  extract_lets isChain rest rest'
  have hrest : Restores env ceiling (rest ()) (rest' ()) := by
    refine .bind restores_lineBreakBefore fun breaks => .bind restores_kind fun k => ?_
    have links := restores_link? h operand start isOptional (isOptional || !breaks) k
    dsimp only
    generalize link? call operand start isOptional (isOptional || !breaks) k = link at links ⊢
    generalize link? call' operand start isOptional (isOptional || !breaks) k = link' at links ⊢
    cases links with
    | some link => exact .bind link fun id => .pure _
    | none => grind
  clear_value rest rest'
  grind

@[grind ←]
lemma restores_chain :
    Restores env ceiling (chain call) (chain call') := by
  refine .bind restores_start fun start => ?_
  refine .bind (restores_primary h) fun operand => ?_
  exact .loop (restores_chainRound h start) _

@[grind ←]
lemma restores_steps :
    Restores env ceiling (steps call) (steps call') := by
  refine .bind restores_start fun start => .bind (restores_chain h) fun operand => ?_
  unfold stepsRound
  grind

@[grind ←]
lemma restores_unary :
    Restores env ceiling (unary call) (unary call') := by
  refine .bind restores_kind fun k => ?_
  split <;> grind -funext

@[grind ←]
lemma restores_typeTest (start : Nat) (form : TypeId → ExprForm) :
    Restores env ceiling (typeTest call start form) (typeTest call' start form) := by
  unfold typeTest
  grind -funext

@[grind ←]
lemma restores_operation? (above start : Nat) (lhs : ExprId) :
    Restores env ceiling (operation? call above start lhs) (operation? call' above start lhs) := by
  refine .bind restores_operatorKind fun k => ?_
  split <;> grind -funext

@[grind ←]
lemma restores_binary (above : Nat) :
    Restores env ceiling (binary call above) (binary call' above) := by
  refine .nested h.maxDepth restores_errorExpr (.bind restores_start fun start => ?_)
  refine .bind (restores_unary h) fun operand => .loop (fun lhs => ?_) operand
  refine .bind (restores_operation? h above start lhs) fun operation => ?_
  grind

@[grind ←]
lemma restores_statement :
    Restores env ceiling (statement call) (statement call') := by
  refine .bind restores_start fun start => .bind (restores_binary h _) fun target => ?_
  refine .bind restores_operatorKind fun k => ?_
  unfold isAssignable exprSpan
  grind -funext

@[grind ←]
lemma restores_expression :
    Restores env ceiling (expression call) (expression call') := by
  refine .bind restores_start fun start => .bind (restores_binary h _) fun target => ?_
  refine .bind restores_operatorKind fun k => ?_
  grind -funext

/-! ## Parts of declarations -/

@[grind ←]
lemma restores_annotation :
    Restores env ceiling ( annotation call) ( annotation call') := by
  refine .bind restores_start fun start => .bind restores_advance fun _ => ?_
  refine .bind restores_dottedName fun path => .bind (.view _) fun hasArgs => ?_
  grind -funext

@[grind ←]
lemma restores_param :
    Restores env ceiling (param call) (param call') := by
  refine .bind restores_start fun start => .bind (restores_modifiers _) fun _ => ?_
  refine .bind restores_kind fun k => ?_
  dsimp only
  split <;> grind -funext

@[grind ←]
lemma restores_params :
    Restores env ceiling (params call) (params call') := by
  unfold params
  grind -funext

@[grind ←]
lemma restores_bounds :
    Restores env ceiling (bounds call) (bounds call') := by
  unfold bounds
  grind -funext

@[grind ←]
lemma restores_constraints :
    Restores env ceiling (constraints call) (constraints call') := by
  unfold constraints
  grind -funext

@[grind ←]
lemma restores_supertypes :
    Restores env ceiling (supertypes call) (supertypes call') := by
  unfold supertypes
  grind -funext

@[grind ←]
lemma restores_body? :
    Restores env ceiling (body? call) (body? call') := by
  unfold body?
  grind -funext

/-! ## Declarations -/

@[grind ←]
lemma restores_function :
    Restores env ceiling (function call) (function call') := by
  refine .bind restores_advance fun _ => .bind restores_functionName fun name => ?_
  refine .bind restores_generics fun generics => .bind (restores_params h) fun params => ?_
  grind -funext

@[grind ←]
lemma restores_mainFunction :
    Restores env ceiling (mainFunction call) (mainFunction call') := by
  refine .bind restores_tokenSpan fun span => .bind (restores_name _ _) fun name => ?_
  refine .bind restores_advance fun _ => .bind (restores_params h) fun params => ?_
  grind -funext

@[grind ←]
lemma restores_macroBody :
    Restores env ceiling (macroBody call) (macroBody call') := by
  unfold macroBody
  grind -funext

@[grind ←]
lemma restores_macroDefinition :
    Restores env ceiling (macroDefinition call) (macroDefinition call') := by
  unfold macroDefinition
  grind -funext

@[grind ←]
lemma restores_varDecl (kind : VarKind) :
    Restores env ceiling (varDecl call kind) (varDecl call' kind) := by
  unfold varDecl
  grind -funext

@[grind ←]
lemma restores_typeAlias :
    Restores env ceiling (typeAlias call) (typeAlias call') := by
  unfold typeAlias
  grind -funext

@[grind ←]
lemma restores_members :
    Restores env ceiling (members call) (members call') := by
  unfold members membersRound
  grind -funext

@[grind ←]
lemma restores_memberBody (owner : Option String) :
    Restores env ceiling (memberBody call owner) (memberBody call' owner) := by
  unfold memberBody
  grind -funext

@[grind ←]
lemma restores_typeBody (kind : TypeDeclKind) :
    Restores env ceiling (typeBody call kind) (typeBody call' kind) := by
  refine .bind restores_advance fun _ => .bind restores_identifier fun name => ?_
  refine .bind restores_generics fun generics => ?_
  refine .bind (restores_supertypes h) fun types => ?_
  grind -funext

@[grind ←]
lemma restores_enumCase :
    Restores env ceiling (enumCase call) (enumCase call') := by
  unfold enumCase
  grind -funext

@[grind ←]
lemma restores_enumCases :
    Restores env ceiling (enumCases call) (enumCases call') := by
  unfold enumCases enumCasesRound
  grind -funext

@[grind ←]
lemma restores_enumType :
    Restores env ceiling (enumType call) (enumType call') := by
  refine .bind restores_advance fun _ => .bind restores_identifier fun name => ?_
  refine .bind restores_generics fun generics => ?_
  refine .bind (restores_supertypes h) fun types => ?_
  refine .bind (restores_constraints h) fun constraints => ?_
  refine .bind (restores_expect _) fun opened => ?_
  grind -funext

@[grind ←]
lemma restores_extension :
    Restores env ceiling (extension call) (extension call') := by
  refine .bind restores_advance fun _ => .bind restores_generics fun generics => ?_
  refine .bind (h.calls _) fun target => .bind (restores_supertypes h) fun types => ?_
  grind -funext

@[grind ←]
lemma restores_foreignBlock :
    Restores env ceiling (foreignBlock call) (foreignBlock call') := by
  unfold foreignBlock
  grind -funext

@[grind ←]
lemma restores_accessors :
    Restores env ceiling (accessors call) (accessors call') := by
  have round (a : Accessors) :
      Restores env ceiling (accessorsRound call a) (accessorsRound call' a) := by
    refine .bind restores_kind fun k => ?_
    split
    · exact .pure _
    · refine .bind (.view _) fun atGet => ?_
      unfold atWord
      grind -funext
  exact .loop round {}

@[grind ←]
lemma restores_property :
    Restores env ceiling (property call) (property call') := by
  refine .bind restores_advance fun _ => .bind restores_identifier fun name => ?_
  refine .bind (restores_require _) fun _ => .bind (h.calls _) fun type => ?_
  grind -funext

@[grind ←]
lemma restores_initializer (kind : InitKind) (name : Option Name) :
    Restores env ceiling (initializer call kind name) (initializer call' kind name) := by
  unfold initializer
  grind -funext

@[grind ←]
lemma restores_declarationForm (place : DeclPlace) (modifiers : Modifiers) :
    Restores env ceiling (declarationForm call place modifiers)
      (declarationForm call' place modifiers) := by
  unfold declarationForm
  grind -funext

@[grind ←]
lemma restores_annotations :
    Restores env ceiling (annotations call) (annotations call') := by
  unfold annotations annotationsRound
  grind -funext

@[grind ←]
lemma restores_declaration (place : DeclPlace) :
    Restores env ceiling (declaration call place) (declaration call' place) := by
  unfold declaration
  grind -funext

/-! ## Files -/

@[grind ←]
lemma restores_importPaths (leading : List Name) :
    Restores env ceiling (importPaths call leading) (importPaths call' leading) := by
  refine .bind restores_start fun start => .bind restores_dottedName fun path => ?_
  refine .bind (.view _) fun next => ?_
  grind -funext

@[grind ←]
lemma restores_importDecl :
    Restores env ceiling (importDecl call) (importDecl call') := by
  unfold importDecl
  grind -funext

@[grind ←]
lemma restores_placeDeclaration (tree : FileTree) :
    Restores env ceiling (placeDeclaration call tree) (placeDeclaration call' tree) := by
  unfold placeDeclaration
  grind -funext

@[grind ←]
lemma restores_placeItem (tree : FileTree) :
    Restores env ceiling (placeItem call tree) (placeItem call' tree) := by
  unfold placeItem
  grind -funext

@[grind ←]
lemma restores_file :
    Restores env ceiling (file call) (file call') := by
  unfold file fileRound
  grind -funext

end Rule

end CangjieSyntax
