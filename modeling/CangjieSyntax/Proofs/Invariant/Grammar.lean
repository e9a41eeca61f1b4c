import CangjieSyntax.Parse
import CangjieSyntax.Proofs.Invariant.Rule

/-!
# What the rules of the grammar preserve
-/

namespace CangjieSyntax.Rule

open ExprForm (IsLink IsOperand IsPlain IsPrimary)

variable {env : Env} {I : Invariant env} {call : Call} {α : Type} {s : ParseState}

/-! ## Types -/

@[grind ←]
lemma preserves_errorType (span : Span) : Preserves I (errorType span) := by
  unfold errorType
  grind

section

variable (htype : Preserves I (call .type))

include htype

@[grind ←]
lemma preserves_typeArguments : Preserves I (typeArguments call) := by
  unfold typeArguments
  grind

@[grind ←]
lemma preserves_fittingArguments? : Preserves I (fittingArguments? call) := by
  unfold fittingArguments?
  grind

@[grind ←]
lemma preserves_typeElements : Preserves I (typeElements call) := by
  unfold typeElements typeElementsRound
  grind

@[grind ←]
lemma preserves_parenType : Preserves I (parenType call) := by
  unfold parenType
  grind

/-- A path outside the place of a value opens no attempt. -/
@[grind ←]
lemma preserves_pathType : Preserves I (namedType call false) := by
  unfold namedType
  have round (segments : List PathSegment) : Preserves I (segmentsRound call false segments) := by
    unfold segmentsRound
    grind
  grind

@[grind ←]
lemma preserves_plainType : Preserves I (plainType call) := by
  unfold plainType
  grind

@[grind ←]
lemma preserves_type : Preserves I (type call) := by
  unfold type
  grind

@[grind ←]
lemma preserves_typeBehind (k : Kind) : Preserves I (typeBehind call k) := by
  unfold typeBehind
  grind

end

/-! ## Type arguments in the place of a value -/

section

variable (hI : I.Settled) (htype : ∀ K : Invariant env, Preserves K (call .type))

include hI htype

@[grind ←]
lemma preserves_typeArguments? : Preserves I (typeArguments? call) := by
  refine .read <| .bind (.view _) fun candidate => ?_
  split
  · exact .pure []
  · refine .bind preserves_tokenSpan fun opening => ?_
    have body (K : Invariant env) := preserves_fittingArguments? (htype K)
    refine .bind (preserves_attempt hI body) fun result => ?_
    cases result with
    | committed args => exact .pure args
    | rewound =>
      exact .bind (.turn hI (fun s => .remember s opening.start) fun _ => rfl) fun _ => .pure []
    | exhausted => grind

@[grind ←]
lemma preserves_namedType (inValue : Bool) : Preserves I (namedType call inValue) := by
  unfold namedType
  have round (segments : List PathSegment) : Preserves I (segmentsRound call inValue segments) := by
    unfold segmentsRound
    grind
  grind

@[grind ←]
lemma preserves_typeOperand : Preserves I (typeOperand call) := by
  unfold typeOperand
  grind

end

/-! ## Recovery and blocks -/

section

variable (hI : I.Settled)

include hI

@[grind ←]
lemma makes_expressionExpected : Makes I IsPrimary expressionExpected := by
  refine fun s hs => .view (.reportAt (.view ?_))
  split
  · exact ensures_faulty hI hs _ _ _ false
  · exact ensures_faulty hI hs _ _ _ true

omit hI in
@[grind ←]
lemma preserves_atStatementEnd (stop : Kind → Bool) : Preserves I (atStatementEnd stop) := by
  unfold atStatementEnd
  grind

omit hI in
@[grind ←]
lemma preserves_separatorExpected : Preserves I separatorExpected := by
  unfold separatorExpected
  grind

@[grind ←]
lemma preserves_unmute : Preserves I unmute :=
  .turn hI (fun s => .unmute s) fun _ => rfl

@[grind ←]
lemma preserves_skipStatement (must : Bool) : Preserves I (skipStatement must) := by
  unfold skipStatement skipStatementRound
  grind

@[grind ←]
lemma preserves_skipDeclaration (must : Bool) : Preserves I (skipDeclaration must) := by
  unfold skipDeclaration skipDeclarationRound
  grind

@[grind ←]
lemma preserves_endItem (start errors : Nat) (stop : Kind → Bool) :
    Preserves I (endItem start errors stop) := by
  unfold endItem
  grind

end

variable (hI : I.Settled) (hcall : ∀ {α : Type} (g : Nonterminal α), Preserves I (call g))

include hI hcall

lemma preserves_nestedItem :
    Preserves I (nested (fun span => return .expr (← errorExpr span)) (call .blockItem)) := by
  intro s hs
  refine (ensures_nested (P := fun _ _ => True) hs (fun _ _ _ => id) (fun span u e hu => ?_)
    fun u hu => (hcall .blockItem u hu).mono fun _ _ ht => ⟨ht, trivial⟩).mono fun _ _ => And.left
  have hsilent : u.Silent span.start := e ▸ ParseState.silent_reportDepth (hI.tentative hs) _ _ _
  exact (ensures_errorExpr hI hu hsilent).bind fun id t ht => .pure ⟨ht.1, trivial⟩

@[grind ←]
lemma preserves_items (stop : Kind → Bool) : Preserves I (items call stop) := by
  have nestedItem := preserves_nestedItem hI hcall
  unfold items itemsRound
  grind

@[grind ←]
lemma preserves_allItems : Preserves I (allItems call) := by
  unfold allItems
  grind

@[grind ←]
lemma preserves_block : Preserves I (block call) := by
  unfold block
  grind

omit hI in
@[grind ←]
lemma preserves_blockItem : Preserves I (blockItem call) := by
  unfold blockItem atLocalDeclaration
  grind

/-! ## Literals, lists and lambdas -/

omit hcall in
@[grind ←]
lemma makes_tokenExpr {form : ExprForm} (h : form.IsPlain) (hform : form.IsPrimary) :
    Makes I IsPrimary (tokenExpr form) := by
  unfold tokenExpr
  grind

omit hcall in
@[grind ←]
lemma makes_literal : Makes I IsPrimary literal := by
  unfold literal
  grind

@[grind ←]
lemma preserves_hole : Preserves I (hole call) := by
  unfold hole
  grind

@[grind ←]
lemma preserves_stringRound (parts : List StringPart) : Preserves I (stringRound call parts) := by
  unfold stringRound
  grind

@[grind ←]
lemma makes_string : Makes I IsPrimary (string call) := by
  unfold string
  grind

omit hI hcall in
@[grind ←]
lemma preserves_find (f : Nodes → Option α) : Preserves I (find f) := by
  intro s hs a t e
  obtain ⟨a, -, e⟩ := Option.map_eq_some_iff.1 e
  cases e
  exact ⟨hs, .refl _⟩

omit hI hcall in
@[grind ←]
lemma preserves_exprToTypeTo (depth : Nat) (id : ExprId) : Preserves I (exprToTypeTo depth id) := by
  induction depth generalizing id with
  | zero => exact .endless
  | succ depth ih =>
    unfold exprToTypeTo exprSpan exprPath? notAType
    grind

omit hI hcall in
@[grind ←]
lemma preserves_elementsToTypes (elements : List (Option Name × ExprId)) :
    Preserves I (elementsToTypes elements) := by
  unfold elementsToTypes exprToType
  grind

@[grind ←]
lemma makes_functionType (start : Nat) (elements : List (Option Name × ExprId)) :
    Makes I IsPrimary (functionType call start elements) := by
  unfold functionType
  grind

@[grind ←]
lemma preserves_parenElement : Preserves I (parenElement call) := by
  unfold parenElement
  grind

@[grind ←]
lemma preserves_parenElementsRound (state : List (Option Name × ExprId) × Bool) :
    Preserves I (parenElementsRound call state) := by
  unfold parenElementsRound
  grind

@[grind ←]
lemma preserves_parenElements : Preserves I (parenElements call) := by
  unfold parenElements
  grind

omit hI hcall in
@[grind ←]
lemma isPlain_parenForm (elements : List (Option Name × ExprId)) (trailingComma : Bool) :
    (parenForm elements trailingComma).IsPlain := by
  unfold parenForm
  grind

omit hI hcall in
@[grind ←]
lemma isPrimary_parenForm (elements : List (Option Name × ExprId)) (trailingComma : Bool) :
    (parenForm elements trailingComma).IsPrimary := by
  unfold parenForm
  grind

@[grind ←]
lemma makes_parenthesized : Makes I IsPrimary (parenthesized call) := by
  refine .bind preserves_start fun start => .bind preserves_advance fun _ => ?_
  refine .bind (preserves_optional _) fun empty => ?_
  split
  · grind
  · refine .bind (preserves_parenElements hI hcall) fun (elements, trailingComma) => ?_
    grind

@[grind ←]
lemma preserves_arrayElement : Preserves I (arrayElement call) := by
  unfold arrayElement
  grind

@[grind ←]
lemma makes_array : Makes I IsPrimary (array call) := by
  unfold array
  grind

omit hI hcall in
@[grind ←]
lemma preserves_lambdaParamsRound (htype : Preserves I (call .type)) (params : List LambdaParam) :
    Preserves I (lambdaParamsRound call params) := by
  unfold lambdaParamsRound
  grind

omit hI hcall in
@[grind ←]
lemma preserves_lambdaParams? (htype : Preserves I (call .type)) :
    Preserves I (lambdaParams? call) := by
  unfold lambdaParams?
  grind

variable (htype : ∀ K : Invariant env, Preserves K (call .type))

include htype in
@[grind ←]
lemma makes_lambda (needsArrow : Bool) : Makes I IsPrimary (lambda call needsArrow) := by
  refine .bind preserves_start fun start => .bind preserves_advance fun _ => ?_
  refine .bind (preserves_attempt hI fun K => preserves_lambdaParams? (htype K)) fun result => ?_
  grind

/-! ## Patterns -/

omit hI hcall in
@[grind ←]
lemma preserves_refutablePattern (place : PatternPlace) (form : PatternForm) (span : Span) :
    Preserves I (refutablePattern place form span) := by
  unfold refutablePattern invalidPattern errorPattern
  grind

omit hI in
@[grind ←]
lemma preserves_patternTypes (place : PatternPlace) : Preserves I (patternTypes call place) := by
  unfold patternTypes
  grind

omit hI in
@[grind ←]
lemma preserves_wildcardPattern (place : PatternPlace) :
    Preserves I (wildcardPattern call place) := by
  unfold wildcardPattern
  grind

omit hI in
@[grind ←]
lemma preserves_constantPattern (place : PatternPlace) :
    Preserves I (constantPattern call place) := by
  unfold constantPattern
  grind

omit hI in
@[grind ←]
lemma preserves_patternElementsRound (place : PatternPlace) (state : List PatternId × Bool) :
    Preserves I (patternElementsRound call place state) := by
  unfold patternElementsRound
  grind

omit hI in
@[grind ←]
lemma preserves_patternElements (place : PatternPlace) :
    Preserves I (patternElements call place) := by
  unfold patternElements
  grind

@[grind ←]
lemma preserves_tuplePattern (place : PatternPlace) : Preserves I (tuplePattern call place) := by
  unfold tuplePattern invalidPattern errorPattern
  grind

omit hI in
@[grind ←]
lemma preserves_variantPattern (place : PatternPlace) (start : Nat) (path : List Name)
    (typeArgs : List TypeId) : Preserves I (variantPattern call place start path typeArgs) := by
  unfold variantPattern
  grind

omit hI in
@[grind ←]
lemma preserves_namePattern (place : PatternPlace) : Preserves I (namePattern call place) := by
  refine .bind preserves_start fun start => .bind preserves_dottedName fun path => ?_
  refine .bind (.view _) fun opensArgs => ?_
  grind

@[grind ←]
lemma preserves_singlePattern (place : PatternPlace) : Preserves I (singlePattern call place) := by
  unfold singlePattern errorPattern
  grind

@[grind ←]
lemma preserves_alternativesRound (place : PatternPlace) (rest : List PatternId) :
    Preserves I (alternativesRound call place rest) := by
  unfold alternativesRound
  grind

@[grind ←]
lemma preserves_plainPattern (place : PatternPlace) : Preserves I (plainPattern call place) := by
  refine .bind preserves_start fun start => ?_
  refine .bind (preserves_singlePattern hI hcall place) fun first => ?_
  unfold patternNodes invalidPattern errorPattern
  grind

@[grind ←]
lemma preserves_pattern (place : PatternPlace) : Preserves I (pattern call place) := by
  unfold pattern errorPattern
  grind

/-! ## Control flow -/

omit hI in
@[grind ←]
lemma preserves_condition : Preserves I (condition call) := by
  unfold condition
  grind

omit hI hcall in
@[grind ←]
lemma preserves_inParens {inner : Rule α} (h : Preserves I inner) :
    Preserves I (inParens inner) := by
  unfold inParens
  grind

omit hI hcall in
@[grind ←]
lemma preserves_inParens? {inner : Rule α} (h : Preserves I inner) :
    Preserves I (inParens? inner) := by
  unfold inParens?
  grind

@[grind ←]
lemma makes_ifThen : Makes I IsPrimary (ifThen call) := by
  refine .bind preserves_start fun start => .bind preserves_advance fun _ => ?_
  refine .bind (preserves_inParens (preserves_condition hcall)) fun condition => ?_
  refine .bind (preserves_block hI hcall) fun body => ?_
  grind

@[grind ←]
lemma preserves_matchArm (hasSelector : Bool) : Preserves I (matchArm call hasSelector) := by
  refine .bind preserves_start fun start => .bind preserves_advance fun _ => ?_
  have rest (test : CaseTest) : Preserves I (do
      let guard ← behind (.keyword .kwWhere) (call .expression)
      require (.mark .fatArrow)
      let bodyStart ← Rule.start
      let items ← items call (· == .keyword .kwCase)
      let bodySpan ← spanFrom bodyStart
      return { test, guard, body := ⟨items, bodySpan⟩, span := ← spanFrom start : MatchArm }) := by
    grind
  split
  · exact .bind (hcall _) fun id => rest (.pattern id)
  · exact .bind (hcall _) fun id => rest (.condition id)

@[grind ←]
lemma preserves_matchArmsRound (hasSelector : Bool) (state : List MatchArm × Bool) :
    Preserves I (matchArmsRound call hasSelector state) := by
  unfold matchArmsRound
  grind

@[grind ←]
lemma preserves_matchArms (hasSelector : Bool) : Preserves I (matchArms call hasSelector) := by
  unfold matchArms
  grind

@[grind ←]
lemma makes_matchCases : Makes I IsPrimary (matchCases call) := by
  unfold matchCases
  grind

@[grind ←]
lemma makes_forIn : Makes I IsPrimary (forIn call) := by
  refine .bind preserves_start fun start => .bind preserves_advance fun _ => ?_
  refine .bind (preserves_inParens ?_) fun (pattern, iterable, guard) => ?_
  · grind
  · grind

@[grind ←]
lemma makes_whileLoop : Makes I IsPrimary (whileLoop call) := by
  unfold whileLoop
  grind

@[grind ←]
lemma makes_doWhile : Makes I IsPrimary (doWhile call) := by
  unfold doWhile
  grind

omit hI in
@[grind ←]
lemma preserves_tryResource : Preserves I (tryResource call) := by
  unfold tryResource
  grind

@[grind ←]
lemma preserves_catchClausesRound (catches : List CatchClause) :
    Preserves I (catchClausesRound call catches) := by
  unfold catchClausesRound
  grind

@[grind ←]
lemma preserves_catchClauses : Preserves I (catchClauses call) := by
  unfold catchClauses
  grind

@[grind ←]
lemma makes_tryCatch : Makes I IsPrimary (tryCatch call) := by
  refine .bind preserves_start fun start => .bind preserves_advance fun _ => ?_
  refine .bind (preserves_inParens? ?_) fun resources => ?_
  · exact preserves_list _ (preserves_tryResource hcall)
  · refine .bind (preserves_block hI hcall) fun body => ?_
    refine .bind (preserves_catchClauses hI hcall) fun catches => ?_
    refine .bind (preserves_behind _ (preserves_block hI hcall)) fun finalBody => ?_
    have whole : Makes I IsPrimary
        (exprFrom start (.tryCatch (resources.getD []) body catches finalBody)) :=
      makes_exprFrom_plain hI (by grind) (by grind) start
    grind

@[grind ←]
lemma makes_spawn : Makes I IsPrimary (spawn call) := by
  refine .bind preserves_start fun start => .bind preserves_advance fun _ => ?_
  refine .bind (preserves_inParens? (hcall _)) fun context => ?_
  refine .bind preserves_start fun bodyStart => .bind (preserves_expect _) fun opened => ?_
  grind

@[grind ←]
lemma makes_synchronized : Makes I IsPrimary (synchronized call) := by
  unfold synchronized
  grind

@[grind ←]
lemma makes_unsafeBlock : Makes I IsPrimary (unsafeBlock call) := by
  unfold unsafeBlock
  grind

@[grind ←]
lemma makes_throwValue : Makes I IsPrimary (throwValue call) := by
  unfold throwValue
  grind

@[grind ←]
lemma makes_returnValue : Makes I IsPrimary (returnValue call) := by
  unfold returnValue
  grind

/-! ## Quoted code and macro calls -/

omit hcall in
@[grind ←]
lemma preserves_nameSplice : Preserves I (nameSplice) := by
  unfold nameSplice
  grind

omit hI in
@[grind ←]
lemma preserves_exprSplice : Preserves I (exprSplice call) := by
  unfold exprSplice
  grind

omit hI hcall in
@[grind ←]
lemma preserves_keptToken (q : Quotation) (k : Kind) : Preserves I (keptToken q k) := by
  unfold keptToken
  grind

@[grind ←]
lemma preserves_quotePartsRound (q : Quotation) : Preserves I (quotePartsRound call q) := by
  unfold quotePartsRound
  grind

@[grind ←]
lemma preserves_quoteParts : Preserves I (quoteParts call) := by
  unfold quoteParts
  grind

lemma makes_quote (hquote : ∀ parts, I.Allows (.quote parts)) :
    Makes I IsPrimary (quote call) := by
  have whole (start : Nat) (parts : List QuotePart) :
      Makes I IsPrimary (exprFrom start (.quote parts)) :=
    .bind (preserves_spanFrom start) (makes_allocExpr (hquote parts) (by simp [IsPrimary]))
  unfold quote
  grind

omit hI hcall in
@[grind ←]
lemma preserves_balancedRound (opening closing : Punctuation) (innerStart depth : Nat) :
    Preserves I (balancedRound opening closing innerStart depth) := by
  unfold balancedRound
  grind

omit hI hcall in
@[grind ←]
lemma preserves_balanced (opening closing : Punctuation) :
    Preserves I (balanced opening closing) := by
  unfold balanced
  grind

omit hcall in
@[grind ←]
lemma makes_macroCall : Makes I IsPrimary (macroCall) := by
  refine .bind preserves_start fun start => .bind preserves_advance fun _ => ?_
  refine .bind preserves_dottedName fun name => .bind (.view _) fun hasAttributes => ?_
  grind

/-! ## Primary expressions -/

omit hcall in
@[grind ←]
lemma makes_strayDollar : Makes I IsPrimary (strayDollar) :=
  fun _ hs => .view (.view (ensures_faulty hI hs _ _ _ true))

@[grind ←]
lemma makes_typeValue : Makes I IsPrimary (typeValue call) := by
  unfold typeValue
  grind

lemma makesAt_keywordExpr (hquote : MakesAt I (.keyword .kwQuote) IsPrimary (quote call))
    (k : Keyword) : MakesAt I (.keyword k) IsPrimary (keywordExpr call k) := by
  unfold keywordExpr
  split
  case h_18 => exact hquote
  all_goals exact Makes.makesAt (by grind) _

include htype in
@[grind ←]
lemma makes_markExpr (p : Punctuation) : Makes I IsPrimary (markExpr call p) := by
  unfold markExpr
  split <;> grind

omit hcall in
include htype in
/-- A name is all that the invariant need not allow for by itself. -/
lemma makes_nameExpr (hallows : ∀ name typeArgs, I.Allows (.identifier name typeArgs)) :
    Makes I IsPrimary (nameExpr call) := by
  refine .bind preserves_start fun start => .bind preserves_identifier fun name => ?_
  refine .bind (preserves_typeArguments? hI htype) fun typeArgs => ?_
  refine .bind (preserves_spanFrom start) (makes_allocExpr (hallows name typeArgs) ?_)
  simp [IsPrimary]

include htype in
lemma makes_primary (hname : Makes I IsPrimary (nameExpr call))
    (hquote : MakesAt I (.keyword .kwQuote) IsPrimary (quote call)) :
    Makes I IsPrimary (primary call) := by
  refine fun s hs => .view ?_
  split
  case h_1 k hk => exact makesAt_keywordExpr hI hcall hquote k s hs hk
  all_goals exact (by grind : Makes I IsPrimary _) s hs

/-! ## Chains and steps -/

omit hI hcall in
@[grind ←]
lemma preserves_memberName : Preserves I (memberName) := by
  unfold memberName
  grind

omit hI in
@[grind ←]
lemma preserves_argument : Preserves I (argument call) := by
  unfold argument
  grind

@[grind ←]
lemma preserves_rangeTail (lower : Option ExprId) (start : Nat) :
    Preserves I (rangeTail call lower start) := by
  unfold rangeTail
  grind

section

variable (operand : ExprId) (start : Nat) (isOptional : Bool)

omit hcall in
include htype in
lemma builds_fieldLink :
    Builds I (IsLink operand isOptional) (fieldLink call operand start isOptional) := by
  refine .bind preserves_advance fun _ => .bind preserves_memberName fun name => ?_
  exact .bind (preserves_typeArguments? hI htype) fun _ => builds_exprFrom ⟨rfl, rfl⟩ start

omit hI in
lemma builds_callLink :
    Builds I (IsLink operand isOptional) (callLink call operand start isOptional) := by
  refine .bind preserves_advance fun _ => ?_
  refine .bind (preserves_list _ (preserves_argument hcall)) fun args => ?_
  exact .bind (preserves_require _) fun _ => builds_exprFrom ⟨rfl, rfl⟩ start

lemma builds_indexLink :
    Builds I (IsLink operand isOptional) (indexLink call operand start isOptional) := by
  refine .bind preserves_advance fun _ => .bind preserves_kind fun k => ?_
  extract_lets rest
  have hrest (index : ExprId) : Builds I (IsLink operand isOptional) (rest index) :=
    .bind (preserves_require _) fun _ => builds_exprFrom ⟨rfl, rfl⟩ start
  clear_value rest
  split
  · exact .bind preserves_start fun here => .bind (preserves_rangeTail hI hcall none here) hrest
  · exact .bind (hcall _) hrest

include htype in
lemma builds_lambdaLink :
    Builds I (IsLink operand isOptional) (lambdaLink call operand start isOptional) :=
  .bind (makes_lambda hI hcall htype false).preserves fun _ => builds_exprFrom ⟨rfl, rfl⟩ start

include htype in
/-- Whatever link stands behind an operand is built from it. -/
lemma builds_link? {sameLine : Bool} {k : Kind} {r : Rule ExprId}
    (hlink : link? call operand start isOptional sameLine k = some r) :
    Builds I (IsLink operand isOptional) r := by
  unfold link? at hlink
  split at hlink
  · cases hlink
    exact builds_fieldLink hI htype operand start isOptional
  · split at hlink <;> cases hlink
    exact builds_callLink hcall operand start isOptional
  · split at hlink <;> cases hlink
    exact builds_indexLink hI hcall operand start isOptional
  · split at hlink <;> cases hlink
    exact builds_lambdaLink hI hcall htype operand start isOptional
  · exact nomatch hlink

end

section

variable (hchained : ∀ form : ExprForm, form.isChained = true → I.Allows form)

include htype hchained

/-- The links of a chain are operands, and so is what they start with. -/
lemma ensures_chainRound (start : Nat) (state : ExprId × Bool) (hs : I.holds s)
    (hoperand : s.nodes.Has state.1 IsOperand) :
    Ensures env s (chainRound call start state) fun next t =>
      I.Reaches s t ∧ t.nodes.Has (next.elim Prod.fst id) IsOperand := by
  obtain ⟨operand, hasOptional⟩ := state
  refine (Preserves.view _ s hs).bind fun isOptional t ht => ?_
  extract_lets isChain rest
  have hrest (u : ParseState) (hu : I.Reaches s u) : Ensures env u (rest ()) fun next v =>
      I.Reaches s v ∧ v.nodes.Has (next.elim Prod.fst id) IsOperand := by
    refine .view (.view ?_)
    split
    case h_1 r hlink =>
      have hbuilds := builds_link? hI hcall htype operand start isOptional hlink
      have hr : Makes I IsOperand r :=
        (hbuilds.makes fun form hform => hchained form hform.isChained).mono
          fun form hform => hform.isOperand
      exact (hr u hu.holds).bind fun id v hv => .pure ⟨hu.trans hv.1, hv.2⟩
    case h_2 =>
      split
      · have whole : Makes I IsOperand (exprFrom start (.optionalChain operand)) := by
          have hform : (ExprForm.optionalChain operand).IsOperand := by simp [IsOperand]
          exact .bind (preserves_spanFrom start) (makes_allocExpr (hchained _ rfl) hform)
        exact (whole u hu.holds).bind fun id v hv => .pure ⟨hu.trans hv.1, hv.2⟩
      · exact .pure ⟨hu, hu.has hoperand⟩
  clear_value rest
  split
  · exact (preserves_advance t ht.holds).bind fun _ u hu => hrest u (ht.trans hu)
  · exact hrest t ht

/-- A chain whose first operand has been read is read to its end. -/
lemma ensures_chainRounds (start : Nat) (operand : ExprId) (hasOptional : Bool) (hs : I.holds s)
    (hoperand : s.nodes.Has operand IsOperand) :
    Ensures env s (loop (chainRound call start) (operand, hasOptional)) fun id t =>
      I.Reaches s t ∧ t.nodes.Has id IsOperand := by
  refine Ensures.loop_invariant (R := fun state t => I.Reaches s t ∧ t.nodes.Has state.1 IsOperand)
    (fun state t ht => ?_) ⟨.refl hs, hoperand⟩
  refine (ensures_chainRound hI hcall htype hchained start state ht.1.holds ht.2).mono ?_
  intro next u hu
  cases next <;> exact ⟨ht.1.trans hu.1, hu.2⟩

/-- From what it starts with on, a chain is an operand. The invariant need not hold in front of
it. -/
lemma ensures_chain (h : Ensures env s (primary call) fun id t =>
      I.Reaches s t ∧ t.nodes.Has id IsOperand) :
    Ensures env s (chain call) fun id t => I.Reaches s t ∧ t.nodes.Has id IsOperand := by
  refine .view (h.bind fun operand t ht => ?_)
  refine (ensures_chainRounds hI hcall htype hchained s.start operand false ht.1.holds ht.2).mono ?_
  exact fun id u hu => ⟨ht.1.trans hu.1, hu.2⟩

lemma makes_chain (hname : Makes I IsPrimary (nameExpr call))
    (hquote : MakesAt I (.keyword .kwQuote) IsPrimary (quote call)) :
    Makes I IsOperand (chain call) := by
  have hprimary := (makes_primary hI hcall htype hname hquote).mono fun form hform => hform.isOperand
  exact fun s hs => ensures_chain hI hcall htype hchained (hprimary s hs)

end

omit hcall in
lemma ensures_stepsRounds (start : Nat) (operand : ExprId) (hs : I.holds s)
    (hoperand : s.nodes.Has operand IsOperand) :
    Ensures env s (loop (stepsRound start) operand) fun id t =>
      I.Reaches s t ∧ t.nodes.Has id IsOperand := by
  refine Ensures.loop_invariant
    (R := fun operand t => I.Reaches s t ∧ t.nodes.Has operand IsOperand)
    (fun operand t ht => .view (.view ?_)) ⟨.refl hs, hoperand⟩
  split
  case h_1 op _ _ =>
    have whole : Makes I IsOperand (exprFrom start (.step op operand)) := by grind
    refine (preserves_advance t ht.1.holds).bind fun _ u hu => ?_
    exact (whole u hu.holds).bind fun id v hv => .pure ⟨(ht.1.trans hu).trans hv.1, hv.2⟩
  case h_2 => exact .pure ht

omit hcall in
/-- From a chain on, the operators behind it leave it an operand. The invariant need not hold in
front of it. -/
lemma ensures_steps (h : Ensures env s (chain call) fun id t =>
      I.Reaches s t ∧ t.nodes.Has id IsOperand) :
    Ensures env s (steps call) fun id t => I.Reaches s t ∧ t.nodes.Has id IsOperand := by
  refine .view (h.bind fun operand t ht => ?_)
  refine (ensures_stepsRounds hI s.start operand ht.1.holds ht.2).mono ?_
  exact fun id u hu => ⟨ht.1.trans hu.1, hu.2⟩

omit hcall in
lemma makes_steps (hchain : Makes I IsOperand (chain call)) : Makes I IsOperand (steps call) :=
  fun s hs => ensures_steps hI (hchain s hs)

omit hcall in
lemma preserves_steps (hchain : Preserves I (chain call)) : Preserves I (steps call) := by
  refine .bind preserves_start fun start => .bind hchain fun operand => ?_
  refine .loop (fun operand => ?_) operand
  refine .bind preserves_kind fun k => .bind preserves_lineBreakBefore fun breaks => ?_
  split <;> grind

/-! ## Operators -/

omit hcall in
include htype in
lemma makes_typeTest (start : Nat) {form : TypeId → ExprForm}
    (hform : ∀ type, (form type).IsPlain) : Makes I IsPlain (typeTest call start form) := by
  refine .bind preserves_advance fun _ => .bind (preserves_typeOperand hI htype) fun type => ?_
  exact makes_exprFrom_plain hI (hform type) (hform type) start

section

variable (hunary : ∀ (op : UnaryOp) operand, I.Allows (.unary op operand op.precedence))
  (hbinary : ∀ (op : BinaryOp) lhs rhs, I.Allows (.binary op lhs rhs op.precedence))

include hunary

lemma preserves_unary (hchain : Preserves I (chain call)) : Preserves I (unary call) := by
  have steps := preserves_steps hI hchain
  have operation (op : UnaryOp) (operand : ExprId) (start : Nat) :
      Preserves I (exprFrom start (.unary op operand op.precedence)) :=
    preserves_exprFrom (hunary op operand) start
  clear hunary
  refine .bind preserves_kind fun k => ?_
  split
  · grind
  · exact steps

include htype hbinary

omit hunary in
lemma preserves_operation? (above start : Nat) (lhs : ExprId) :
    Preserves I (operation? call above start lhs) := by
  have operation (op : BinaryOp) (rhs : ExprId) :
      Preserves I (exprFrom start (.binary op lhs rhs op.precedence)) :=
    preserves_exprFrom (hbinary op lhs rhs) start
  clear hbinary
  have test {form : TypeId → ExprForm} (h : ∀ type, (form type).IsPlain) :
      Preserves I (typeTest call start form) := (makes_typeTest hI htype start h).preserves
  refine .bind (preserves_operatorKind hI) fun k => ?_
  split <;> grind

omit hunary in
/-- The operations behind an operand, in front of which the invariant need not hold. -/
lemma ensures_operations (above : Nat) (h : Ensures env s (unary call) fun _ t => I.Reaches s t) :
    Ensures env s (do
      let start ← Rule.start
      let operand ← unary call
      loop (operationRound call above start) operand) fun _ t => I.Reaches s t := by
  refine .view (h.bind fun operand t ht => ?_)
  have rounds : Preserves I (loop (operationRound call above s.start) operand) := by
    have operation := preserves_operation? hI hcall htype hbinary above s.start
    unfold operationRound
    grind
  exact (rounds t ht.holds).mono fun _ _ hu => ht.trans hu

lemma preserves_binary (hchain : Preserves I (chain call)) (above : Nat) :
    Preserves I (binary call above) :=
  preserves_nested_errorExpr hI fun s hs =>
    ensures_operations hI hcall htype hbinary above (preserves_unary hI hcall hunary hchain s hs)

end

/-! ## Parts of declarations -/

omit hI hcall in
@[grind ←]
lemma preserves_modifiers (disallowed : List Modifier) : Preserves I (modifiers disallowed) := by
  unfold modifiers modifiersRound
  grind

omit hI in
@[grind ←]
lemma preserves_annotation : Preserves I ( annotation call) := by
  refine .bind preserves_start fun start => .bind preserves_advance fun _ => ?_
  refine .bind preserves_dottedName fun path => .bind (.view _) fun hasArgs => ?_
  grind

omit hI hcall in
@[grind ←]
lemma preserves_generics : Preserves I (generics) := by
  unfold generics
  grind

omit hI hcall in
@[grind ←]
lemma preserves_paramName : Preserves I (paramName) := by
  unfold paramName
  grind

omit hI in
@[grind ←]
lemma preserves_param : Preserves I (param call) := by
  have rest (start : Nat) (member : Option VarKind) : Preserves I (do
      let name ← paramName
      let named ← optional (.mark .bang)
      require (.mark .colon)
      let type ← call .type
      let default ← behind (.mark .equals) (call .expression)
      return { name, named, member, type, default, span := ← spanFrom start : Param }) := by
    grind
  refine .bind preserves_start fun start => .bind (preserves_modifiers _) fun _ => ?_
  refine .bind preserves_kind fun k => ?_
  dsimp only
  split
  · exact .bind preserves_advance fun _ => rest start _
  · exact rest start _

omit hI in
@[grind ←]
lemma preserves_params : Preserves I (params call) := by
  unfold params
  grind

omit hI in
@[grind ←]
lemma preserves_bounds : Preserves I (bounds call) := by
  unfold bounds
  grind

omit hI in
@[grind ←]
lemma preserves_constraints : Preserves I (constraints call) := by
  unfold constraints
  grind

omit hI in
@[grind ←]
lemma preserves_supertypes : Preserves I (supertypes call) := by
  unfold supertypes
  grind

@[grind ←]
lemma preserves_body? : Preserves I (body? call) := by
  unfold body?
  grind

omit hcall in
@[grind ←]
lemma preserves_operatorName? : Preserves I (operatorName?) := by
  unfold operatorName?
  grind

omit hcall in
@[grind ←]
lemma preserves_functionName : Preserves I (functionName) := by
  unfold functionName
  grind

/-! ## Declarations -/

@[grind ←]
lemma preserves_function : Preserves I (function call) := by
  refine .bind preserves_advance fun _ => .bind (preserves_functionName hI) fun name => ?_
  refine .bind preserves_generics fun generics => .bind (preserves_params hcall) fun params => ?_
  grind

@[grind ←]
lemma preserves_mainFunction : Preserves I (mainFunction call) := by
  refine .bind preserves_tokenSpan fun span => .bind (preserves_name _ _) fun name => ?_
  refine .bind preserves_advance fun _ => .bind (preserves_params hcall) fun params => ?_
  grind

@[grind ←]
lemma preserves_macroBody : Preserves I (macroBody call) := by
  unfold macroBody
  grind

@[grind ←]
lemma preserves_macroDefinition : Preserves I (macroDefinition call) := by
  unfold macroDefinition
  grind

omit hI in
@[grind ←]
lemma preserves_varDecl (kind : VarKind) : Preserves I (varDecl call kind) := by
  unfold varDecl
  grind

omit hI in
@[grind ←]
lemma preserves_typeAlias : Preserves I (typeAlias call) := by
  unfold typeAlias
  grind

@[grind ←]
lemma preserves_membersRound (members : List DeclId) : Preserves I (membersRound call members) := by
  unfold membersRound
  grind

@[grind ←]
lemma preserves_members : Preserves I (members call) := by
  unfold members
  grind

@[grind ←]
lemma preserves_memberBody (owner : Option String) : Preserves I (memberBody call owner) := by
  unfold memberBody
  grind

@[grind ←]
lemma preserves_typeBody (kind : TypeDeclKind) : Preserves I (typeBody call kind) := by
  refine .bind preserves_advance fun _ => .bind preserves_identifier fun name => ?_
  refine .bind preserves_generics fun generics => .bind (preserves_supertypes hcall) fun types => ?_
  grind

omit hI in
@[grind ←]
lemma preserves_enumCase : Preserves I (enumCase call) := by
  unfold enumCase
  grind

omit hI in
@[grind ←]
lemma preserves_enumCasesRound (state : List EnumCase × Bool) :
    Preserves I (enumCasesRound call state) := by
  unfold enumCasesRound
  grind

omit hI in
@[grind ←]
lemma preserves_enumCases : Preserves I (enumCases call) := by
  unfold enumCases
  grind

@[grind ←]
lemma preserves_enumType : Preserves I (enumType call) := by
  refine .bind preserves_advance fun _ => .bind preserves_identifier fun name => ?_
  refine .bind preserves_generics fun generics => .bind (preserves_supertypes hcall) fun types => ?_
  refine .bind (preserves_constraints hcall) fun constraints => ?_
  refine .bind (preserves_expect _) fun opened => ?_
  grind

@[grind ←]
lemma preserves_extension : Preserves I (extension call) := by
  refine .bind preserves_advance fun _ => .bind preserves_generics fun generics => ?_
  refine .bind (hcall _) fun target => .bind (preserves_supertypes hcall) fun types => ?_
  grind

@[grind ←]
lemma preserves_foreignBlock : Preserves I (foreignBlock call) := by
  unfold foreignBlock
  grind

@[grind ←]
lemma preserves_accessorsRound (a : Accessors) : Preserves I (accessorsRound call a) := by
  refine .bind preserves_kind fun k => ?_
  split
  · exact .pure _
  · refine .bind (.view _) fun atGet => ?_
    unfold atWord
    grind

@[grind ←]
lemma preserves_accessors : Preserves I (accessors call) := by
  unfold accessors
  grind

@[grind ←]
lemma preserves_property : Preserves I (property call) := by
  refine .bind preserves_advance fun _ => .bind preserves_identifier fun name => ?_
  refine .bind (preserves_require _) fun _ => .bind (hcall _) fun type => ?_
  grind

@[grind ←]
lemma preserves_initializer (kind : InitKind) (name : Option Name) :
    Preserves I (initializer call kind name) := by
  unfold initializer
  grind

omit hI hcall in
@[grind ←]
lemma preserves_atPrimaryInit : Preserves I (atPrimaryInit) := by
  unfold atPrimaryInit
  grind

omit hcall in
@[grind ←]
lemma preserves_declarationExpected (place : DeclPlace) :
    Preserves I (declarationExpected place) := by
  unfold declarationExpected
  grind

@[grind ←]
lemma preserves_declarationForm (place : DeclPlace) (modifiers : Modifiers) :
    Preserves I (declarationForm call place modifiers) := by
  refine .bind preserves_kind fun k => ?_
  split <;> grind

@[grind ←]
lemma preserves_annotationsRound (annotations : List Annotation) :
    Preserves I (annotationsRound call annotations) := by
  have macroCall := (makes_macroCall hI).preserves
  unfold annotationsRound
  grind

@[grind ←]
lemma preserves_annotations : Preserves I (annotations call) := by
  unfold annotations
  grind

@[grind ←]
lemma preserves_declaration (place : DeclPlace) : Preserves I (declaration call place) := by
  unfold declaration
  grind

/-! ## Files -/

omit hI hcall in
@[grind ←]
lemma preserves_packageHeader : Preserves I (packageHeader) := by
  unfold packageHeader
  grind

omit hI in
@[grind ←]
lemma preserves_importPaths (leading : List Name) : Preserves I (importPaths call leading) := by
  refine .bind preserves_start fun start => .bind preserves_dottedName fun path => ?_
  refine .bind (.view _) fun next => ?_
  grind

omit hI in
@[grind ←]
lemma preserves_importDecl : Preserves I (importDecl call) := by
  unfold importDecl
  grind

omit hI hcall in
@[grind ←]
lemma preserves_placeHeader (tree : FileTree) : Preserves I (placeHeader tree) := by
  unfold placeHeader
  grind

@[grind ←]
lemma preserves_placeDeclaration (tree : FileTree) : Preserves I (placeDeclaration call tree) := by
  unfold placeDeclaration
  grind

@[grind ←]
lemma preserves_placeItem (tree : FileTree) : Preserves I (placeItem call tree) := by
  unfold placeItem
  grind

omit hcall in
@[grind ←]
lemma preserves_endFileItem (start errors : Nat) : Preserves I (endFileItem start errors) := by
  unfold endFileItem
  grind

@[grind ←]
lemma preserves_fileRound (tree : FileTree) : Preserves I (fileRound call tree) := by
  unfold fileRound
  grind

@[grind ←]
lemma preserves_file : Preserves I (file call) := by
  unfold file
  grind

/-! ## Rules called by name -/

section

variable (hassign : ∀ op target value, I.Allows (.assign op target value))

include hassign

/-- A statement from its first operations on, in front of which the invariant need not hold. -/
lemma ensures_statement
    (h : Ensures env s (binary call Precedence.lowest.strength) fun _ t => I.Reaches s t) :
    Ensures env s (statement call) fun _ t => I.Reaches s t := by
  refine .view (h.bind fun target t ht => ?_)
  have assignment (op : AssignOp) (target value : ExprId) :
      Preserves I (exprFrom s.start (.assign op target value)) :=
    preserves_exprFrom (hassign op target value) s.start
  refine (Preserves.bind (preserves_operatorKind hI) (fun k => ?_) t ht.holds :
    Ensures env t _ _).mono fun _ _ hu => ht.trans hu
  split
  · exact .pure target
  · unfold isAssignable exprSpan
    grind

variable (hbinary : ∀ above, Preserves I (binary call above))

include hbinary

lemma preserves_statement : Preserves I (statement call) :=
  fun s hs => ensures_statement hI hcall hassign (hbinary _ s hs)

lemma preserves_expression : Preserves I (expression call) := by
  refine .bind preserves_start fun start => .bind (hbinary _) fun target => ?_
  have assignment (op : AssignOp) (target value : ExprId) :
      Preserves I (exprFrom start (.assign op target value)) :=
    preserves_exprFrom (hassign op target value) start
  grind

end

include htype in
/-- All rules that are called by name, given what those for operators and for assignments
preserve. -/
lemma preserves_ofNonterminal (hstatement : Preserves I (statement call))
    (hexpression : Preserves I (expression call))
    (hbinary : ∀ above, Preserves I (binary call above)) (hunary : Preserves I (unary call))
    (g : Nonterminal α) : Preserves I (ofNonterminal call g) := by
  cases g with
  | statement => exact hstatement
  | expression => exact hexpression
  | binary above => exact hbinary above
  | unary => exact hunary
  | ifThen => exact (makes_ifThen hI hcall).preserves
  | type => exact preserves_type (htype I)
  | pattern place => exact preserves_pattern hI hcall place
  | blockItem => exact preserves_blockItem hcall
  | declaration place => exact preserves_declaration hI hcall place
  | importPaths leading => exact preserves_importPaths hcall leading

omit hI hcall

/-- Types are read without allocating an expression. -/
lemma preserves_callTo_type (nesting : Nat) (K : Invariant env) :
    Preserves K (callTo nesting .type) := by
  induction nesting with
  | zero => exact .endless
  | succ nesting ih => exact preserves_type ih

/-- All rules keep an invariant that allows for all expressions but placeholders, names with type
arguments, assignments and quoted code, if the rules for these do. -/
lemma preserves_callTo_of_assignments (hI : I.Settled)
    (hform : ∀ form : ExprForm, (∀ name typeArgs, form ≠ .identifier name typeArgs) →
      (∀ op target value, form ≠ .assign op target value) → (∀ parts, form ≠ .quote parts) →
      form ≠ .error → I.Allows form)
    (hname : ∀ call : Call, (∀ K : Invariant env, Preserves K (call .type)) →
      Makes I IsPrimary (nameExpr call))
    (hquote : ∀ nesting, (∀ {α : Type} (g : Nonterminal α), Preserves I (callTo nesting g)) →
      MakesAt I (.keyword .kwQuote) IsPrimary (quote (callTo nesting)))
    (hassign : ∀ nesting, (∀ {α : Type} (g : Nonterminal α), Preserves I (callTo nesting g)) →
      (∀ above, Preserves I (binary (callTo nesting) above)) →
      Preserves I (statement (callTo nesting)) ∧ Preserves I (expression (callTo nesting)))
    (nesting : Nat) (g : Nonterminal α) : Preserves I (callTo nesting g) := by
  induction nesting generalizing α with
  | zero => exact .endless
  | succ nesting ih =>
    have htype (K : Invariant env) : Preserves K (callTo nesting .type) :=
      preserves_callTo_type nesting K
    have hchained (form : ExprForm) (h : form.isChained = true) : I.Allows form := by
      cases form with
      | field | call | index | trailingLambda | optionalChain =>
        exact hform _ nofun nofun nofun nofun
      | _ => exact nomatch h
    have hunary (op : UnaryOp) (operand : ExprId) : I.Allows (.unary op operand op.precedence) :=
      hform _ nofun nofun nofun nofun
    have hbinary (op : BinaryOp) (lhs rhs : ExprId) :
        I.Allows (.binary op lhs rhs op.precedence) :=
      hform _ nofun nofun nofun nofun
    have hchain := (makes_chain hI ih htype hchained (hname (callTo nesting) htype)
      (hquote nesting ih)).preserves
    have operations := preserves_binary hI ih htype hunary hbinary hchain
    obtain ⟨hstatement, hexpression⟩ := hassign nesting ih operations
    exact preserves_ofNonterminal hI ih htype hstatement hexpression operations
      (preserves_unary hI ih hunary hchain) g

/-- All rules keep an invariant that allows for all expressions but placeholders, names with type
arguments and quoted code, if the rules for names and for quoted code do. -/
lemma preserves_callTo (hI : I.Settled)
    (hform : ∀ form : ExprForm, (∀ name typeArgs, form ≠ .identifier name typeArgs) →
      (∀ parts, form ≠ .quote parts) → form ≠ .error → I.Allows form)
    (hname : ∀ call : Call, (∀ K : Invariant env, Preserves K (call .type)) →
      Makes I IsPrimary (nameExpr call))
    (hquote : ∀ nesting, (∀ {α : Type} (g : Nonterminal α), Preserves I (callTo nesting g)) →
      MakesAt I (.keyword .kwQuote) IsPrimary (quote (callTo nesting)))
    (nesting : Nat) (g : Nonterminal α) : Preserves I (callTo nesting g) := by
  have hassign (op : AssignOp) (target value : ExprId) : I.Allows (.assign op target value) :=
    hform _ nofun nofun nofun
  refine preserves_callTo_of_assignments hI (fun form h _ => hform form h) hname hquote
    (fun nesting hcall hbinary => ?_) nesting g
  exact ⟨preserves_statement hI hcall hassign hbinary, preserves_expression hI hcall hassign hbinary⟩

lemma preserves_begin (hI : I.Settled) : Preserves I begin := by
  unfold begin
  grind

end CangjieSyntax.Rule

namespace CangjieSyntax.Invariant

/-! ## Whole parses -/

variable {settings : Settings} {I : ∀ src, Invariant { src, settings }} {bytes : ByteArray}
  (hI : ∀ src, (I src).Settled) (hcall : ∀ src nesting {α : Type} (g : Nonterminal α),
    Preserves (I src) (Rule.callTo nesting g))

include hI hcall

/-- The parse of a file comes to a state in which whatever its rules keep holds, unless the bytes are
no text. -/
lemma of_parseFile {p : FileParse} (h : parseFile bytes settings = some p)
    (hstart : ∀ src, Source.ofBytes bytes = .ok src → (I src).holds (.ofSource src)) :
    (∃ src t, Source.ofBytes bytes = .ok src ∧ (I src).holds t ∧ p.tree.nodes = t.nodes
        ∧ p.diagnostics = settings.locate t.diagnostics)
      ∨ ∃ span, p.tree.nodes = {} ∧ p.diagnostics = settings.encodingFault span := by
  obtain ⟨⟨_, names⟩, hinto, rfl⟩ := Option.map_eq_some_iff.1 h
  unfold parseFileInto at hinto
  split at hinto
  case h_1 src hsrc =>
    obtain ⟨⟨tree, t⟩, hrun, e⟩ := Option.map_eq_some_iff.1 hinto
    cases e
    have hfile (nesting : Nat) := Rule.preserves_file (hI src) (hcall src nesting)
    have ht := (Rule.preserves_begin (hI src)).bind (fun _ => hfile _) _ (hstart src hsrc) tree t hrun
    exact .inl ⟨src, t, hsrc, ht.holds, rfl, rfl⟩
  case h_2 span _ =>
    cases hinto
    exact .inr ⟨span, rfl, rfl⟩

/-- So does the parse of an expression, which has a placeholder for what is no text. -/
lemma of_parseExpression {offset : Nat} {p : ExprParse}
    (h : parseExpression bytes offset settings = some p)
    (hstart : ∀ src, Source.ofBytes bytes = .ok src → src.isBoundary (min offset bytes.size) →
      (I src).holds { ParseState.ofSource src with
        lexer := (Lexer.ofSource src).seek src (min offset bytes.size)
        prevStop := min offset bytes.size }) :
    (∃ src t, Source.ofBytes bytes = .ok src ∧ (I src).holds t ∧ p.nodes = t.nodes
        ∧ p.diagnostics = settings.locate t.diagnostics)
      ∨ ∃ span, p.nodes = ({} : Nodes).add (.expr ⟨.error, span⟩)
        ∧ p.diagnostics = settings.encodingFault span := by
  unfold parseExpression at h
  dsimp only at h
  split at h
  case h_1 src hsrc =>
    cases hbytes : Source.ofBytes bytes with
    | error span => exact nomatch (hbytes ▸ hsrc :)
    | ok decoded =>
      rw [hbytes] at hsrc
      change (if decoded.isBoundary (min offset bytes.size) then pure decoded else _) = _ at hsrc
      split at hsrc <;> cases hsrc
      case isTrue.refl hboundary =>
        obtain ⟨⟨expr, t⟩, hrun, rfl⟩ := Option.map_eq_some_iff.1 h
        have hstatement (nesting : Nat) : Preserves (I src)
            (Rule.statement (Rule.callTo nesting)) := hcall src (nesting + 1) .statement
        have ht := (Rule.preserves_begin (hI src)).bind (fun _ => hstatement _) _
          (hstart src hbytes hboundary) expr t hrun
        exact .inl ⟨src, t, rfl, ht.holds, rfl, rfl⟩
  case h_2 span _ =>
    cases h
    exact .inr ⟨span, rfl, rfl⟩

end CangjieSyntax.Invariant
