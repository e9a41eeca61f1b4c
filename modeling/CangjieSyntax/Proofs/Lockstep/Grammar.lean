import CangjieSyntax.Proofs.Invariant.Grammar
import CangjieSyntax.Proofs.Lockstep.Rule

/-!
# The rules of the grammar in step

All rules stay in step if those called by name do, and if the two that make attempts do: type
arguments in the place of a value, and lambdas. What becomes of an attempt depends on the
environments.
-/

namespace CangjieSyntax.Rule

variable {L : Lockstep} {call : Call} {α : Type}

/-! ## Types -/

@[grind ←]
lemma agrees_errorType (span : Span) : Agrees L (errorType span) := by
  unfold errorType
  grind

section

variable (htype : Agrees L (call .type))

include htype

@[grind ←]
lemma agrees_typeArguments : Agrees L (typeArguments call) := by
  unfold typeArguments
  grind

@[grind ←]
lemma agrees_fittingArguments? : Agrees L (fittingArguments? call) := by
  refine .bind (agrees_typeArguments htype) fun args => .bind (.view fun _ _ => rfl) fun fits => ?_
  grind

@[grind ←]
lemma agrees_typeElements : Agrees L (typeElements call) := by
  unfold typeElements typeElementsRound
  grind

@[grind ←]
lemma agrees_parenType : Agrees L (parenType call) := by
  unfold parenType
  grind

/-- Where a value could stand, each name of a path is taken in front of its type arguments. -/
lemma agreesVia_namedType {fresh : ParseState → Prop} (hfresh : L.Fresh fresh) (inValue : Bool)
    (hargs : inValue = true → AgreesVia L fresh (typeArguments? call) fun _ _ => True) :
    AgreesVia L fresh (namedType call inValue) fun _ _ => True := by
  refine .bind (.view (R := fun _ => fresh) (fun _ _ => rfl) fun _ => id) fun start => ?_
  refine .bind (.loop (I := fun _ => fresh) (R := fun _ _ => True) (fun segments => ?_) []) fun _ =>
    agrees_typeFrom _ _
  refine .bind ((agreesVia_identifier hfresh).mono (fun _ => .inr) fun _ _ => id) fun name => ?_
  refine .bind (.view (R := fun _ => fresh) (fun _ _ => rfl) fun _ => id) fun opens => ?_
  extract_lets rest
  have hrest (args : List TypeId) : AgreesVia L (fun _ => True) (rest args) fun next t =>
      next.elim (fun _ => fresh t) fun _ => True := by
    refine .bind (.view (R := fun _ _ => True) (fun _ _ => rfl) fun _ => id) fun more => ?_
    refine .ite (fun _ => ?_) fun _ => .pure fun _ => id
    exact .bind (agreesVia_advance hfresh) fun _ => .pure fun _ => id
  clear_value rest
  refine .ite (fun hvalue => .bind (hargs hvalue) hrest) fun _ => .ite (fun _ => ?_) fun _ => ?_
  · exact .bind (agrees_typeArguments htype).via hrest
  · exact (hrest []).mono (fun _ _ => trivial) fun _ _ => id

/-- A path outside the place of a value opens no attempt. -/
@[grind ←]
lemma agrees_pathType : Agrees L (namedType call false) :=
  agreesVia_namedType htype fresh_true false nofun

@[grind ←]
lemma agrees_plainType : Agrees L (plainType call) := by
  unfold plainType
  grind

@[grind ←]
lemma agrees_type : Agrees L (type call) := by
  unfold type
  grind

@[grind ←]
lemma agrees_typeBehind (k : Kind) : Agrees L (typeBehind call k) := by
  unfold typeBehind
  grind

/-! ## The parameters of lambdas -/

@[grind ←]
lemma agrees_lambdaParamsRound (params : List LambdaParam) :
    Agrees L (lambdaParamsRound call params) := by
  unfold lambdaParamsRound
  grind

@[grind ←]
lemma agrees_lambdaParams? : Agrees L (lambdaParams? call) := by
  unfold lambdaParams?
  grind

end

/-! ## Recovery and blocks -/

@[grind ←]
lemma agrees_expressionExpected : Agrees L expressionExpected := by
  unfold expressionExpected
  grind

@[grind ←]
lemma agrees_atStatementEnd (stop : Kind → Bool) : Agrees L (atStatementEnd stop) := by
  refine .bind agrees_kind fun k => ?_
  split
  · grind
  · exact .view fun _ _ => rfl

@[grind ←]
lemma agrees_separatorExpected : Agrees L separatorExpected := by
  refine .get (fun _ => rfl) fun s => .read (by rw [L.src]) ?_
  grind

section

variable (hL : L.Settled)

include hL

@[grind ←]
lemma agrees_unmute : Agrees L unmute :=
  AgreesVia.modify (fun hs _ => hL.unmute hs) (fun s => hL.turn (.unmute s : Turn L.env s _))
    fun _ => id

@[grind ←]
lemma agrees_skipStatement (must : Bool) : Agrees L (skipStatement must) := by
  unfold skipStatement skipStatementRound
  grind

@[grind ←]
lemma agrees_skipDeclaration (must : Bool) : Agrees L (skipDeclaration must) := by
  have round (state : Nat × Bool) : Agrees L (skipDeclarationRound state) := by
    refine .bind agrees_kind fun k => ?_
    split
    · exact .pure _
    · split
      · grind
      · refine .bind (.view fun _ _ => rfl) fun declares => ?_
        grind
  unfold skipDeclaration
  grind

@[grind ←]
lemma agrees_endItem (start errors : Nat) (stop : Kind → Bool) :
    Agrees L (endItem start errors stop) := by
  refine .get (fun _ => rfl) fun s => ?_
  grind

end

variable (hL : L.Settled) (hcall : ∀ {α : Type} (g : Nonterminal α), Agrees L (call g))

include hL hcall

@[grind ←]
lemma agrees_items (stop : Kind → Bool) : Agrees L (items call stop) := by
  have round (items : List BlockItem) : Agrees L (itemsRound call stop items) := by
    refine .bind agrees_kind fun k => ?_
    split
    · exact .pure _
    · split
      · grind
      · refine .get (fun _ => rfl) fun s => ?_
        grind
  unfold items
  grind

@[grind ←]
lemma agrees_allItems : Agrees L (allItems call) := by
  unfold allItems
  grind

@[grind ←]
lemma agrees_block : Agrees L (block call) := by
  unfold block
  grind

omit hL in
@[grind ←]
lemma agrees_blockItem : Agrees L (blockItem call) := by
  refine .bind (.view fun _ _ => rfl) fun declares => ?_
  grind

/-! ## Literals and lists -/

omit hL hcall in
@[grind ←]
lemma agrees_tokenExpr (form : ExprForm) : Agrees L (tokenExpr form) := by
  unfold tokenExpr
  grind

omit hL hcall in
@[grind ←]
lemma agrees_literal : Agrees L literal := by
  refine .bind (.view fun _ _ => rfl) fun form => ?_
  grind

@[grind ←]
lemma agrees_hole : Agrees L (hole call) := by
  unfold hole
  grind

@[grind ←]
lemma agrees_stringRound (parts : List StringPart) : Agrees L (stringRound call parts) := by
  unfold stringRound
  grind

@[grind ←]
lemma agrees_string : Agrees L (string call) := by
  unfold string
  grind

omit hL hcall in
/-- Both runs find the same among the nodes. -/
@[grind ←]
lemma agrees_find (f : Nodes → Option α) : Agrees L (find f) where
  lasts {s a t} e := by
    obtain ⟨b, -, e⟩ := Option.map_eq_some_iff.1 e
    cases e
    exact L.refl s
  lasts' {s a t} e := by
    obtain ⟨b, -, e⟩ := Option.map_eq_some_iff.1 e
    cases e
    exact L.refl s
  meets {s s'} hs _ := by
    have hnodes : s'.nodes = s.nodes := (congrArg ParseState.nodes (L.seen hs) :)
    change L.Meets _ ((f s.nodes).map fun a => (a, s)) ((f s'.nodes).map fun a => (a, s'))
    rw [hnodes]
    cases f s.nodes with
    | none => exact .none
    | some a => exact .some hs trivial

omit hL hcall in
@[grind ←]
lemma agrees_exprToTypeTo (depth : Nat) (id : ExprId) : Agrees L (exprToTypeTo depth id) := by
  induction depth generalizing id with
  | zero => exact .endless
  | succ depth ih =>
    unfold exprToTypeTo exprSpan exprPath? notAType
    refine .bind (agrees_find _) fun span => .get (fun _ => rfl) fun s => ?_
    grind

omit hL hcall in
@[grind ←]
lemma agrees_elementsToTypes (elements : List (Option Name × ExprId)) :
    Agrees L (elementsToTypes elements) := by
  unfold elementsToTypes exprToType
  grind

omit hL in
@[grind ←]
lemma agrees_functionType (start : Nat) (elements : List (Option Name × ExprId)) :
    Agrees L (functionType call start elements) := by
  unfold functionType
  grind

omit hL in
@[grind ←]
lemma agrees_parenElement : Agrees L (parenElement call) := by
  unfold parenElement
  grind

omit hL in
@[grind ←]
lemma agrees_parenElementsRound (state : List (Option Name × ExprId) × Bool) :
    Agrees L (parenElementsRound call state) := by
  unfold parenElementsRound
  grind

omit hL in
@[grind ←]
lemma agrees_parenElements : Agrees L (parenElements call) := by
  unfold parenElements
  grind

omit hL in
@[grind ←]
lemma agrees_parenthesized : Agrees L (parenthesized call) := by
  refine .bind agrees_start fun start => .bind agrees_advance fun _ => ?_
  refine .bind (agrees_optional _) fun empty => ?_
  split
  · grind
  · refine .bind (agrees_parenElements hcall) fun (elements, trailingComma) => ?_
    grind

omit hL in
@[grind ←]
lemma agrees_arrayElement : Agrees L (arrayElement call) := by
  unfold arrayElement
  grind

omit hL in
@[grind ←]
lemma agrees_array : Agrees L (array call) := by
  unfold array
  grind

/-! ## Patterns -/

omit hL hcall in
@[grind ←]
lemma agrees_refutablePattern (place : PatternPlace) (form : PatternForm) (span : Span) :
    Agrees L (refutablePattern place form span) := by
  unfold refutablePattern invalidPattern errorPattern
  grind

omit hL in
@[grind ←]
lemma agrees_patternTypes (place : PatternPlace) : Agrees L (patternTypes call place) := by
  unfold patternTypes
  grind

omit hL in
@[grind ←]
lemma agrees_wildcardPattern (place : PatternPlace) : Agrees L (wildcardPattern call place) := by
  unfold wildcardPattern
  grind

omit hL in
@[grind ←]
lemma agrees_constantPattern (place : PatternPlace) : Agrees L (constantPattern call place) := by
  unfold constantPattern
  grind

omit hL in
@[grind ←]
lemma agrees_patternElementsRound (place : PatternPlace) (state : List PatternId × Bool) :
    Agrees L (patternElementsRound call place state) := by
  unfold patternElementsRound
  grind

omit hL in
@[grind ←]
lemma agrees_patternElements (place : PatternPlace) : Agrees L (patternElements call place) := by
  unfold patternElements
  grind

omit hL in
@[grind ←]
lemma agrees_tuplePattern (place : PatternPlace) : Agrees L (tuplePattern call place) := by
  unfold tuplePattern invalidPattern errorPattern
  grind

omit hL in
@[grind ←]
lemma agrees_variantPattern (place : PatternPlace) (start : Nat) (path : List Name)
    (typeArgs : List TypeId) : Agrees L (variantPattern call place start path typeArgs) := by
  unfold variantPattern
  grind

omit hL in
@[grind ←]
lemma agrees_namePattern (place : PatternPlace) : Agrees L (namePattern call place) := by
  refine .bind agrees_start fun start => .bind agrees_dottedName fun path => ?_
  refine .bind (.view fun _ _ => rfl) fun opensArgs => ?_
  grind

omit hL in
@[grind ←]
lemma agrees_singlePattern (place : PatternPlace) : Agrees L (singlePattern call place) := by
  unfold singlePattern errorPattern
  grind

omit hL in
@[grind ←]
lemma agrees_alternativesRound (place : PatternPlace) (rest : List PatternId) :
    Agrees L (alternativesRound call place rest) := by
  unfold alternativesRound
  grind

omit hL hcall in
@[grind ←]
lemma agrees_patternNodes (ids : List PatternId) : Agrees L (patternNodes ids) :=
  .view fun _ _ => rfl

omit hL in
@[grind ←]
lemma agrees_plainPattern (place : PatternPlace) : Agrees L (plainPattern call place) := by
  refine .bind agrees_start fun start => ?_
  refine .bind (agrees_singlePattern hcall place) fun first => ?_
  unfold invalidPattern errorPattern
  grind

omit hL in
@[grind ←]
lemma agrees_pattern (place : PatternPlace) : Agrees L (pattern call place) := by
  unfold pattern errorPattern
  grind

/-! ## Control flow -/

omit hL in
@[grind ←]
lemma agrees_condition : Agrees L (condition call) := by
  unfold condition
  grind

omit hL hcall in
@[grind ←]
lemma agrees_inParens {inner : Rule α} (h : Agrees L inner) : Agrees L (inParens inner) := by
  unfold inParens
  grind

omit hL hcall in
@[grind ←]
lemma agrees_inParens? {inner : Rule α} (h : Agrees L inner) : Agrees L (inParens? inner) := by
  unfold inParens?
  grind

@[grind ←]
lemma agrees_ifThen : Agrees L (ifThen call) := by
  refine .bind agrees_start fun start => .bind agrees_advance fun _ => ?_
  refine .bind (agrees_inParens (agrees_condition hcall)) fun condition => ?_
  refine .bind (agrees_block hL hcall) fun body => ?_
  grind

@[grind ←]
lemma agrees_matchArm (hasSelector : Bool) : Agrees L (matchArm call hasSelector) := by
  refine .bind agrees_start fun start => .bind agrees_advance fun _ => ?_
  have rest (test : CaseTest) : Agrees L (do
      let guard ← behind (.keyword .kwWhere) (call .expression)
      require (.mark .fatArrow)
      let bodyStart ← Rule.start
      let items ← items call (· == .keyword .kwCase)
      let bodySpan ← spanFrom bodyStart
      return { test, guard, body := ⟨items, bodySpan⟩, span := ← spanFrom start : MatchArm }) := by
    grind
  split
  · exact .bind (hcall _) fun id => rest (.pattern id)
  · exact .bind (hcall _) fun id => rest (.condition id)

@[grind ←]
lemma agrees_matchArmsRound (hasSelector : Bool) (state : List MatchArm × Bool) :
    Agrees L (matchArmsRound call hasSelector state) := by
  unfold matchArmsRound
  grind

@[grind ←]
lemma agrees_matchArms (hasSelector : Bool) : Agrees L (matchArms call hasSelector) := by
  unfold matchArms
  grind

@[grind ←]
lemma agrees_matchCases : Agrees L (matchCases call) := by
  unfold matchCases
  grind

@[grind ←]
lemma agrees_forIn : Agrees L (forIn call) := by
  refine .bind agrees_start fun start => .bind agrees_advance fun _ => ?_
  refine .bind (agrees_inParens ?_) fun (pattern, iterable, guard) => ?_
  · grind
  · grind

@[grind ←]
lemma agrees_whileLoop : Agrees L (whileLoop call) := by
  unfold whileLoop
  grind

@[grind ←]
lemma agrees_doWhile : Agrees L (doWhile call) := by
  unfold doWhile
  grind

omit hL in
@[grind ←]
lemma agrees_tryResource : Agrees L (tryResource call) := by
  unfold tryResource
  grind

@[grind ←]
lemma agrees_catchClausesRound (catches : List CatchClause) :
    Agrees L (catchClausesRound call catches) := by
  unfold catchClausesRound
  grind

@[grind ←]
lemma agrees_catchClauses : Agrees L (catchClauses call) := by
  unfold catchClauses
  grind

@[grind ←]
lemma agrees_tryCatch : Agrees L (tryCatch call) := by
  refine .bind agrees_start fun start => .bind agrees_advance fun _ => ?_
  refine .bind (agrees_inParens? (agrees_list _ (agrees_tryResource hcall))) fun resources => ?_
  refine .bind (agrees_block hL hcall) fun body => ?_
  refine .bind (agrees_catchClauses hL hcall) fun catches => ?_
  grind

@[grind ←]
lemma agrees_spawn : Agrees L (spawn call) := by
  refine .bind agrees_start fun start => .bind agrees_advance fun _ => ?_
  refine .bind (agrees_inParens? (hcall _)) fun context => ?_
  refine .bind agrees_start fun bodyStart => .bind (agrees_expect _) fun opened => ?_
  grind

@[grind ←]
lemma agrees_synchronized : Agrees L (synchronized call) := by
  unfold synchronized
  grind

@[grind ←]
lemma agrees_unsafeBlock : Agrees L (unsafeBlock call) := by
  unfold unsafeBlock
  grind

omit hL in
@[grind ←]
lemma agrees_throwValue : Agrees L (throwValue call) := by
  unfold throwValue
  grind

omit hL in
@[grind ←]
lemma agrees_returnValue : Agrees L (returnValue call) := by
  refine .bind agrees_start fun start => .bind agrees_advance fun _ => ?_
  refine .bind (.view fun _ _ => rfl) fun hasValue => ?_
  grind

/-! ## Quoted code and macro calls -/

omit hL hcall in
@[grind ←]
lemma agrees_nameSplice : Agrees L (nameSplice) := by
  unfold nameSplice
  grind

omit hL in
@[grind ←]
lemma agrees_exprSplice : Agrees L (exprSplice call) := by
  unfold exprSplice
  grind

omit hL hcall in
@[grind ←]
lemma agrees_keptToken (q : Quotation) (k : Kind) : Agrees L (keptToken q k) := by
  unfold keptToken
  grind

omit hL in
@[grind ←]
lemma agrees_quotePartsRound (q : Quotation) : Agrees L (quotePartsRound call q) := by
  refine .get (fun _ => rfl) fun s => .bind agrees_kind fun k => ?_
  split
  · exact .pure _
  · split
    · grind
    · refine .bind (.view fun _ _ => rfl) fun spliced => ?_
      grind

omit hL in
@[grind ←]
lemma agrees_quoteParts : Agrees L (quoteParts call) := by
  unfold quoteParts
  grind

omit hL in
@[grind ←]
lemma agrees_quote : Agrees L (quote call) := by
  unfold quote
  grind

omit hL hcall in
@[grind ←]
lemma agrees_balancedRound (opening closing : Punctuation) (innerStart depth : Nat) :
    Agrees L (balancedRound opening closing innerStart depth) := by
  refine .get (fun _ => rfl) fun s => ?_
  grind

omit hL hcall in
@[grind ←]
lemma agrees_balanced (opening closing : Punctuation) : Agrees L (balanced opening closing) := by
  refine .get (fun _ => rfl) fun s => ?_
  grind

omit hL hcall in
@[grind ←]
lemma agrees_macroCall : Agrees L macroCall := by
  refine .bind agrees_start fun start => .bind agrees_advance fun _ => ?_
  refine .bind agrees_dottedName fun name => .bind (.view fun _ _ => rfl) fun hasAttributes => ?_
  grind

end CangjieSyntax.Rule

/-!
## Expressions

A name behind which type arguments are looked for is taken in front of them, and so is the token in
front of a type behind `as` or `is`: no `<` is met where one was met before.
-/

namespace CangjieSyntax.Rule

variable {L : Lockstep} {fresh : ParseState → Prop} {call : Call} {α : Type}

/-! ## Primary expressions -/

@[grind ←]
lemma agrees_strayDollar : Agrees L strayDollar := by
  unfold strayDollar
  grind

section

variable (hcall : ∀ {α : Type} (g : Nonterminal α), Agrees L (call g))

include hcall

@[grind ←]
lemma agrees_typeValue : Agrees L (typeValue call) := by
  unfold typeValue
  grind

variable (hL : L.Settled)

include hL

lemma agrees_keywordExpr (k : Keyword) : Agrees L (keywordExpr call k) := by
  unfold keywordExpr
  split <;> grind

omit hL in
lemma agrees_markExpr (hlambda : ∀ needsArrow, Agrees L (lambda call needsArrow))
    (p : Punctuation) : Agrees L (markExpr call p) := by
  unfold markExpr
  split <;> grind

end

section

variable (hfresh : L.Fresh fresh)
  (hargs : AgreesVia L fresh (typeArguments? call) fun _ _ => True)

include hfresh hargs

lemma agreesVia_nameExpr :
    AgreesVia L (fun s => s.kind.isIdentifier) (nameExpr call) fun _ _ => True := by
  refine .bind (.view (R := fun _ s => s.kind.isIdentifier) (fun _ _ => rfl) fun _ => id)
    fun start => ?_
  refine .bind ((agreesVia_identifier hfresh).mono (fun _ => .inl) fun _ _ => id) fun name => ?_
  exact .bind hargs fun args => agrees_exprFrom _ _

lemma agrees_primary (hL : L.Settled) (hcall : ∀ {α : Type} (g : Nonterminal α), Agrees L (call g))
    (hlambda : ∀ needsArrow, Agrees L (lambda call needsArrow)) : Agrees L (primary call) := by
  refine AgreesVia.bind (.view (R := fun k s => s.kind = k) (fun _ _ => rfl) fun _ _ => rfl)
    fun k => ?_
  have name (h : k.isIdentifier) :
      AgreesVia L (fun s => s.kind = k) (nameExpr call) fun _ _ => True :=
    (agreesVia_nameExpr hfresh hargs).mono (fun s hs => hs ▸ h) fun _ _ => id
  split
  case h_1 k => exact (agrees_keywordExpr hcall hL k).via
  case h_2 p => exact (agrees_markExpr hcall hlambda p).via
  case h_5 | h_6 => exact name rfl
  all_goals exact Agrees.via (by grind)

end

/-! ## Chains -/

/-- Behind a token, no token in front of it is left behind the name of a member either. -/
lemma agreesVia_memberName (hfresh : L.Fresh fresh) :
    AgreesVia L fresh memberName fun _ => fresh := by
  refine .bind (.view (R := fun _ => fresh) (fun _ _ => rfl) fun _ => id) fun k => ?_
  refine .ite (fun _ => ?_) fun _ => ?_
  · refine .bind agrees_tokenValue.via fun value => .bind agrees_tokenSpan fun span => ?_
    refine .bind (agrees_name _ span) fun name => ?_
    exact .bind (agreesVia_advance hfresh) fun _ => .pure fun _ => id
  · exact .bind (agreesVia_report hfresh _ _) fun _ => agreesVia_missingName hfresh

lemma agrees_fieldLink (hfresh : L.Fresh fresh)
    (hargs : AgreesVia L fresh (typeArguments? call) fun _ _ => True) (operand : ExprId)
    (start : Nat) (isOptional : Bool) : Agrees L (fieldLink call operand start isOptional) :=
  AgreesVia.bind (agreesVia_advance hfresh) fun _ => .bind (agreesVia_memberName hfresh) fun _ =>
    .bind hargs fun _ => agrees_exprFrom _ _

section

variable (hcall : ∀ {α : Type} (g : Nonterminal α), Agrees L (call g))

include hcall

@[grind ←]
lemma agrees_argument : Agrees L (argument call) := by
  unfold argument
  grind

@[grind ←]
lemma agrees_rangeTail (lower : Option ExprId) (start : Nat) :
    Agrees L (rangeTail call lower start) := by
  unfold rangeTail
  grind

@[grind ←]
lemma agrees_callLink (operand : ExprId) (start : Nat) (isOptional : Bool) :
    Agrees L (callLink call operand start isOptional) := by
  unfold callLink
  grind

@[grind ←]
lemma agrees_indexLink (operand : ExprId) (start : Nat) (isOptional : Bool) :
    Agrees L (indexLink call operand start isOptional) := by
  unfold indexLink
  grind

end

@[grind ←]
lemma agrees_lambdaLink (hlambda : ∀ needsArrow, Agrees L (lambda call needsArrow))
    (operand : ExprId) (start : Nat) (isOptional : Bool) :
    Agrees L (lambdaLink call operand start isOptional) := by
  unfold lambdaLink
  grind

section

variable (hcall : ∀ {α : Type} (g : Nonterminal α), Agrees L (call g)) (hL : L.Settled)
  (hfresh : L.Fresh fresh) (hargs : AgreesVia L fresh (typeArguments? call) fun _ _ => True)
  (hlambda : ∀ needsArrow, Agrees L (lambda call needsArrow))

include hcall hfresh hargs hlambda

/-- Whatever link stands behind an operand. -/
lemma agrees_link? {operand : ExprId} {start : Nat} {isOptional sameLine : Bool} {k : Kind}
    {r : Rule ExprId} (hlink : link? call operand start isOptional sameLine k = some r) :
    Agrees L r := by
  unfold link? at hlink
  split at hlink
  · cases hlink
    exact agrees_fieldLink hfresh hargs operand start isOptional
  · split at hlink <;> cases hlink
    exact agrees_callLink hcall operand start isOptional
  · split at hlink <;> cases hlink
    exact agrees_indexLink hcall operand start isOptional
  · split at hlink <;> cases hlink
    exact agrees_lambdaLink hlambda operand start isOptional
  · exact nomatch hlink

lemma agrees_chainRound (start : Nat) (state : ExprId × Bool) :
    Agrees L (chainRound call start state) := by
  obtain ⟨operand, hasOptional⟩ := state
  refine .bind (.view fun _ _ => rfl) fun isOptional => ?_
  extract_lets isChain rest
  have hrest : Agrees L (rest ()) := by
    refine .bind agrees_lineBreakBefore fun breaks => .bind agrees_kind fun k => ?_
    split
    case h_1 r hlink =>
      exact .bind (agrees_link? hcall hfresh hargs hlambda hlink) fun id => .pure _
    case h_2 => grind
  clear_value rest
  split
  · exact .bind agrees_advance fun _ => hrest
  · exact hrest

include hL

lemma agrees_chain : Agrees L (chain call) :=
  .bind agrees_start fun start =>
    .bind (agrees_primary hfresh hargs hL hcall hlambda) fun operand =>
      .loop (agrees_chainRound hcall hfresh hargs hlambda start) (operand, false)

/-! ## Operators -/

lemma agrees_steps : Agrees L (steps call) := by
  refine .bind agrees_start fun start => ?_
  refine .bind (agrees_chain hcall hL hfresh hargs hlambda)
    fun operand => .loop (fun operand => ?_) _
  refine .bind agrees_kind fun k => .bind agrees_lineBreakBefore fun breaks => ?_
  split <;> grind

lemma agrees_unary : Agrees L (unary call) := by
  refine .bind agrees_kind fun k => ?_
  split
  · grind
  · exact agrees_steps hcall hL hfresh hargs hlambda

omit hL hlambda in
/-- The type behind `as` or `is` starts behind that token. -/
lemma agrees_typeTest (start : Nat) (form : TypeId → ExprForm) :
    Agrees L (typeTest call start form) := by
  have operand : AgreesVia L fresh (typeOperand call) fun _ _ => True := by
    refine agreesVia_nested hfresh.step (fun _ _ _ => trivial)
      (fun span => (agrees_errorType span).via) ?_
    refine .bind (.view (R := fun _ => fresh) (fun _ _ => rfl) fun _ => id) fun k => ?_
    refine .ite (fun _ => agreesVia_namedType (hcall _) hfresh true fun _ => hargs) fun _ => ?_
    exact (agrees_plainType (hcall _)).via
  exact AgreesVia.bind (agreesVia_advance hfresh) fun _ => .bind operand fun type =>
    agrees_exprFrom _ _

omit hlambda in
lemma agrees_operation? (above start : Nat) (lhs : ExprId) :
    Agrees L (operation? call above start lhs) := by
  have test (form : TypeId → ExprForm) := agrees_typeTest hcall hfresh hargs start form
  refine .bind (agrees_operatorKind hL) fun k => ?_
  split
  case h_5 =>
    split
    · exact .pure none
    · grind
  all_goals grind

lemma agrees_binary (above : Nat) : Agrees L (binary call above) := by
  have operand := agrees_unary hcall hL hfresh hargs hlambda
  have round (start : Nat) (lhs : ExprId) : Agrees L (operationRound call above start lhs) := by
    refine .bind (agrees_operation? hcall hL hfresh hargs above start lhs) fun found => ?_
    grind
  unfold binary
  grind

end

section

variable (hcall : ∀ {α : Type} (g : Nonterminal α), Agrees L (call g)) (hL : L.Settled)
  (hbinary : ∀ above, Agrees L (binary call above))

include hcall hL hbinary

lemma agrees_statement : Agrees L (statement call) := by
  refine .bind agrees_start fun start => .bind (hbinary _) fun target => ?_
  refine .bind (agrees_operatorKind hL) fun k => ?_
  unfold isAssignable exprSpan
  grind

lemma agrees_expression : Agrees L (expression call) := by
  refine .bind agrees_start fun start => .bind (hbinary _) fun target => ?_
  refine .bind (agrees_operatorKind hL) fun k => ?_
  grind

end

end CangjieSyntax.Rule

/-! ## Declarations and files -/

namespace CangjieSyntax.Rule

variable {L : Lockstep} {call : Call} {α : Type}

section

variable (hL : L.Settled) (hcall : ∀ {α : Type} (g : Nonterminal α), Agrees L (call g))

include hL hcall

/-! ## Parts of declarations -/

omit hL hcall in
@[grind ←]
lemma agrees_modifiers (disallowed : List Modifier) : Agrees L (modifiers disallowed) := by
  have round (ms : Modifiers) : Agrees L (modifiersRound disallowed ms) := by
    refine .bind (.view fun _ _ => rfl) fun found => ?_
    grind
  unfold modifiers
  grind

omit hL in
@[grind ←]
lemma agrees_annotation : Agrees L ( annotation call) := by
  refine .bind agrees_start fun start => .bind agrees_advance fun _ => ?_
  refine .bind agrees_dottedName fun path => .bind (.view fun _ _ => rfl) fun hasArgs => ?_
  grind

omit hL hcall in
@[grind ←]
lemma agrees_generics : Agrees L (generics) := by
  unfold generics
  grind

omit hL hcall in
@[grind ←]
lemma agrees_paramName : Agrees L (paramName) := by
  unfold paramName
  grind

omit hL in
@[grind ←]
lemma agrees_param : Agrees L (param call) := by
  have rest (start : Nat) (member : Option VarKind) : Agrees L (do
      let name ← paramName
      let named ← optional (.mark .bang)
      require (.mark .colon)
      let type ← call .type
      let default ← behind (.mark .equals) (call .expression)
      return { name, named, member, type, default, span := ← spanFrom start : Param }) := by
    grind
  refine .bind agrees_start fun start => .bind (agrees_modifiers _) fun _ => ?_
  refine .bind agrees_kind fun k => ?_
  dsimp only
  split
  · exact .bind agrees_advance fun _ => rest start _
  · exact rest start _

omit hL in
@[grind ←]
lemma agrees_params : Agrees L (params call) := by
  unfold params
  grind

omit hL in
@[grind ←]
lemma agrees_bounds : Agrees L (bounds call) := by
  unfold bounds
  grind

omit hL in
@[grind ←]
lemma agrees_constraints : Agrees L (constraints call) := by
  unfold constraints
  grind

omit hL in
@[grind ←]
lemma agrees_supertypes : Agrees L (supertypes call) := by
  unfold supertypes
  grind

@[grind ←]
lemma agrees_body? : Agrees L (body? call) := by
  unfold body?
  grind

omit hcall in
@[grind ←]
lemma agrees_operatorName? : Agrees L (operatorName?) := by
  unfold operatorName?
  grind

omit hcall in
@[grind ←]
lemma agrees_functionName : Agrees L (functionName) := by
  unfold functionName
  grind

/-! ## Declarations -/

@[grind ←]
lemma agrees_function : Agrees L (function call) := by
  refine .bind agrees_advance fun _ => .bind (agrees_functionName hL) fun name => ?_
  refine .bind agrees_generics fun generics => .bind (agrees_params hcall) fun params => ?_
  grind

@[grind ←]
lemma agrees_mainFunction : Agrees L (mainFunction call) := by
  refine .bind agrees_tokenSpan fun span => .bind (agrees_name _ _) fun name => ?_
  refine .bind agrees_advance fun _ => .bind (agrees_params hcall) fun params => ?_
  grind

@[grind ←]
lemma agrees_macroBody : Agrees L (macroBody call) := by
  unfold macroBody
  grind

@[grind ←]
lemma agrees_macroDefinition : Agrees L (macroDefinition call) := by
  unfold macroDefinition
  grind

omit hL in
@[grind ←]
lemma agrees_varDecl (kind : VarKind) : Agrees L (varDecl call kind) := by
  unfold varDecl
  grind

omit hL in
@[grind ←]
lemma agrees_typeAlias : Agrees L (typeAlias call) := by
  unfold typeAlias
  grind

@[grind ←]
lemma agrees_members : Agrees L (members call) := by
  have round (members : List DeclId) : Agrees L (membersRound call members) := by
    refine .bind agrees_kind fun k => ?_
    split
    · exact .pure _
    · split
      · grind
      · refine .get (fun _ => rfl) fun s => ?_
        grind
  unfold members
  grind

@[grind ←]
lemma agrees_memberBody (owner : Option String) : Agrees L (memberBody call owner) := by
  unfold memberBody
  grind

@[grind ←]
lemma agrees_typeBody (kind : TypeDeclKind) : Agrees L (typeBody call kind) := by
  refine .bind agrees_advance fun _ => .bind agrees_identifier fun name => ?_
  refine .bind agrees_generics fun generics => .bind (agrees_supertypes hcall) fun types => ?_
  grind

omit hL in
@[grind ←]
lemma agrees_enumCase : Agrees L (enumCase call) := by
  unfold enumCase
  grind

omit hL in
@[grind ←]
lemma agrees_enumCasesRound (state : List EnumCase × Bool) :
    Agrees L (enumCasesRound call state) := by
  obtain ⟨cases, nonExhaustive⟩ := state
  refine .bind (agrees_isAt _) fun dots => ?_
  extract_lets rest
  have hrest (found : Option (List EnumCase × Bool)) : Agrees L (rest found) := by
    unfold rest
    grind
  clear_value rest
  split
  · grind
  · refine .bind (.view fun _ _ => rfl) fun named => ?_
    grind

omit hL in
@[grind ←]
lemma agrees_enumCases : Agrees L (enumCases call) := by
  unfold enumCases
  grind

@[grind ←]
lemma agrees_enumType : Agrees L (enumType call) := by
  refine .bind agrees_advance fun _ => .bind agrees_identifier fun name => ?_
  refine .bind agrees_generics fun generics => .bind (agrees_supertypes hcall) fun types => ?_
  refine .bind (agrees_constraints hcall) fun constraints => ?_
  refine .bind (agrees_expect _) fun opened => ?_
  grind

@[grind ←]
lemma agrees_extension : Agrees L (extension call) := by
  refine .bind agrees_advance fun _ => .bind agrees_generics fun generics => ?_
  refine .bind (hcall _) fun target => .bind (agrees_supertypes hcall) fun types => ?_
  grind

@[grind ←]
lemma agrees_foreignBlock : Agrees L (foreignBlock call) := by
  unfold foreignBlock
  grind

omit hL hcall in
@[grind ←]
lemma agrees_atWord (word : String) : Agrees L (atWord word) :=
  .view fun _ _ => rfl

@[grind ←]
lemma agrees_accessorsRound (a : Accessors) : Agrees L (accessorsRound call a) := by
  refine .bind agrees_kind fun k => ?_
  split
  · exact .pure _
  · refine .bind (agrees_atWord _) fun atGet => ?_
    grind

@[grind ←]
lemma agrees_accessors : Agrees L (accessors call) := by
  unfold accessors
  grind

@[grind ←]
lemma agrees_property : Agrees L (property call) := by
  refine .bind agrees_advance fun _ => .bind agrees_identifier fun name => ?_
  refine .bind (agrees_require _) fun _ => .bind (hcall _) fun type => ?_
  grind

@[grind ←]
lemma agrees_initializer (kind : InitKind) (name : Option Name) :
    Agrees L (initializer call kind name) := by
  unfold initializer
  grind

omit hL hcall in
@[grind ←]
lemma agrees_atPrimaryInit : Agrees L atPrimaryInit := by
  refine .get (fun _ => rfl) fun s => ?_
  split
  · exact .pure false
  · refine .bind agrees_tokenValue fun value => .bind (agrees_intern value) fun _ => ?_
    exact .view fun _ _ => rfl

omit hcall in
@[grind ←]
lemma agrees_declarationExpected (place : DeclPlace) : Agrees L (declarationExpected place) := by
  unfold declarationExpected
  grind

@[grind ←]
lemma agrees_declarationForm (place : DeclPlace) (modifiers : Modifiers) :
    Agrees L (declarationForm call place modifiers) := by
  refine .bind agrees_kind fun k => ?_
  split <;> grind

omit hL in
@[grind ←]
lemma agrees_annotations : Agrees L (annotations call) := by
  refine .loop (fun annotations => ?_) []
  refine .bind (agrees_isAt _) fun found => ?_
  split
  · refine .bind (.view fun _ _ => rfl) fun expands => ?_
    grind
  · exact .pure _

@[grind ←]
lemma agrees_declaration (place : DeclPlace) : Agrees L (declaration call place) := by
  unfold declaration
  grind

/-! ## Files -/

omit hL hcall in
@[grind ←]
lemma agrees_packageHeader : Agrees L (packageHeader) := by
  unfold packageHeader
  grind

omit hL in
@[grind ←]
lemma agrees_importPaths (leading : List Name) : Agrees L (importPaths call leading) := by
  refine .bind agrees_start fun start => .bind agrees_dottedName fun path => ?_
  refine .bind (.view fun _ _ => rfl) fun next => ?_
  grind

omit hL in
@[grind ←]
lemma agrees_importDecl : Agrees L (importDecl call) := by
  unfold importDecl
  grind

omit hL hcall in
@[grind ←]
lemma agrees_placeHeader (tree : FileTree) : Agrees L (placeHeader tree) := by
  unfold placeHeader
  grind

@[grind ←]
lemma agrees_placeDeclaration (tree : FileTree) : Agrees L (placeDeclaration call tree) := by
  refine .bind (agrees_declaration hL hcall _) fun id => .get (fun _ => rfl) fun s => ?_
  split <;> grind

@[grind ←]
lemma agrees_placeItem (tree : FileTree) : Agrees L (placeItem call tree) := by
  refine .bind (.view fun _ _ => rfl) fun c => ?_
  cases c <;> grind

omit hcall in
@[grind ←]
lemma agrees_endFileItem (start errors : Nat) : Agrees L (endFileItem start errors) := by
  refine .get (fun _ => rfl) fun s => ?_
  grind

lemma agrees_file : Agrees L (file call) := by
  refine .loop (fun tree => .bind agrees_kind fun k => ?_) ({} : FileTree)
  split
  · exact .pure _
  · split
    · grind
    · refine .get (fun _ => rfl) fun s => ?_
      grind

end

/-! ## Tying the rules together -/

/-- Types called by name open no attempt. -/
lemma agrees_callTo_type (nesting : Nat) : Agrees L (callTo nesting .type) := by
  induction nesting with
  | zero => exact .endless
  | succ nesting ih => exact agrees_type ih

/-- All rules called by name stay in step, if those that make attempts do whatever rules they
call. -/
theorem agrees_callTo {fresh : ParseState → Prop} (hL : L.Settled) (hfresh : L.Fresh fresh)
    (hargs : ∀ nesting, AgreesVia L fresh (typeArguments? (callTo nesting)) fun _ _ => True)
    (hlambda : ∀ nesting, (∀ {α : Type} (g : Nonterminal α), Agrees L (callTo nesting g)) →
      ∀ needsArrow, Agrees L (lambda (callTo nesting) needsArrow))
    (nesting : Nat) (g : Nonterminal α) : Agrees L (callTo nesting g) := by
  induction nesting generalizing α with
  | zero => exact .endless
  | succ nesting ih =>
    have binary (above : Nat) :=
      agrees_binary ih hL hfresh (hargs nesting) (hlambda nesting ih) above
    cases g with
    | statement => exact agrees_statement ih hL binary
    | expression => exact agrees_expression ih hL binary
    | binary above => exact binary above
    | unary => exact agrees_unary ih hL hfresh (hargs nesting) (hlambda nesting ih)
    | ifThen => exact agrees_ifThen hL ih
    | type => exact agrees_type (ih .type)
    | pattern place => exact agrees_pattern ih place
    | blockItem => exact agrees_blockItem ih
    | declaration place => exact agrees_declaration hL ih place
    | importPaths leading => exact agrees_importPaths ih leading

end CangjieSyntax.Rule
