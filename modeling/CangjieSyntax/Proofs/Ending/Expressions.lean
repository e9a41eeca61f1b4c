import CangjieSyntax.Proofs.Ending.Control
import CangjieSyntax.Proofs.Ending.Primary
import CangjieSyntax.Proofs.Grammar.Expressions

/-!
# Expressions are read to their end

What an operand starts with is read in front of the first token, links and operators each start with
a token of their own.
-/

namespace CangjieSyntax.Rule

variable {env : Env} {B J K : Region env} {allowed : Kind → Prop} {call : Call}
  {s t u : ParseState}

/-! ## Links -/

lemma always_strayDollar : Always strayDollar :=
  .view fun span => .view fun _ => .bind (always_reportAt _ _ _) fun _ =>
    .bind always_advance fun _ => always_errorExpr span

lemma always_memberName : Always memberName := by
  refine .view fun k => ?_
  split
  · refine .view fun text => .view fun span => .bind (always_name _ _) fun n => ?_
    exact .bind always_advance fun _ => .pure n
  · exact .bind (always_report _ _) fun _ => always_missingName

/-- There is no link at the end of the text. -/
lemma link?_endOfFile (operand : ExprId) (start : Nat) (isOptional sameLine : Bool) :
    link? call operand start isOptional sameLine .endOfFile = none := by
  unfold link?
  rfl

section

variable (h : Responds K allowed call)

include h

lemma finishes_fieldLink (target : ExprId) (start : Nat) (isOptional : Bool)
    (hs : K.At 0 (s.advance env.src)) :
    Finishes env s (fieldLink call target start isOptional) := by
  refine .behind hs (.next yields_memberName always_memberName.returns fun name => ?_)
  refine .next (yields_typeArguments? h.settled h.types.yields) ?_ fun typeArgs => ?_
  · exact returns_typeArguments? h
  · exact (always_exprFrom _ _).returns

lemma returns_argument : Returns K 0 (argument call) := by
  refine .view fun start => .next yields_label? always_label?.returns fun name => ?_
  refine .optional _ fun inout => ?_
  exact .next h.obeysHere.expression h.expression fun value => .view fun span => .pure _

lemma finishes_callLink (callee : ExprId) (start : Nat) (isOptional : Bool)
    (hs : K.At 0 (s.advance env.src)) :
    Finishes env s (callLink call callee start isOptional) := by
  have hargs := h.list (.mark .closeParen) (fun K _ hcall => yields_argument hcall)
    (returns_argument h)
  refine .behind hs (.next (yields_list _ (yields_argument h.obeysHere)) hargs fun args => ?_)
  exact .require _ fun _ => (always_exprFrom _ _).returns

lemma finishes_rangeTail (lower : Option ExprId) (start : Nat) (hs : K.At 0 (s.advance env.src)) :
    Finishes env s (rangeTail call lower start) := by
  refine .view (.behind hs (.view fun k => ?_))
  extract_lets rest
  have hrest (stop : Option ExprId) : Returns K 0 (rest stop) := by
    refine .next (yields_behind _ (h.obeysHere.binary _)) ?_ fun step => ?_
    · exact returns_behind _ (h.obeysHere.binary _) (h.binary _)
    · exact (always_exprFrom _ _).returns
  clear_value rest
  split
  · exact .next (h.obeysHere.binary _) (h.binary _) fun stop => hrest (some stop)
  · exact hrest none

lemma finishes_indexLink (target : ExprId) (start : Nat) (isOptional : Bool)
    (hs : K.At 0 (s.advance env.src)) :
    Finishes env s (indexLink call target start isOptional) := by
  refine .behind hs (.view fun k => ?_)
  extract_lets rest
  have hrest (index : ExprId) : Returns K 0 (rest index) :=
    .require _ fun _ => (always_exprFrom _ _).returns
  clear_value rest
  split
  · refine .view fun here => ?_
    refine .next (reads_rangeTail none here h.obeysHere) (fun t ht => ?_) hrest
    exact finishes_rangeTail h none here (ht.advance (K.step ht.mem (.advance t)))
  · exact .next h.obeysHere.expression h.expression hrest

lemma finishes_lambdaLink (callee : ExprId) (start : Nat) (isOptional : Bool)
    (hs : K.At 0 (s.advance env.src)) :
    Finishes env s (lambdaLink call callee start isOptional) :=
  .bind (finishes_lambda h false hs) fun _ t _ => always_exprFrom _ _ env t

/-- Whatever link is found takes a token first. -/
lemma finishes_link? {operand : ExprId} {start : Nat} {isOptional sameLine : Bool} {k : Kind}
    {r : Rule ExprId} (e : link? call operand start isOptional sameLine k = some r)
    (hs : K.At 0 (s.advance env.src)) : Finishes env s r := by
  unfold link? at e
  split at e
  · cases e
    exact finishes_fieldLink h operand start isOptional hs
  · split at e <;> cases e
    exact finishes_callLink h operand start isOptional hs
  · split at e <;> cases e
    exact finishes_indexLink h operand start isOptional hs
  · split at e <;> cases e
    exact finishes_lambdaLink h operand start isOptional hs
  · exact nomatch e

end

/-! ## Primary expressions -/

section

variable (h : Opens B K allowed call)

include h

lemma finishes_nameExpr (hs : B.At 0 s) (hkind : s.kind.isIdentifier) :
    Finishes env s (nameExpr call) := by
  refine .view (h.before.identifier hs hkind fun name => ?_)
  have hJ := h.responds.settled
  refine .next (yields_typeArguments? hJ h.responds.types.yields) ?_ fun typeArgs => ?_
  · exact returns_typeArguments? h.responds
  · exact (always_exprFrom _ _).returns

lemma returns_typeValue : Returns B 0 (typeValue call) :=
  .view fun _ => .next (h.types.yields B) h.types.returns fun _ => (always_exprFrom _ _).returns

lemma finishes_keywordExpr (k : Keyword) (hs : B.At 0 s) (hkind : s.kind = .keyword k) :
    Finishes env s (keywordExpr call k) := by
  have hbehind := h.before.at hs fun e => nomatch hkind.symm.trans e
  unfold keywordExpr
  split
  · exact always_literal env s
  · exact always_literal env s
  · exact always_tokenExpr .this env s
  · exact always_tokenExpr .super env s
  · exact always_tokenExpr .breakLoop env s
  · exact always_tokenExpr .continueLoop env s
  · exact finishes_ifThen h.responds hbehind
  · exact finishes_matchCases h.responds hbehind
  · exact finishes_forIn h.responds hbehind
  · exact finishes_whileLoop h.responds hbehind
  · exact finishes_doWhile h.responds hbehind
  · exact finishes_tryCatch h.responds hbehind
  · exact finishes_throwValue h.responds hbehind
  · exact finishes_returnValue h.responds hbehind
  · exact finishes_spawn h.responds hbehind
  · exact finishes_synchronized h.responds hbehind
  · exact finishes_unsafeBlock h.responds hbehind
  · exact finishes_quote h.responds hbehind
  · exact always_expressionExpected env s

lemma finishes_markExpr (p : Punctuation) (hs : B.At 0 s) (hkind : s.kind = .mark p) :
    Finishes env s (markExpr call p) := by
  have hbehind := h.before.at hs fun e => nomatch hkind.symm.trans e
  unfold markExpr
  split
  · exact always_tokenExpr .wildcard env s
  · exact finishes_parenthesized h.responds hbehind
  · exact finishes_array h.responds hbehind
  · exact finishes_lambda h.responds true hbehind
  · exact returns_typeValue h s hs
  · exact returns_typeValue h s hs
  · exact finishes_macroCall h.responds.underway hbehind.mem
  · exact always_expressionExpected env s

lemma returns_primary : Returns B 0 (primary call) := by
  intro s hs
  refine .view ?_
  split
  case h_1 k hk => exact finishes_keywordExpr h k hs hk
  case h_2 p hk => exact finishes_markExpr h p hs hk
  case h_3 hk =>
    exact finishes_string h.responds (h.before.at hs fun e => nomatch hk.symm.trans e)
  case h_4 hk =>
    exact finishes_string h.responds (h.before.at hs fun e => nomatch hk.symm.trans e)
  case h_5 hk => exact finishes_nameExpr h hs (by rw [hk]; rfl)
  case h_6 hk => exact finishes_nameExpr h hs (by rw [hk]; rfl)
  case h_7 => exact always_strayDollar env s
  case h_8 =>
    split
    · exact always_literal env s
    · exact always_expressionExpected env s

end

/-! ## Chains -/

/-- An optional link starts with a question mark. -/
lemma ensures_atOptionalLink :
    Ensures env s atOptionalLink fun found t => s = t ∧ (found → s.kind = .mark .question) := by
  rintro found t ⟨⟩
  refine ⟨rfl, fun hfound => ?_⟩
  rw [Bool.and_eq_true] at hfound
  exact eq_of_beq hfound.1

/-- A round that goes on has taken a question mark or the token that its link starts with. -/
lemma consumes_chainRound (h : Steady J allowed call) (start : Nat) (b : ExprId × Bool)
    (hs : J.mem s) : Consumes env s (chainRound call start b) := by
  obtain ⟨operand, hasOptional⟩ := b
  have hJ := h.settledPast s.lexer
  have hobeys := h.obeysPast s.lexer
  refine ensures_atOptionalLink.bind fun isOptional _ hoptional => ?_
  obtain ⟨rfl, hoptional⟩ := hoptional
  extract_lets isChain rest
  -- A link keeps to what is behind the token if it starts there or takes the token itself.
  have hrest (t : ParseState) (ht : t.kind ≠ .endOfFile →
      s.kind ≠ .endOfFile ∧ (J.past allowed s.lexer).mem (t.advance env.src)) :
      Ensures env t (rest ()) fun next u => next.isLeft → s.Consumes u := by
    refine .view (.view ?_)
    split
    case h_1 r hlink =>
      obtain ⟨hkind, hbehind⟩ := ht fun e => by
        rw [e, link?_endOfFile] at hlink
        exact nomatch hlink
      exact .reads (readsFrom_link? hJ hobeys hlink hbehind) fun id u hu =>
        .pure fun _ => consumes_past hkind rfl hu
    case h_2 =>
      split
      · exact .behind fun _ _ => .pure nofun
      · exact .pure nofun
  clear_value rest
  split
  case isTrue hfound =>
    have hkind : s.kind ≠ .endOfFile := fun e => nomatch (hoptional hfound).symm.trans e
    have hpast := h.past hs hkind
    exact .advance (hrest _ fun _ => ⟨hkind, (J.past allowed s.lexer).step hpast (.advance _)⟩)
  case isFalse => exact hrest s fun hkind => ⟨hkind, h.past hs hkind⟩

section

variable (h : Opens B K allowed call)

include h

lemma returns_chainRound (start : Nat) (b : ExprId × Bool) :
    Returns B 0 (chainRound call start b) := by
  obtain ⟨operand, hasOptional⟩ := b
  intro s hs
  refine .bind ⟨_, _, rfl⟩ fun isOptional _ e => ?_
  obtain ⟨rfl, hoptional⟩ := ensures_atOptionalLink _ _ e
  extract_lets isChain rest
  have hrest (C : Region env) (hbefore : C.Before K) : Returns C 0 (rest ()) := by
    intro t ht
    refine .view (.view ?_)
    split
    case h_1 r hlink =>
      have hbehind := hbefore.at ht fun e => by
        rw [e, link?_endOfFile] at hlink
        exact nomatch hlink
      exact .bind (finishes_link? h.responds hlink hbehind) fun _ _ _ => .pure _
    case h_2 =>
      split
      · exact .bind (always_exprFrom _ _ env t) fun _ _ _ => .pure _
      · exact .pure _
  clear_value rest
  split
  case isTrue hfound =>
    have hbehind := h.before.at hs fun e => nomatch (hoptional hfound).symm.trans e
    exact .behind hbehind (hrest K K.before_self)
  case isFalse => exact hrest B h.before s hs

lemma returns_chain : Returns B 0 (chain call) := by
  refine .view fun start => ?_
  refine .bind (yields_primary h.settled h.obeysHere) (returns_primary h) fun operand => ?_
  have hreads := reads_chainRound start h.settled h.obeysHere
  refine .weaken (add_zero (parts operand)).le (.loop h.underway hreads ?_ ?_ (operand, false))
  · exact fun b => (returns_chainRound h start b).drop
  · exact fun b s hs => consumes_chainRound h.toSteady start b hs

end

/-! ## Operators -/

lemma consumes_stepsRound (start : Nat) (operand : ExprId) (hs : J.mem s)
    (hway : s.Underway env allowed) : Consumes env s (stepsRound start operand) := by
  refine .view (.view ?_)
  split
  case h_1 op hop _ =>
    have hkind : s.kind ≠ .endOfFile := by
      intro e
      rw [e] at hop
      exact nomatch hop
    have hpast := Region.past_advance hs hway hkind
    exact .advance (.reads (reads_exprFrom _ _ _ hpast) fun id t ht =>
      .pure fun _ => consumes_past hkind rfl ht)
  case h_2 => exact .pure nofun

section

variable (h : Opens B K allowed call)

include h

lemma returns_steps : Returns B 0 (steps call) := by
  refine .view fun start => ?_
  refine .bind (yields_chain h.settled h.obeysHere) (returns_chain h) fun operand => ?_
  refine .loop h.underway (reads_stepsRound start) (fun operand => .view fun k => .view fun _ => ?_)
    (fun operand s hs => consumes_stepsRound start operand hs (h.underway hs)) operand
  split
  · exact Always.returns (.bind always_advance fun _ => .bind (always_exprFrom _ _) fun _ => .pure _)
  · exact .pure _

lemma returns_unary : Returns B 0 (unary call) := by
  intro s hs
  refine .view ?_
  split
  case h_1 op hop =>
    have hbehind := h.before.at hs fun e => by
      rw [e] at hop
      exact nomatch hop
    have hK := h.responds
    refine .view (.behind hbehind ?_)
    refine .next (reads_nested reads_errorExpr hK.obeysHere.unary) ?_ fun operand => ?_
    · exact returns_nested always_errorExpr hK.unary
    · exact (always_exprFrom _ _).returns
  case h_2 => exact returns_steps h s hs

end

/-- What is found where an operator may stand is the token there, joined from several marks. -/
lemma ensures_operatorKind (hJ : J.Settled) (hs : J.mem s) :
    Ensures env s operatorKind fun k t => J.mem t ∧ t.kind = k := by
  intro k t e
  obtain ⟨ht, -⟩ := quiet_operatorKind hJ s hs k t e
  refine ⟨ht, ?_⟩
  change (if s.kind = .mark .greater then _ else _ : Rule Kind) env s = _ at e
  split at e
  · rw [ParseState.kind_of_settled (hJ.tentative ht)]
    cases e
    rfl
  · cases e
    rfl

/-- Where an operator may stand, the token there is looked at with all that is held still held. -/
lemma finishes_operatorKind {β : Type} {held : Multiset Part} {k : Kind → Rule β} (hJ : J.Settled)
    (hs : J.At held s) (hk : ∀ t, J.At held t → Finishes env t (k t.kind)) :
    Finishes env s (operatorKind >>= k) := by
  refine .bind (always_operatorKind env s) fun found t e => ?_
  obtain ⟨-, rfl⟩ := ensures_operatorKind hJ hs.mem _ _ e
  have hkeeps := (quiet_operatorKind hJ).frame held s hs.mem
  simp only [add_zero] at hkeeps
  exact hk t (hs.after hkeeps e)

/-- An operation that is found has taken its operator. -/
lemma ensures_operation? (h : Steady J allowed call) (above start : Nat) (lhs : ExprId)
    (hs : J.mem s) :
    Ensures env s (operation? call above start lhs) fun o t => o.isSome → s.Consumes t := by
  refine (ensures_operatorKind (h.settledSince s.lexer) (h.since hs)).bind ?_
  rintro k t ⟨ht, rfl⟩
  have hJ := h.settledPast t.lexer
  have hobeys := h.obeysPast t.lexer
  have taken (hkind : t.kind ≠ .endOfFile) {held : Multiset Part} {r : Rule ExprId}
      (hr : ReadsFrom (J.past allowed t.lexer) t held r parts) :
      Ensures env t (do return some (← r)) fun o u => o.isSome → s.Consumes u :=
    (Ensures.past hkind hr).bind fun _ _ hu => .pure fun _ => hu.since ht.2.2
  split
  case h_1 hk =>
    have hkind : t.kind ≠ .endOfFile := fun e => nomatch hk.symm.trans e
    split
    · exact .pure nofun
    · exact taken hkind (readsFrom_typeTest start (fun _ => rfl) hJ hobeys (h.past ht.1 hkind))
  case h_2 hk =>
    have hkind : t.kind ≠ .endOfFile := fun e => nomatch hk.symm.trans e
    split
    · exact .pure nofun
    · exact taken hkind (readsFrom_typeTest start (fun _ => rfl) hJ hobeys (h.past ht.1 hkind))
  case h_3 hk =>
    have hkind : t.kind ≠ .endOfFile := fun e => nomatch hk.symm.trans e
    split
    · exact .pure nofun
    · exact taken hkind (readsFrom_rangeTail (some lhs) start hobeys (h.past ht.1 hkind))
  case h_4 hk =>
    have hkind : t.kind ≠ .endOfFile := fun e => nomatch hk.symm.trans e
    split
    · exact .pure nofun
    · exact taken hkind (readsFrom_rangeTail (some lhs) start hobeys (h.past ht.1 hkind))
  case h_5 =>
    split
    case h_1 => exact .pure nofun
    case h_2 op hop =>
      have hkind : t.kind ≠ .endOfFile := by
        intro e
        rw [e] at hop
        exact nomatch hop
      split
      · exact .pure nofun
      refine .view ?_
      split
      · exact .pure nofun
      · refine .advance (.reads (hobeys.binary _ _ (h.past ht.1 hkind)) fun rhs u hu => ?_)
        exact .reads (reads_exprFrom _ _ u hu) fun _ _ hv =>
          .pure fun _ => (consumes_past hkind rfl hv).since ht.2.2

lemma consumes_operationRound (h : Steady J allowed call) (above start : Nat) (lhs : ExprId)
    (hs : J.mem s) : Consumes env s (operationRound call above start lhs) := by
  refine (ensures_operation? h above start lhs hs).bind fun o t ht => ?_
  cases o with
  | some operation => exact .pure fun _ => ht rfl
  | none => exact .pure nofun

lemma finishes_typeTest (h : Responds K allowed call) (start : Nat) (form : TypeId → ExprForm)
    (hs : K.At 0 (s.advance env.src)) : Finishes env s (typeTest call start form) := by
  refine .behind hs (.next (yields_typeOperand h.settled h.types.yields) ?_ fun type => ?_)
  · exact returns_typeOperand h
  · exact (always_exprFrom _ _).returns

section

variable (h : Opens B K allowed call)

include h

lemma returns_operation? (above start : Nat) (lhs : ExprId) :
    Returns B 0 (operation? call above start lhs) := by
  have hK := h.responds
  intro s hs
  refine finishes_operatorKind h.settled hs fun t ht => ?_
  have found {r : Rule ExprId} (hr : Finishes env t r) : Finishes env t (do return some (← r)) :=
    hr.bind fun _ _ _ => .pure _
  split
  case h_1 hk =>
    have hbehind := h.before.at ht fun e => nomatch hk.symm.trans e
    split
    · exact .pure _
    · exact found (finishes_typeTest hK start _ hbehind)
  case h_2 hk =>
    have hbehind := h.before.at ht fun e => nomatch hk.symm.trans e
    split
    · exact .pure _
    · exact found (finishes_typeTest hK start _ hbehind)
  case h_3 hk =>
    have hbehind := h.before.at ht fun e => nomatch hk.symm.trans e
    split
    · exact .pure _
    · exact found (finishes_rangeTail hK (some lhs) start hbehind)
  case h_4 hk =>
    have hbehind := h.before.at ht fun e => nomatch hk.symm.trans e
    split
    · exact .pure _
    · exact found (finishes_rangeTail hK (some lhs) start hbehind)
  case h_5 =>
    split
    case h_1 => exact .pure _
    case h_2 op hop =>
      have hbehind := h.before.at ht fun e => by
        rw [e] at hop
        exact nomatch hop
      split
      · exact .pure _
      refine .view ?_
      split
      · exact .pure _
      · refine .behind hbehind (.next (hK.obeysHere.binary _) (hK.binary _) fun rhs => ?_)
        exact Always.returns (.bind (always_exprFrom _ _) fun _ => .pure _)

lemma returns_binary (above : Nat) : Returns B 0 (binary call above) := by
  refine returns_nested always_errorExpr (.view fun start => ?_)
  have hobeys := h.obeysHere
  refine .bind (yields_unary h.settled hobeys) (returns_unary h) fun operand => ?_
  refine .loop h.underway (reads_operationRound above start h.settled hobeys) (fun lhs => ?_)
    (fun lhs s hs => consumes_operationRound h.toSteady above start lhs hs) operand
  refine .bind (reads_operation? above start lhs h.settled hobeys) ?_ fun o => ?_
  · exact (returns_operation? h above start lhs).drop
  · cases o with
    | some operation => exact .pure _
    | none => exact .pure _

/-! ## Assignments -/

lemma returns_statement : Returns B 0 (statement call) := by
  have hK := h.responds
  refine .view fun start => ?_
  refine .bind (yields_binary _ h.settled h.obeysHere) (returns_binary h _) fun target s hs => ?_
  refine finishes_operatorKind h.settled hs fun t ht => ?_
  split
  case h_1 => exact .pure _
  case h_2 op hop =>
    have hbehind := h.before.at ht fun e => by
      rw [e] at hop
      exact nomatch hop
    have assigned : Returns K (parts target) (do
        let value ← call .statement
        exprFrom start (.assign op target value)) :=
      .next hK.obeysHere.statement hK.statement.drop fun value => (always_exprFrom _ _).returns
    refine .advance (finishes_isAssignable hbehind fun assignable => ?_)
    split
    · exact assigned _ hbehind
    · refine finishes_exprSpan hbehind fun span => ?_
      exact Returns.reportAt _ _ _ (fun _ => assigned) _ hbehind

lemma returns_expression : Returns B 0 (expression call) := by
  have hK := h.responds
  refine .view fun start => ?_
  refine .next (yields_binary _ h.settled h.obeysHere) (returns_binary h _) fun target s hs => ?_
  refine finishes_operatorKind h.settled hs fun t ht => ?_
  split
  case h_1 => exact .pure _
  case h_2 op hop =>
    have hkind : t.kind ≠ .endOfFile := by
      intro e
      rw [e] at hop
      exact nomatch hop
    have hbehind := h.before.at (ht.report t.lexer.span .assignmentOnlyAsStatement [])
      ((h.kind_report ht.mem _ _ _).trans_ne hkind)
    refine .report (.behind hbehind ?_)
    exact .next hK.obeysHere.expression hK.expression fun value => (always_exprFrom _ _).returns

end

end CangjieSyntax.Rule
