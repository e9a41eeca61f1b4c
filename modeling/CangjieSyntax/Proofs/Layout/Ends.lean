import CangjieSyntax.Proofs.Ending.Finishes
import CangjieSyntax.Proofs.Layout.Expressions

/-!
# Where expressions end

Behind an expression, no token has been taken that does not belong to it, and unless something has
been reported it lasts from the token it was begun at up to the last one taken. A rule that yields an
expression allocates its node last, so that only what goes on from an operand needs more: the rounds
of a chain and of operators keep the operand, or allocate another node around it.
-/

namespace CangjieSyntax

variable {env : Env} {J : Ground env} {call : Call} {α β : Type} {s t : ParseState} {start : Nat}
  {span : Span}

/-- No token has been taken behind an expression. Unless something has been reported, its span is the
one from an offset up to the last token taken. -/
def ParseState.EndsWith (s : ParseState) (start : Nat) (id : ExprId) : Prop :=
  ∃ node, s.nodes.exprs.get? id = some node ∧ s.prevStop ≤ node.span.stop
    ∧ (s.Excused ∨ node.span = s.spanFrom start)

lemma ParseState.EndsWith.of_frame {id : ExprId} (h : s.EndsWith start id)
    (hprevStop : t.prevStop = s.prevStop) (hnodes : t.nodes = s.nodes)
    (hexcused : s.Excused → t.Excused) : t.EndsWith start id := by
  obtain ⟨node, hnode, hle, hspan⟩ := h
  unfold EndsWith spanFrom
  rw [hprevStop, hnodes]
  exact ⟨node, hnode, hle, hspan.imp_left hexcused⟩

lemma ParseState.prevStop_le_spanFrom (s : ParseState) (start : Nat) :
    s.prevStop ≤ (s.spanFrom start).stop := by
  rw [spanFrom, Span.stop_ofBounds (Nat.le_max_right _ _)]
  exact Nat.le_max_left _ _

/-- From a state on, a rule takes no token behind the expression it yields, which was begun at an
offset. -/
abbrev Ends (env : Env) (start : Nat) (s : ParseState) (r : Rule ExprId) : Prop :=
  Ensures env s r fun id t => t.EndsWith start id

namespace Ensures

variable {r : Rule α} {k : α → Rule β} {Q : β → ParseState → Prop} {p : α → List Mark}
  {pre : List Mark} {lo : Nat}

/-- A rule that keeps to a region, and what comes behind it. -/
lemma lays (h : LaysFrom J lo s pre r p) (hk : ∀ a t, J.mem t → Ensures env t (k a) Q) :
    Ensures env s (r >>= k) Q :=
  .bind (fun a t e => (h a t e).1) hk

/-- Whatever is seen at a state, what comes behind it does as it should. -/
lemma viewAny {f : Source → ParseState → α} (hk : ∀ a, Ensures env s (k a) Q) :
    Ensures env s (Rule.view f >>= k) Q :=
  .view (hk _)

end Ensures

namespace Rule

/-! ## Nodes -/

lemma ends_allocExpr (form : ExprForm) (h : s.prevStop ≤ span.stop)
    (hspan : s.Excused ∨ span = s.spanFrom start) : Ends env start s (allocExpr form span) := by
  intro id t e
  cases e
  have hnode : (s.nodes.add (.expr ⟨form, span⟩)).get? (.expr s.nodes.exprs.next) = _ :=
    Nodes.get?_add_nextRef
  exact ⟨_, Nodes.get?_expr_eq_some.1 hnode, h, hspan⟩

/-- A node that is given the span from an offset up to the last token taken. -/
lemma ends_spanFrom (start : Nat) (form : ExprForm) (h : s.prevStop = t.prevStop) :
    Ends env start s (allocExpr form (t.spanFrom start)) := by
  refine ends_allocExpr form (h ▸ t.prevStop_le_spanFrom start) (.inr ?_)
  rw [ParseState.spanFrom, ParseState.spanFrom, h]

lemma ends_exprFrom (start : Nat) (form : ExprForm) : Ends env start s (exprFrom start form) :=
  .view (ends_spanFrom start form rfl)

/-- A type in the place of a value, with the span of the type. -/
lemma ends_typeValueOf (form : TypeForm) (h : s.prevStop = t.prevStop) : Ends env start s (do
    let type ← allocType form (t.spanFrom start)
    allocExpr (.typeValue type) (t.spanFrom start)) := by
  refine .bind (P := fun _ u => u.prevStop = t.prevStop) (fun type u e => ?_) fun type u hu =>
    ends_spanFrom start _ hu
  cases e
  exact h

/-- The placeholder of something that has been reported. -/
lemma ends_errorExpr (h : s.prevStop ≤ span.stop) (hexcused : s.Excused) :
    Ends env start s (errorExpr span) :=
  ends_allocExpr .error h (.inl hexcused)

/-! ## Single tokens -/

section

variable (hs : J.mem s)

include hs

lemma prevStop_le_tokenStop : s.prevStop ≤ s.lexer.span.stop := by
  have hfooted := J.footed hs
  rw [hfooted.lexer.stop_span]
  exact Nat.le_trans hfooted.prevStop_le hfooted.lexer.start_le

lemma ends_tokenExpr (form : ExprForm) : Ends env s.start s (tokenExpr form) := by
  have hfooted := J.footed hs
  have hprevStop := ParseState.Footed.prevStop_advance env s
  refine .view (.advance (ends_allocExpr form ?_ (.inr ?_)))
  · rw [hprevStop, hfooted.lexer.stop_span]
  · rw [ParseState.spanFrom, hprevStop, ParseState.start, Nat.max_eq_left hfooted.lexer.start_le,
      Lexer.span]

lemma ends_literal : Ends env s.start s literal :=
  .view (ends_tokenExpr hs _)

/-- A placeholder at a token, behind which that token may have been taken. -/
lemma ends_errorExpr_advance {m : Message} {args : List String} :
    Ends env start (s.report s.lexer.span m args) (do
      advance
      errorExpr s.lexer.span) := by
  have hexcused := (J.sound hs).report s.lexer.span m args
  refine .advance (ends_errorExpr ?_ (Step.excused (.advance _ : Step env _ _) hexcused))
  rw [ParseState.Footed.prevStop_advance, (s.report_place _ m args).1, (J.footed hs).lexer.stop_span]

lemma ends_expressionExpected : Ends env start s expressionExpected := by
  refine .view (.reportAt (.view ?_))
  split
  · refine ends_errorExpr ?_ ((J.sound hs).report _ _ _)
    rw [(s.report_place _ _ _).2]
    exact prevStop_le_tokenStop hs
  · exact ends_errorExpr_advance hs

lemma ends_strayDollar : Ends env start s strayDollar :=
  .view (.view (.reportAt (ends_errorExpr_advance hs)))

end

/-! ## Primary expressions -/

lemma ends_ifThen : Ends env s.start s (ifThen call) := by
  refine .view <| .behind fun _ _ => .behind fun condition _ => .behind fun body t => ?_
  extract_lets rest
  have hrest (otherwise : Option ExprId) (t : ParseState) : Ends env s.start t (rest otherwise) :=
    ends_exprFrom _ _
  clear_value rest
  refine .behind fun hasElse t => ?_
  split
  · refine .view ?_
    split
    · exact .behind fun otherwise _ => hrest _ _
    · exact .view <| .behind fun body _ => .behind fun otherwise _ => hrest _ _
  · exact hrest _ _

lemma ends_matchCases : Ends env s.start s (matchCases call) :=
  .view <| .behind fun _ _ => .behind fun _ _ => .behind fun _ _ => .behind fun _ _ =>
    .behind fun _ _ => ends_exprFrom _ _

lemma ends_forIn : Ends env s.start s (forIn call) :=
  .view <| .behind fun _ _ => .behind fun (_, _, _) _ => .behind fun _ _ => ends_exprFrom _ _

lemma ends_whileLoop : Ends env s.start s (whileLoop call) :=
  .view <| .behind fun _ _ => .behind fun _ _ => .behind fun _ _ => ends_exprFrom _ _

lemma ends_doWhile : Ends env s.start s (doWhile call) :=
  .view <| .behind fun _ _ => .behind fun _ _ => .behind fun _ _ => .behind fun _ _ =>
    ends_exprFrom _ _

lemma ends_tryCatch : Ends env s.start s (tryCatch call) := by
  refine .view <| .behind fun _ _ => .behind fun resources _ => .behind fun _ _ =>
    .behind fun _ _ => .behind fun _ _ => ?_
  dsimp only
  split
  · exact .behind fun _ _ => ends_exprFrom _ _
  · exact ends_exprFrom _ _

lemma ends_spawn : Ends env s.start s (spawn call) := by
  refine .view <| .behind fun _ _ => .behind fun context _ => .view ?_
  extract_lets rest
  have hrest (items : List BlockItem) (t : ParseState) : Ends env s.start t (rest items) :=
    .view (ends_exprFrom _ _)
  clear_value rest
  refine .behind fun opened t => ?_
  split
  · exact .behind fun _ _ => .behind fun _ _ => .behind fun _ _ => hrest _ _
  · exact hrest _ _

lemma ends_synchronized : Ends env s.start s (synchronized call) :=
  .view <| .behind fun _ _ => .behind fun _ _ => .behind fun _ _ => ends_exprFrom _ _

lemma ends_unsafeBlock : Ends env s.start s (unsafeBlock call) :=
  .view <| .behind fun _ _ => .behind fun _ _ => ends_exprFrom _ _

lemma ends_throwValue : Ends env s.start s (throwValue call) :=
  .view <| .behind fun _ _ => .behind fun _ _ => ends_exprFrom _ _

lemma ends_returnValue : Ends env s.start s (returnValue call) := by
  refine .view <| .behind fun _ _ => .view ?_
  dsimp only
  split
  · exact .behind fun _ _ => ends_exprFrom _ _
  · exact ends_exprFrom _ _

lemma ends_quote : Ends env s.start s (quote call) := by
  refine .view <| .behind fun _ _ => .behind fun opened t => ?_
  dsimp only
  split
  · exact .behind fun _ _ => .behind fun _ _ => ends_exprFrom _ _
  · exact ends_exprFrom _ _

lemma ends_macroCall : Ends env s.start s macroCall := by
  refine .view <| .behind fun _ _ => .behind fun name _ => .view ?_
  extract_lets rest
  have hrest (attributes : Option Span) (t : ParseState) : Ends env s.start t (rest attributes) := by
    refine .view ?_
    dsimp only
    split
    · exact .behind fun _ _ => ends_exprFrom _ _
    · exact .behind fun _ _ => .view (ends_exprFrom _ _)
  clear_value rest
  split
  · exact .behind fun _ _ => hrest _ _
  · exact hrest _ _

lemma ends_nameExpr : Ends env s.start s (nameExpr call) :=
  .view <| .behind fun _ _ => .behind fun _ _ => ends_exprFrom _ _

lemma ends_typeValue : Ends env s.start s (typeValue call) :=
  .view <| .behind fun _ _ => ends_exprFrom _ _

lemma ends_string : Ends env s.start s (string call) :=
  .view <| .view <| .behind fun _ _ => .behind fun _ _ => ends_exprFrom _ _

lemma ends_array : Ends env s.start s (array call) :=
  .view <| .behind fun _ _ => .behind fun _ _ => .behind fun _ _ => ends_exprFrom _ _

lemma ends_lambda (needsArrow : Bool) : Ends env s.start s (lambda call needsArrow) := by
  refine .view <| .behind fun _ _ => ?_
  extract_lets rest
  have hrest (params : List LambdaParam) (t : ParseState) : Ends env s.start t (rest params) :=
    .behind fun _ _ => .behind fun _ _ => .view (ends_spanFrom _ _ rfl)
  clear_value rest
  refine .behind fun result t => ?_
  cases result with
  | committed params => exact hrest _ _
  | rewound | exhausted =>
    dsimp only
    split
    · exact .behind fun _ _ => hrest _ _
    · exact hrest _ _

lemma ends_functionType (start : Nat) (elements : List (Option Name × ExprId)) :
    Ends env start s (functionType call start elements) :=
  .behind fun _ _ => .behind fun _ _ => .behind fun _ _ => .view (ends_typeValueOf _ rfl)

/-- Labels without an arrow are reported, and then read as types without a token being taken. -/
lemma ends_parenthesized (h : LaysOut J call) (hs : J.mem s) : Ends env s.start s (parenthesized call) := by
  refine .view <| .lays (takes_advance 0 s hs) fun _ t ht => ?_
  refine .lays (lays_optional _ 0 t ht) fun unit t ht => ?_
  split
  · refine .view ?_
    split
    · exact ends_functionType _ _
    · exact ends_exprFrom _ _
  · refine .lays (places_parenElements h 0 t ht) fun (elements, trailingComma) t ht => ?_
    refine .lays (takes_require _ 0 t ht) fun _ t ht => .view ?_
    split
    · exact ends_functionType _ _
    · split
      · refine .view (.reportAt ?_)
        refine .bind (P := fun _ u => u.prevStop = t.prevStop) (fun types u e => ?_) fun types u hu =>
          ends_typeValueOf _ hu
        have hreport := J.step ht
          (.report t (t.spanFrom s.start) .namedElementsRequireArrow [])
        exact (rereads_elementsToTypes hreport e).prevStop.trans (t.report_place _ _ _).2
      · exact ends_exprFrom _ _

section

variable (hs : J.mem s)

include hs

lemma ends_keywordExpr (k : Keyword) : Ends env s.start s (keywordExpr call k) := by
  unfold keywordExpr
  split
  · exact ends_literal hs
  · exact ends_literal hs
  · exact ends_tokenExpr hs _
  · exact ends_tokenExpr hs _
  · exact ends_tokenExpr hs _
  · exact ends_tokenExpr hs _
  · exact ends_ifThen
  · exact ends_matchCases
  · exact ends_forIn
  · exact ends_whileLoop
  · exact ends_doWhile
  · exact ends_tryCatch
  · exact ends_throwValue
  · exact ends_returnValue
  · exact ends_spawn
  · exact ends_synchronized
  · exact ends_unsafeBlock
  · exact ends_quote
  · exact ends_expressionExpected hs

variable (h : LaysOut J call)

include h

lemma ends_markExpr (p : Punctuation) : Ends env s.start s (markExpr call p) := by
  unfold markExpr
  split
  · exact ends_tokenExpr hs _
  · exact ends_parenthesized h hs
  · exact ends_array
  · exact ends_lambda _
  · exact ends_typeValue
  · exact ends_typeValue
  · exact ends_macroCall
  · exact ends_expressionExpected hs

lemma ends_primary : Ends env s.start s (primary call) := by
  refine .view ?_
  split
  · exact ends_keywordExpr hs _
  · exact ends_markExpr hs h _
  · exact ends_string
  · exact ends_string
  · exact ends_nameExpr
  · exact ends_nameExpr
  · exact ends_strayDollar hs
  · split
    · exact ends_literal hs
    · exact ends_expressionExpected hs

end

/-! ## Chains and operators -/

lemma ends_link? {operand : ExprId} {start : Nat} {isOptional sameLine : Bool} {k : Kind}
    {r : Rule ExprId} (e : link? call operand start isOptional sameLine k = some r) :
    Ends env start s r := by
  unfold link? at e
  split at e
  · cases e
    exact .behind fun _ _ => .behind fun _ _ => .behind fun _ _ => ends_exprFrom _ _
  · split at e <;> cases e
    exact .behind fun _ _ => .behind fun _ _ => .behind fun _ _ => ends_exprFrom _ _
  · split at e <;> cases e
    refine .behind fun _ _ => .view ?_
    dsimp only
    split
    · exact .view <| .behind fun _ _ => .behind fun _ _ => ends_exprFrom _ _
    · exact .behind fun _ _ => .behind fun _ _ => ends_exprFrom _ _
  · split at e <;> cases e
    exact .behind fun _ _ => ends_exprFrom _ _
  · exact nomatch e

/-- A question mark is only taken in front of a link, or another node is allocated behind it. -/
lemma ends_chainRound (start : Nat) (b : ExprId × Bool) (hb : s.EndsWith start b.1) :
    Ensures env s (chainRound call start b) (Sum.elim (fun b t => t.EndsWith start b.1) fun id t =>
      t.EndsWith start id) := by
  obtain ⟨operand, hasOptional⟩ := b
  refine .viewAny fun isOptional => ?_
  extract_lets isChain rest
  have hrest (t : ParseState) (u : Unit) (ht : isChain = true ∨ t.EndsWith start operand) :
      Ensures env t (rest u) (Sum.elim (fun b t => t.EndsWith start b.1) fun id t =>
        t.EndsWith start id) := by
    refine .view (.view ?_)
    split
    case h_1 r hlink => exact (ends_link? hlink).bind fun id u hu => .pure hu
    case h_2 =>
      split
      · exact (ends_exprFrom _ _).bind fun id u hu => .pure hu
      case isFalse hplain => exact .pure (ht.resolve_left hplain)
  clear_value rest
  split
  case isTrue hoptional => exact .behind fun _ t => hrest t () (.inl (by simp [isChain, hoptional]))
  case isFalse => exact hrest s () (.inr hb)

lemma ends_stepsRound (start : Nat) (operand : ExprId) (h : s.EndsWith start operand) :
    Ensures env s (stepsRound start operand) (Sum.elim (fun id t => t.EndsWith start id) fun id t =>
      t.EndsWith start id) := by
  refine .view (.view ?_)
  split
  · exact .behind fun _ _ => (ends_exprFrom _ _).bind fun id u hu => .pure hu
  · exact .pure h

/-- Looking at an operator takes no token. -/
lemma ensures_operatorKind_frame :
    Ensures env s operatorKind fun _ t =>
      t.prevStop = s.prevStop ∧ t.nodes = s.nodes ∧ (s.Excused → t.Excused) := by
  intro k t e
  change (if s.kind = .mark .greater then _ else _ : Rule Kind) env s = _ at e
  split at e
  · cases e
    refine ⟨rfl, rfl, ?_⟩
    unfold ParseState.Excused ParseState.Reported
    rw [Lexer.log_joinGreater]
    exact id
  · cases e
    exact ⟨rfl, rfl, id⟩

lemma ends_typeTest (start : Nat) (form : TypeId → ExprForm) :
    Ends env start s (typeTest call start form) :=
  .behind fun _ _ => .behind fun _ _ => ends_exprFrom _ _

lemma ends_rangeTail (lower : Option ExprId) (start : Nat) :
    Ends env start s (rangeTail call lower start) := by
  refine .view <| .behind fun _ _ => .view ?_
  extract_lets rest
  have hrest (upper : Option ExprId) (t : ParseState) : Ends env start t (rest upper) :=
    .behind fun _ _ => ends_exprFrom _ _
  clear_value rest
  split
  · exact .behind fun _ _ => hrest _ _
  · exact hrest _ _

/-- Where no operation stands, no token is taken behind the left operand. -/
lemma ends_operationRound (above start : Nat) (lhs : ExprId) (h : s.EndsWith start lhs) :
    Ensures env s (operationRound call above start lhs) (Sum.elim
      (fun id t => t.EndsWith start id) fun id t => t.EndsWith start id) := by
  refine .bind (P := fun o t => t.EndsWith start (o.getD lhs)) ?_ fun o t ht => ?_
  · refine .bind ensures_operatorKind_frame fun k t ⟨hprevStop, hnodes, hexcused⟩ => ?_
    have stays : Ensures env t (Pure.pure none : Rule (Option ExprId)) fun o t =>
        t.EndsWith start (o.getD lhs) := .pure (h.of_frame hprevStop hnodes hexcused)
    split
    · split
      · exact stays
      · exact (ends_typeTest _ _).bind fun id u hu => .pure hu
    · split
      · exact stays
      · exact (ends_typeTest _ _).bind fun id u hu => .pure hu
    · split
      · exact stays
      · exact (ends_rangeTail _ _).bind fun id u hu => .pure hu
    · split
      · exact stays
      · exact (ends_rangeTail _ _).bind fun id u hu => .pure hu
    · split
      · exact stays
      · split
        · exact stays
        · refine .view ?_
          split
          · exact stays
          · exact .behind fun _ _ => .behind fun _ _ => (ends_exprFrom _ _).bind fun id u hu => .pure hu
  · cases o with
    | some operation => exact .pure ht
    | none => exact .pure ht

/-- Past the depth allowed, the placeholder has the span of the token. -/
lemma ends_nested {body : Rule ExprId} (hs : J.mem s)
    (h : ∀ t, J.mem t → t.start = start → Ends env start t body) (hstart : s.start = start) :
    Ends env start s (nested errorExpr body) := by
  change Ends env start s (if env.settings.maxDepth ≤ s.depth then _ else _)
  split
  · refine .view (.bind (P := fun _ t => t.prevStop = s.prevStop ∧ t.Excused) (fun _ t e => ?_)
      fun _ t ht => ?_)
    · cases e
      exact ⟨(s.reportDepth_place _ _).2, (J.sound hs).reportDepth _ _⟩
    · exact ends_errorExpr (ht.1.trans_le (prevStop_le_tokenStop hs)) ht.2
  case isFalse hdepth =>
    refine .bind (P := fun _ t => J.mem t ∧ t.start = start) (fun _ t e => ?_) fun _ t ht =>
      (h t ht.1 ht.2).bind fun id u hu => .bind (P := fun _ v => v.EndsWith start id)
        (fun _ v e => ?_) fun _ v hv => .pure hv
    · cases e
      exact ⟨J.step hs (.deeper (Nat.lt_of_not_le hdepth)), hstart⟩
    · cases e
      exact hu.of_frame rfl rfl fun hexcused => hexcused

section

variable (h : LaysOut J call) (hs : J.mem s)

include h hs

lemma ends_steps : Ends env s.start s (steps call) := by
  have chain : Ends env s.start s (chain call) :=
    .view <| (ends_primary hs h).bind fun operand t ht =>
      .loop_invariant (fun b s hb => ends_chainRound _ b hb) ht
  exact .view <| chain.bind fun operand t ht =>
    .loop_invariant (fun id s hid => ends_stepsRound _ id hid) ht

lemma ends_unary : Ends env s.start s (unary call) := by
  refine .view ?_
  split
  · exact .view <| .behind fun _ _ => .behind fun _ _ => ends_exprFrom _ _
  · exact ends_steps h hs

lemma ends_binary (above : Nat) : Ends env s.start s (binary call above) := by
  refine ends_nested hs (fun t ht hstart => .view ?_) rfl
  rw [← hstart]
  exact (ends_unary h ht).bind fun operand _ hu =>
    .loop_invariant (fun id _ hid => ends_operationRound above _ id hid) hu

theorem ends_statement : Ends env s.start s (statement call) := by
  refine .view <| (ends_binary h hs _).bind fun target t ht => ?_
  refine .bind ensures_operatorKind_frame fun k u ⟨hprevStop, hnodes, hexcused⟩ => ?_
  split
  · exact .pure (ht.of_frame hprevStop hnodes hexcused)
  · refine .behind fun _ _ => .behind fun _ _ => ?_
    dsimp only
    split
    · exact .behind fun _ _ => ends_exprFrom _ _
    · exact .behind fun _ _ => .behind fun _ _ => .behind fun _ _ => ends_exprFrom _ _

theorem ends_expression : Ends env s.start s (expression call) := by
  refine .view <| (ends_binary h hs _).bind fun target t ht => ?_
  refine .bind ensures_operatorKind_frame fun k u ⟨hprevStop, hnodes, hexcused⟩ => ?_
  split
  · exact .pure (ht.of_frame hprevStop hnodes hexcused)
  · exact .behind fun _ _ => .behind fun _ _ => .behind fun _ _ => ends_exprFrom _ _

end

end Rule

end CangjieSyntax
