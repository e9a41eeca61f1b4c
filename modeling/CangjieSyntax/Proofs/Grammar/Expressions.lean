import CangjieSyntax.Grammar.Expressions
import CangjieSyntax.Proofs.Grammar.Control
import CangjieSyntax.Proofs.Grammar.Primary

/-!
# What the rules of expressions hold

Primary expressions, chains of links, operators and assignments. Each link and each operator holds
what stands in front of it until its own node is allocated.
-/

namespace CangjieSyntax.Rule

variable {env : Env} {J : Region env} {call : Call}

/-! ## Primary expressions -/

lemma yields_nameExpr (hJ : J.Settled) (h : Obeys J call) : Yields J (nameExpr call) := by
  refine .view fun start => .first yields_identifier fun name => ?_
  exact .next (yields_typeArguments? hJ h.type) fun typeArgs => reads_exprFrom _ _

lemma yields_strayDollar : Yields J strayDollar := by
  refine .view fun span => .view fun text => .bind (reads_reportAt _ _ _) fun _ => ?_
  exact .skip quiet_advance fun _ => reads_errorExpr span

lemma yields_typeValue (h : Obeys J call) : Yields J (typeValue call) :=
  .view fun _ => .first (h.type J) fun _ => reads_exprFrom _ _

lemma yields_keywordExpr (k : Keyword) (hJ : J.Settled) (h : Obeys J call) :
    Yields J (keywordExpr call k) := by
  unfold keywordExpr
  split
  · exact yields_literal
  · exact yields_literal
  · exact reads_tokenExpr .this
  · exact reads_tokenExpr .super
  · exact reads_tokenExpr .breakLoop
  · exact reads_tokenExpr .continueLoop
  · exact yields_ifThen hJ h
  · exact yields_matchCases hJ h
  · exact yields_forIn hJ h
  · exact yields_whileLoop hJ h
  · exact yields_doWhile hJ h
  · exact yields_tryCatch hJ h
  · exact yields_throwValue h
  · exact yields_returnValue h
  · exact yields_spawn hJ h
  · exact yields_synchronized hJ h
  · exact yields_unsafeBlock hJ h
  · exact yields_quote h
  · exact yields_expressionExpected

lemma yields_markExpr (p : Punctuation) (hJ : J.Settled) (h : Obeys J call) :
    Yields J (markExpr call p) := by
  unfold markExpr
  split
  · exact reads_tokenExpr .wildcard
  · exact yields_parenthesized h
  · exact yields_array h
  · exact yields_lambda true hJ h
  · exact yields_typeValue h
  · exact yields_typeValue h
  · exact yields_macroCall
  · exact yields_expressionExpected

lemma yields_primary (hJ : J.Settled) (h : Obeys J call) : Yields J (primary call) := by
  refine .view fun k => ?_
  split
  · exact yields_keywordExpr _ hJ h
  · exact yields_markExpr _ hJ h
  · exact yields_string hJ h
  · exact yields_string hJ h
  · exact yields_nameExpr hJ h
  · exact yields_nameExpr hJ h
  · exact yields_strayDollar
  · split
    · exact yields_literal
    · exact yields_expressionExpected

/-! ## Chains -/

/-- The name of a member is a keyword, which has a text, or an identifier. -/
lemma excused_of_memberName {s : ParseState} (hs : s.Sound)
    (h : (s.kind.isIdentifier || s.kind.isKeyword) = true)
    (e : s.kind.keywordText?.getD s.lexer.value = "") : s.Excused := by
  cases hk : s.kind with
  | keyword k =>
    rw [hk] at e
    exact absurd e k.text_ne_empty
  | identifier =>
    rw [hk] at e
    exact excused_of_isName hs (by rw [hk]; rfl) e
  | rawIdentifier =>
    rw [hk] at e
    exact excused_of_isName hs (by rw [hk]; rfl) e
  | _ =>
    rw [hk] at h
    exact nomatch h

lemma yields_memberName : Yields J memberName := by
  intro s hs
  refine .view ?_
  split
  case isTrue h =>
    refine .view (.view (.bind (readsFrom_name hs _ ?_) fun n t _ ht => ?_))
    · exact excused_of_memberName (J.sound hs) h
    · exact Reads.skip quiet_advance (fun _ => .pure (add_zero (parts n))) t ht
  case isFalse => exact (reads_report .identifierExpected []).bind (fun _ => reads_missingName) s hs

lemma readsFrom_fieldLink {s : ParseState} (target : ExprId) (start : Nat) (isOptional : Bool)
    (hJ : J.Settled) (h : Obeys J call) (hs : J.mem (s.advance env.src)) :
    ReadsFrom J s (parts target) (fieldLink call target start isOptional) parts := by
  refine readsFrom_advance hs (.next yields_memberName fun name => ?_)
  exact .next (yields_typeArguments? hJ h.type) fun typeArgs => reads_exprFrom _ _

lemma yields_argument (h : Obeys J call) : Yields J (argument call) := by
  refine .view fun start => .first yields_label? fun name => .skip (quiet_optional _) fun inout => ?_
  exact .next h.expression fun value => .view fun span => .pure rfl

lemma readsFrom_callLink {s : ParseState} (callee : ExprId) (start : Nat) (isOptional : Bool)
    (h : Obeys J call) (hs : J.mem (s.advance env.src)) :
    ReadsFrom J s (parts callee) (callLink call callee start isOptional) parts := by
  refine readsFrom_advance hs (.next (yields_list _ (yields_argument h)) fun args => ?_)
  exact .skip (quiet_require _) fun _ => reads_exprFrom _ _

lemma readsFrom_rangeTail {s : ParseState} (lower : Option ExprId) (start : Nat)
    (h : Obeys J call) (hs : J.mem (s.advance env.src)) :
    ReadsFrom J s (parts lower) (rangeTail call lower start) parts := by
  refine .view (readsFrom_advance hs (.view fun k => ?_))
  -- A step may stand behind a bound on the right, or where there is none.
  extract_lets rest
  have hrest (stop : Option ExprId) :
      Reads J (parts lower + parts stop) (rest stop) parts :=
    .next (yields_behind _ (h.binary _)) fun step => reads_exprFrom _ _
  clear_value rest
  split
  · exact .next (h.binary _) fun stop => hrest (some stop)
  · exact .of_eq (add_zero _).symm (hrest none)

lemma reads_rangeTail (lower : Option ExprId) (start : Nat) (h : Obeys J call) :
    Reads J (parts lower) (rangeTail call lower start) parts :=
  fun _ hs => readsFrom_rangeTail lower start h (J.step hs (.advance _))

lemma readsFrom_indexLink {s : ParseState} (target : ExprId) (start : Nat) (isOptional : Bool)
    (h : Obeys J call) (hs : J.mem (s.advance env.src)) :
    ReadsFrom J s (parts target) (indexLink call target start isOptional) parts := by
  refine readsFrom_advance hs (.view fun k => ?_)
  extract_lets rest
  have hrest (index : ExprId) : Reads J (parts target + parts index) (rest index) parts :=
    .skip (quiet_require _) fun _ => reads_exprFrom _ _
  clear_value rest
  split
  · exact .view fun here => .next (reads_rangeTail none here h) hrest
  · exact .next h.expression hrest

lemma readsFrom_lambdaLink {s : ParseState} (callee : ExprId) (start : Nat) (isOptional : Bool)
    (hJ : J.Settled) (h : Obeys J call) (hs : J.mem (s.advance env.src)) :
    ReadsFrom J s (parts callee) (lambdaLink call callee start isOptional) parts := by
  refine .weaken (.of_eq (add_zero (parts callee)).symm) (.bind (p := fun id => parts callee + parts id)
    (fun id t e => ?_) fun id t _ ht => reads_exprFrom _ _ t ht)
  obtain ⟨ht, hkeeps⟩ := readsFrom_lambda false hJ h hs id t e
  exact ⟨ht, hkeeps.frame (parts callee)⟩

/-- Whatever link is found takes a token, and holds the operand until its own node is allocated. -/
lemma readsFrom_link? {operand : ExprId} {start : Nat} {isOptional sameLine : Bool} {k : Kind}
    {r : Rule ExprId} {s : ParseState} (hJ : J.Settled) (h : Obeys J call)
    (e : link? call operand start isOptional sameLine k = some r)
    (hs : J.mem (s.advance env.src)) : ReadsFrom J s (parts operand) r parts := by
  unfold link? at e
  split at e
  · cases e
    exact readsFrom_fieldLink operand start isOptional hJ h hs
  · split at e <;> cases e
    exact readsFrom_callLink operand start isOptional h hs
  · split at e <;> cases e
    exact readsFrom_indexLink operand start isOptional h hs
  · split at e <;> cases e
    exact readsFrom_lambdaLink operand start isOptional hJ h hs
  · exact nomatch e

lemma reads_link? {operand : ExprId} {start : Nat} {isOptional sameLine : Bool} {k : Kind}
    {r : Rule ExprId} (hJ : J.Settled) (h : Obeys J call)
    (e : link? call operand start isOptional sameLine k = some r) :
    Reads J (parts operand) r parts :=
  fun _ hs => readsFrom_link? hJ h e (J.step hs (.advance _))

lemma reads_chainRound (start : Nat) (hJ : J.Settled) (h : Obeys J call) (b : ExprId × Bool) :
    Reads J (parts b) (chainRound call start b) parts := by
  obtain ⟨operand, hasOptional⟩ := b
  refine .of_eq (add_zero (parts operand)) (.view fun isOptional => ?_)
  -- `rest` is what comes behind a question mark, or where none stands.
  extract_lets isChain rest
  have hrest (u : Unit) : Reads J (parts operand) (rest u) parts := by
    refine .view fun breaks => .view fun k => ?_
    split
    case h_1 r hlink => exact .bind (reads_link? hJ h hlink) fun id => .pure (add_zero _).symm
    case h_2 =>
      split
      · exact .bind (reads_exprFrom start (.optionalChain operand)) fun id => .pure rfl
      · exact .pure rfl
  clear_value rest
  split
  · exact .skip quiet_advance hrest
  · exact hrest ()

lemma yields_chain (hJ : J.Settled) (h : Obeys J call) : Yields J (chain call) := by
  refine .view fun start => .first (yields_primary hJ h) fun operand => ?_
  exact .of_eq (add_zero _).symm (Reads.loop_parts (reads_chainRound start hJ h) (operand, false))

/-! ## Operators -/

lemma reads_stepsRound (start : Nat) (operand : ExprId) :
    Reads J (parts operand) (stepsRound start operand) parts := by
  refine .view fun k => .view fun breaks => ?_
  split
  · refine .skip quiet_advance fun _ => ?_
    exact .bind (reads_exprFrom _ (.step _ operand)) fun id => .pure rfl
  · exact .pure rfl

lemma yields_steps (hJ : J.Settled) (h : Obeys J call) : Yields J (steps call) :=
  .view fun start => .first (yields_chain hJ h) fun operand =>
    Reads.loop_parts (reads_stepsRound start) operand

lemma yields_unary (hJ : J.Settled) (h : Obeys J call) : Yields J (unary call) := by
  refine .view fun k => ?_
  split
  · refine .view fun start => .skip quiet_advance fun _ => ?_
    exact .first (reads_nested reads_errorExpr h.unary) fun operand => reads_exprFrom _ _
  · exact yields_steps hJ h

/-- A cast or a type check holds its operand and the type. -/
lemma readsFrom_typeTest {s : ParseState} (start : Nat) {form : TypeId → ExprForm}
    {held : Multiset Part} (hform : ∀ type, parts (form type) = held + parts type) (hJ : J.Settled)
    (h : Obeys J call) (hs : J.mem (s.advance env.src)) :
    ReadsFrom J s held (typeTest call start form) parts := by
  refine readsFrom_advance hs (.next (yields_typeOperand hJ h.type) fun type => ?_)
  exact .of_eq (hform type).symm (reads_exprFrom _ _)

lemma reads_typeTest (start : Nat) {form : TypeId → ExprForm} {held : Multiset Part}
    (hform : ∀ type, parts (form type) = held + parts type) (hJ : J.Settled) (h : Obeys J call) :
    Reads J held (typeTest call start form) parts :=
  fun _ hs => readsFrom_typeTest start hform hJ h (J.step hs (.advance _))

/-- Where no operation stands, the left operand is held as before. -/
lemma reads_operation? (above start : Nat) (lhs : ExprId) (hJ : J.Settled) (h : Obeys J call) :
    Reads J (parts lhs) (operation? call above start lhs) fun o => o.elim (parts lhs) parts := by
  refine .skip (quiet_operatorKind hJ) fun k => ?_
  split
  · split
    · exact .pure rfl
    · exact .bind (reads_typeTest start (fun type => rfl) hJ h) fun id => .pure rfl
  · split
    · exact .pure rfl
    · exact .bind (reads_typeTest start (fun type => rfl) hJ h) fun id => .pure rfl
  · split
    · exact .pure rfl
    · exact .bind (reads_rangeTail (some lhs) start h) fun id => .pure rfl
  · split
    · exact .pure rfl
    · exact .bind (reads_rangeTail (some lhs) start h) fun id => .pure rfl
  · split
    · exact .pure rfl
    · split
      · exact .pure rfl
      · refine .view fun breaks => ?_
        split
        · exact .pure rfl
        · refine .skip quiet_advance fun _ => .next (h.binary _) fun rhs => ?_
          exact .bind (reads_exprFrom start (.binary _ lhs rhs _)) fun id => .pure rfl

lemma reads_operationRound (above start : Nat) (hJ : J.Settled) (h : Obeys J call) (lhs : ExprId) :
    Reads J (parts lhs) (operationRound call above start lhs) parts := by
  refine .bind (reads_operation? above start lhs hJ h) fun o => ?_
  cases o with
  | some operation => exact .pure rfl
  | none => exact .pure rfl

lemma yields_binary (above : Nat) (hJ : J.Settled) (h : Obeys J call) :
    Yields J (binary call above) := by
  refine reads_nested reads_errorExpr (.view fun start => ?_)
  refine .first (yields_unary hJ h) fun operand => ?_
  exact Reads.loop_parts (reads_operationRound above start hJ h) operand

lemma yields_statement (hJ : J.Settled) (h : Obeys J call) : Yields J (statement call) := by
  refine .view fun start => .first (yields_binary _ hJ h) fun target => ?_
  refine .skip (quiet_operatorKind hJ) fun k => ?_
  split
  case h_1 => exact .pure rfl
  case h_2 op _ =>
    have assigned : Reads J (parts target) (do
        let value ← call .statement
        exprFrom start (.assign op target value)) parts :=
      .next h.statement fun value => reads_exprFrom _ _
    refine .skip quiet_advance fun _ => .skip (quiet_find _) fun assignable => ?_
    dsimp only
    split
    · exact assigned
    · exact .skip (quiet_find _) fun _ => .skip (quiet_reportAt _ _ _) fun _ => assigned

lemma yields_expression (hJ : J.Settled) (h : Obeys J call) : Yields J (expression call) := by
  refine .view fun start => .first (yields_binary _ hJ h) fun target => ?_
  refine .skip (quiet_operatorKind hJ) fun k => ?_
  split
  · exact .pure rfl
  · refine .skip (quiet_report _ _) fun _ => .skip quiet_advance fun _ => ?_
    exact .next h.expression fun value => reads_exprFrom _ _

end CangjieSyntax.Rule
