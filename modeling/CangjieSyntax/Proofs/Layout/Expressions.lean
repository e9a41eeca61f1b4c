import CangjieSyntax.Grammar.Expressions
import CangjieSyntax.Proofs.Layout.Control
import CangjieSyntax.Proofs.Layout.Primary

/-!
# How the rules of expressions lay out what they read

Primary expressions, chains of links, operators and assignments. Each link and each operator goes
from the start of what stands in front of it, whose node is held until its own node is allocated.
-/

namespace CangjieSyntax.Rule

variable {env : Env} {J : Ground env} {call : Call} {lo : Nat}

/-! ## Primary expressions -/

lemma places_nameExpr (hJ : J.Settled) (h : LaysOut J call) : Places J (nameExpr call) := by
  refine fun _ => .start fun lo _ => .bind (lays_identifier lo) fun name => ?_
  refine .next (places_typeArguments? hJ h.type) fun typeArgs => ?_
  exact lays_exprFrom (by simp [marks]) (by simp)

lemma places_strayDollar : Places J strayDollar := by
  refine fun lo => .tokenSpan fun span hspan => .view fun text => ?_
  refine .faulty (faults_reportAt hspan _ _) fun _ => .skip takes_advance fun _ => ?_
  exact lays_errorExpr hspan (by simp)

lemma places_typeValue (h : LaysOut J call) : Places J (typeValue call) :=
  fun _ => .start fun _ _ => .first (h.type J) fun _ => lays_exprFrom (by simp [marks]) (by simp)

lemma places_keywordExpr (k : Keyword) (hJ : J.Settled) (h : LaysOut J call) :
    Places J (keywordExpr call k) := by
  unfold keywordExpr
  split
  · exact places_literal
  · exact places_literal
  · exact places_tokenExpr rfl
  · exact places_tokenExpr rfl
  · exact places_tokenExpr rfl
  · exact places_tokenExpr rfl
  · exact places_ifThen hJ h
  · exact places_matchCases hJ h
  · exact places_forIn hJ h
  · exact places_whileLoop hJ h
  · exact places_doWhile hJ h
  · exact places_tryCatch hJ h
  · exact places_throwValue h
  · exact places_returnValue h
  · exact places_spawn hJ h
  · exact places_synchronized hJ h
  · exact places_unsafeBlock hJ h
  · exact places_quote h
  · exact places_expressionExpected

lemma places_markExpr (p : Punctuation) (hJ : J.Settled) (h : LaysOut J call) :
    Places J (markExpr call p) := by
  unfold markExpr
  split
  · exact places_tokenExpr rfl
  · exact places_parenthesized h
  · exact places_array h
  · exact places_lambda true hJ h
  · exact places_typeValue h
  · exact places_typeValue h
  · exact places_macroCall
  · exact places_expressionExpected

lemma places_primary (hJ : J.Settled) (h : LaysOut J call) : Places J (primary call) := by
  refine fun lo => .view fun k => ?_
  split
  · exact places_keywordExpr _ hJ h lo
  · exact places_markExpr _ hJ h lo
  · exact places_string hJ h lo
  · exact places_string hJ h lo
  · exact places_nameExpr hJ h lo
  · exact places_nameExpr hJ h lo
  · exact places_strayDollar lo
  · split
    · exact places_literal lo
    · exact places_expressionExpected lo

/-! ## Chains -/

lemma places_memberName : Places J memberName := by
  refine fun lo => .view fun k => ?_
  split
  · refine .view fun text => .tokenSpan fun span hspan => .first (places_name _ hspan) fun n => ?_
    exact .skip takes_advance fun _ => .pure (List.Sublist.refl _)
  · exact .skip (faults_report _ _) fun _ => places_missingName lo

lemma lays_fieldLink (target : ExprId) (isOptional : Bool) (hJ : J.Settled) (h : LaysOut J call) :
    Lays J lo (marks target) (fieldLink call target lo isOptional) marks := by
  refine .skip takes_advance fun _ => .next places_memberName fun name => ?_
  refine .next (places_typeArguments? hJ h.type) fun typeArgs => ?_
  exact lays_exprFrom (by simp [marks]) (by simp)

lemma places_argument (h : LaysOut J call) : Places J (argument call) := by
  refine fun lo => .edge fun start hstart => .first places_label? fun name => ?_
  refine .skip (lays_optional _) fun inout => .next h.expression fun value => ?_
  exact .spanFrom hstart fun span hspan => .hold hspan (.pure (List.Sublist.refl _))

lemma lays_callLink (callee : ExprId) (isOptional : Bool) (h : LaysOut J call) :
    Lays J lo (marks callee) (callLink call callee lo isOptional) marks := by
  refine .skip takes_advance fun _ => .next (places_list _ (places_argument h)) fun args => ?_
  exact .skip (takes_require _) fun _ => lays_exprFrom (by simp [marks]) (by simp)

lemma lays_rangeTail (lower : Option ExprId) (h : LaysOut J call) :
    Lays J lo (marks lower) (rangeTail call lower lo) marks := by
  refine .view fun inclusive => .take takes_advance fun _ => .view fun k => ?_
  -- A step may stand behind a bound on the right, or where there is none.
  extract_lets rest
  have hrest (stop : Option ExprId) :
      Lays J lo (marks lower ++ [.token] ++ marks stop) (rest stop) marks :=
    .next (places_behind _ (h.binary _)) fun step => lays_exprFrom (by simp [marks]) (by simp)
  clear_value rest
  split
  · exact .next (h.binary _) fun stop => hrest (some stop)
  · exact .of_eq (by simp) (hrest none)

/-- A range without a lower end. -/
lemma places_openRange (h : LaysOut J call) :
    Places J (do rangeTail call none (← Rule.start)) :=
  fun _ => .start fun _ _ => lays_rangeTail none h

lemma lays_indexLink (target : ExprId) (isOptional : Bool) (h : LaysOut J call) :
    Lays J lo (marks target) (indexLink call target lo isOptional) marks := by
  refine .skip takes_advance fun _ => .view fun k => ?_
  extract_lets rest
  have hrest (index : ExprId) : Lays J lo (marks target ++ marks index) (rest index) marks :=
    .skip (takes_require _) fun _ => lays_exprFrom (by simp [marks]) (by simp)
  clear_value rest
  split
  · simpa only [bind_assoc] using Lays.next (places_openRange h) hrest
  · exact .next h.expression hrest

lemma lays_lambdaLink (callee : ExprId) (isOptional : Bool) (hJ : J.Settled) (h : LaysOut J call) :
    Lays J lo (marks callee) (lambdaLink call callee lo isOptional) marks :=
  .next (places_lambda false hJ h) fun _ => lays_exprFrom (by simp [marks]) (by simp)

/-- Whatever link is found goes from the start of the operand. -/
lemma lays_link? {operand : ExprId} {isOptional sameLine : Bool} {k : Kind} {r : Rule ExprId}
    (hJ : J.Settled) (h : LaysOut J call)
    (e : link? call operand lo isOptional sameLine k = some r) : Lays J lo (marks operand) r marks := by
  unfold link? at e
  split at e
  · cases e
    exact lays_fieldLink operand isOptional hJ h
  · split at e <;> cases e
    exact lays_callLink operand isOptional h
  · split at e <;> cases e
    exact lays_indexLink operand isOptional h
  · split at e <;> cases e
    exact lays_lambdaLink operand isOptional hJ h
  · exact nomatch e

lemma lays_chainRound (hJ : J.Settled) (h : LaysOut J call) (b : ExprId × Bool) :
    Lays J lo (marks b) (chainRound call lo b) marks := by
  obtain ⟨operand, hasOptional⟩ := b
  refine .of_eq (show _ = marks operand by simp) (.view fun isOptional => ?_)
  -- `rest` is what comes behind a question mark, or where none stands.
  extract_lets isChain rest
  have hrest (u : Unit) : Lays J lo (marks operand) (rest u) marks := by
    refine .view fun breaks => .view fun k => ?_
    split
    case h_1 r hlink => exact .bind (lays_link? hJ h hlink) fun id => .pure (by simp)
    case h_2 =>
      split
      · exact .bind (lays_exprFrom (by simp [marks]) (by simp)) fun id => .pure (List.Sublist.refl _)
      · exact .pure (List.Sublist.refl _)
  clear_value rest
  split
  · exact .skip takes_advance hrest
  · exact hrest ()

lemma places_chain (hJ : J.Settled) (h : LaysOut J call) : Places J (chain call) := by
  refine fun _ => .start fun lo _ => .first (places_primary hJ h) fun operand => ?_
  exact .of_eq (by simp) (Lays.loop_marks (lays_chainRound hJ h) (operand, false))

/-! ## Operators -/

lemma lays_stepsRound (operand : ExprId) :
    Lays J lo (marks operand) (stepsRound lo operand) marks := by
  refine .view fun k => .view fun breaks => ?_
  split
  · refine .skip takes_advance fun _ => ?_
    exact .bind (lays_exprFrom (by simp [marks]) (by simp)) fun id => .pure (List.Sublist.refl _)
  · exact .pure (List.Sublist.refl _)

lemma places_steps (hJ : J.Settled) (h : LaysOut J call) : Places J (steps call) :=
  fun _ => .start fun _ _ => .first (places_chain hJ h) fun operand =>
    Lays.loop_marks lays_stepsRound operand

lemma places_unary (hJ : J.Settled) (h : LaysOut J call) : Places J (unary call) := by
  refine fun lo => .view fun k => ?_
  split
  · refine .start fun lo _ => .take takes_advance fun _ => ?_
    refine .next (places_nested (fun _ _ hspan => lays_errorExpr hspan (by simp)) h.unary) ?_
    exact fun operand => lays_exprFrom (by simp [marks]) (by simp)
  · exact places_steps hJ h lo

/-- A cast or a type check goes from its operand to the type. -/
lemma lays_typeTest {form : TypeId → ExprForm} {held : List Mark}
    (hform : ∀ type, marks (form type) = held ++ marks type) (hJ : J.Settled) (h : LaysOut J call) :
    Lays J lo held (typeTest call lo form) marks := by
  refine .skip takes_advance fun _ => .next (places_typeOperand hJ h.type) fun type => ?_
  exact lays_exprFrom (hform type ▸ List.Sublist.refl _) (by simp)

/-- Where no operation stands, the left operand is held as before. -/
lemma lays_operation? (above : Nat) (lhs : ExprId) (hJ : J.Settled) (h : LaysOut J call) :
    Lays J lo (marks lhs) (operation? call above lo lhs) fun o => marks (o.getD lhs) := by
  refine .skip (places_operatorKind hJ) fun k => ?_
  have none_ : Lays J lo (marks lhs) (pure none : Rule (Option ExprId)) fun o => marks (o.getD lhs) :=
    .pure (List.Sublist.refl _)
  have range : Lays J lo (marks lhs) (do return some (← rangeTail call (some lhs) lo))
      fun o => marks (o.getD lhs) :=
    .bind (lays_rangeTail (some lhs) h) fun id => .pure (List.Sublist.refl _)
  split
  · split
    · exact none_
    · exact .bind (lays_typeTest (fun type => rfl) hJ h) fun id => .pure (List.Sublist.refl _)
  · split
    · exact none_
    · exact .bind (lays_typeTest (fun type => rfl) hJ h) fun id => .pure (List.Sublist.refl _)
  · split
    · exact none_
    · exact range
  · split
    · exact none_
    · exact range
  · split
    · exact none_
    · split
      · exact none_
      · refine .view fun breaks => ?_
        split
        · exact none_
        · refine .skip takes_advance fun _ => .next (h.binary _) fun rhs => ?_
          refine .bind (lays_exprFrom (by simp [marks]) (by simp)) fun id => ?_
          exact .pure (List.Sublist.refl _)

lemma lays_operationRound (above : Nat) (hJ : J.Settled) (h : LaysOut J call) (lhs : ExprId) :
    Lays J lo (marks lhs) (operationRound call above lo lhs) marks := by
  refine .bind (lays_operation? above lhs hJ h) fun o => ?_
  cases o with
  | some operation => exact .pure (List.Sublist.refl _)
  | none => exact .pure (List.Sublist.refl _)

lemma places_binary (above : Nat) (hJ : J.Settled) (h : LaysOut J call) :
    Places J (binary call above) := by
  refine places_nested (fun _ _ hspan => lays_errorExpr hspan (by simp)) fun _ => ?_
  refine .start fun lo _ => .first (places_unary hJ h) fun operand => ?_
  exact Lays.loop_marks (lays_operationRound above hJ h) operand

/-! ## Assignments -/

lemma lays_find {α : Type} (f : Nodes → Option α) (lo : Nat) :
    Lays J lo [] (find f) fun _ => [] := by
  intro s hs a t e
  obtain ⟨a, -, e⟩ := Option.map_eq_some_iff.1 e
  cases e
  exact ⟨hs, .refl s, id⟩

/-- A report at an expression that is there. -/
lemma faults_reportExpr (id : ExprId) (m : Message) (args : List String) :
    Faults J (do reportAt (← exprSpan id) m args) := by
  intro lo s hs a t e
  obtain ⟨span, u, hspan, e⟩ := bind_eq_some.1 e
  obtain ⟨_, hfind, he⟩ := Option.map_eq_some_iff.1 hspan
  cases he
  obtain ⟨node, hnode, rfl⟩ := Option.map_eq_some_iff.1 hfind
  exact laysFrom_reportAt hs (fun h => (h.nodes.expr hnode).1) m args a t e

lemma places_statement (hJ : J.Settled) (h : LaysOut J call) : Places J (statement call) := by
  refine fun _ => .start fun lo _ => .first (places_binary _ hJ h) fun target => ?_
  refine .skip (places_operatorKind hJ) fun k => ?_
  split
  case h_1 => exact .pure (List.Sublist.refl _)
  case h_2 op _ =>
    have assigned : Lays J lo (marks target) (do
        let value ← call .statement
        exprFrom lo (.assign op target value)) marks :=
      .next h.statement fun value => lays_exprFrom (by simp [marks]) (by simp)
    refine .skip takes_advance fun _ => .skip (lays_find _) fun assignable => ?_
    dsimp only
    split
    · exact assigned
    · simpa only [bind_assoc] using Lays.skip (faults_reportExpr target _ _) fun _ => assigned

lemma places_expression (hJ : J.Settled) (h : LaysOut J call) : Places J (expression call) := by
  refine fun _ => .start fun lo _ => .first (places_binary _ hJ h) fun target => ?_
  refine .skip (places_operatorKind hJ) fun k => ?_
  split
  · exact .pure (List.Sublist.refl _)
  · refine .skip (faults_report _ _) fun _ => .skip takes_advance fun _ => ?_
    exact .next h.expression fun value => lays_exprFrom (by simp [marks]) (by simp)

end CangjieSyntax.Rule
