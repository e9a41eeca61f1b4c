import CangjieSyntax.Grammar.Expressions
import CangjieSyntax.Proofs.Twin.Control
import CangjieSyntax.Proofs.Twin.Leads
import CangjieSyntax.Proofs.Twin.Primary

/-!
# How the rules of expressions follow each other
-/

namespace CangjieSyntax.Rule

variable {T : Twins} {call call' : Call}

/-! ## Primary expressions -/

lemma follows_strayDollar : Follows T strayDollar (move T.shift) strayDollar :=
  .tokenSpan fun span => .tokenValue fun _ => .bind_id (follows_reportAt _ _ _) fun _ =>
    .bind_id follows_advance fun _ => follows_errorExpr span

lemma follows_memberName : Follows T memberName (move T.shift) memberName := by
  refine .kind fun k => .ite (fun _ => ?_) fun _ => ?_
  · refine .tokenValue fun value => .tokenSpan fun span => .bind (follows_name _ rfl) fun name => ?_
    exact .bind_id follows_advance fun _ => .pure rfl
  · exact .bind_id (follows_report _ _) fun _ => follows_missingName

section

variable (h : Calls T call call')

include h

lemma follows_nameExpr : Follows T (nameExpr call) (move T.shift) (nameExpr call') :=
  .start fun start => .bind follows_identifier fun _ => .bind h.typeArguments fun _ =>
    follows_exprFrom start rfl

lemma follows_typeValue : Follows T (typeValue call) (move T.shift) (typeValue call') :=
  .start fun start => .bind h.type fun _ => follows_exprFrom start rfl

lemma follows_keywordExpr (k : Keyword) :
    Follows T (keywordExpr call k) (move T.shift) (keywordExpr call' k) := by
  unfold keywordExpr
  split
  · exact follows_literal
  · exact follows_literal
  · exact follows_tokenExpr rfl
  · exact follows_tokenExpr rfl
  · exact follows_tokenExpr rfl
  · exact follows_tokenExpr rfl
  · exact follows_ifThen h
  · exact follows_matchCases h
  · exact follows_forIn h
  · exact follows_whileLoop h
  · exact follows_doWhile h
  · exact follows_tryCatch h
  · exact follows_throwValue h
  · exact follows_returnValue h
  · exact follows_spawn h
  · exact follows_synchronized h
  · exact follows_unsafeBlock h
  · exact follows_quote h
  · exact follows_expressionExpected

lemma follows_markExpr (p : Punctuation) :
    Follows T (markExpr call p) (move T.shift) (markExpr call' p) := by
  unfold markExpr
  split
  · exact follows_tokenExpr rfl
  · exact follows_parenthesized h
  · exact follows_array h
  · exact h.lambda true
  · exact follows_typeValue h
  · exact follows_typeValue h
  · exact follows_macroCall
  · exact follows_expressionExpected

lemma follows_primary : Follows T (primary call) (move T.shift) (primary call') := by
  refine .kind fun k => ?_
  dsimp only
  split
  · exact follows_keywordExpr h _
  · exact follows_markExpr h _
  · exact follows_string h
  · exact follows_string h
  · exact follows_nameExpr h
  · exact follows_nameExpr h
  · exact follows_strayDollar
  · exact .ite (fun _ => follows_literal) fun _ => follows_expressionExpected

/-! ## Chains -/

lemma follows_fieldLink (target : ExprId) (start : Nat) (isOptional : Bool) :
    Follows T (fieldLink call target start isOptional) (move T.shift)
      (fieldLink call' (move T.shift target) (T.shift.pos start) isOptional) :=
  .bind_id follows_advance fun _ => .bind follows_memberName fun _ =>
    .bind h.typeArguments fun _ => follows_exprFrom start rfl

lemma follows_argument : Follows T (argument call) (move T.shift) (argument call') :=
  .start fun start => .bind follows_label? fun _ => .bind_id (follows_optional _) fun _ =>
    .bind h.expression fun _ => .spanFrom start fun _ => .pure rfl

lemma follows_callLink (callee : ExprId) (start : Nat) (isOptional : Bool) :
    Follows T (callLink call callee start isOptional) (move T.shift)
      (callLink call' (move T.shift callee) (T.shift.pos start) isOptional) :=
  .bind_id follows_advance fun _ => .bind (follows_list (follows_argument h) _) fun _ =>
    .bind_id (follows_require _) fun _ => follows_exprFrom start rfl

lemma follows_rangeTail (lower : Option ExprId) (start : Nat) :
    Follows T (rangeTail call lower start) (move T.shift)
      (rangeTail call' (move T.shift lower) (T.shift.pos start)) := by
  refine .isAt _ fun inclusive => .bind_id follows_advance fun _ => .kind fun k => ?_
  extract_lets rest rest'
  have hrest (stop : Option ExprId) :
      Follows T (rest stop) (move T.shift) (rest' (move T.shift stop)) :=
    .bind (follows_behind (h.binary _) _) fun step => follows_exprFrom start rfl
  clear_value rest rest'
  exact .ite (fun _ => .bind (h.binary _) fun stop => hrest (some stop)) fun _ => hrest none

lemma follows_indexLink (target : ExprId) (start : Nat) (isOptional : Bool) :
    Follows T (indexLink call target start isOptional) (move T.shift)
      (indexLink call' (move T.shift target) (T.shift.pos start) isOptional) := by
  refine .bind_id follows_advance fun _ => .kind fun k => ?_
  extract_lets rest rest'
  have hrest (index : ExprId) :
      Follows T (rest index) (move T.shift) (rest' (move T.shift index)) :=
    .bind_id (follows_require _) fun _ => follows_exprFrom start rfl
  clear_value rest rest'
  refine .ite (fun _ => .start fun lower => ?_) fun _ => .bind h.expression hrest
  exact .bind (follows_rangeTail h none lower) hrest

lemma follows_lambdaLink (callee : ExprId) (start : Nat) (isOptional : Bool) :
    Follows T (lambdaLink call callee start isOptional) (move T.shift)
      (lambdaLink call' (move T.shift callee) (T.shift.pos start) isOptional) :=
  .bind (h.lambda false) fun _ => follows_exprFrom start rfl

/-- The same token starts the same link in both parses, or none. -/
lemma follows_link? (operand : ExprId) (start : Nat) (isOptional sameLine : Bool) (k : Kind) :
    Option.Rel (fun r r' => Follows T r (move T.shift) r')
      (link? call operand start isOptional sameLine k)
      (link? call' (move T.shift operand) (T.shift.pos start) isOptional sameLine k) := by
  unfold link?
  split
  · exact .some (follows_fieldLink h operand start isOptional)
  · split
    · exact .some (follows_callLink h operand start isOptional)
    · exact .none
  · split
    · exact .some (follows_indexLink h operand start isOptional)
    · exact .none
  · split
    · exact .some (follows_lambdaLink h operand start isOptional)
    · exact .none
  · exact .none

lemma follows_typeTest (start : Nat) {form form' : TypeId → ExprForm}
    (hform : ∀ type, form' (move T.shift type) = move T.shift (form type)) :
    Follows T (typeTest call start form) (move T.shift)
      (typeTest call' (T.shift.pos start) form') :=
  .bind_id follows_advance fun _ => .bind (follows_typeOperand h.type h.typeArguments) fun type =>
    follows_exprFrom start (hform type)

lemma follows_operation? (above start : Nat) (lhs : ExprId) :
    Follows T (operation? call above start lhs) (move T.shift)
      (operation? call' above (T.shift.pos start) (move T.shift lhs)) := by
  refine .bind_id follows_operatorKind fun k => ?_
  dsimp only
  split
  · refine .ite (fun _ => .pure rfl) fun _ => ?_
    exact .bind (follows_typeTest h start fun _ => rfl) fun _ => .pure rfl
  · refine .ite (fun _ => .pure rfl) fun _ => ?_
    exact .bind (follows_typeTest h start fun _ => rfl) fun _ => .pure rfl
  · refine .ite (fun _ => .pure rfl) fun _ => ?_
    exact .bind (follows_rangeTail h (some lhs) start) fun _ => .pure rfl
  · refine .ite (fun _ => .pure rfl) fun _ => ?_
    exact .bind (follows_rangeTail h (some lhs) start) fun _ => .pure rfl
  · split
    · exact .pure rfl
    · refine .ite (fun _ => .pure rfl) fun _ => .lineBreakBefore fun breaks => ?_
      refine .ite (fun _ => .pure rfl) fun _ => .bind_id follows_advance fun _ => ?_
      refine .bind (h.binary _) fun rhs => .bind (follows_exprFrom start rfl) fun _ => ?_
      exact .pure rfl

end

/-! ## Operands in front of what can follow a parameter

No expression goes on with a token that can follow the name of a parameter. So a statement ends in
front of such a token as soon as its primary expression does. -/

/-- What can follow a parameter starts no link. -/
lemma link?_of_followsParam {operand : ExprId} {start : Nat} {isOptional sameLine : Bool} {k : Kind}
    (hk : k.followsParam) : link? call operand start isOptional sameLine k = none := by
  obtain rfl | rfl | rfl := Kind.eq_of_followsParam hk
  all_goals rfl

/-- What can follow a parameter is no operator. -/
lemma operation?_of_followsParam {env : Env} {s : ParseState} {above start : Nat} {lhs : ExprId}
    (hs : s.kind.followsParam) : operation? call above start lhs env s = some (none, s) := by
  refine bind_eq_some.2 ⟨s.kind, s, bind_eq_some.2 ⟨s.kind, s, rfl, ?_⟩, ?_⟩
  all_goals
    obtain hkind | hkind | hkind := Kind.eq_of_followsParam hs
    all_goals
      rw [hkind]
      rfl

section

variable {P Q : Place → Prop} (h : Calls T call call') (hQ : ∀ v, Q v → v.kind.followsParam)
  (hprimary : Leads T P (primary call) (move T.shift) (primary call') Q)

include h hQ hprimary

lemma leads_chain : Leads T P (chain call) (move T.shift) (chain call') Q := by
  refine .start fun start => .bind hprimary fun operand => ?_
  refine .loop_moves (fun (operand, hasOptional) => ?_) (operand, false)
  refine .view_id (fun _ _ hs => by rw [hs.kind, hs.peek, hs.same.lineBreak]) fun isOptional => ?_
  extract_lets _ rest _ rest'
  have hrest (u : Unit) : Leads T Q (rest u) (move T.shift) (rest' u) Q := by
    refine .lineBreakBefore fun breaks => .kind fun k => ?_
    have hlink := follows_link? h operand start isOptional (isOptional || !breaks) k
    dsimp only
    generalize e : link? call operand start isOptional _ k = link at hlink
    generalize link? call' _ _ isOptional _ k = link' at hlink
    cases hlink with
    | some hlink =>
      refine .of_follows (.bind hlink fun _ => .pure rfl) ?_
      rintro v ⟨hv, rfl⟩
      rw [link?_of_followsParam (hQ v hv)] at e
      exact nomatch e
    | none =>
      refine .ite (fun _ => ?_) fun _ => .pure rfl fun _ hv => hv.1
      exact .bind (.exprFrom start rfl) fun _ => .pure rfl fun _ hv => hv.1
  clear_value rest rest'
  refine .ite (fun hoptional => ?_) fun _ => (hrest ()).weaken fun _ hv => hv.1
  refine .of_follows (.bind_id follows_advance fun u => (hrest u).toFollows) ?_
  rintro _ ⟨hv, s, rfl, e⟩
  -- A question mark would stand here.
  obtain hkind | hkind | hkind : s.kind = _ ∨ _ ∨ _ := Kind.eq_of_followsParam (hQ _ hv)
  all_goals simp [← e, hkind] at hoptional

lemma leads_steps : Leads T P (steps call) (move T.shift) (steps call') Q := by
  refine .start fun start => .bind (leads_chain h hQ hprimary) fun operand => ?_
  refine .loop_moves (fun operand => .kind fun k => .lineBreakBefore fun breaks => ?_) operand
  split
  case h_1 op hop =>
    refine .of_follows ?_ ?_
    · refine .bind_id follows_advance fun _ => ?_
      exact .bind (follows_exprFrom start rfl) fun _ => .pure rfl
    · rintro v ⟨hv, rfl⟩
      obtain hkind | hkind | hkind := Kind.eq_of_followsParam (hQ _ hv)
      all_goals
        rw [hkind] at hop
        exact nomatch hop
  case h_2 => exact .pure rfl fun _ hv => hv.1

variable (hP : ∀ v, P v → unaryOp? v.kind = none)

include hP

lemma leads_unary : Leads T P (unary call) (move T.shift) (unary call') Q := by
  refine .kind fun k => ?_
  split
  case h_1 op hop =>
    refine .of_follows (.start fun start => .bind_id follows_advance fun _ => ?_) ?_
    · refine .bind (follows_nested follows_errorExpr h.unary) fun operand => ?_
      exact follows_exprFrom start rfl
    · rintro v ⟨hv, rfl⟩
      rw [hP v hv] at hop
      exact nomatch hop
  case h_2 => exact (leads_steps h hQ hprimary).weaken fun _ hv => hv.1

lemma leads_binary (above : Nat) :
    Leads T P (binary call above) (move T.shift) (binary call' above) Q := by
  refine .nested follows_errorExpr (.start fun start => ?_)
  refine .bind (leads_unary h hQ hprimary hP) fun operand => .loop_moves (fun lhs => ?_) operand
  have hoperation : Leads T Q (operation? call above start lhs) (move T.shift)
      (operation? call' above (T.shift.pos start) (move T.shift lhs)) Q :=
    { follows_operation? h above start lhs with
      leads := fun _ _ _ _ _ _ hs e _ => by
        rw [operation?_of_followsParam (hQ _ hs)] at e
        cases e
        exact hs }
  refine .bind hoperation fun operation => ?_
  cases operation with
  | some operation => exact .pure rfl fun _ => id
  | none => exact .pure rfl fun _ => id

/-- A statement ends where its primary expression does, in front of what can follow a parameter. -/
lemma leads_statement : Leads T P (statement call) (move T.shift) (statement call') Q := by
  refine .start fun start => .bind (leads_binary h hQ hprimary hP _) fun target => ?_
  refine .operatorKind (fun v hv => ?_) fun k => ?_
  · obtain hkind | hkind | hkind := Kind.eq_of_followsParam (hQ v hv)
    all_goals simp [hkind]
  dsimp only
  split
  case h_1 => exact .pure rfl fun _ hv => hv.1
  case h_2 op hop =>
    have assigned : Follows T (do
        let value ← call .statement
        exprFrom start (.assign op target value)) (move T.shift) (do
        let value ← call' .statement
        exprFrom (T.shift.pos start) (.assign op (move T.shift target) value)) :=
      .bind h.statement fun value => follows_exprFrom start rfl
    refine .of_follows (.bind_id follows_advance fun _ => ?_) ?_
    · refine .bind_id (follows_isAssignable target) fun _ => .ite (fun _ => assigned) fun _ => ?_
      refine .bind (follows_exprSpan target) fun span => ?_
      exact .bind_id (follows_reportAt _ _ _) fun _ => assigned
    · rintro v ⟨hv, rfl⟩
      obtain hkind | hkind | hkind := Kind.eq_of_followsParam (hQ v hv)
      all_goals
        rw [hkind] at hop
        exact nomatch hop

end

/-! ## Operands anywhere -/

section

variable (h : Calls T call call')

include h

/-- A primary expression that is read nowhere leads anywhere. -/
lemma leads_primary_nowhere :
    Leads T (fun _ => False) (primary call) (move T.shift) (primary call') fun _ => False :=
  .of_follows (follows_primary h) fun _ => id

lemma follows_unary : Follows T (unary call) (move T.shift) (unary call') :=
  (leads_unary h (fun _ => False.elim) (leads_primary_nowhere h) fun _ => False.elim).toFollows

lemma follows_binary (above : Nat) :
    Follows T (binary call above) (move T.shift) (binary call' above) :=
  (leads_binary h (fun _ => False.elim) (leads_primary_nowhere h) (fun _ => False.elim) above).toFollows

lemma follows_statement : Follows T (statement call) (move T.shift) (statement call') :=
  (leads_statement h (fun _ => False.elim) (leads_primary_nowhere h) fun _ => False.elim).toFollows

lemma follows_expression : Follows T (expression call) (move T.shift) (expression call') := by
  refine .start fun start => .bind (follows_binary h _) fun target => ?_
  refine .bind_id follows_operatorKind fun k => ?_
  dsimp only
  split
  · exact .pure rfl
  · refine .bind_id (follows_report _ _) fun _ => .bind_id follows_advance fun _ => ?_
    exact .bind h.expression fun value => follows_exprFrom start rfl

end

end CangjieSyntax.Rule
