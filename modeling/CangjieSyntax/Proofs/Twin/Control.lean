import CangjieSyntax.Grammar.Control
import CangjieSyntax.Grammar.Patterns
import CangjieSyntax.Proofs.Twin.Types

/-!
# How the rules of patterns and control flow follow each other
-/

/-! ## Patterns -/

namespace CangjieSyntax

namespace PatternForm

variable (m : Move)

lemma constants_move (form : PatternForm) : (move m form).constants = move m form.constants := by
  cases form <;> rfl

lemma variants_move (span : Span) (form : PatternForm) :
    (move m form).variants (move m span) = move m (form.variants span) := by
  cases form <;> rfl

lemma isAlternative_move (form : PatternForm) : (move m form).isAlternative = form.isAlternative := by
  cases form <;> rfl

/-- The form of an alternation moves with its alternatives. -/
lemma alternation?_move (patterns : List PatternNode) :
    alternation? (move m patterns) = move m (alternation? patterns) := by
  unfold alternation?
  rw [flatMap_move m fun p => constants_move m p.form,
    flatMap_move m fun p => variants_move m p.span p.form,
    all_move m fun p => isAlternative_move m p.form]
  dsimp only
  split
  · rfl
  · cases patterns.flatMap fun p => p.form.constants with
    | nil => cases patterns.flatMap fun p => p.form.variants p.span <;> rfl
    | cons => cases patterns.flatMap fun p => p.form.variants p.span <;> rfl

end PatternForm

variable {T : Twins} {call call' : Call}

namespace Rule

lemma follows_errorPattern (span : Span) :
    Follows T (errorPattern span) (move T.shift) (errorPattern (move T.shift span)) :=
  follows_allocPattern span rfl

lemma follows_invalidPattern (span : Span) (place : String) :
    Follows T (invalidPattern span place) (move T.shift)
      (invalidPattern (move T.shift span) place) :=
  .bind_id (follows_reportAt _ _ _) fun _ => follows_errorPattern span

lemma follows_refutablePattern (place : PatternPlace) {form form' : PatternForm} (span : Span)
    (hform : form' = move T.shift form) :
    Follows T (refutablePattern place form span) (move T.shift)
      (refutablePattern place form' (move T.shift span)) :=
  .ite (fun _ => follows_allocPattern span hform) fun _ => follows_invalidPattern span _

/-- The nodes of patterns that were moved are the moved nodes. -/
lemma follows_patternNodes (ids : List PatternId) :
    Follows T (patternNodes ids) (move T.shift) (patternNodes (move T.shift ids)) := by
  refine .look fun s s' hs => ?_
  rw [hs.nodes]
  induction ids with
  | nil => rfl
  | cons id ids ih =>
    have hget := Arena.get?_appendMoved (congrArg NodeCounts.patterns T.base_counts)
      s.nodes.patterns id
    rw [move_cons, List.filterMap_cons, List.filterMap_cons,
      show (T.base.appendMoved T.shift s.nodes).patterns
        = T.base.patterns.appendMoved T.shift s.nodes.patterns from rfl, hget]
    cases s.nodes.patterns.get? id with
    | none => exact ih
    | some node => exact congrArg _ ih

variable (h : Calls T call call')

include h

lemma follows_patternTypes (place : PatternPlace) :
    Follows T (patternTypes call place) (move T.shift) (patternTypes call' place) :=
  .bind_id follows_advance fun _ => .ite (fun _ => follows_separated h.type _) fun _ =>
    .bind h.type fun _ => .pure rfl

lemma follows_wildcardPattern (place : PatternPlace) :
    Follows T (wildcardPattern call place) (move T.shift) (wildcardPattern call' place) := by
  refine .start fun start => .bind_id follows_advance fun _ => .isAt _ fun colon => .ite (fun _ => ?_) fun _ => ?_
  · exact .bind (follows_patternTypes h place) fun types => follows_patternFrom start rfl
  · exact follows_patternFrom start rfl

lemma follows_constantPattern (place : PatternPlace) :
    Follows T (constantPattern call place) (move T.shift) (constantPattern call' place) :=
  .start fun start => .bind h.unary fun _ =>
    .spanFrom start fun span => follows_refutablePattern place span rfl

lemma follows_patternElements (place : PatternPlace) :
    Follows T (patternElements call place) (move T.shift) (patternElements call' place) := by
  refine .loop_moves (fun (items, trailingComma) => ?_) ([], false)
  refine .isAt _ fun ended => .ite (fun _ => .pure rfl) fun _ => ?_
  refine .bind (h.pattern place) fun item => .bind_id (follows_optional _) fun comma => ?_
  exact .isAt _ fun closes => .ite (fun _ => .pure (by simp)) fun _ => .pure (by simp)

lemma follows_tuplePattern (place : PatternPlace) :
    Follows T (tuplePattern call place) (move T.shift) (tuplePattern call' place) := by
  refine .start fun start => .bind_id follows_advance fun _ => .bind_id (follows_optional _) fun empty => ?_
  refine .ite (fun _ => .spanFrom start fun span => .ite (fun _ => ?_) fun _ => ?_) fun _ => ?_
  · exact .bind (follows_allocExpr span rfl) fun unit => follows_allocPattern span rfl
  · exact follows_invalidPattern span _
  · refine .bind (follows_patternElements h place) fun (items, trailingComma) => ?_
    refine .bind_id (follows_require _) fun _ => ?_
    match items, trailingComma with
    | [], _ => exact follows_patternFrom start rfl
    | [_], false => exact .pure rfl
    | [_], true => exact follows_patternFrom start rfl
    | _ :: _ :: _, _ => exact follows_patternFrom start rfl

lemma follows_variantPattern (place : PatternPlace) (start : Nat) (path : List Name)
    (typeArgs : List TypeId) :
    Follows T (variantPattern call place start path typeArgs) (move T.shift)
      (variantPattern call' place (T.shift.pos start) (move T.shift path)
        (move T.shift typeArgs)) := by
  refine .bind_id (follows_optional _) fun opens => ?_
  extract_lets rest rest'
  have hrest (args : List PatternId) :
      Follows T (rest args) (move T.shift) (rest' (move T.shift args)) :=
    .spanFrom start fun span => follows_refutablePattern place span rfl
  clear_value rest rest'
  refine .ite (fun _ => ?_) fun _ => hrest []
  exact .bind (follows_list (h.pattern place) _) fun args => .bind_id (follows_require _) fun _ => hrest args

lemma follows_namePattern (place : PatternPlace) :
    Follows T (namePattern call place) (move T.shift) (namePattern call' place) := by
  refine .start fun start => .bind follows_dottedName fun path => ?_
  refine .view_id (fun _ _ hs => by rw [hs.kind, hs.same.separated]) fun opens => ?_
  extract_lets rest rest'
  have hrest (typeArgs : List TypeId) :
      Follows T (rest typeArgs) (move T.shift) (rest' (move T.shift typeArgs)) := by
    dsimp only [rest, rest']
    clear rest rest'
    match path, typeArgs with
    | [name], [] =>
      refine .isAt _ fun colon => .ite (fun _ => ?_) fun _ => ?_
      · exact .bind (follows_patternTypes h place) fun types => follows_patternFrom start rfl
      · refine .isAt _ fun opens => .ite (fun _ => ?_) fun _ => follows_patternFrom start rfl
        exact follows_variantPattern h place start [name] []
    | [], _ => exact follows_variantPattern h place start _ _
    | [_], _ :: _ => exact follows_variantPattern h place start _ _
    | _ :: _ :: _, _ => exact follows_variantPattern h place start _ _
  clear_value rest rest'
  exact .ite (fun _ => .bind (follows_typeArguments h.type) hrest) fun _ => hrest []

lemma follows_singlePattern (place : PatternPlace) :
    Follows T (singlePattern call place) (move T.shift) (singlePattern call' place) := by
  refine .kind fun k => .ite (fun _ => follows_wildcardPattern h place) fun _ => ?_
  refine .ite (fun _ => follows_tuplePattern h place) fun _ => ?_
  refine .ite (fun _ => follows_constantPattern h place) fun _ => ?_
  refine .ite (fun _ => follows_namePattern h place) fun _ => ?_
  refine .tokenSpan fun span => .bind_id (follows_reportAt _ _ _) fun _ => ?_
  refine .ite (fun _ => follows_errorPattern span) fun _ => ?_
  exact .bind_id follows_advance fun _ => follows_errorPattern span

lemma follows_plainPattern (place : PatternPlace) :
    Follows T (plainPattern call place) (move T.shift) (plainPattern call' place) := by
  refine .start fun start => .bind (follows_singlePattern h place) fun first => ?_
  refine .isAt _ fun bar => .ite (fun _ => .pure rfl) fun _ => ?_
  refine .bind (.loop_moves (fun rest => ?_) []) fun rest => .spanFrom start fun span => ?_
  · refine .bind_id (follows_optional _) fun more => .ite (fun _ => ?_) fun _ => .pure rfl
    exact .bind (follows_singlePattern h place) fun next => .pure (by simp)
  · refine .ite (fun _ => follows_invalidPattern span _) fun _ => ?_
    refine .bind (follows_patternNodes (first :: rest)) fun nodes => ?_
    rw [PatternForm.alternation?_move]
    cases PatternForm.alternation? nodes with
    | some form => exact follows_allocPattern span rfl
    | none => exact follows_invalidPattern span _

/-- A pattern is followed if the rules it calls are. -/
lemma follows_pattern (place : PatternPlace) :
    Follows T (pattern call place) (move T.shift) (pattern call' place) :=
  follows_nested follows_errorPattern (follows_plainPattern h place)

end Rule

end CangjieSyntax

/-! ## Control flow -/

namespace CangjieSyntax.Rule

variable {T : Twins} {call call' : Call}

section

variable {α α' : Type} {r : Rule α} {r' : Rule α'} {f : α → α'}

lemma follows_inParens (h : Follows T r f r') : Follows T (inParens r) f (inParens r') :=
  .bind_id (follows_require _) fun _ => .bind h fun _ =>
    .bind_id (follows_require _) fun _ => .pure rfl

lemma follows_inParens? [Moves α] {r' : Rule α} (h : Follows T r (move T.shift) r') :
    Follows T (inParens? r) (move T.shift) (inParens? r') := by
  refine .bind_id (follows_optional _) fun opens => .ite (fun _ => ?_) fun _ => .pure rfl
  exact .bind h fun _ => .bind_id (follows_require _) fun _ => .pure rfl

end

section

variable (h : Calls T call call')

include h

lemma follows_condition : Follows T (condition call) (move T.shift) (condition call') := by
  refine .bind_id (follows_optional _) fun binds => .ite (fun _ => ?_) fun _ => ?_
  · refine .bind (h.pattern .matchCase) fun pattern => .bind_id (follows_require _) fun _ => ?_
    exact .bind h.expression fun value => .pure rfl
  · exact .bind h.expression fun value => .pure rfl

lemma follows_ifThen : Follows T (ifThen call) (move T.shift) (ifThen call') := by
  refine .start fun start => .bind_id follows_advance fun _ => ?_
  refine .bind (follows_inParens (follows_condition h)) fun condition => ?_
  refine .bind (follows_block h) fun body => .bind_id (follows_optional _) fun otherwise => ?_
  extract_lets rest rest'
  have hrest (otherwise : Option ExprId) :
      Follows T (rest otherwise) (move T.shift) (rest' (move T.shift otherwise)) :=
    follows_exprFrom start rfl
  clear_value rest rest'
  refine .ite (fun _ => .isAt _ fun chained => .ite (fun _ => ?_) fun _ => ?_) fun _ => hrest none
  · exact .bind h.ifThen fun other => hrest (some other)
  · refine .start fun elseStart => .bind (follows_block h) fun body => ?_
    exact .bind (follows_exprFrom elseStart rfl) fun other => hrest (some other)

lemma follows_matchArm (hasSelector : Bool) :
    Follows T (matchArm call hasSelector) (move T.shift) (matchArm call' hasSelector) := by
  refine .start fun start => .bind_id follows_advance fun _ => ?_
  extract_lets rest rest'
  have hrest (test : CaseTest) :
      Follows T (rest test) (move T.shift) (rest' (move T.shift test)) := by
    refine .bind (follows_behind h.expression _) fun guard => .bind_id (follows_require _) fun _ => ?_
    refine .start fun bodyStart => .bind (follows_items h.blockItem _) fun items => ?_
    exact .spanFrom bodyStart fun bodySpan => .spanFrom start fun span => .pure rfl
  clear_value rest rest'
  refine .ite (fun _ => ?_) fun _ => ?_
  · exact .bind (h.pattern .matchCase) fun pattern => hrest (.pattern pattern)
  · exact .bind h.expression fun value => hrest (.condition value)

lemma follows_matchArms (hasSelector : Bool) :
    Follows T (matchArms call hasSelector) (move T.shift) (matchArms call' hasSelector) := by
  refine .loop_moves (fun (arms, reported) => .kind fun k => ?_) ([], false)
  refine .ite (fun _ => .pure rfl) fun _ => .ite (fun _ => ?_) fun _ => ?_
  · exact .bind (follows_matchArm h hasSelector) fun arm => .pure (by simp)
  · have skipped : Follows T (do advance; return .inl (arms, true)) (move T.shift)
        (do advance; return .inl (move T.shift arms, true) :
          Rule (List MatchArm × Bool ⊕ List MatchArm)) :=
      .bind_id follows_advance fun _ => .pure rfl
    exact .ite (fun _ => skipped) fun _ => .bind_id (follows_report _ _) fun _ => skipped

lemma follows_matchCases : Follows T (matchCases call) (move T.shift) (matchCases call') := by
  refine .start fun start => .bind_id follows_advance fun _ => ?_
  refine .bind (follows_inParens? h.expression) fun selector => .bind_id (follows_require _) fun _ => ?_
  rw [isSome_move]
  refine .bind (follows_matchArms h _) fun arms => .bind_id (follows_require _) fun _ => ?_
  exact follows_exprFrom start rfl

lemma follows_forIn : Follows T (forIn call) (move T.shift) (forIn call') := by
  refine .start fun start => .bind_id follows_advance fun _ => ?_
  refine .bind (follows_inParens (f := move T.shift) ?_) fun (pattern, iterable, guard) => ?_
  · refine .bind (h.pattern .forIn) fun pattern => .bind_id (follows_require _) fun _ => ?_
    refine .bind h.expression fun iterable => .bind (follows_behind h.expression _) fun guard => ?_
    exact .pure rfl
  · exact .bind (follows_block h) fun body => follows_exprFrom start rfl

lemma follows_whileLoop : Follows T (whileLoop call) (move T.shift) (whileLoop call') :=
  .start fun start => .bind_id follows_advance fun _ =>
    .bind (follows_inParens (follows_condition h)) fun _ =>
      .bind (follows_block h) fun _ => follows_exprFrom start rfl

lemma follows_doWhile : Follows T (doWhile call) (move T.shift) (doWhile call') :=
  .start fun start => .bind_id follows_advance fun _ => .bind (follows_block h) fun _ =>
    .bind_id (follows_require _) fun _ =>
      .bind (follows_inParens h.expression) fun _ => follows_exprFrom start rfl

lemma follows_tryResource : Follows T (tryResource call) (move T.shift) (tryResource call') :=
  .bind follows_identifier fun _ => .bind (follows_typeBehind h.type _) fun _ =>
    .bind_id (follows_require _) fun _ => .bind h.expression fun _ => .pure rfl

lemma follows_catchClauses : Follows T (catchClauses call) (move T.shift) (catchClauses call') := by
  refine .loop_moves (fun catches => ?_) []
  refine .bind_id (follows_optional _) fun more => .ite (fun _ => ?_) fun _ => .pure rfl
  refine .bind (follows_inParens (h.pattern .catchClause)) fun pattern => ?_
  exact .bind (follows_block h) fun body => .pure (by simp; rfl)

lemma follows_tryCatch : Follows T (tryCatch call) (move T.shift) (tryCatch call') := by
  refine .start fun start => .bind_id follows_advance fun _ => ?_
  refine .bind (follows_inParens? (follows_list (follows_tryResource h) _)) fun resources? => ?_
  refine .bind (follows_block h) fun body => .bind (follows_catchClauses h) fun catches => ?_
  refine .bind (follows_behind (follows_block h) _) fun finalBody => ?_
  have resources : (move T.shift resources?).getD [] = move T.shift (resources?.getD []) := by
    cases resources? <;> rfl
  extract_lets rest rest'
  have hrest (u : Unit) : Follows T (rest u) (move T.shift) (rest' u) :=
    follows_exprFrom start (by rw [resources]; rfl)
  clear_value rest rest'
  rw [resources, isEmpty_move, isEmpty_move, show (move T.shift finalBody).isNone = finalBody.isNone
    from Option.isNone_map]
  exact .ite (fun _ => .bind_id (follows_report _ _) hrest) fun _ => hrest ()

lemma follows_spawn : Follows T (spawn call) (move T.shift) (spawn call') := by
  refine .start fun start => .bind_id follows_advance fun _ => ?_
  refine .bind (follows_inParens? h.expression) fun context => .start fun bodyStart => ?_
  refine .bind_id (follows_expect _) fun opens => ?_
  extract_lets rest rest'
  have hrest (items : List BlockItem) :
      Follows T (rest items) (move T.shift) (rest' (move T.shift items)) :=
    .spanFrom bodyStart fun span => follows_exprFrom start rfl
  clear_value rest rest'
  refine .ite (fun _ => .bind_id (follows_optional _) fun _ => ?_) fun _ => hrest []
  exact .bind (follows_items h.blockItem _) fun items => .bind_id (follows_require _) fun _ => hrest items

lemma follows_synchronized : Follows T (synchronized call) (move T.shift) (synchronized call') :=
  .start fun start => .bind_id follows_advance fun _ =>
    .bind (follows_inParens h.expression) fun _ =>
      .bind (follows_block h) fun _ => follows_exprFrom start rfl

lemma follows_unsafeBlock : Follows T (unsafeBlock call) (move T.shift) (unsafeBlock call') :=
  .start fun start => .bind_id follows_advance fun _ => .bind (follows_block h) fun _ =>
    follows_exprFrom start rfl

lemma follows_throwValue : Follows T (throwValue call) (move T.shift) (throwValue call') :=
  .start fun start => .bind_id follows_advance fun _ => .bind h.expression fun _ =>
    follows_exprFrom start rfl

lemma follows_returnValue : Follows T (returnValue call) (move T.shift) (returnValue call') := by
  refine .start fun start => .bind_id follows_advance fun _ => ?_
  refine .view_id (fun _ _ hs => by rw [hs.kind, hs.same.lineBreak]) fun hasValue => ?_
  refine .ite (fun _ => ?_) fun _ => follows_exprFrom start rfl
  exact .bind h.expression fun value => follows_exprFrom start rfl

end

end CangjieSyntax.Rule
