import CangjieSyntax.Proofs.Ending.Types
import CangjieSyntax.Proofs.Grammar.Control

/-!
# Patterns and control flow are read to their end

Each of the rules of control flow takes its keyword before it calls another one.
-/

/-!
## Patterns

Only a constant is read before a token is taken; all other patterns start with one of their own.
-/

namespace CangjieSyntax.Rule

variable {env : Env} {B J K : Region env} {allowed : Kind → Prop} {call : Call} {s : ParseState}

lemma always_errorPattern (span : Span) : Always (errorPattern span) :=
  always_allocPattern .error span

lemma always_invalidPattern (span : Span) (place : String) : Always (invalidPattern span place) :=
  .bind (always_reportAt _ _ _) fun _ => always_errorPattern span

lemma always_refutablePattern (place : PatternPlace) (form : PatternForm) (span : Span) :
    Always (refutablePattern place form span) := by
  unfold refutablePattern
  split
  · exact always_allocPattern form span
  · exact always_invalidPattern _ _

/-! ## Rounds -/

section

variable (h : Steady J allowed call) (place : PatternPlace)

include h

lemma consumes_patternElementsRound (b : List PatternId × Bool) (hs : J.mem s) :
    Consumes env s (patternElementsRound call place b) := by
  obtain ⟨items, trailingComma⟩ := b
  refine .view ?_
  split
  · exact .pure nofun
  · refine .reads ((h.obeysSince s.lexer).pattern place s (h.since hs)) fun item t ht => ?_
    refine .optional (fun hcomma => .view ?_) (.view (.pure nofun))
    split
    · exact .pure nofun
    · exact .pure fun _ => Region.consumes_advance ht fun e => nomatch hcomma.symm.trans e

lemma consumes_alternativesRound (rest : List PatternId) (hs : J.mem s) :
    Consumes env s (alternativesRound call place rest) := by
  refine .optional (fun hbar => ?_) (.pure nofun)
  have hkind : s.kind ≠ .endOfFile := fun e => nomatch hbar.symm.trans e
  have hsingle := yields_singlePattern place (h.obeysPast s.lexer)
  exact .reads (hsingle _ (h.past hs hkind)) fun one t ht =>
    .pure fun _ => consumes_past hkind rfl ht

end

/-! ## Behind a token -/

section

variable (h : Responds K allowed call) (place : PatternPlace)

include h

lemma finishes_patternTypes (hs : K.At 0 (s.advance env.src)) :
    Finishes env s (patternTypes call place) := by
  refine .behind hs ?_
  split
  · exact h.separated (by decide) (fun K _ hcall => hcall.type K) h.types.returns
  · exact .next (h.types.yields K) h.types.returns fun type => .pure _

lemma finishes_wildcardPattern (hs : K.At 0 (s.advance env.src)) :
    Finishes env s (wildcardPattern call place) := by
  refine .view (.behind hs (.view fun colon => ?_))
  split
  · refine .next (yields_patternTypes place h.obeysHere) (fun t ht => ?_) fun types =>
      (always_patternFrom _ _).returns
    exact finishes_patternTypes h place (ht.advance (K.step ht.mem (.advance t)))
  · exact (always_patternFrom _ _).returns

lemma returns_patternElements : Returns K 0 (patternElements call place) := by
  refine .loop h.underway (reads_patternElementsRound place h.obeysHere)
    (fun (items, trailingComma) => .view fun atEnd => ?_)
    (fun b s hs => consumes_patternElementsRound h.toSteady place b hs) ([], false)
  split
  · exact .pure _
  · refine .next (h.obeysHere.pattern place) (h.pattern place).drop fun item => ?_
    refine .optional _ fun comma => .view fun closes => ?_
    split
    · exact .pure _
    · exact .pure _

lemma finishes_tuplePattern (hs : K.At 0 (s.advance env.src)) :
    Finishes env s (tuplePattern call place) := by
  refine .view (.behind hs (.optional _ fun unit => ?_))
  split
  · refine .view fun span => ?_
    split
    · exact Always.returns (.bind (always_allocExpr _ _) fun unit => always_allocPattern _ _)
    · exact (always_invalidPattern _ _).returns
  · refine .next (yields_patternElements place h.obeysHere) (returns_patternElements h place) ?_
    rintro ⟨items, trailingComma⟩
    refine .require _ fun _ => ?_
    split
    · exact .pure _
    · exact (always_patternFrom _ _).returns

lemma returns_variantPattern (start : Nat) (path : List Name) (typeArgs : List TypeId) :
    Returns K 0 (variantPattern call place start path typeArgs) := by
  unfold variantPattern
  extract_lets rest
  have hrest (args : List PatternId) : Returns K 0 (rest args) :=
    .view fun span => (always_refutablePattern _ _ _).returns
  clear_value rest
  refine .optional _ fun opened => ?_
  split
  · have hargs := h.list (.mark .closeParen) (fun K _ hcall => hcall.pattern place) (h.pattern place)
    refine .next (yields_list _ (h.obeysHere.pattern place)) hargs fun args => ?_
    exact .require _ fun _ => hrest args
  · exact hrest []

end

/-! ## In front of a token -/

section

variable (hbefore : B.Before K) (h : Responds K allowed call) (place : PatternPlace)

include hbefore h

lemma finishes_namePattern (hs : B.At 0 s) (hkind : s.kind.isIdentifier) :
    Finishes env s (namePattern call place) := by
  refine .view (hbefore.dottedName h.underway hs hkind fun path t ht => .view ?_)
  extract_lets rest
  have hrest (typeArgs : List TypeId) : Returns K 0 (rest typeArgs) := by
    dsimp only [rest]
    split
    case h_1 name =>
      refine .view fun colon => ?_
      split
      · refine .next (yields_patternTypes place h.obeysHere) (fun u hu => ?_) fun types =>
          (always_patternFrom _ _).returns
        exact finishes_patternTypes h place (hu.advance (K.step hu.mem (.advance u)))
      · refine .view fun opens => ?_
        split
        · exact returns_variantPattern h place _ _ _
        · exact (always_patternFrom _ _).returns
    case h_2 => exact returns_variantPattern h place _ _ _
  clear_value rest
  split
  case isTrue hopens =>
    rw [Bool.and_eq_true, beq_iff_eq] at hopens
    have hbehind := ht.advance (K.step ht.mem (.advance t))
    refine .bind (finishes_typeArguments h.types hopens.1 hbehind) fun typeArgs u e => ?_
    exact hrest typeArgs u (ht.keep (yields_typeArguments (h.types.yields K)) e)
  case isFalse => exact hrest [] t ht

lemma returns_singlePattern (hobeys : Obeys B call) (hunary : Returns B 0 (call .unary)) :
    Returns B 0 (singlePattern call place) := by
  intro s hs
  refine .view ?_
  split
  case isTrue hk =>
    exact finishes_wildcardPattern h place (hbefore.at hs fun e => nomatch hk.symm.trans e)
  split
  case isTrue hk =>
    exact finishes_tuplePattern h place (hbefore.at hs fun e => nomatch hk.symm.trans e)
  split
  · have hconstant : Returns B 0 (constantPattern call place) :=
      .view fun start => .next hobeys.unary hunary fun value => .view fun span =>
        (always_refutablePattern _ _ _).returns
    exact hconstant s hs
  split
  case isTrue hk => exact finishes_namePattern hbefore h place hs hk
  · refine Always.view (fun span => .bind (always_reportAt _ _ _) fun _ => ?_) env s
    split
    · exact always_errorPattern span
    · exact .bind always_advance fun _ => always_errorPattern span

end

section

variable (h : Opens B K allowed call) (place : PatternPlace) (hunary : Returns B 0 (call .unary))

include h hunary

lemma returns_plainPattern : Returns B 0 (plainPattern call place) := by
  have single := returns_singlePattern h.before h.responds place h.obeysHere hunary
  have another := returns_singlePattern K.before_self h.responds place h.responds.obeysHere
    h.responds.unary
  refine .view fun start => .next (yields_singlePattern place h.obeysHere) single fun first => ?_
  refine .view fun bar => ?_
  split
  · exact .pure _
  · refine .next (Reads.loop_parts (reads_alternativesRound place h.obeysHere) []) ?_ fun rest => ?_
    · refine .loop h.underway (reads_alternativesRound place h.obeysHere) (fun rest s hs => ?_)
        (fun rest s hs => consumes_alternativesRound h.toSteady place rest hs) []
      refine .optional (fun hbar => ?_) fun _ => .pure _
      have hbehind := h.before.at hs.drop fun e => nomatch hbar.symm.trans e
      exact .bind (another _ hbehind) fun one t _ => .pure _
    · refine .view fun span => ?_
      split
      · exact (always_invalidPattern _ _).returns
      · refine .view fun nodes => ?_
        split
        · exact (always_allocPattern _ _).returns
        · exact (always_invalidPattern _ _).returns

lemma returns_pattern : Returns B 0 (pattern call place) :=
  returns_nested always_errorPattern (returns_plainPattern h place hunary)

end

end CangjieSyntax.Rule

/-! ## Control flow -/

namespace CangjieSyntax

variable {env : Env} {J K : Region env} {allowed : Kind → Prop} {call : Call} {s : ParseState}

namespace Returns

variable {α β : Type} [HasParts α] {inner : Rule α} {pre : Multiset Part}

lemma inParens {k : α → Rule β} (hyields : Yields K inner) (h : Returns K 0 inner)
    (hk : ∀ a, Returns K pre (k a)) : Returns K pre (Rule.inParens inner >>= k) := by
  refine .next (Rule.yields_inParens hyields) ?_ hk
  exact .require _ fun _ => .next hyields h fun a => .require _ fun _ => .pure a

lemma inParens? {k : Option α → Rule β} (hyields : Yields K inner) (h : Returns K 0 inner)
    (hk : ∀ a, Returns K pre (k a)) : Returns K pre (Rule.inParens? inner >>= k) := by
  refine .next (Rule.yields_inParens? hyields) (.optional _ fun opened => ?_) hk
  split
  · exact .next hyields h fun a => .require _ fun _ => .pure _
  · exact .pure _

end Returns

namespace Rule

/-! ## Rounds -/

section

variable (h : Steady J allowed call)

include h

/-- A case of a `match` is taken, from its keyword on, or a token that starts none is. -/
lemma consumes_matchArmsRound (hasSelector : Bool) (b : List MatchArm × Bool) (hs : J.mem s) :
    Consumes env s (matchArmsRound call hasSelector b) := by
  obtain ⟨arms, reported⟩ := b
  refine .view ?_
  split
  · exact .pure nofun
  case isFalse hend =>
    have hkind : s.kind ≠ .endOfFile := by
      intro e
      rw [e] at hend
      simp at hend
    split
    · have harm := readsFrom_matchArm hasSelector (h.settledPast s.lexer) (h.obeysPast s.lexer)
        (h.past hs hkind)
      exact .reads harm fun arm t ht => .pure fun _ => consumes_past hkind rfl ht
    · split
      · exact .advance (.pure fun _ => (h.underway hs).consumes_advance hkind)
      · exact .report (.advance (.pure fun _ => h.consumes_reported hs hkind _ _ _))

/-- A clause that there is starts with its keyword, which is taken. -/
lemma consumes_catchClausesRound (catches : List CatchClause) (hs : J.mem s) :
    Consumes env s (catchClausesRound call catches) := by
  refine .optional (fun hcatch => ?_) (.pure nofun)
  have hkind : s.kind ≠ .endOfFile := fun e => nomatch hcatch.symm.trans e
  have hJ := h.settledPast s.lexer
  have hobeys := h.obeysPast s.lexer
  have hpattern := yields_inParens (hobeys.pattern .catchClause)
  refine .reads (hpattern _ (h.past hs hkind)) fun pattern t ht => ?_
  exact .reads (yields_block hJ hobeys t ht) fun body u hu =>
    .pure fun _ => consumes_past hkind rfl hu

end

/-! ## Rules -/

section

variable (h : Responds K allowed call)

include h

lemma returns_condition : Returns K 0 (condition call) := by
  refine .optional _ fun isLet => ?_
  split
  · refine .next (h.obeysHere.pattern _) (h.pattern _) fun pattern => .require _ fun _ => ?_
    exact .next h.obeysHere.expression h.expression fun value => .pure _
  · exact .next h.obeysHere.expression h.expression fun value => .pure _

lemma finishes_matchArm (hasSelector : Bool) (hs : K.At 0 (s.advance env.src)) :
    Finishes env s (matchArm call hasSelector) := by
  refine .view (.behind hs ?_)
  extract_lets rest
  have hrest (test : CaseTest) : Returns K 0 (rest test) := by
    refine .next (yields_behind _ h.obeysHere.expression) ?_ fun guard => .require _ fun _ => ?_
    · exact returns_behind _ h.obeysHere.expression h.expression
    · refine .view fun bodyStart => ?_
      refine .next (yields_items h.settled h.obeysHere _) (returns_items h _) fun items => ?_
      exact .view fun bodySpan => .view fun span => .pure _
  clear_value rest
  split
  · exact .next (h.obeysHere.pattern _) (h.pattern _) fun pattern => hrest (.pattern pattern)
  · exact .next h.obeysHere.expression h.expression fun condition => hrest (.condition condition)

lemma finishes_ifThen (hs : K.At 0 (s.advance env.src)) : Finishes env s (ifThen call) := by
  refine .view (.behind hs ?_)
  refine .inParens (yields_condition h.obeysHere) (returns_condition h) fun condition => ?_
  refine .next (yields_block h.settled h.obeysHere) (returns_block h) fun body => ?_
  extract_lets rest
  have hrest (otherwise : Option ExprId) : Always (rest otherwise) := always_exprFrom _ _
  clear_value rest
  refine .optional _ fun hasElse => ?_
  split
  · intro t ht
    refine .view ?_
    split
    case isTrue hif =>
      have hkind : t.kind ≠ .endOfFile := fun e => nomatch (eq_of_beq hif).symm.trans e
      refine .bind (h.answers .ifThen t ht hkind) fun otherwise u _ => ?_
      exact hrest (some otherwise) env u
    case isFalse =>
      have hblock : Returns K 0 (do
          let elseStart ← start
          let body ← block call
          let otherwise ← exprFrom elseStart (.block body)
          rest (some otherwise)) := by
        refine .view fun elseStart => ?_
        refine .next (yields_block h.settled h.obeysHere) (returns_block h) fun body => ?_
        exact Always.returns (.bind (always_exprFrom _ _) fun otherwise => hrest (some otherwise))
      exact hblock t ht
  · exact (hrest none).returns

lemma returns_matchArms (hasSelector : Bool) : Returns K 0 (matchArms call hasSelector) := by
  have hreads := reads_matchArmsRound hasSelector h.settled h.obeysHere
  refine .loop h.underway hreads (fun (arms, reported) => .view fun k => ?_)
    (fun b s hs => consumes_matchArmsRound h.toSteady hasSelector b hs) ([], false)
  split
  · exact .pure _
  split
  · refine .next (yields_matchArm hasSelector h.settled h.obeysHere) (fun s hs => ?_)
      fun arm => .pure _
    exact finishes_matchArm h hasSelector (hs.advance (K.step hs.mem (.advance s)))
  · exact .skip_unless (quiet_report _ _) (always_report _ _) (.advance fun _ => .pure _)

lemma finishes_matchCases (hs : K.At 0 (s.advance env.src)) :
    Finishes env s (matchCases call) := by
  refine .view (.behind hs ?_)
  refine .inParens? h.obeysHere.expression h.expression fun selector => .require _ fun _ => ?_
  refine .next (yields_matchArms _ h.settled h.obeysHere) (returns_matchArms h _) fun arms => ?_
  exact .require _ fun _ => (always_exprFrom _ _).returns

lemma finishes_forIn (hs : K.At 0 (s.advance env.src)) : Finishes env s (forIn call) := by
  refine .view (.behind hs ?_)
  refine .inParens ?_ ?_ fun (pattern, iterable, guard) => ?_
  · refine .first (h.obeysHere.pattern _) fun pattern => .skip (quiet_require _) fun _ => ?_
    refine .next h.obeysHere.expression fun iterable => ?_
    exact .next (yields_behind _ h.obeysHere.expression) fun guard => .pure (by simp [add_assoc])
  · refine .next (h.obeysHere.pattern _) (h.pattern _) fun pattern => .require _ fun _ => ?_
    refine .next h.obeysHere.expression h.expression fun iterable => ?_
    refine .next (yields_behind _ h.obeysHere.expression) ?_ fun guard => .pure _
    exact returns_behind _ h.obeysHere.expression h.expression
  · refine .next (yields_block h.settled h.obeysHere) (returns_block h) fun body => ?_
    exact (always_exprFrom _ _).returns

lemma finishes_whileLoop (hs : K.At 0 (s.advance env.src)) :
    Finishes env s (whileLoop call) := by
  refine .view (.behind hs ?_)
  refine .inParens (yields_condition h.obeysHere) (returns_condition h) fun condition => ?_
  refine .next (yields_block h.settled h.obeysHere) (returns_block h) fun body => ?_
  exact (always_exprFrom _ _).returns

lemma finishes_doWhile (hs : K.At 0 (s.advance env.src)) : Finishes env s (doWhile call) := by
  refine .view (.behind hs ?_)
  refine .next (yields_block h.settled h.obeysHere) (returns_block h) fun body => ?_
  refine .require _ fun _ => .inParens h.obeysHere.expression h.expression fun condition => ?_
  exact (always_exprFrom _ _).returns

lemma returns_tryResource : Returns K 0 (tryResource call) := by
  refine .next yields_identifier always_identifier.returns fun name => ?_
  refine .next (yields_behind _ (h.types.yields K)) ?_ fun type => .require _ fun _ => ?_
  · exact returns_behind _ (h.types.yields K) h.types.returns
  · exact .next h.obeysHere.expression h.expression fun value => .pure _

lemma returns_catchClauses : Returns K 0 (catchClauses call) := by
  refine .loop h.underway (reads_catchClausesRound h.settled h.obeysHere)
    (fun catches => .optional _ fun more => ?_)
    (fun catches s hs => consumes_catchClausesRound h.toSteady catches hs) []
  split
  · refine .inParens (h.obeysHere.pattern _) (h.pattern _) fun pattern => ?_
    exact .next (yields_block h.settled h.obeysHere) (returns_block h) fun body => .pure _
  · exact .pure _

lemma finishes_tryCatch (hs : K.At 0 (s.advance env.src)) : Finishes env s (tryCatch call) := by
  have hresource := h.list (.mark .closeParen) (fun K _ hcall => yields_tryResource hcall)
    (returns_tryResource h)
  have hresources := yields_list (J := K) (.mark .closeParen) (yields_tryResource h.obeysHere)
  refine .view (.behind hs ?_)
  refine .inParens? hresources hresource fun resources => ?_
  refine .next (yields_block h.settled h.obeysHere) (returns_block h) fun body => ?_
  refine .next (yields_catchClauses h.settled h.obeysHere) (returns_catchClauses h) ?_
  intro catches
  refine .next (yields_behind _ (yields_block h.settled h.obeysHere)) ?_ fun finalBody => ?_
  · exact returns_behind _ (yields_block h.settled h.obeysHere) (returns_block h)
  · exact .skip_when (quiet_report _ _) (always_report _ _) (always_exprFrom _ _).returns

lemma finishes_spawn (hs : K.At 0 (s.advance env.src)) : Finishes env s (spawn call) := by
  refine .view (.behind hs ?_)
  refine .inParens? h.obeysHere.expression h.expression fun context => .view fun bodyStart => ?_
  extract_lets rest
  have hrest (items : List BlockItem) : Returns K 0 (rest items) :=
    .view fun span => (always_exprFrom _ _).returns
  clear_value rest
  refine .expect _ fun opened => ?_
  split
  · refine .optional _ fun _ => ?_
    refine .next (yields_allItems h.settled h.obeysHere) (returns_allItems h) fun items => ?_
    exact .require _ fun _ => hrest items
  · exact hrest []

lemma finishes_synchronized (hs : K.At 0 (s.advance env.src)) :
    Finishes env s (synchronized call) := by
  refine .view (.behind hs (.inParens h.obeysHere.expression h.expression fun lock => ?_))
  refine .next (yields_block h.settled h.obeysHere) (returns_block h) fun body => ?_
  exact (always_exprFrom _ _).returns

lemma finishes_unsafeBlock (hs : K.At 0 (s.advance env.src)) :
    Finishes env s (unsafeBlock call) := by
  refine .view (.behind hs ?_)
  refine .next (yields_block h.settled h.obeysHere) (returns_block h) fun body => ?_
  exact (always_exprFrom _ _).returns

lemma finishes_throwValue (hs : K.At 0 (s.advance env.src)) :
    Finishes env s (throwValue call) := by
  refine .view (.behind hs (.next h.obeysHere.expression h.expression fun value => ?_))
  exact (always_exprFrom _ _).returns

lemma finishes_returnValue (hs : K.At 0 (s.advance env.src)) :
    Finishes env s (returnValue call) := by
  refine .view (.behind hs (.view fun hasValue => ?_))
  split
  · exact .next h.obeysHere.expression h.expression fun value => (always_exprFrom _ _).returns
  · exact (always_exprFrom _ _).returns

end

end Rule

end CangjieSyntax
