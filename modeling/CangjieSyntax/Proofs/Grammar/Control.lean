import CangjieSyntax.Grammar.Control
import CangjieSyntax.Grammar.Patterns
import CangjieSyntax.Proofs.Grammar.Types

/-!
# What the rules of patterns and control flow hold

Branches, loops, exceptions and threads hold the conditions, patterns and blocks they are made of.
-/

/-!
## Patterns

An alternation opens the nodes of its alternatives and takes their values or variants over. It has
at least one of them unless some alternative is a placeholder, and then it is one itself.
-/

namespace CangjieSyntax

namespace PatternForm

section

variable {form : PatternForm} {span : Span} (h : form.isAlternative)
  (hproper : (Node.pattern ⟨form, span⟩).Proper)

include h hproper

/-- An alternative without variants holds its values, or is a placeholder. -/
lemma sheds_constants (hvariants : form.variants span = []) :
    Sheds (parts form) (parts form.constants) := by
  cases form with
  | error => exact .of_fault (Multiset.mem_singleton_self _) (Multiset.zero_le _)
  | constant values => exact .of_eq rfl
  | variant variants => exact absurd hvariants hproper
  | binding name => exact nomatch hvariants
  | _ => exact nomatch h

/-- An alternative without values holds its variants, or is a placeholder. -/
lemma sheds_variants (hconstants : form.constants = []) :
    Sheds (parts form) (parts (form.variants span)) := by
  cases form with
  | error => exact .of_fault (Multiset.mem_singleton_self _) (Multiset.zero_le _)
  | constant values => exact absurd hconstants hproper
  | variant variants => exact .of_eq rfl
  | binding name => exact .of_eq (by simp [variants, parts])
  | _ => exact nomatch h

/-- A proper alternative without values and variants is a placeholder. -/
lemma eq_error_of_isAlternative (hconstants : form.constants = [])
    (hvariants : form.variants span = []) : form = .error := by
  cases form with
  | error => rfl
  | constant values => exact absurd hconstants hproper
  | variant variants => exact absurd hvariants hproper
  | binding name => exact nomatch hvariants
  | _ => exact nomatch h

end

/-- What a list takes from the nodes of a list of patterns is what they hold. -/
lemma sheds_flatMap {α : Type} [HasParts α] {f : PatternNode → List α} {ps : List PatternNode}
    (h : ∀ p ∈ ps, Sheds (parts p) (parts (f p))) : Sheds (parts ps) (parts (ps.flatMap f)) := by
  induction ps with
  | nil => exact .of_eq rfl
  | cons p ps ih =>
    rw [List.flatMap_cons, parts_append, parts_cons]
    obtain ⟨hp, hps⟩ := List.forall_mem_cons.1 h
    exact hp.add (ih hps)

variable {ps : List PatternNode} {form : PatternForm}

/-- An alternation holds what its alternatives do and is proper if they are. -/
lemma alternation?_held (e : alternation? ps = some form) (hne : ps ≠ [])
    (hproper : ∀ p ∈ ps, (Node.pattern p).Proper) (span : Span) :
    Sheds (parts ps) (parts form) ∧ (Node.pattern ⟨form, span⟩).Proper := by
  unfold alternation? at e
  dsimp only at e
  split at e
  case isTrue => exact nomatch e
  case isFalse halternatives =>
    have alternative : ∀ p ∈ ps, p.form.isAlternative := by
      simpa using halternatives
    split at e
    case h_1 hnone hnone' =>
      cases e
      -- The first alternative has no value and no variant, so that it is a placeholder.
      obtain ⟨p, rest, rfl⟩ := List.exists_cons_of_ne_nil hne
      have hp : p.form = .error := by
        refine eq_error_of_isAlternative (alternative p (by simp)) (hproper p (by simp)) ?_ ?_
        · exact List.flatMap_eq_nil_iff.1 hnone p (by simp)
        · exact List.flatMap_eq_nil_iff.1 hnone' p (by simp)
      refine ⟨?_, trivial⟩
      rw [parts_cons]
      change Sheds (parts p.form + _) _
      rw [hp]
      exact .of_fault (by simp [parts]) (Multiset.le_add_right _ _)
    case h_2 values hnone hsome =>
      cases e
      refine ⟨sheds_flatMap fun p hp => ?_, fun hnil => hsome hnil⟩
      exact sheds_constants (alternative p hp) (hproper p hp) (List.flatMap_eq_nil_iff.1 hnone p hp)
    case h_3 variants hnone hsome =>
      cases e
      refine ⟨sheds_flatMap fun p hp => ?_, fun hnil => hsome hnil⟩
      exact sheds_variants (alternative p hp) (hproper p hp) (List.flatMap_eq_nil_iff.1 hnone p hp)
    case h_4 => exact nomatch e

end PatternForm

namespace Nodes

variable {nodes : Nodes} {excused lossy : Prop} {held : Multiset Part}

/-- Patterns that are held may be opened into their nodes. -/
lemma uncover_patterns {ids : List PatternId} (h : Holds nodes excused (parts ids + held) lossy) :
    Holds nodes excused (parts (ids.filterMap nodes.patterns.get?) + held) lossy
      ∧ (ids ≠ [] → ids.filterMap nodes.patterns.get? ≠ [])
      ∧ ∀ p ∈ ids.filterMap nodes.patterns.get?, (Node.pattern p).Proper := by
  induction ids generalizing held with
  | nil => exact ⟨h, fun hne => absurd rfl hne, by simp⟩
  | cons id ids ih =>
    rw [parts_cons, add_assoc] at h
    obtain ⟨node, hnode⟩ := h.contains (r := .pattern id) (by simp [parts])
    have hproper := h.wellFormed.proper _ _ hnode
    obtain ⟨p, hp, rfl⟩ := Option.map_eq_some_iff.1 hnode
    have h := h.uncover hnode nofun nofun
    obtain ⟨hrest, -, hpropers⟩ := ih (h.of_eq (add_left_comm _ _ _))
    rw [List.filterMap_cons_some hp]
    refine ⟨?_, by simp, ?_⟩
    · rw [parts_cons]
      exact hrest.of_eq (by rw [add_assoc, add_left_comm]; rfl)
    · intro q hq
      rcases List.mem_cons.1 hq with rfl | hq
      · exact hproper
      · exact hpropers q hq

end Nodes

namespace Rule

variable {env : Env} {J : Region env} {call : Call}

lemma reads_errorPattern (span : Span) : Reads J {.fault} (errorPattern span) parts :=
  reads_allocPattern span trivial

lemma reads_invalidPattern (held : Multiset Part) (span : Span) (place : String) :
    Reads J held (invalidPattern span place) parts :=
  reads_reported (reads_errorPattern span)

lemma reads_patternFrom (start : Nat) {form : PatternForm}
    (hproper : ∀ span, (Node.pattern ⟨form, span⟩).Proper) :
    Reads J (parts form) (patternFrom start form) parts :=
  .view fun span => reads_allocPattern span (hproper span)

lemma reads_refutablePattern (place : PatternPlace) {form : PatternForm} (span : Span)
    (hproper : (Node.pattern ⟨form, span⟩).Proper) :
    Reads J (parts form) (refutablePattern place form span) parts := by
  unfold refutablePattern
  split
  · exact reads_allocPattern span hproper
  · exact reads_invalidPattern _ _ _

lemma yields_patternTypes (place : PatternPlace) (h : Obeys J call) :
    Yields J (patternTypes call place) := by
  refine .skip quiet_advance fun _ => ?_
  split
  · exact yields_separated _ (h.type J)
  · exact .first (h.type J) fun type => .pure (by simp)

lemma yields_wildcardPattern (place : PatternPlace) (h : Obeys J call) :
    Yields J (wildcardPattern call place) := by
  refine .view fun start => .skip quiet_advance fun _ => .view fun colon => ?_
  split
  · refine .first (yields_patternTypes place h) fun types => ?_
    exact .of_eq (by simp [parts]) (reads_patternFrom _ fun _ => trivial)
  · exact reads_patternFrom _ fun _ => trivial

lemma yields_constantPattern (place : PatternPlace) (h : Obeys J call) :
    Yields J (constantPattern call place) := by
  refine .view fun start => .first h.unary fun value => .view fun span => ?_
  exact .of_eq (by simp [parts]) (reads_refutablePattern _ _ (List.cons_ne_nil _ _))

lemma reads_patternElementsRound (place : PatternPlace) (h : Obeys J call)
    (b : List PatternId × Bool) : Reads J (parts b) (patternElementsRound call place b) parts := by
  obtain ⟨items, trailingComma⟩ := b
  refine .view fun atEnd => ?_
  split
  · exact .pure rfl
  · refine .next (h.pattern place) fun item => ?_
    refine .skip (quiet_optional _) fun comma => .view fun closes => ?_
    split
    · exact .pure (by simp)
    · exact .pure (by simp)

lemma yields_patternElements (place : PatternPlace) (h : Obeys J call) :
    Yields J (patternElements call place) :=
  Reads.loop_parts (reads_patternElementsRound place h) ([], false)

lemma yields_tuplePattern (place : PatternPlace) (h : Obeys J call) :
    Yields J (tuplePattern call place) := by
  refine .view fun start => .skip quiet_advance fun _ => ?_
  refine .skip (quiet_optional _) fun unit => ?_
  split
  · refine .view fun span => ?_
    split
    · refine .bind (reads_allocExpr .unit span) fun unit => ?_
      exact .of_eq (by simp [parts]) (reads_allocPattern _ (List.cons_ne_nil _ _))
    · exact reads_invalidPattern _ _ _
  · refine .first (yields_patternElements place h) fun (items, trailingComma) => ?_
    refine .skip (quiet_require _) fun _ => ?_
    split
    · exact .pure (by simp)
    · exact .of_eq (by simp [parts]) (reads_patternFrom _ fun _ => trivial)

lemma reads_variantPattern (place : PatternPlace) (start : Nat) (path : List Name)
    (typeArgs : List TypeId) (h : Obeys J call) :
    Reads J (parts path + parts typeArgs) (variantPattern call place start path typeArgs) parts := by
  unfold variantPattern
  extract_lets rest
  have hrest (args : List PatternId) :
      Reads J (parts path + parts typeArgs + parts args) (rest args) parts := by
    refine .view fun span => ?_
    exact .of_eq (by simp [parts]) (reads_refutablePattern _ _ (List.cons_ne_nil _ _))
  clear_value rest
  refine .skip (quiet_optional _) fun opened => ?_
  split
  · refine .next (yields_list _ (h.pattern place)) fun args => ?_
    exact .skip (quiet_require _) fun _ => hrest args
  · exact .of_eq (by simp) (hrest [])

lemma yields_namePattern (place : PatternPlace) (h : Obeys J call) :
    Yields J (namePattern call place) := by
  refine .view fun start => .first yields_dottedName fun path => .view fun opensArgs => ?_
  extract_lets rest
  have hrest (typeArgs : List TypeId) :
      Reads J (parts path + parts typeArgs) (rest typeArgs) parts := by
    dsimp only [rest]
    split
    case h_1 name =>
      refine .view fun colon => ?_
      split
      · refine .next (yields_patternTypes place h) fun types => ?_
        exact .of_eq (by simp [parts]) (reads_patternFrom _ fun _ => trivial)
      · refine .view fun opens => ?_
        split
        · exact reads_variantPattern place start [name] [] h
        · exact .of_eq (by simp [parts]) (reads_patternFrom _ fun _ => trivial)
    case h_2 => exact reads_variantPattern place start path typeArgs h
  clear_value rest
  split
  · exact .next (yields_typeArguments (h.type J)) hrest
  · exact .of_eq (by simp) (hrest [])

lemma yields_singlePattern (place : PatternPlace) (h : Obeys J call) :
    Yields J (singlePattern call place) := by
  refine .view fun k => ?_
  split
  · exact yields_wildcardPattern place h
  · split
    · exact yields_tuplePattern place h
    · split
      · exact yields_constantPattern place h
      · split
        · exact yields_namePattern place h
        · refine .view fun span => .bind (reads_reportAt _ _ _) fun _ => ?_
          exact .skip_unless quiet_advance (reads_errorPattern span)

/-- The nodes of an alternation are opened, and its form holds what they held. -/
lemma reads_alternation (span : Span) (ids : List PatternId) (hne : ids ≠ []) :
    Reads J (parts ids) (do
      match PatternForm.alternation? (← patternNodes ids) with
      | some form => allocPattern form span
      | none => invalidPattern span "a '|' alternation") parts := by
  intro s hs
  refine .view ?_
  split
  case h_1 form hform =>
    intro a t e
    cases e
    refine ⟨J.step hs (.alloc s (.pattern ⟨form, span⟩)), rfl, rfl, fun _ rest hold => ?_⟩
    obtain ⟨hold, hnodes, hpropers⟩ := Nodes.uncover_patterns hold
    obtain ⟨hsheds, hproper⟩ := PatternForm.alternation?_held hform (hnodes hne) hpropers span
    exact (hold.shed (hsheds.add_right rest)).add hproper
  case h_2 => exact reads_invalidPattern _ _ _ s hs

lemma reads_alternativesRound (place : PatternPlace) (h : Obeys J call) (rest : List PatternId) :
    Reads J (parts rest) (alternativesRound call place rest) parts := by
  refine .skip (quiet_optional _) fun more => ?_
  split
  · exact .next (yields_singlePattern place h) fun next => .pure (by simp)
  · exact .pure rfl

lemma yields_plainPattern (place : PatternPlace) (h : Obeys J call) :
    Yields J (plainPattern call place) := by
  refine .view fun start => .first (yields_singlePattern place h) fun first => .view fun bar => ?_
  split
  · exact .pure rfl
  · refine .bind (p := fun rest => parts first + parts rest) ?_ fun rest => .view fun span => ?_
    · have rounds := Reads.loop_parts (reads_alternativesRound place h) []
      exact .of_eq (add_zero _).symm (rounds.frame _)
    · split
      · exact reads_invalidPattern _ _ _
      · exact .of_eq (parts_cons _ _).symm (reads_alternation span _ (List.cons_ne_nil _ _))

lemma yields_pattern (place : PatternPlace) (h : Obeys J call) : Yields J (pattern call place) :=
  reads_nested reads_errorPattern (yields_plainPattern place h)

end Rule

end CangjieSyntax

/-! ## Control flow -/

namespace CangjieSyntax.Rule

variable {env : Env} {J : Region env} {call : Call}

section

variable {α : Type} [HasParts α] {inner : Rule α}

lemma yields_inParens (h : Yields J inner) : Yields J (inParens inner) :=
  .skip (quiet_require _) fun _ => .first h fun _ => .skip (quiet_require _) fun _ => .pure rfl

lemma yields_inParens? (h : Yields J inner) : Yields J (inParens? inner) := by
  refine .skip (quiet_optional _) fun opened => ?_
  split
  · exact .first h fun a => .skip (quiet_require _) fun _ => .pure rfl
  · exact .pure rfl

end

lemma yields_condition (h : Obeys J call) : Yields J (condition call) := by
  refine .skip (quiet_optional _) fun isLet => ?_
  split
  · refine .first (h.pattern _) fun pattern => .skip (quiet_require _) fun _ => ?_
    exact .next h.expression fun value => .pure rfl
  · exact .first h.expression fun value => .pure rfl

lemma yields_ifThen (hJ : J.Settled) (h : Obeys J call) : Yields J (ifThen call) := by
  refine .view fun start => .skip quiet_advance fun _ => ?_
  refine .first (yields_inParens (yields_condition h)) fun condition => ?_
  refine .next (yields_block hJ h) fun body => ?_
  -- All branches go on with `rest`, so that it is read for any `otherwise` first.
  extract_lets rest
  have hrest (otherwise : Option ExprId) :
      Reads J (parts condition + parts body + parts otherwise) (rest otherwise) parts :=
    reads_exprFrom _ _
  clear_value rest
  refine .skip (quiet_optional _) fun hasElse => ?_
  split
  · refine .view fun nests => ?_
    split
    · exact .next h.ifThen fun otherwise => hrest (some otherwise)
    · refine .view fun elseStart => .next (yields_block hJ h) fun body => ?_
      exact .use (reads_exprFrom _ (.block body)) fun otherwise => hrest (some otherwise)
  · exact .of_eq (add_zero _).symm (hrest none)

lemma readsFrom_matchArm {s : ParseState} (hasSelector : Bool) (hJ : J.Settled) (h : Obeys J call)
    (hs : J.mem (s.advance env.src)) : ReadsFrom J s 0 (matchArm call hasSelector) parts := by
  refine .view (readsFrom_advance hs ?_)
  -- The guard and the body are read in the same way behind either sort of test.
  extract_lets rest
  have hrest (test : CaseTest) : Reads J (parts test) (rest test) parts := by
    refine .next (yields_behind _ h.expression) fun guard => .skip (quiet_require _) fun _ => ?_
    refine .view fun bodyStart => .next (yields_items hJ h _) fun items => ?_
    exact .view fun bodySpan => .view fun span => .pure rfl
  clear_value rest
  split
  · exact .first (h.pattern _) fun pattern => hrest (.pattern pattern)
  · exact .first h.expression fun condition => hrest (.condition condition)

lemma yields_matchArm (hasSelector : Bool) (hJ : J.Settled) (h : Obeys J call) :
    Yields J (matchArm call hasSelector) :=
  fun _ hs => readsFrom_matchArm hasSelector hJ h (J.step hs (.advance _))

lemma reads_matchArmsRound (hasSelector : Bool) (hJ : J.Settled) (h : Obeys J call)
    (b : List MatchArm × Bool) : Reads J (parts b) (matchArmsRound call hasSelector b) parts := by
  obtain ⟨arms, reported⟩ := b
  refine .view fun k => ?_
  split
  · exact .pure (by simp)
  · split
    · exact .next (yields_matchArm hasSelector hJ h) fun arm => .pure (by simp)
    · exact .skip_unless (quiet_report _ _) (.skip quiet_advance fun _ => .pure rfl)

lemma yields_matchArms (hasSelector : Bool) (hJ : J.Settled) (h : Obeys J call) :
    Yields J (matchArms call hasSelector) :=
  Reads.loop_parts (reads_matchArmsRound hasSelector hJ h) ([], false)

lemma yields_matchCases (hJ : J.Settled) (h : Obeys J call) : Yields J (matchCases call) := by
  refine .view fun start => .skip quiet_advance fun _ => ?_
  refine .first (yields_inParens? h.expression) fun selector => .skip (quiet_require _) fun _ => ?_
  refine .next (yields_matchArms _ hJ h) fun arms => .skip (quiet_require _) fun _ => ?_
  exact reads_exprFrom _ _

lemma yields_forIn (hJ : J.Settled) (h : Obeys J call) : Yields J (forIn call) := by
  refine .view fun start => .skip quiet_advance fun _ => ?_
  refine .first (yields_inParens ?_) fun (pattern, iterable, guard) => ?_
  · refine .first (h.pattern _) fun pattern => .skip (quiet_require _) fun _ => ?_
    refine .next h.expression fun iterable => ?_
    exact .next (yields_behind _ h.expression) fun guard => .pure (by simp [add_assoc])
  · refine .next (yields_block hJ h) fun body => .of_eq ?_ (reads_exprFrom _ _)
    rw [parts_pair, parts_pair, ← add_assoc]
    rfl

lemma yields_whileLoop (hJ : J.Settled) (h : Obeys J call) : Yields J (whileLoop call) := by
  refine .view fun start => .skip quiet_advance fun _ => ?_
  refine .first (yields_inParens (yields_condition h)) fun condition => ?_
  exact .next (yields_block hJ h) fun body => reads_exprFrom _ _

lemma yields_doWhile (hJ : J.Settled) (h : Obeys J call) : Yields J (doWhile call) := by
  refine .view fun start => .skip quiet_advance fun _ => ?_
  refine .first (yields_block hJ h) fun body => .skip (quiet_require _) fun _ => ?_
  exact .next (yields_inParens h.expression) fun condition => reads_exprFrom _ _

lemma yields_tryResource (h : Obeys J call) : Yields J (tryResource call) := by
  refine .first yields_identifier fun name => ?_
  refine .next (yields_behind _ (h.type J)) fun type => .skip (quiet_require _) fun _ => ?_
  exact .next h.expression fun value => .pure rfl

lemma reads_catchClausesRound (hJ : J.Settled) (h : Obeys J call) (catches : List CatchClause) :
    Reads J (parts catches) (catchClausesRound call catches) parts := by
  refine .skip (quiet_optional _) fun more => ?_
  split
  · refine .next (yields_inParens (h.pattern _)) fun pattern => ?_
    exact .next (yields_block hJ h) fun body => .pure (by simp [add_assoc])
  · exact .pure rfl

lemma yields_catchClauses (hJ : J.Settled) (h : Obeys J call) : Yields J (catchClauses call) :=
  Reads.loop_parts (reads_catchClausesRound hJ h) []

lemma yields_tryCatch (hJ : J.Settled) (h : Obeys J call) : Yields J (tryCatch call) := by
  refine .view fun start => .skip quiet_advance fun _ => ?_
  refine .first (yields_inParens? (yields_list _ (yields_tryResource h))) fun resources => ?_
  refine .next (yields_block hJ h) fun body => .next (yields_catchClauses hJ h) fun catches => ?_
  refine .next (yields_behind _ (yields_block hJ h)) fun finalBody => ?_
  refine .skip_when (quiet_report _ _) ?_
  cases resources with
  | none => exact .of_eq (by simp [parts]) (reads_exprFrom _ _)
  | some resources => exact reads_exprFrom _ _

lemma yields_spawn (hJ : J.Settled) (h : Obeys J call) : Yields J (spawn call) := by
  refine .view fun start => .skip quiet_advance fun _ => ?_
  refine .first (yields_inParens? h.expression) fun context => .view fun bodyStart => ?_
  extract_lets rest
  have hrest (items : List BlockItem) :
      Reads J (parts context + parts items) (rest items) parts :=
    .view fun span => reads_exprFrom _ _
  clear_value rest
  refine .skip (quiet_expect _) fun opened => ?_
  split
  · refine .skip (quiet_optional _) fun _ => .next (yields_allItems hJ h) fun items => ?_
    exact .skip (quiet_require _) fun _ => hrest items
  · exact .of_eq (add_zero _).symm (hrest [])

lemma yields_synchronized (hJ : J.Settled) (h : Obeys J call) : Yields J (synchronized call) := by
  refine .view fun start => .skip quiet_advance fun _ => ?_
  refine .first (yields_inParens h.expression) fun lock => ?_
  exact .next (yields_block hJ h) fun body => reads_exprFrom _ _

lemma yields_unsafeBlock (hJ : J.Settled) (h : Obeys J call) : Yields J (unsafeBlock call) := by
  refine .view fun start => .skip quiet_advance fun _ => ?_
  exact .first (yields_block hJ h) fun body => reads_exprFrom _ _

lemma yields_throwValue (h : Obeys J call) : Yields J (throwValue call) := by
  refine .view fun start => .skip quiet_advance fun _ => ?_
  exact .first h.expression fun value => reads_exprFrom _ _

lemma yields_returnValue (h : Obeys J call) : Yields J (returnValue call) := by
  refine .view fun start => .skip quiet_advance fun _ => .view fun hasValue => ?_
  split
  · exact .first h.expression fun value => reads_exprFrom _ (.returnValue (some value))
  · exact reads_exprFrom _ (.returnValue none)

end CangjieSyntax.Rule
