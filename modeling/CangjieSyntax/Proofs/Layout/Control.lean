import CangjieSyntax.Grammar.Control
import CangjieSyntax.Grammar.Patterns
import CangjieSyntax.Proofs.Layout.Types

/-!
# How the rules of patterns and control flow lay out what they read

Branches, loops, exceptions and threads. Each goes from its keyword to the end of its last part.
-/

/-!
## Patterns

An alternation opens the nodes of its alternatives: what they hold is laid where they are.
-/

namespace CangjieSyntax

variable {env : Env} {J : Ground env} {call : Call} {s t : ParseState} {lo : Nat} {held : List Mark}
  {span : Span}

namespace PatternForm

/-- What the nodes of an alternation hold, with their spans. -/
def opened (ps : List PatternNode) : List Mark :=
  ps.flatMap fun p => marks p ++ [.span p.span]

lemma marks_constants_sublist (form : PatternForm) (span : Span) :
    (marks form.constants).Sublist (marks form ++ [.span span]) := by
  cases form with
  | constant values => exact List.sublist_append_left _ _
  | _ => exact List.nil_sublist _

lemma marks_variants_sublist (form : PatternForm) (span : Span) :
    (marks (form.variants span)).Sublist (marks form ++ [.span span]) := by
  cases form with
  | variant variants => exact List.sublist_append_left _ _
  | binding name => exact List.Sublist.refl _
  | _ => exact List.nil_sublist _

/-- What a list takes from the nodes of patterns is held by them. -/
lemma marks_flatMap_sublist {α : Type} [HasMarks α] {f : PatternNode → List α}
    (h : ∀ p, (marks (f p)).Sublist (marks p ++ [.span p.span])) (ps : List PatternNode) :
    (marks (ps.flatMap f)).Sublist (opened ps) := by
  induction ps with
  | nil => exact List.Sublist.refl _
  | cons p ps ih =>
    rw [List.flatMap_cons, marks_append]
    exact (h p).append ih

/-- An alternation holds no more than its alternatives. -/
lemma alternation?_sublist {ps : List PatternNode} {form : PatternForm}
    (e : alternation? ps = some form) : (marks form).Sublist (opened ps) := by
  have hvalues := marks_flatMap_sublist (fun p => marks_constants_sublist p.form p.span) ps
  have hvariants := marks_flatMap_sublist (fun p => marks_variants_sublist p.form p.span) ps
  unfold alternation? at e
  dsimp only at e
  split at e
  case isTrue => exact nomatch e
  case isFalse =>
    split at e
    case h_1 =>
      cases e
      exact List.nil_sublist _
    case h_2 =>
      cases e
      exact hvalues
    case h_3 =>
      cases e
      exact hvariants
    case h_4 => exact nomatch e

end PatternForm

namespace Nodes

variable {nodes : Nodes} {src : Source}

/-- All spans in the nodes of patterns are valid. -/
lemma Valid.opened (h : nodes.Valid src) (ids : List PatternId) :
    ∀ m ∈ PatternForm.opened (ids.filterMap nodes.patterns.get?), m.Valid src := by
  intro m hm
  obtain ⟨p, hp, hm⟩ := List.mem_flatMap.1 hm
  obtain ⟨id, -, hid⟩ := List.mem_filterMap.1 hp
  have hnode := h (.pattern id) (.pattern p) (by simp [Nodes.get?, hid])
  rcases List.mem_append.1 hm with hm | hm
  · exact hnode.marks m hm
  · rw [List.mem_singleton.1 hm]
    exact hnode.span

/-- Where patterns are laid, their nodes may be opened. -/
lemma Nested.opened (h : nodes.Nested) {ids : List PatternId} {lo hi : Nat}
    (hlaid : Laid nodes lo hi (marks ids)) :
    Laid nodes lo hi (PatternForm.opened (ids.filterMap nodes.patterns.get?)) := by
  induction ids generalizing lo with
  | nil => exact .nil
  | cons id ids ih =>
    cases hlaid with
    | node hnode le_start stop_le rest =>
      obtain ⟨p, hp, rfl⟩ := Option.map_eq_some_iff.1 hnode
      obtain ⟨reading, hreading, hparts⟩ := h _ _ hnode
      rw [List.mem_singleton.1 hreading] at hparts
      rw [List.filterMap_cons_some hp]
      have hrest : Laid nodes lo hi (.node (.pattern id) :: PatternForm.opened
          (ids.filterMap nodes.patterns.get?)) := .node hnode le_start stop_le (ih rest)
      exact hrest.splice hnode (hparts.hold fun _ => .span p.span .nil)

end Nodes

/-- Patterns that are held may be opened. A name by itself holds no node, but a token stood there. -/
lemma Arranged.opened {ids : List PatternId} (h : Arranged env lo s (marks ids))
    (hbegun : Begun (marks ids)) :
    Arranged env lo s (.token :: PatternForm.opened (ids.filterMap s.nodes.patterns.get?)) := by
  refine { h with valid := fun m hm => ?_, laid := fun hnot => ?_ }
  · rcases List.mem_cons.1 hm with rfl | hm
    · trivial
    · exact h.nodes.opened ids m hm
  · obtain ⟨hnested, hlaid⟩ := h.laid hnot
    exact ⟨hnested, .token (hlaid.le_of_begun hbegun) (hnested.opened hlaid)⟩

namespace Rule

lemma lays_errorPattern (hspan : span.Valid env.src) (hfault : .fault ∈ held) :
    Lays J lo held (errorPattern span) marks :=
  (lays_allocPattern_fault hspan hfault (List.nil_sublist _)).forget fun _ =>
    List.sublist_cons_self _ _

lemma lays_invalidPattern (hspan : span.Valid env.src) (place : String) :
    Lays J lo held (invalidPattern span place) marks :=
  .faulty (faults_reportAt hspan _ _) fun _ => lays_errorPattern hspan (by simp)

lemma laysFrom_refutablePattern (place : PatternPlace) (hspan : span = s.spanFrom lo)
    (hlo : env.src.isBoundary lo) (hs : J.mem s) {form : PatternForm}
    (hsub : (marks form).Sublist held) (hbegun : Begun held) :
    LaysFrom J lo s held (refutablePattern place form span) marks := by
  unfold refutablePattern
  split
  · exact laysFrom_allocPattern hspan hbegun hs hsub
  · exact lays_invalidPattern (hspan ▸ (J.footed hs).spanFrom hlo) _ s hs

lemma places_patternTypes (place : PatternPlace) (h : LaysOut J call) :
    Places J (patternTypes call place) := by
  refine fun lo => .skip takes_advance fun _ => ?_
  split
  · exact places_separated _ (h.type J) lo
  · exact .first (h.type J) fun type => .pure (by simp)

lemma places_wildcardPattern (place : PatternPlace) (h : LaysOut J call) :
    Places J (wildcardPattern call place) := by
  refine fun _ => .start fun lo hlo => .take takes_advance fun _ => .view fun colon => ?_
  split
  · refine .next (places_patternTypes place h) fun types => ?_
    exact lays_patternFrom (by simp [marks]) (by simp)
  · exact lays_patternFrom (List.nil_sublist _) (by simp)

lemma places_constantPattern (place : PatternPlace) (h : LaysOut J call) :
    Places J (constantPattern call place) := by
  refine fun _ => .start fun lo hlo => .first h.unary fun value s hs => .view ?_
  exact laysFrom_refutablePattern place rfl hlo hs (by simp [marks]) (by simp)

lemma lays_patternElementsRound (place : PatternPlace) (h : LaysOut J call)
    (b : List PatternId × Bool) (lo : Nat) :
    Lays J lo (marks b) (patternElementsRound call place b) marks := by
  obtain ⟨items, trailingComma⟩ := b
  refine .view fun atEnd => ?_
  split
  · exact .pure (List.Sublist.refl _)
  · refine .next (h.pattern place) fun item => ?_
    refine .skip (lays_optional _) fun comma => .view fun closes => ?_
    split
    · exact .pure (by simp)
    · exact .pure (by simp)

lemma places_patternElements (place : PatternPlace) (h : LaysOut J call) :
    Places J (patternElements call place) :=
  fun lo => Lays.loop_marks (lays_patternElementsRound place h · lo) ([], false)

lemma places_tuplePattern (place : PatternPlace) (h : LaysOut J call) :
    Places J (tuplePattern call place) := by
  refine fun _ => .start fun lo hlo => .take takes_advance fun _ => ?_
  refine .skip (lays_optional _) fun unit => ?_
  split
  · intro s hs
    refine .view ?_
    split
    · refine .bind (laysFrom_allocExpr rfl (by simp) hs (List.nil_sublist _)) fun unit t e ht => ?_
      exact laysFrom_allocPattern (spanFrom_of_allocExpr e).symm (by simp) ht (by simp [marks])
    · exact lays_invalidPattern ((J.footed hs).spanFrom hlo) _ s hs
  · refine .next (places_patternElements place h) fun (items, trailingComma) => ?_
    refine .skip (takes_require _) fun _ => ?_
    split
    · exact .pure (by simp)
    · exact lays_patternFrom (by simp [marks]) (by simp)

lemma lays_variantPattern (place : PatternPlace) (path : List Name) (typeArgs : List TypeId)
    (hlo : env.src.isBoundary lo) (h : LaysOut J call) :
    Lays J lo (.token :: (marks path ++ marks typeArgs)) (variantPattern call place lo path typeArgs)
      marks := by
  unfold variantPattern
  extract_lets rest
  have hrest (args : List PatternId) :
      Lays J lo (.token :: (marks path ++ marks typeArgs ++ marks args)) (rest args) marks := by
    intro s hs
    refine .view <| .arrange (fun h => h.hold ((J.footed hs).spanFrom hlo)) ?_
    exact laysFrom_refutablePattern place rfl hlo hs (by simp [marks]) (by simp)
  clear_value rest
  refine .skip (lays_optional _) fun opened => ?_
  split
  · refine .next (places_list _ (h.pattern place)) fun args => ?_
    exact .skip (takes_require _) fun _ => hrest args
  · exact .of_eq (by simp) (hrest [])

lemma places_namePattern (place : PatternPlace) (h : LaysOut J call) :
    Places J (namePattern call place) := by
  refine fun _ => .start fun lo hlo => .bind (lays_dottedName lo) fun path => .view fun opensArgs => ?_
  extract_lets rest
  have hrest (typeArgs : List TypeId) :
      Lays J lo (.token :: (marks path ++ marks typeArgs)) (rest typeArgs) marks := by
    dsimp only [rest]
    split
    case h_1 name =>
      refine .view fun colon => ?_
      split
      · refine .next (places_patternTypes place h) fun types => ?_
        exact lays_patternFrom (by simp [marks]) (by simp)
      · refine .view fun opens => ?_
        split
        · exact lays_variantPattern place [name] [] hlo h
        · exact lays_patternFrom (by simp [marks]) (by simp)
    case h_2 => exact lays_variantPattern place path typeArgs hlo h
  clear_value rest
  split
  · exact .next (places_typeArguments (h.type J)) hrest
  · exact .of_eq (by simp) (hrest [])

lemma places_singlePattern (place : PatternPlace) (h : LaysOut J call) :
    Places J (singlePattern call place) := by
  refine fun lo => .view fun k => ?_
  split
  · exact places_wildcardPattern place h lo
  · split
    · exact places_tuplePattern place h lo
    · split
      · exact places_constantPattern place h lo
      · split
        · exact places_namePattern place h lo
        · refine .tokenSpan fun span hspan => .faulty (faults_reportAt hspan _ _) fun _ => ?_
          exact .skip_unless takes_advance (lays_errorPattern hspan (by simp))

/-- The nodes of an alternation are opened, and its form holds what they held. -/
lemma laysFrom_alternation (hspan : span = s.spanFrom lo) (hlo : env.src.isBoundary lo)
    (hs : J.mem s) (ids : List PatternId) (hbegun : Begun (marks ids)) :
    LaysFrom J lo s (marks ids) (do
      match PatternForm.alternation? (← patternNodes ids) with
      | some form => allocPattern form span
      | none => invalidPattern span "a '|' alternation") marks := by
  refine .view ?_
  split
  case h_1 form hform =>
    refine .arrange (fun h => h.opened hbegun) ?_
    exact laysFrom_allocPattern hspan (by simp) hs
      ((PatternForm.alternation?_sublist hform).trans (List.sublist_cons_self _ _))
  case h_2 => exact lays_invalidPattern (hspan ▸ (J.footed hs).spanFrom hlo) _ s hs

lemma lays_alternativesRound (place : PatternPlace) (h : LaysOut J call) (first : PatternId)
    (rest : List PatternId) (lo : Nat) :
    Lays J lo (marks (first :: rest)) (alternativesRound call place rest)
      (Sum.elim (fun rest => marks (first :: rest)) fun rest => marks (first :: rest)) := by
  refine .skip (lays_optional _) fun more => ?_
  split
  · exact .next (places_singlePattern place h) fun next => .pure (by simp)
  · exact .pure (List.Sublist.refl _)

lemma places_plainPattern (place : PatternPlace) (h : LaysOut J call) :
    Places J (plainPattern call place) := by
  refine fun _ => .start fun lo hlo => .first (places_singlePattern place h) fun first => ?_
  refine .view fun bar => ?_
  split
  · exact .pure (List.Sublist.refl _)
  · refine .of_eq (by simp) <| .bind (Lays.loop (q := fun rest => marks (first :: rest))
      (lays_alternativesRound place h first · lo) []) fun rest s hs => .view ?_
    split
    · exact lays_invalidPattern ((J.footed hs).spanFrom hlo) _ s hs
    · exact laysFrom_alternation rfl hlo hs _ (by simp)

lemma places_pattern (place : PatternPlace) (h : LaysOut J call) : Places J (pattern call place) :=
  places_nested (fun _ _ hspan => lays_errorPattern hspan (by simp)) (places_plainPattern place h)

end Rule

end CangjieSyntax

/-! ## Control flow -/

namespace CangjieSyntax.Rule

variable {env : Env} {J : Ground env} {call : Call}

section

variable {α : Type} [HasMarks α] {inner : Rule α}

lemma places_inParens (h : Places J inner) : Places J (inParens inner) :=
  fun _ => .skip (takes_require _) fun _ => .first h fun _ =>
    .skip (takes_require _) fun _ => .pure (List.Sublist.refl _)

lemma places_inParens? (h : Places J inner) : Places J (inParens? inner) := by
  refine fun lo => .skip (lays_optional _) fun opened => ?_
  split
  · exact .first h fun a => .skip (takes_require _) fun _ => .pure (List.Sublist.refl _)
  · exact .pure (List.Sublist.refl _)

end

lemma places_condition (h : LaysOut J call) : Places J (condition call) := by
  refine fun lo => .skip (lays_optional _) fun isLet => ?_
  split
  · refine .first (h.pattern _) fun pattern => .skip (takes_require _) fun _ => ?_
    exact .next h.expression fun value => .pure (List.Sublist.refl _)
  · exact .first h.expression fun value => .pure (List.Sublist.refl _)

/-- The last branch of an `if` is an expression of its own. -/
lemma places_elseBlock (hJ : J.Settled) (h : LaysOut J call) : Places J (do
    let elseStart ← Rule.start
    let body ← block call
    exprFrom elseStart (.block body)) :=
  fun _ => .start fun lo _ => .bind (lays_block hJ h lo) fun _ =>
    lays_exprFrom (List.sublist_cons_self _ _) (by simp)

lemma places_ifThen (hJ : J.Settled) (h : LaysOut J call) : Places J (ifThen call) := by
  refine fun _ => .start fun lo _ => .take takes_advance fun _ => ?_
  refine .next (places_inParens (places_condition h)) fun condition => ?_
  refine .next (places_block hJ h) fun body => ?_
  -- All branches go on with `rest`, so that it is read for any `otherwise` first.
  extract_lets rest
  have hrest (otherwise : Option ExprId) :
      Lays J lo ([] ++ [.token] ++ marks condition ++ marks body ++ marks otherwise) (rest otherwise)
        marks :=
    lays_exprFrom (by simp [marks]) (by simp)
  clear_value rest
  refine .skip (lays_optional _) fun hasElse => ?_
  split
  · refine .view fun nests => ?_
    split
    · exact .next h.ifThen fun otherwise => hrest (some otherwise)
    · simpa only [bind_assoc, pure_bind] using
        Lays.next (places_elseBlock hJ h) fun otherwise => hrest (some otherwise)
  · exact .of_eq (by simp) (hrest none)

lemma places_matchArm (hasSelector : Bool) (hJ : J.Settled) (h : LaysOut J call) :
    Places J (matchArm call hasSelector) := by
  refine fun lo => .edge fun start hstart => .skip takes_advance fun _ => ?_
  -- The guard and the body are read in the same way behind either sort of test.
  extract_lets rest
  have hrest (test : CaseTest) : Lays J lo (marks test) (rest test) marks := by
    refine .next (places_behind _ h.expression) fun guard => .skip (takes_require _) fun _ => ?_
    refine .edge fun bodyStart hbody => .next (places_items hJ h _) fun items => ?_
    refine .spanFrom hbody fun bodySpan hbodySpan => .hold hbodySpan ?_
    exact .spanFrom hstart fun span hspan => .hold hspan (.pure (by simp [marks]))
  clear_value rest
  split
  · exact .first (h.pattern _) fun pattern => hrest (.pattern pattern)
  · exact .first h.expression fun condition => hrest (.condition condition)

lemma lays_matchArmsRound (hasSelector : Bool) (hJ : J.Settled) (h : LaysOut J call)
    (b : List MatchArm × Bool) (lo : Nat) :
    Lays J lo (marks b) (matchArmsRound call hasSelector b) marks := by
  obtain ⟨arms, reported⟩ := b
  refine .view fun k => ?_
  split
  · exact .pure (by simp)
  · split
    · exact .next (places_matchArm hasSelector hJ h) fun arm => .pure (by simp)
    · refine .skip_unless (faults_report _ _) (.skip takes_advance fun _ => ?_)
      exact .pure (List.Sublist.refl _)

lemma places_matchArms (hasSelector : Bool) (hJ : J.Settled) (h : LaysOut J call) :
    Places J (matchArms call hasSelector) :=
  fun lo => Lays.loop_marks (lays_matchArmsRound hasSelector hJ h · lo) ([], false)

lemma places_matchCases (hJ : J.Settled) (h : LaysOut J call) : Places J (matchCases call) := by
  refine fun _ => .start fun lo _ => .take takes_advance fun _ => ?_
  refine .next (places_inParens? h.expression) fun selector => .skip (takes_require _) fun _ => ?_
  refine .next (places_matchArms _ hJ h) fun arms => .skip (takes_require _) fun _ => ?_
  exact lays_exprFrom (by simp [marks]) (by simp)

lemma places_forIn (hJ : J.Settled) (h : LaysOut J call) : Places J (forIn call) := by
  refine fun _ => .start fun lo _ => .take takes_advance fun _ => ?_
  refine .next (places_inParens fun lo => ?_) fun (pattern, iterable, guard) => ?_
  · refine .first (h.pattern _) fun pattern => .skip (takes_require _) fun _ => ?_
    refine .next h.expression fun iterable => ?_
    exact .next (places_behind _ h.expression) fun guard => .pure (by simp)
  · exact .next (places_block hJ h) fun body => lays_exprFrom (by simp [marks]) (by simp)

lemma places_whileLoop (hJ : J.Settled) (h : LaysOut J call) : Places J (whileLoop call) := by
  refine fun _ => .start fun lo _ => .take takes_advance fun _ => ?_
  refine .next (places_inParens (places_condition h)) fun condition => ?_
  exact .next (places_block hJ h) fun body => lays_exprFrom (by simp [marks]) (by simp)

lemma places_doWhile (hJ : J.Settled) (h : LaysOut J call) : Places J (doWhile call) := by
  refine fun _ => .start fun lo _ => .take takes_advance fun _ => ?_
  refine .next (places_block hJ h) fun body => .skip (takes_require _) fun _ => ?_
  refine .next (places_inParens h.expression) fun condition => ?_
  exact lays_exprFrom (by simp [marks]) (by simp)

lemma places_tryResource (h : LaysOut J call) : Places J (tryResource call) := by
  refine fun lo => .first places_identifier fun name => ?_
  refine .next (places_behind _ (h.type J)) fun type => .skip (takes_require _) fun _ => ?_
  exact .next h.expression fun value => .pure (List.Sublist.refl _)

lemma lays_catchClausesRound (hJ : J.Settled) (h : LaysOut J call) (catches : List CatchClause)
    (lo : Nat) : Lays J lo (marks catches) (catchClausesRound call catches) marks := by
  refine .skip (lays_optional _) fun more => ?_
  split
  · refine .next (places_inParens (h.pattern _)) fun pattern => ?_
    exact .next (places_block hJ h) fun body => .pure (by simp)
  · exact .pure (List.Sublist.refl _)

lemma places_catchClauses (hJ : J.Settled) (h : LaysOut J call) : Places J (catchClauses call) :=
  fun lo => Lays.loop_marks (lays_catchClausesRound hJ h · lo) []

lemma places_tryCatch (hJ : J.Settled) (h : LaysOut J call) : Places J (tryCatch call) := by
  refine fun _ => .start fun lo _ => .take takes_advance fun _ => ?_
  refine .next (places_inParens? (places_list _ (places_tryResource h))) fun resources => ?_
  refine .next (places_block hJ h) fun body => .next (places_catchClauses hJ h) fun catches => ?_
  refine .next (places_behind _ (places_block hJ h)) fun finalBody => ?_
  refine .skip_when (faults_report _ _) ?_
  cases resources with
  | none => exact lays_exprFrom (by simp [marks]) (by simp)
  | some resources => exact lays_exprFrom (by simp [marks]) (by simp)

lemma places_spawn (hJ : J.Settled) (h : LaysOut J call) : Places J (spawn call) := by
  refine fun _ => .start fun lo _ => .take takes_advance fun _ => ?_
  refine .next (places_inParens? h.expression) fun context => .edge fun bodyStart hbody => ?_
  extract_lets rest
  have hrest (items : List BlockItem) :
      Lays J lo ([] ++ [.token] ++ marks context ++ marks items) (rest items) marks :=
    .spanFrom hbody fun span hspan => .hold hspan (lays_exprFrom (by simp [marks]) (by simp))
  clear_value rest
  refine .skip (lays_expect _) fun opened => ?_
  split
  · refine .skip (lays_optional _) fun _ => .next (places_allItems hJ h) fun items => ?_
    exact .skip (takes_require _) fun _ => hrest items
  · exact .of_eq (by simp) (hrest [])

lemma places_synchronized (hJ : J.Settled) (h : LaysOut J call) : Places J (synchronized call) := by
  refine fun _ => .start fun lo _ => .take takes_advance fun _ => ?_
  refine .next (places_inParens h.expression) fun lock => ?_
  exact .next (places_block hJ h) fun body => lays_exprFrom (by simp [marks]) (by simp)

lemma places_unsafeBlock (hJ : J.Settled) (h : LaysOut J call) : Places J (unsafeBlock call) := by
  refine fun _ => .start fun lo _ => .take takes_advance fun _ => ?_
  exact .next (places_block hJ h) fun body => lays_exprFrom (by simp [marks]) (by simp)

lemma places_throwValue (h : LaysOut J call) : Places J (throwValue call) := by
  refine fun _ => .start fun lo _ => .take takes_advance fun _ => ?_
  exact .next h.expression fun value => lays_exprFrom (by simp [marks]) (by simp)

lemma places_returnValue (h : LaysOut J call) : Places J (returnValue call) := by
  refine fun _ => .start fun lo _ => .take takes_advance fun _ => .view fun hasValue => ?_
  split
  · exact .next h.expression fun value => lays_exprFrom (by simp [marks]) (by simp)
  · exact lays_exprFrom (List.nil_sublist _) (by simp)

end CangjieSyntax.Rule
