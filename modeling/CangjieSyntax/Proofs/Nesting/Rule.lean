import CangjieSyntax.Proofs.Grammar.Rule
import CangjieSyntax.Proofs.Twin.Rule

/-!
# What is around the place

Rules go deeper, enter the body of a type and make attempts, and come back from there. A run is
compared with one in which no rule has an answer where constructs are nested deeper than a ceiling.
`Restores env ceiling r r'` says that from below the ceiling on, the two runs of a rule come to the
same, and that what is around the place is behind the rule what it was in front of it.
-/

namespace CangjieSyntax

variable {env : Env} {ceiling : Nat} {α β : Type} {s t u : ParseState}

namespace ParseState

/-- What is around the place: how many constructs, the type whose body is being read, how many
attempts, and the count of tokens that none of them may go past. -/
def surroundings (s : ParseState) : Nat × Option String × Nat × Option Nat :=
  (s.depth, s.enclosingType, s.tentative.depth, s.tentative.limit)

lemma surroundings_checkLimit (s : ParseState) : s.checkLimit.surroundings = s.surroundings := by
  unfold checkLimit
  split
  · split <;> rfl
  · rfl

lemma surroundings_lexicalFault (s : ParseState) :
    s.lexicalFault.surroundings = s.surroundings := by
  unfold lexicalFault
  split <;> rfl

lemma surroundings_advance (src : Source) (s : ParseState) :
    (s.advance src).surroundings = s.surroundings := by
  have limited := surroundings_checkLimit { s with
    prevStop := s.lexer.pos, prevSpan := s.lexer.span, prevKind := s.lexer.kind
    tokenCount := s.tokenCount + 1 }
  unfold advance
  dsimp only
  split
  · rw [surroundings_lexicalFault]
    exact limited
  · exact limited

lemma surroundings_report (span : Span) (m : Message) (args : List String) (s : ParseState) :
    (s.report span m args).surroundings = s.surroundings := by
  unfold report
  split
  · rfl
  · dsimp only
    split <;> rfl

lemma surroundings_reportDepth (span : Span) (maxDepth : Nat) (s : ParseState) :
    (s.reportDepth span maxDepth).surroundings = s.surroundings := by
  unfold reportDepth
  split <;> rfl

lemma depth_le_of_surroundings (h : t.surroundings = s.surroundings) (hs : s.depth ≤ ceiling) :
    t.depth ≤ ceiling :=
  (congrArg Prod.fst h).trans_le hs

/-- Where one more construct may be nested, it is below a ceiling that the settings allow. -/
lemma deeper_le (hceiling : env.settings.maxDepth ≤ ceiling)
    (h : ¬ env.settings.maxDepth ≤ s.depth) : s.depth + 1 ≤ ceiling :=
  (Nat.lt_of_not_le h).trans_le hceiling

/-- An attempt that has come back to what was around it when it started leaves no trace there. -/
lemma surroundings_commit {budget : Nat}
    (h : u.surroundings = (s.enterTentative budget).surroundings) :
    (s.commit u).surroundings = s.surroundings := by
  simp only [surroundings, enterTentative, Prod.mk.injEq] at h
  obtain ⟨hdepth, howner, hattempts, -⟩ := h
  simp only [surroundings, commit, leaveTentative, hdepth, howner, hattempts, Nat.add_sub_cancel]

lemma surroundings_giveUp {budget : Nat}
    (h : u.surroundings = (s.enterTentative budget).surroundings) :
    (s.giveUp u).surroundings = s.surroundings := by
  simp only [surroundings, enterTentative, Prod.mk.injEq] at h
  obtain ⟨-, howner, hattempts, -⟩ := h
  rw [giveUp, surroundings_checkLimit]
  simp only [surroundings, rewind, leaveTentative, howner, hattempts, Nat.add_sub_cancel]

end ParseState

/-- From below a ceiling on, two rules come to the same, and the first one restores what is around
the place. -/
structure Restores (env : Env) (ceiling : Nat) (r r' : Rule α) : Prop where
  agrees : ∀ {s}, s.depth ≤ ceiling → r' env s = r env s
  restores : ∀ {s a t}, s.depth ≤ ceiling → r env s = some (a, t) →
    t.surroundings = s.surroundings

/-- A rule that calls no others by name restores what is around the place. -/
abbrev RestoresFlat (env : Env) (ceiling : Nat) (r : Rule α) : Prop :=
  Restores env ceiling r r

namespace Restores

variable {r r' : Rule α} {k k' : α → Rule β}

lemma endless : RestoresFlat env ceiling (Rule.endless : Rule α) :=
  ⟨fun _ => rfl, fun _ e => nomatch e⟩

@[grind ←]
lemma pure (a : α) : RestoresFlat env ceiling (Pure.pure a : Rule α) := by
  refine ⟨fun _ => rfl, ?_⟩
  rintro s _ _ - ⟨⟩
  rfl

/-- Behind a rule the place is as deep as in front of it, so that the next one starts below the
ceiling too. -/
@[grind ←]
lemma bind (h : Restores env ceiling r r') (hk : ∀ a, Restores env ceiling (k a) (k' a)) :
    Restores env ceiling (r >>= k) (r' >>= k') := by
  have below {s a t} (hs : s.depth ≤ ceiling) (e : r env s = some (a, t)) : t.depth ≤ ceiling :=
    ParseState.depth_le_of_surroundings (h.restores hs e) hs
  refine ⟨fun {s} hs => ?_, fun {s b u} hs e => ?_⟩
  · change (r' env s).bind _ = (r env s).bind _
    rw [h.agrees hs]
    exact Option.bind_congr fun p e => (hk p.1).agrees (below hs e)
  · obtain ⟨a, t, hr, e⟩ := Rule.bind_eq_some.1 e
    exact ((hk a).restores (below hs hr) e).trans (h.restores hs hr)

@[grind ←]
lemma view (f : Source → ParseState → α) : RestoresFlat env ceiling (Rule.view f) := by
  refine ⟨fun _ => rfl, ?_⟩
  rintro s _ _ - ⟨⟩
  rfl

@[grind ←]
lemma get : RestoresFlat env ceiling (MonadState.get : Rule ParseState) := by
  refine ⟨fun _ => rfl, ?_⟩
  rintro s _ _ - ⟨⟩
  rfl

@[grind ←]
lemma read : RestoresFlat env ceiling (MonadReader.read : Rule Env) := by
  refine ⟨fun _ => rfl, ?_⟩
  rintro s _ _ - ⟨⟩
  rfl

lemma modify {f : ParseState → ParseState} (h : ∀ s, (f s).surroundings = s.surroundings) :
    RestoresFlat env ceiling (MonadState.modifyGet fun s => ((), f s) : Rule Unit) := by
  refine ⟨fun _ => rfl, ?_⟩
  rintro s _ _ - ⟨⟩
  exact h s

@[grind ←]
lemma loop {step step' : β → Rule (β ⊕ α)} (h : ∀ b, Restores env ceiling (step b) (step' b))
    (b : β) : Restores env ceiling (Rule.loop step b) (Rule.loop step' b) := by
  have rounds (n : Nat) (b : β) :
      Restores env ceiling (Rule.loopUpTo step n b) (Rule.loopUpTo step' n b) := by
    induction n generalizing b with
    | zero => exact .endless
    | succ n ih =>
      refine .bind (h b) fun next => ?_
      cases next with
      | inl b => exact ih b
      | inr a => exact .pure a
  exact .bind .read fun env' => rounds env'.rounds b

@[grind ←]
lemma mapM {f f' : α → Rule β} (h : ∀ a, Restores env ceiling (f a) (f' a)) (items : List α) :
    Restores env ceiling (items.mapM f) (items.mapM f') := by
  induction items with
  | nil => exact .pure []
  | cons a items ih =>
    rw [List.mapM_cons, List.mapM_cons]
    exact .bind (h a) fun b => .bind ih fun bs => .pure (b :: bs)

/-- Reading one level deeper, or past the depth allowed. -/
@[grind ←]
lemma nested {fallback fallback' : Span → Rule α} (hceiling : env.settings.maxDepth ≤ ceiling)
    (hfallback : ∀ span, Restores env ceiling (fallback span) (fallback' span))
    (h : Restores env ceiling r r') :
    Restores env ceiling (Rule.nested fallback r) (Rule.nested fallback' r') := by
  have reported (s : ParseState) := s.surroundings_reportDepth s.lexer.span env.settings.maxDepth
  refine ⟨fun {s} hs => ?_, fun {s a t} hs e => ?_⟩
  · rw [Rule.nested_apply, Rule.nested_apply]
    split
    · exact (hfallback _).agrees (ParseState.depth_le_of_surroundings (reported s) hs)
    case isFalse hdepth =>
      rw [h.agrees (s := { s with depth := s.depth + 1 }) (ParseState.deeper_le hceiling hdepth)]
  · rw [Rule.nested_apply] at e
    split at e
    · have below := ParseState.depth_le_of_surroundings (reported s) hs
      exact ((hfallback _).restores below e).trans (reported s)
    case isFalse hdepth =>
      obtain ⟨⟨b, u⟩, hrun, e⟩ := Option.map_eq_some_iff.1 e
      cases e
      have around := h.restores (s := { s with depth := s.depth + 1 })
        (ParseState.deeper_le hceiling hdepth) hrun
      simp only [ParseState.surroundings, Prod.mk.injEq] at around ⊢
      obtain ⟨depth, owner, attempts, limit⟩ := around
      exact ⟨by rw [depth, Nat.add_sub_cancel], owner, attempts, limit⟩

/-- An attempt comes back to what was around it, whether it is committed or given up. -/
@[grind ←]
lemma attempt {body body' : Rule (Option α)} (h : Restores env ceiling body body') :
    Restores env ceiling (Rule.attempt body) (Rule.attempt body') := by
  refine ⟨fun {s} hs => ?_, fun {s a t} hs e => ?_⟩
  · rw [Rule.attempt_apply, Rule.attempt_apply,
      h.agrees (s := s.enterTentative env.settings.budget) hs]
  · obtain ⟨result, u, hrun, hend⟩ := Rule.attempt_eq_some e
    have around := h.restores (s := s.enterTentative env.settings.budget) hs hrun
    obtain ⟨b, -, -, -, rfl⟩ | ⟨-, -, rfl⟩ := hend
    · exact ParseState.surroundings_commit around
    · exact ParseState.surroundings_giveUp around

@[grind ←]
lemma enclosedBy (owner : Option String) (h : Restores env ceiling r r') :
    Restores env ceiling (Rule.enclosedBy owner r) (Rule.enclosedBy owner r') := by
  have enter (s : ParseState) (r : Rule α) : Rule.enclosedBy owner r env s =
      (r env { s with enclosingType := owner }).map
        fun p => (p.1, { p.2 with enclosingType := s.enclosingType }) := by
    change (r env { s with enclosingType := owner }).bind _ = _
    cases r env { s with enclosingType := owner } with
    | none => rfl
    | some p => rfl
  refine ⟨fun {s} hs => ?_, fun {s a t} hs e => ?_⟩
  · rw [enter, enter, h.agrees (s := { s with enclosingType := owner }) hs]
  · rw [enter] at e
    obtain ⟨⟨b, u⟩, hrun, e⟩ := Option.map_eq_some_iff.1 e
    cases e
    have around := h.restores (s := { s with enclosingType := owner }) hs hrun
    simp only [ParseState.surroundings, Prod.mk.injEq] at around ⊢
    obtain ⟨hdepth, -, attempts, limit⟩ := around
    exact ⟨hdepth, trivial, attempts, limit⟩

end Restores

/-! ## The basic rules -/

namespace Rule

/-! ### Tokens and reports -/

@[grind ←]
lemma restores_advance : RestoresFlat env ceiling advance :=
  .bind .read fun env' => .modify fun s => s.surroundings_advance env'.src

@[grind ←]
lemma restores_operatorKind : RestoresFlat env ceiling operatorKind := by
  refine .bind (.view _) fun k => ?_
  split
  · exact .bind .read fun env' => .bind (.modify fun s => rfl) fun _ => .bind .get fun s => .pure _
  · exact .pure k

@[grind ←]
lemma restores_reportAt (span : Span) (m : Message) (args : List String) :
    RestoresFlat env ceiling (reportAt span m args) :=
  .modify fun s => s.surroundings_report span m args

@[grind ←]
lemma restores_kind : RestoresFlat env ceiling kind := .view _

@[grind ←]
lemma restores_isAt (k : Kind) : RestoresFlat env ceiling (isAt k) := .view _

@[grind ←]
lemma restores_start : RestoresFlat env ceiling start := .view _

@[grind ←]
lemma restores_tokenSpan : RestoresFlat env ceiling tokenSpan := .view _

@[grind ←]
lemma restores_tokenValue : RestoresFlat env ceiling tokenValue := .view _

@[grind ←]
lemma restores_lineBreakBefore : RestoresFlat env ceiling lineBreakBefore := .view _

@[grind ←]
lemma restores_spanFrom (start : Nat) : RestoresFlat env ceiling (spanFrom start) := .view _

@[grind ←]
lemma restores_peek : RestoresFlat env ceiling peek := .view _

@[grind ←]
lemma restores_optional (k : Kind) : RestoresFlat env ceiling (optional k) := by
  unfold optional
  grind

@[grind ←]
lemma restores_report (m : Message) (args : List String) :
    RestoresFlat env ceiling (report m args) := by
  unfold report
  grind

@[grind ←]
lemma restores_expect (k : Kind) : RestoresFlat env ceiling (expect k) := by
  unfold expect
  grind

@[grind ←]
lemma restores_require (k : Kind) : RestoresFlat env ceiling (require k) := by
  unfold require
  grind

/-! ### Nodes and names -/

@[grind ←]
lemma restores_allocExpr (form : ExprForm) (span : Span) :
    RestoresFlat env ceiling (allocExpr form span) :=
  .bind .get fun _ => .bind (.modify fun _ => rfl) fun _ => .pure _

@[grind ←]
lemma restores_allocType (form : TypeForm) (span : Span) :
    RestoresFlat env ceiling (allocType form span) :=
  .bind .get fun _ => .bind (.modify fun _ => rfl) fun _ => .pure _

@[grind ←]
lemma restores_allocPattern (form : PatternForm) (span : Span) :
    RestoresFlat env ceiling (allocPattern form span) :=
  .bind .get fun _ => .bind (.modify fun _ => rfl) fun _ => .pure _

@[grind ←]
lemma restores_allocDecl (node : DeclNode) : RestoresFlat env ceiling (allocDecl node) :=
  .bind .get fun _ => .bind (.modify fun _ => rfl) fun _ => .pure _

@[grind ←]
lemma restores_exprFrom (start : Nat) (form : ExprForm) :
    RestoresFlat env ceiling (exprFrom start form) := by
  unfold exprFrom
  grind

@[grind ←]
lemma restores_typeFrom (start : Nat) (form : TypeForm) :
    RestoresFlat env ceiling (typeFrom start form) := by
  unfold typeFrom
  grind

@[grind ←]
lemma restores_patternFrom (start : Nat) (form : PatternForm) :
    RestoresFlat env ceiling (patternFrom start form) := by
  unfold patternFrom
  grind

@[grind ←]
lemma restores_errorExpr (span : Span) : RestoresFlat env ceiling (errorExpr span) := by
  unfold errorExpr
  grind

@[grind ←]
lemma restores_intern (text : String) : RestoresFlat env ceiling (intern text) :=
  .modify fun _ => rfl

@[grind ←]
lemma restores_name (text : String) (span : Span) : RestoresFlat env ceiling (name text span) := by
  unfold name
  grind

@[grind ←]
lemma restores_missingName : RestoresFlat env ceiling missingName := by
  unfold missingName
  grind

@[grind ←]
lemma restores_identifier : RestoresFlat env ceiling identifier := by
  unfold identifier
  grind

@[grind ←]
lemma restores_dottedName : RestoresFlat env ceiling dottedName := by
  unfold dottedName dottedNameRound
  grind

@[grind ←]
lemma restores_label? : RestoresFlat env ceiling label? := by
  unfold label?
  grind

/-! ### Lists -/

section

variable {element element' : Rule α} (h : Restores env ceiling element element')

include h

@[grind ←]
lemma restores_list (close : Kind) :
    Restores env ceiling (list close element) (list close element') := by
  unfold list listRound
  grind -funext

@[grind ←]
lemma restores_behind (k : Kind) :
    Restores env ceiling (behind k element) (behind k element') := by
  unfold behind
  grind -funext

@[grind ←]
lemma restores_separated (separator : Kind) :
    Restores env ceiling (separated separator element) (separated separator element') := by
  unfold separated separatedRound
  grind -funext

end

end Rule

end CangjieSyntax
