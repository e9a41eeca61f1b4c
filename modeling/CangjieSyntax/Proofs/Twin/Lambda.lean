import CangjieSyntax.Proofs.Twin.Attempts
import CangjieSyntax.Proofs.Twin.Params

/-!
# Lambdas under two settings

An attempt to read the parameters of a lambda that is given up is not reported where the arrow may be
left out: the first parse then reads statements, even if the second one, which may go further, finds
parameters. But then nothing good comes of the statements. So where good comes of them there are no
parameters, which both parses find at the first token or behind the first name.
-/

namespace CangjieSyntax

variable {src : Source} {settings settings' : Settings} {env : Env} {s s' t u v w : ParseState}
  {β : Type} {call call' : Call}

/-- An attempt that nothing was found in. -/
def Attempt.IsGivenUp {α : Type} (a : Attempt α) : Prop :=
  a = .rewound ∨ a = .exhausted

/-- Giving an attempt up at parameters goes back to them. -/
lemma ParseState.giveUp_inParams (hs : s.tentative = {}) (hu : u.tentative.depth ≤ 1)
    (h : s.place.InParams src) :
    (s.giveUp u).tentative = {} ∧ (s.giveUp u).place.InParams src := by
  obtain ⟨hback, hlexer⟩ := giveUp_back hs hu
  refine ⟨hback, h.of_log ?_ hlexer⟩
  obtain ⟨log, hlexer⟩ := hlexer
  change (s.giveUp u).kind = s.kind
  rw [kind, kind, hback, hs, hlexer]

namespace Rule

/-! ## Attempts that find nothing -/

lemma loop_of_inr {α : Type} {step : β → Rule (β ⊕ α)} {a : α} {b : β}
    (h : step b env s = some (.inr a, t)) : loop step b env s = some (a, t) := by
  obtain ⟨rounds, hrounds⟩ := Nat.exists_eq_add_of_le' env.one_le_rounds
  refine bind_eq_some.2 ⟨env, s, rfl, ?_⟩
  rw [hrounds]
  exact bind_eq_some.2 ⟨.inr a, t, h, rfl⟩

/-- A name behind which nothing stands that can follow a parameter names none. -/
lemma lambdaParams?_behind_name (call : Call) (hname : v.kind.namesParam)
    (hbehind : ∀ w : ParseState, w.lexer = v.lexer →
      (w.advance env.src).kind.followsParam = false) :
    ∃ w, lambdaParams? call env v = some (none, w) ∧ Relation.ReflTransGen (Step env) v w := by
  have arrow : ¬ (v.kind == .mark .fatArrow) = true := by
    obtain hkind | hkind | hkind := Kind.eq_of_namesParam hname
    all_goals simp [hkind]
  have named : ¬ (v.kind != .mark .underscore && !v.kind.isIdentifier) = true := by
    simpa [Kind.namesParam, or_iff_not_imp_left] using hname
  -- However the name is taken, there is no type, no comma and no arrow behind it.
  have found (name : Option Name) {w : ParseState} (hw : w.lexer = v.lexer)
      (htaken : ∀ rest : Option Name → Rule (List LambdaParam ⊕ Option (List LambdaParam)),
        (if v.kind == Kind.mark .underscore then do advance; let name ← pure none; rest name
          else do let name ← identifier; let name ← pure (some name); rest name) env v
        = rest name env (w.advance env.src)) :
      lambdaParams? call env v = some (none, w.advance env.src) := by
    have absent {c : Kind} (hc : c.followsParam = true) :
        optional c env (w.advance env.src) = some (false, w.advance env.src) := by
      refine optional_of_ne fun e => ?_
      simp [← e, hbehind w hw] at hc
    refine bind_eq_some.2 ⟨some [⟨name, none, (w.advance env.src).spanFrom v.start⟩], _,
      loop_of_inr ?_, bind_eq_some.2 ⟨false, _, absent rfl, rfl⟩⟩
    refine bind_eq_some.2 ⟨v.kind, v, rfl, ?_⟩
    rw [if_neg arrow, if_neg named]
    refine bind_eq_some.2 ⟨v.start, v, rfl, (htaken _).trans ?_⟩
    refine bind_eq_some.2 ⟨none, _, bind_eq_some.2 ⟨false, _, absent rfl, rfl⟩, ?_⟩
    exact bind_eq_some.2 ⟨_, _, rfl, bind_eq_some.2 ⟨false, _, absent rfl, rfl⟩⟩
  by_cases hunderscore : (v.kind == .mark .underscore) = true
  · refine ⟨_, found none rfl fun rest => ?_, .tail .refl (.advance v)⟩
    rw [if_pos hunderscore]
    rfl
  · have identifies : v.kind.isIdentifier = true :=
      (Bool.or_eq_true_iff.1 hname).resolve_left hunderscore
    refine ⟨_, found (some ⟨v.lexer.value, v.lexer.span⟩)
      (w := { v with names := v.names.insert v.lexer.value }) rfl fun rest => ?_,
      .tail (.tail .refl (.intern v v.lexer.value)) (.advance _)⟩
    rw [if_neg hunderscore]
    change (do
      let name ← (if v.kind.isIdentifier = true then _ else _ : Rule Name)
      let name ← pure (some name)
      rest name) env v = _
    rw [if_pos identifies]
    rfl

/-- No parameters are found but where they can start. -/
lemma lambdaParams?_eq_none (call : Call) (hs : s.tentative = {})
    (hanchored : s.lexer.Anchored env.src) (hnot : ¬ s.place.InParams env.src) :
    ∃ u, lambdaParams? call env (s.enterTentative env.settings.budget) = some (none, u)
      ∧ Tries env s u := by
  have hkind : s.lexer.kind = s.kind := by simp [ParseState.kind, hs]
  have hkind' : (s.enterTentative env.settings.budget).kind = s.kind := by
    simp [ParseState.kind, ParseState.enterTentative, hs]
  by_cases hname : s.kind.namesParam = true
  · refine lambdaParams?_behind_name call (hkind' ▸ hname) fun w hw => ?_
    obtain ⟨tentative, errorCount, muted, -, -, -, e⟩ := w.advance_eq env.src
    rw [e, hw, ParseState.kind]
    split
    · rfl
    · refine Bool.eq_false_iff.2 fun hnext => hnot ?_
      have hparams := hanchored.inParams (hkind ▸ hname) hnext
      rwa [hkind] at hparams
  · refine ⟨s.enterTentative env.settings.budget, bind_eq_some.2 ⟨none, _, loop_of_inr ?_, rfl⟩, .refl⟩
    refine bind_eq_some.2 ⟨s.kind, _, congrArg some (congrArg (·, _) hkind'), ?_⟩
    rw [if_neg, if_pos]
    · rfl
    · simpa [Kind.namesParam] using hname
    · intro e
      refine hnot (.inl ?_)
      rw [show s.place.kind = s.kind from rfl, beq_iff_eq.1 e]
      rfl

/-- Both parses find no parameters but where they can start. -/
lemma missed_params {h : settings.Within settings'} {a : Attempt (List LambdaParam)}
    (hs : (h.outside src).Alike s s') (hanchored : s.lexer.Anchored src)
    (hnot : ¬ s.place.InParams src)
    (e : attempt (lambdaParams? call) { src, settings } s = some (a, w)) :
    ∃ a' w', attempt (lambdaParams? call') { src, settings := settings' } s' = some (a', w')
      ∧ a'.IsGivenUp ∧ (h.outside src).Alike w w' := by
  obtain ⟨settled, settled'⟩ := hs.settled rfl
  have hlexer : s'.lexer = s.lexer := hs.lexes
  have hplace : s'.place = s.place := by
    rw [ParseState.place, ParseState.place, hs.kind, hlexer]
  obtain ⟨u, hu, htries⟩ :
      ∃ u, lambdaParams? call { src, settings } (s.enterTentative settings.budget) = some (none, u)
        ∧ Tries { src, settings } s u :=
    lambdaParams?_eq_none call settled hanchored hnot
  obtain ⟨u', hu', htries'⟩ :
      ∃ u', lambdaParams? call' { src, settings := settings' }
          (s'.enterTentative settings'.budget) = some (none, u')
        ∧ Tries { src, settings := settings' } s' u' :=
    lambdaParams?_eq_none call' settled' (hlexer ▸ hanchored) (hplace ▸ hnot)
  rw [attempt_givenUp hu (.inl rfl)] at e
  cases e
  refine ⟨_, _, attempt_givenUp hu' (.inl rfl), ?_, h.giveUp_of_tries hs htries htries'⟩
  split
  · exact .inr rfl
  · exact .inl rfl

/-! ## Lambdas -/

section

variable {h : settings.Within settings'}
  (hself : Follows (.ofAttempt src settings settings') (call .type) (move .refl) (call .type))
  (htype : Follows (h.inside src) (call .type) (move .refl) (call' .type))

include hself htype

/-- What follows an attempt to read parameters follows it in both parses if nothing good comes of
parameters that are given up. -/
lemma follows_behindParams {α β : Type} {k : Attempt (List LambdaParam) → Rule α}
    {k' : Attempt (List LambdaParam) → Rule β} {f : α → β}
    (hfound : ∀ params, Follows (h.outside src) (k (.committed params)) f
      (k' (.committed (move .refl params))))
    (hmissed : ∀ a a', a.IsGivenUp → a'.IsGivenUp →
      Leads (h.outside src) (Place.InParams src) (k a) f (k' a') fun _ => False) :
    Follows (h.outside src) (do advance; let a ← attempt (lambdaParams? call); k a) f
      (do advance; let a ← attempt (lambdaParams? call'); k' a) := by
  have hgood (a : Attempt (List LambdaParam)) {w t : ParseState} {b : α}
      (e : k a { src, settings } w = some (b, t)) (ht : Clear settings settings' 0 t) :
      Clear settings settings' 0 w := by
    cases a with
    | committed params => exact (hfound params).good e ht
    | rewound => exact (hmissed _ _ (.inl rfl) (.inl rfl)).good e ht
    | exhausted => exact (hmissed _ _ (.inr rfl) (.inl rfl)).good e ht
  have clear {a : Attempt (List LambdaParam)} {s w : ParseState}
      (e : attempt (lambdaParams? call) { src, settings } s = some (a, w))
      (hw : Clear settings settings' 0 w) : Clear settings settings' 0 s :=
    clear_of_attempt (follows_lambdaParams? hself) e hw
  refine ⟨fun {s b t} e ht => ?_, fun {s s' b t} hs e ht => ?_, False.elim⟩
  · obtain ⟨_, _, hadvance, e⟩ := bind_eq_some.1 e
    cases hadvance
    obtain ⟨a, w, hattempt, e⟩ := bind_eq_some.1 e
    have step : Step { src, settings } s (s.advance src) := .advance s
    exact Clear.regressive.step step (clear hattempt (hgood a e ht))
  · obtain ⟨_, _, hadvance, e⟩ := bind_eq_some.1 e
    cases hadvance
    obtain ⟨a, w, hattempt, e⟩ := bind_eq_some.1 e
    have hw := hgood a e ht
    have halike := hs.advance (clear hattempt hw)
    obtain ⟨result, u, -, ⟨params, rfl, -, rfl, rfl⟩ | ⟨-, ha, rfl⟩⟩ := attempt_eq_some hattempt
    · obtain ⟨w', hattempt', halike'⟩ :=
        committed_attempt (follows_lambdaParams? htype) halike hattempt hw
      obtain ⟨t', ht', halike'⟩ := (hfound params).run halike' e ht
      exact ⟨t', bind_eq_some.2 ⟨(), _, rfl, bind_eq_some.2 ⟨_, w', hattempt', ht'⟩⟩, halike'⟩
    · have hgiven : a.IsGivenUp := by
        rw [ha]
        split
        · exact .inr rfl
        · exact .inl rfl
      have hanchored : (s.advance src).lexer.Anchored src := by
        obtain ⟨tentative, errorCount, muted, -, -, -, e⟩ := s.advance_eq src
        rw [e]
        exact Lexer.anchored_scanKnown s.lexer
      have hnot : ¬ (s.advance src).place.InParams src := by
        intro hparams
        obtain ⟨hback, hparams⟩ := ParseState.giveUp_inParams (halike.settled rfl).1
          (clear_of_giveUp hw).attempts hparams
        exact (hmissed a a hgiven hgiven).leads ⟨rfl, Clear.errorCount⟩ (h.alike_refl src hback)
          hparams e ht
      obtain ⟨a', w', hattempt', hgiven', halike'⟩ :=
        missed_params halike hanchored hnot hattempt
      obtain ⟨t', ht', halike'⟩ := (hmissed a a' hgiven hgiven').run halike' e ht
      exact ⟨t', bind_eq_some.2 ⟨(), _, rfl, bind_eq_some.2 ⟨_, w', hattempt', ht'⟩⟩, halike'⟩

lemma follows_lambda
    (hparam : ∀ start, Leads (h.outside src) (Place.AtParam src start) (call .blockItem) (move .refl)
      (call' .blockItem) (Place.BehindParam start))
    (hbehind : Leads (h.outside src) (fun v => v.kind.followsParam) (call .blockItem) (move .refl)
      (call' .blockItem) fun _ => False)
    (needsArrow : Bool) :
    Follows (h.outside src) (lambda call needsArrow) (move .refl) (lambda call' needsArrow) := by
  refine .start fun start => ?_
  extract_lets rest body rest' body'
  have hrest (params : List LambdaParam) :
      Follows (h.outside src) (rest params) (move .refl) (rest' (move .refl params)) := by
    refine .bind (follows_items hbehind.toFollows _) fun items => .bind_id (follows_require _) fun _ => ?_
    exact .spanFrom start fun span => follows_allocExpr span rfl
  have hbody : Leads (h.outside src) (Place.InParams src) (body ()) (move .refl) (body' ())
      fun _ => False := by
    refine .bind (f := move .refl) (R := Place.InParams src) (.pure rfl fun _ => id) fun params => ?_
    refine .bind (leads_allItems hparam hbehind) fun items => .bind_id (leads_require ?_) fun _ => ?_
    · rintro v (hv | ⟨start, hv⟩)
      · obtain hkind | hkind | hkind := Kind.eq_of_followsParam hv
        all_goals simp [hkind]
      · obtain hkind | hkind | hkind := Kind.eq_of_namesParam hv.name
        all_goals simp [hkind]
    · refine .of_follows ?_ fun _ => id
      exact .spanFrom start fun span => follows_allocExpr span rfl
  clear_value rest body rest' body'
  have hmissed : Leads (h.outside src) (Place.InParams src)
      (if needsArrow then do report .expected [Punctuation.fatArrow.text]; body () else body ())
      (move .refl)
      (if needsArrow then do report .expected [Punctuation.fatArrow.text]; body' () else body' ())
      fun _ => False := by
    refine .ite (fun _ => .bind_id (leads_report _ _) fun _ => ?_) fun _ => hbody
    exact .of_follows hbody.toFollows fun _ => id
  refine follows_behindParams hself htype hrest fun a a' ha ha' => ?_
  obtain rfl | rfl := ha
  all_goals
    obtain rfl | rfl := ha'
    all_goals exact hmissed

end

/-! ## Tying the rules together -/

/-- At every depth of nesting all rules are followed, and statements do not get past a parameter. -/
structure Tied (h : settings.Within settings') (src : Source) (nesting : Nat) : Prop where
  calls : Calls (h.outside src) (callTo nesting) (callTo nesting)
  atParam : ∀ start, Leads (h.outside src) (Place.AtParam src start) (callTo nesting .statement)
    (move .refl) (callTo nesting .statement) (Place.BehindParam start)
  followsParam : Leads (h.outside src) (fun v => v.kind.followsParam) (callTo nesting .statement)
    (move .refl) (callTo nesting .statement) fun _ => False

lemma tied_callTo (h : settings.Within settings') (src : Source) (nesting : Nat) :
    Tied h src nesting := by
  have typeArguments (nesting : Nat) : Follows (h.outside src) (typeArguments? (callTo nesting))
      (move .refl) (typeArguments? (callTo nesting)) :=
    follows_typeArguments? (follows_callTo_type _ _) (follows_callTo_type _ _)
  induction nesting with
  | zero =>
    have lambda (needsArrow : Bool) : Follows (h.outside src) (lambda (callTo 0) needsArrow)
        (move .refl) (lambda (callTo 0) needsArrow) :=
      follows_lambda (follows_callTo_type _ 0) (follows_callTo_type _ 0) (fun _ => .endless False.elim)
        (.endless False.elim) needsArrow
    have endless {α β : Type} (f : α → β) (r : Rule β) : Follows (h.outside src) endless f r :=
      .endless False.elim
    exact ⟨⟨endless _ _, endless _ _, fun _ => endless _ _, endless _ _, endless _ _, endless _ _,
      fun _ => endless _ _, endless _ _, fun _ => endless _ _, fun _ => endless _ _, typeArguments 0,
      lambda⟩, fun _ => .endless False.elim, .endless False.elim⟩
  | succ nesting ih =>
    have atParam (start : Nat) := leads_blockItem (P := Place.AtParam src start) ih.calls
      (fun _ hv => .inr ⟨start, hv⟩) (ih.atParam start)
    have followsParam := leads_blockItem (P := fun v => v.kind.followsParam) ih.calls
      (fun _ => .inl) ih.followsParam
    have lambda (needsArrow : Bool) : Follows (h.outside src) (lambda (callTo (nesting + 1)) needsArrow)
        (move .refl) (lambda (callTo (nesting + 1)) needsArrow) :=
      follows_lambda (follows_callTo_type _ (nesting + 1)) (follows_callTo_type _ (nesting + 1)) atParam
        followsParam needsArrow
    exact ⟨calls_ofNonterminal ih.calls (typeArguments (nesting + 1)) lambda,
      leads_statement_of_atParam ih.calls, leads_statement_of_followsParam ih.calls⟩

end Rule

end CangjieSyntax
