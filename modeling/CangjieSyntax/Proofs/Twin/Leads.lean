import CangjieSyntax.Proofs.Twin.Rule

/-!
# Where rules lead

`Leads T P r f r' Q` adds to `Follows T r f r'` what becomes of the place: where the first parse
stands at a place with `P` and faults are not good, the rule comes to a place with `Q`, if it comes
to a good state at all. If no place has `Q`, nothing good comes of the rule; if no place has `P`,
the rule is only followed. A place is all that is seen of the tokens.
-/

namespace CangjieSyntax

/-- Whether the token can stand behind the name of a parameter. No expression starts or goes on with
it. -/
def Kind.followsParam : Kind → Bool
  | mark .colon | mark .comma | mark .fatArrow => true
  | _ => false

lemma Kind.eq_of_followsParam {k : Kind} (h : k.followsParam) :
    k = .mark .colon ∨ k = .mark .comma ∨ k = .mark .fatArrow := by
  unfold followsParam at h
  split at h
  · exact .inl rfl
  · exact .inr (.inl rfl)
  · exact .inr (.inr rfl)
  · exact nomatch h

/-- A place among the tokens. -/
structure Place where
  /-- The current token, as far as a failed attempt still sees one. -/
  kind : Kind
  lexer : Lexer

/-- The place where a parse stands. -/
def ParseState.place (s : ParseState) : Place :=
  ⟨s.kind, s.lexer⟩

/-- Outside attempts, where no state with a fault is good. -/
structure Twins.Clean (T : Twins) : Prop where
  outside : T.tentative = false
  spotless : ∀ {s}, T.good s → s.errorCount = 0

variable {T : Twins} {α α' β β' : Type}

/-- The second rule follows the first one, which leads from some places to others. -/
structure Leads (T : Twins) (P : Place → Prop) (r : Rule α) (f : α → α') (r' : Rule α')
    (Q : Place → Prop) : Prop extends Follows T r f r' where
  leads : T.Clean → ∀ {s s' a t}, T.Alike s s' → P s.place → r T.env s = some (a, t) →
    T.good t → Q t.place

namespace Twins.Clean

variable {s s' : ParseState}

lemma not_isTentative (clean : T.Clean) (h : T.Alike s s') : ¬ s.isTentative = true := by
  simp [ParseState.isTentative, (h.settled clean.outside).1]

/-- Nothing good comes of a report. -/
lemma not_good_report (clean : T.Clean) (h : T.Alike s s') (span : Span) (m : Message)
    (args : List String) : ¬ T.good (s.report span m args) := by
  intro hgood
  have none := clean.spotless hgood
  unfold ParseState.report at none
  rw [if_neg (clean.not_isTentative h)] at none
  dsimp only at none
  split at none
  · exact Nat.succ_ne_zero _ none
  · exact Nat.succ_ne_zero _ none

/-- Nothing good comes of too much nesting. -/
lemma not_good_reportDepth (clean : T.Clean) (h : T.Alike s s') (span : Span) (maxDepth : Nat) :
    ¬ T.good (s.reportDepth span maxDepth) := by
  intro hgood
  have none := clean.spotless hgood
  unfold ParseState.reportDepth at none
  rw [if_neg (clean.not_isTentative h)] at none
  exact Nat.succ_ne_zero _ none

end Twins.Clean

variable {P P' Q R : Place → Prop} {r : Rule α} {r' : Rule α'} {f : α → α'} {k : α → Rule β}
  {k' : α' → Rule β'} {g : β → β'}

namespace Leads

/-! ## Rules in a row -/

/-- Of a rule that is run nowhere only that it is followed is asked. -/
lemma of_follows (h : Follows T r f r') (hP : ∀ v, ¬ P v) : Leads T P r f r' Q :=
  { h with leads := fun _ _ _ _ _ _ hs => absurd hs (hP _) }

lemma weaken (h : Leads T P r f r' Q) (hP : ∀ v, P' v → P v) : Leads T P' r f r' Q :=
  { h with leads := fun clean _ _ _ _ halike hs => h.leads clean halike (hP _ hs) }

lemma pure {a : α} {b : α'} (e : b = f a) (h : ∀ v, P v → Q v) :
    Leads T P (Pure.pure a) f (Pure.pure b) Q where
  toFollows := .pure e
  leads _ _ _ _ _ _ hs e _ := by
    obtain ⟨rfl, rfl⟩ := Rule.pure_eq_some.1 e
    exact h _ hs

lemma endless (h : T.mirrored → r' = Rule.endless) : Leads T P (Rule.endless : Rule α) f r' Q :=
  { Follows.endless h with leads := fun _ _ _ _ _ _ _ e => nomatch e }

/-- Two rules in a row. -/
lemma bind (h : Leads T P r f r' R) (hk : ∀ a, Leads T R (k a) g (k' (f a)) Q) :
    Leads T P (r >>= k) g (r' >>= k') Q where
  toFollows := h.toFollows.bind fun a => (hk a).toFollows
  leads clean _ _ _ _ halike hs e hgood := by
    obtain ⟨a, u, hr, hk'⟩ := Rule.bind_eq_some.1 e
    have hu := (hk a).good hk' hgood
    obtain ⟨u', -, halike'⟩ := h.run halike hr hu
    exact (hk a).leads clean halike' (h.leads clean halike hs hr hu) hk' hgood

/-- Two rules in a row of which the first one yields the same in both parses. -/
lemma bind_id {r' : Rule α} {k' : α → Rule β'} (h : Leads T P r id r' R)
    (hk : ∀ a, Leads T R (k a) g (k' a) Q) : Leads T P (r >>= k) g (r' >>= k') Q :=
  h.bind hk

lemma ite {c : Prop} [Decidable c] {q : Rule α} {q' : Rule α'} (ht : c → Leads T P r f r' Q)
    (he : ¬ c → Leads T P q f q' Q) :
    Leads T P (if c then r else q) f (if c then r' else q') Q := by
  split
  case isTrue h => exact ht h
  case isFalse h => exact he h

/-! ## The state -/

/-- A rule that looks at the state and goes on from the same place. -/
lemma view_id {F F' : Source → ParseState → α} {k' : α → Rule β'}
    (hF : ∀ s s', T.Alike s s' → F' T.env'.src s' = F T.env.src s)
    (hk : ∀ a, Leads T (fun v => P v ∧ ∃ s : ParseState, s.place = v ∧ F T.env.src s = a)
      (k a) g (k' a) Q) :
    Leads T P (Rule.view F >>= k) g (Rule.view F' >>= k') Q where
  toFollows := .view_id hF fun a => (hk a).toFollows
  leads clean _ _ _ _ halike hs e := (hk _).leads clean halike ⟨hs, _, rfl, rfl⟩ e

lemma kind {k : Kind → Rule β} {k' : Kind → Rule β'}
    (hk : ∀ c, Leads T (fun v => P v ∧ v.kind = c) (k c) g (k' c) Q) :
    Leads T P (Rule.kind >>= k) g (Rule.kind >>= k') Q := by
  refine .view_id (fun _ _ hs => hs.kind) fun c => (hk c).weaken ?_
  rintro v ⟨hv, s, rfl, rfl⟩
  exact ⟨hv, rfl⟩

lemma lineBreakBefore {k : Bool → Rule β} {k' : Bool → Rule β'}
    (hk : ∀ breaks, Leads T P (k breaks) g (k' breaks) Q) :
    Leads T P (Rule.lineBreakBefore >>= k) g (Rule.lineBreakBefore >>= k') Q :=
  .view_id (fun _ _ hs => by rw [hs.same.lineBreak]) fun breaks => (hk breaks).weaken fun _ hv => hv.1

lemma start {k : Nat → Rule β} {k' : Nat → Rule β'}
    (hk : ∀ p, Leads T P (k p) g (k' (T.shift.pos p)) Q) :
    Leads T P (Rule.start >>= k) g (Rule.start >>= k') Q where
  toFollows := .start fun p => (hk p).toFollows
  leads clean _ _ _ _ halike hs e := (hk _).leads clean halike hs e

lemma tokenSpan {k : Span → Rule β} {k' : Span → Rule β'}
    (hk : ∀ span, Leads T P (k span) g (k' (move T.shift span)) Q) :
    Leads T P (Rule.tokenSpan >>= k) g (Rule.tokenSpan >>= k') Q where
  toFollows := .tokenSpan fun span => (hk span).toFollows
  leads clean _ _ _ _ halike hs e := (hk _).leads clean halike hs e

/-- A rule that goes on by what it finds in the state, which is spotless if good comes of it. -/
lemma get {k : ParseState → Rule β} {k' : ParseState → Rule β'}
    (h : ∀ s s', T.Looks s s' → Leads T
      (fun v => P v ∧ v.lexer.start = s.start ∧ s.errorCount = 0) (k s) g (k' s') Q) :
    Leads T P ((get : Rule ParseState) >>= k) g ((get : Rule ParseState) >>= k') Q where
  toFollows := .get fun s s' hs => (h s s' hs).toFollows
  leads clean s s' _ _ halike hs e hgood :=
    (h s s' halike.looks).leads clean halike
      ⟨hs, rfl, clean.spotless ((h s s' halike.looks).good e hgood)⟩ e hgood

/-- Where no `>` stands, no operator is joined. -/
lemma operatorKind {k : Kind → Rule β} {k' : Kind → Rule β'}
    (hP : ∀ v, P v → v.kind ≠ .mark .greater)
    (hk : ∀ c, Leads T (fun v => P v ∧ v.kind = c) (k c) g (k' c) Q) :
    Leads T P (Rule.operatorKind >>= k) g (Rule.operatorKind >>= k') Q where
  toFollows := .bind_id Rule.follows_operatorKind fun c => (hk c).toFollows
  leads clean s _ _ _ halike hs e := by
    have hkind : s.kind ≠ .mark .greater := hP _ hs
    have plain : Rule.operatorKind T.env s = some (s.kind, s) := by
      change (if s.kind = .mark .greater then _ else Pure.pure s.kind : Rule Kind) T.env s = _
      rw [if_neg hkind]
      rfl
    obtain ⟨c, u, hc, e⟩ := Rule.bind_eq_some.1 e
    rw [plain] at hc
    cases hc
    exact (hk _).leads clean halike ⟨hs, rfl⟩ e

/-- A rule that takes no token leads nowhere else. -/
lemma stays (h : Follows T r f r')
    (hplace : ∀ {s a t}, r T.env s = some (a, t) → t.place = s.place) : Leads T P r f r' P :=
  { h with leads := fun _ _ _ _ _ _ hs e _ => hplace e ▸ hs }

lemma allocExpr {form form' : ExprForm} (span : Span) (hform : form' = move T.shift form) :
    Leads T P (Rule.allocExpr form span) (move T.shift)
      (Rule.allocExpr form' (move T.shift span)) P :=
  .stays (Rule.follows_allocExpr span hform) fun e => by cases e; rfl

lemma exprFrom {form form' : ExprForm} (start : Nat) (hform : form' = move T.shift form) :
    Leads T P (Rule.exprFrom start form) (move T.shift)
      (Rule.exprFrom (T.shift.pos start) form') P :=
  .stays (Rule.follows_exprFrom start hform) fun e => by cases e; rfl

/-! ## Repetition and nesting -/

lemma loopUpTo {step : β → Rule (β ⊕ α)} {step' : β' → Rule (β' ⊕ α')}
    (h : ∀ b, Leads T P (step b) (Sum.map g f) (step' (g b)) P) {rounds rounds' : Nat}
    (hrounds : rounds ≤ rounds') (heq : T.mirrored → rounds = rounds') (b : β) :
    Leads T P (Rule.loopUpTo step rounds b) f (Rule.loopUpTo step' rounds' (g b)) P := by
  -- `P` is the invariant of the rounds.
  induction rounds generalizing rounds' b with
  | zero => exact .endless fun hm => by rw [← heq hm]; rfl
  | succ rounds ih =>
    obtain ⟨rounds', rfl⟩ := Nat.exists_eq_add_of_le' (Nat.lt_of_lt_of_le (Nat.succ_pos _) hrounds)
    refine .bind (h b) fun next => ?_
    cases next with
    | inl b => exact ih (Nat.le_of_succ_le_succ hrounds) (fun hm => Nat.succ.inj (heq hm)) b
    | inr a => exact .pure rfl fun _ => id

/-- The rounds of a step that stays among some places. -/
lemma loop_moves [Moves α] [Moves β] {step step' : β → Rule (β ⊕ α)}
    (h : ∀ b, Leads T P (step b) (move T.shift) (step' (move T.shift b)) P) (b : β) :
    Leads T P (Rule.loop step b) (move T.shift) (Rule.loop step' (move T.shift b)) P where
  toFollows := .loop_moves (fun b => (h b).toFollows) b
  leads clean _ _ _ _ halike hs e := (loopUpTo h T.rounds_le T.rounds_eq b).leads clean halike hs e

/-- Nothing good comes of too much nesting. -/
lemma nested {fallback : Span → Rule α} {fallback' : Span → Rule α'} {body : Rule α}
    {body' : Rule α'}
    (hfallback : ∀ span, Follows T (fallback span) f (fallback' (move T.shift span)))
    (hbody : Leads T P body f body' Q) :
    Leads T P (Rule.nested fallback body) f (Rule.nested fallback' body') Q where
  toFollows := Rule.follows_nested hfallback hbody.toFollows
  leads clean s s' _ _ halike hs e hgood := by
    rw [Rule.nested_apply] at e
    split at e
    · exact absurd ((hfallback _).good e hgood) (clean.not_good_reportDepth halike _ _)
    · obtain ⟨⟨b, u⟩, hrun, e⟩ := Option.map_eq_some_iff.1 e
      cases e
      have deeper : T.Alike { s with depth := s.depth + 1 } { s' with depth := s'.depth + 1 } :=
        { halike with depth := by simp only [halike.depth] }
      have hu : T.good u := T.regressive.step (.shallower u) hgood
      have hplace : Q u.place := hbody.leads clean deeper hs hrun hu
      exact hplace

end Leads

end CangjieSyntax
