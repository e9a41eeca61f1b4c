import CangjieSyntax.Grammar.Rule
import CangjieSyntax.Proofs.Grammar.Reads
import CangjieSyntax.Proofs.Twin.Twins

/-!
# How the basic rules follow each other

Tokens, reports, nodes, names, lists and nesting. Attempts are none of them: what becomes of an
attempt depends on the settings.
-/

/-!
## Rules that follow each other

`Follows T r f r'` says of a rule `r` of the first parse and a rule `r'` of the second one: from
states that are alike, both yield the same up to `f` and come to states that are alike again, if the
state that the first one comes to is good. Where `r` has no answer, `r'` has none either if the parses are
mirrored, and otherwise nothing is asked of it.

The rules of the grammar are compared with one lemma for each way of putting rules together.
-/

namespace CangjieSyntax

variable {T : Twins} {α α' β β' : Type}

/-- The second rule follows the first one. -/
structure Follows (T : Twins) (r : Rule α) (f : α → α') (r' : Rule α') : Prop where
  good : ∀ {s a t}, r T.env s = some (a, t) → T.good t → T.good s
  run : ∀ {s s' a t}, T.Alike s s' → r T.env s = some (a, t) → T.good t →
    ∃ t', r' T.env' s' = some (f a, t') ∧ T.Alike t t'
  fails : T.mirrored → ∀ {s s'}, T.Alike s s' → r T.env s = none → r' T.env' s' = none

variable {r : Rule α} {r' : Rule α'} {f : α → α'} {k : α → Rule β} {k' : α' → Rule β'} {g : β → β'}

namespace Follows

/-! ## Rules in a row -/

lemma pure {a : α} {b : α'} (e : b = f a) : Follows T (Pure.pure a) f (Pure.pure b) := by
  refine ⟨fun h => ?_, fun hs h _ => ?_, fun _ _ _ _ h => nomatch h⟩
  · obtain ⟨rfl, rfl⟩ := Rule.pure_eq_some.1 h
    exact id
  · obtain ⟨rfl, rfl⟩ := Rule.pure_eq_some.1 h
    exact ⟨_, by rw [e]; rfl, hs⟩

lemma endless (h : T.mirrored → r' = Rule.endless) : Follows T (Rule.endless : Rule α) f r' :=
  ⟨fun e => (nomatch e), fun _ e => (nomatch e), fun hm _ _ _ _ => by rw [h hm]; rfl⟩

/-- Two rules in a row. -/
lemma bind (h : Follows T r f r') (hk : ∀ a, Follows T (k a) g (k' (f a))) :
    Follows T (r >>= k) g (r' >>= k') := by
  refine ⟨fun e hgood => ?_, fun hs e hgood => ?_, fun hm _ _ hs e => ?_⟩
  · obtain ⟨a, u, hr, hk'⟩ := Rule.bind_eq_some.1 e
    exact h.good hr ((hk a).good hk' hgood)
  · obtain ⟨a, u, hr, hk'⟩ := Rule.bind_eq_some.1 e
    obtain ⟨u', hr', halike⟩ := h.run hs hr ((hk a).good hk' hgood)
    obtain ⟨t', ht', halike'⟩ := (hk a).run halike hk' hgood
    exact ⟨t', Rule.bind_eq_some.2 ⟨_, u', hr', ht'⟩, halike'⟩
  · rw [Rule.bind_eq_none] at e ⊢
    obtain e | ⟨a, u, hr, e⟩ := e
    · exact .inl (h.fails hm hs e)
    · obtain ⟨u', hr', halike⟩ := h.run hs hr (T.all_good hm u)
      exact .inr ⟨_, u', hr', (hk a).fails hm halike e⟩

/-- Two rules in a row of which the first one yields the same in both parses. -/
lemma bind_id {r' : Rule α} {k' : α → Rule β'} (h : Follows T r id r')
    (hk : ∀ a, Follows T (k a) g (k' a)) : Follows T (r >>= k) g (r' >>= k') :=
  h.bind hk

lemma ite {c : Prop} [Decidable c] {q : Rule α} {q' : Rule α'} (ht : c → Follows T r f r')
    (he : ¬ c → Follows T q f q') : Follows T (if c then r else q) f (if c then r' else q') := by
  split
  case isTrue h => exact ht h
  case isFalse h => exact he h

/-! ## The state -/

lemma read {k : Env → Rule β} {k' : Env → Rule β'} (h : Follows T (k T.env) g (k' T.env')) :
    Follows T ((read : Rule Env) >>= k) g ((read : Rule Env) >>= k') :=
  ⟨fun e => h.good e, fun hs e => h.run hs e, fun hm _ _ hs e => h.fails hm hs e⟩

/-- A rule that goes on by what it finds in the state. -/
lemma get {k : ParseState → Rule β} {k' : ParseState → Rule β'}
    (h : ∀ s s', T.Looks s s' → Follows T (k s) g (k' s')) :
    Follows T ((get : Rule ParseState) >>= k) g ((get : Rule ParseState) >>= k') :=
  ⟨fun {s} _ _ e => (h s _ (T.looks_image s)).good e,
    fun {s s'} _ _ hs e => (h s s' hs.looks).run hs e,
    fun hm s s' hs e => (h s s' hs.looks).fails hm hs e⟩

/-- A rule that looks at the state. -/
lemma view {F : Source → ParseState → α} {F' : Source → ParseState → α'} (f : α → α')
    (hF : ∀ s s', T.Alike s s' → F' T.env'.src s' = f (F T.env.src s))
    (hk : ∀ a, Follows T (k a) g (k' (f a))) :
    Follows T (Rule.view F >>= k) g (Rule.view F' >>= k') := by
  refine ⟨fun e => (hk _).good e, fun {s s'} _ _ hs e hgood => ?_, fun hm s s' hs e => ?_⟩
  · obtain ⟨t', ht', halike⟩ := (hk _).run hs e hgood
    refine ⟨t', ?_, halike⟩
    change k' (F' T.env'.src s') T.env' s' = _
    rw [hF s s' hs]
    exact ht'
  · change k' (F' T.env'.src s') T.env' s' = none
    rw [hF s s' hs]
    exact (hk _).fails hm hs e

/-- A rule that looks at what is the same in both states. -/
lemma view_id {F F' : Source → ParseState → α} {k' : α → Rule β'}
    (hF : ∀ s s', T.Alike s s' → F' T.env'.src s' = F T.env.src s)
    (hk : ∀ a, Follows T (k a) g (k' a)) :
    Follows T (Rule.view F >>= k) g (Rule.view F' >>= k') :=
  view id hF hk

/-- A rule that only looks at the state. -/
lemma look {F : Source → ParseState → α} {F' : Source → ParseState → α'}
    (hF : ∀ s s', T.Alike s s' → F' T.env'.src s' = f (F T.env.src s)) :
    Follows T (Rule.view F) f (Rule.view F') := by
  refine ⟨fun e => ?_, fun {s s'} _ _ hs e _ => ?_, fun _ _ _ _ e => nomatch e⟩
  · cases e
    exact id
  · cases e
    exact ⟨s', by rw [Rule.view, hF s s' hs], hs⟩

/-- A step of the state. -/
lemma modify {F F' : ParseState → ParseState} (hgood : ∀ s, T.good (F s) → T.good s)
    (h : ∀ s s', T.Alike s s' → T.good (F s) → T.Alike (F s) (F' s')) :
    Follows T (modify F : Rule Unit) id (modify F' : Rule Unit) := by
  refine ⟨fun e => ?_, fun {s s'} _ _ hs e hgood => ?_, fun _ _ _ _ e => nomatch e⟩
  · cases e
    exact hgood _
  · cases e
    exact ⟨F' s', rfl, h s s' hs hgood⟩

/-! ## Repetition -/

/-- Rules that repeat a step are followed if each round is. -/
lemma loopUpTo {step : β → Rule (β ⊕ α)} {step' : β' → Rule (β' ⊕ α')}
    (h : ∀ b, Follows T (step b) (Sum.map g f) (step' (g b))) {rounds rounds' : Nat}
    (hrounds : rounds ≤ rounds') (heq : T.mirrored → rounds = rounds') (b : β) :
    Follows T (Rule.loopUpTo step rounds b) f (Rule.loopUpTo step' rounds' (g b)) := by
  induction rounds generalizing rounds' b with
  | zero => exact .endless fun hm => by rw [← heq hm]; rfl
  | succ rounds ih =>
    obtain ⟨rounds', rfl⟩ := Nat.exists_eq_add_of_le' (Nat.lt_of_lt_of_le (Nat.succ_pos _) hrounds)
    refine .bind (h b) fun next => ?_
    cases next with
    | inl b => exact ih (Nat.le_of_succ_le_succ hrounds) (fun hm => Nat.succ.inj (heq hm)) b
    | inr a => exact .pure rfl

lemma loop {step : β → Rule (β ⊕ α)} {step' : β' → Rule (β' ⊕ α')}
    (h : ∀ b, Follows T (step b) (Sum.map g f) (step' (g b))) (b : β) :
    Follows T (Rule.loop step b) f (Rule.loop step' (g b)) :=
  .read (loopUpTo h T.rounds_le T.rounds_eq b)

/-- The rounds of a step that hands on what can be moved. -/
lemma loop_moves [Moves α] [Moves β] {step step' : β → Rule (β ⊕ α)}
    (h : ∀ b, Follows T (step b) (move T.shift) (step' (move T.shift b))) (b : β) :
    Follows T (Rule.loop step b) (move T.shift) (Rule.loop step' (move T.shift b)) :=
  loop h b

/-- The rounds of a step that hands on what is the same in both parses. -/
lemma loop_id {step step' : β → Rule (β ⊕ α)} (h : ∀ b, Follows T (step b) id (step' b)) (b : β) :
    Follows T (Rule.loop step b) id (Rule.loop step' b) :=
  loop (g := id) (f := id) (fun b => by rw [Sum.map_id_id]; exact h b) b

end Follows

end CangjieSyntax

/-! ## The basic rules -/

namespace CangjieSyntax

variable {T : Twins} {α α' β β' : Type} {s s' t : ParseState} {g : β → β'}

namespace Follows

/-! ## Tokens -/

lemma kind {k : Kind → Rule β} {k' : Kind → Rule β'} (hk : ∀ c, Follows T (k c) g (k' c)) :
    Follows T (Rule.kind >>= k) g (Rule.kind >>= k') :=
  .view_id (fun _ _ hs => hs.kind) hk

lemma isAt {k : Bool → Rule β} {k' : Bool → Rule β'} (c : Kind)
    (hk : ∀ found, Follows T (k found) g (k' found)) :
    Follows T (Rule.isAt c >>= k) g (Rule.isAt c >>= k') :=
  .view_id (fun _ _ hs => by rw [hs.kind]) hk

lemma start {k : Nat → Rule β} {k' : Nat → Rule β'}
    (hk : ∀ p, Follows T (k p) g (k' (T.shift.pos p))) :
    Follows T (Rule.start >>= k) g (Rule.start >>= k') :=
  .view _ (fun _ _ hs => hs.start) hk

lemma tokenSpan {k : Span → Rule β} {k' : Span → Rule β'}
    (hk : ∀ span, Follows T (k span) g (k' (move T.shift span))) :
    Follows T (Rule.tokenSpan >>= k) g (Rule.tokenSpan >>= k') :=
  .view _ (fun _ _ hs => hs.span) hk

lemma tokenValue {k : String → Rule β} {k' : String → Rule β'}
    (hk : ∀ value, Follows T (k value) g (k' value)) :
    Follows T (Rule.tokenValue >>= k) g (Rule.tokenValue >>= k') :=
  .view_id (fun _ _ hs => hs.same.value) hk

lemma lineBreakBefore {k : Bool → Rule β} {k' : Bool → Rule β'}
    (hk : ∀ breaks, Follows T (k breaks) g (k' breaks)) :
    Follows T (Rule.lineBreakBefore >>= k) g (Rule.lineBreakBefore >>= k') :=
  .view_id (fun _ _ hs => by rw [hs.same.lineBreak]) hk

lemma peek {k : Kind → Rule β} {k' : Kind → Rule β'} (hk : ∀ c, Follows T (k c) g (k' c)) :
    Follows T (Rule.peek >>= k) g (Rule.peek >>= k') :=
  .view_id (fun _ _ hs => hs.peek) hk

lemma spanFrom {k : Span → Rule β} {k' : Span → Rule β'} (start : Nat)
    (hk : ∀ span, Follows T (k span) g (k' (move T.shift span))) :
    Follows T (Rule.spanFrom start >>= k) g (Rule.spanFrom (T.shift.pos start) >>= k') :=
  .view _ (fun _ _ hs => hs.spanFrom start) hk

end Follows

namespace Rule

lemma follows_advance : Follows T advance id advance :=
  .read <| .modify (fun s => T.regressive.step (.advance s)) fun _ _ hs => hs.advance

/-- A `>` is joined to what touches it in both parses. -/
lemma follows_operatorKind : Follows T operatorKind id operatorKind := by
  refine .kind fun k => .ite (fun _ => .read ?_) fun _ => .pure rfl
  refine .bind_id (.modify (fun s => T.regressive.joinGreater) fun _ _ hs _ => ?_) fun _ => ?_
  · exact { hs with lexes := T.joinGreater hs.lexes }
  · exact .get fun s s' h => .pure h.tokenKind

lemma follows_optional (c : Kind) : Follows T (optional c) id (optional c) :=
  .isAt c fun _ => .ite (fun _ => .bind_id follows_advance fun _ => .pure rfl) fun _ => .pure rfl

/-! ## Reports -/

lemma follows_reportAt (span : Span) (m : Message) (args : List String) :
    Follows T (reportAt span m args) id (reportAt (move T.shift span) m args) :=
  .modify (fun s => T.regressive.step (.report s span m args)) fun _ _ hs _ => hs.report span m args

lemma follows_report (m : Message) (args : List String) :
    Follows T (report m args) id (report m args) :=
  .tokenSpan fun span => follows_reportAt span m args

lemma follows_expect (c : Kind) : Follows T (expect c) id (expect c) :=
  .bind_id (follows_optional c) fun _ =>
    .ite (fun _ => .pure rfl) fun _ => .bind_id (follows_report _ _) fun _ => .pure rfl

lemma follows_require (c : Kind) : Follows T (require c) id (require c) :=
  .bind_id (follows_expect c) fun _ => .pure rfl

end Rule

/-! ## Nodes -/

namespace Twins.Looks

variable (h : T.Looks s s')

include h

lemma nextExpr : s'.nodes.exprs.next = move T.shift s.nodes.exprs.next := by
  rw [h.nodes]
  exact Arena.next_appendMoved (congrArg NodeCounts.exprs T.base_counts) _

lemma nextType : s'.nodes.types.next = move T.shift s.nodes.types.next := by
  rw [h.nodes]
  exact Arena.next_appendMoved (congrArg NodeCounts.types T.base_counts) _

lemma nextPattern : s'.nodes.patterns.next = move T.shift s.nodes.patterns.next := by
  rw [h.nodes]
  exact Arena.next_appendMoved (congrArg NodeCounts.patterns T.base_counts) _

lemma nextDecl : s'.nodes.decls.next = move T.shift s.nodes.decls.next := by
  rw [h.nodes]
  exact Arena.next_appendMoved (congrArg NodeCounts.decls T.base_counts) _

end Twins.Looks

namespace Rule

lemma follows_allocExpr {form form' : ExprForm} (span : Span) (hform : form' = move T.shift form) :
    Follows T (allocExpr form span) (move T.shift) (allocExpr form' (move T.shift span)) := by
  subst hform
  refine .get fun s s' h => .bind_id (.modify ?_ fun _ _ hs _ => ?_) fun _ => .pure h.nextExpr
  · exact fun s => T.regressive.step (.alloc s (.expr ⟨form, span⟩))
  · exact { hs with
      nodes := by
        simp only [hs.nodes, Nodes.appendMoved, Arena.appendMoved_push]
        rfl }

lemma follows_allocType {form form' : TypeForm} (span : Span) (hform : form' = move T.shift form) :
    Follows T (allocType form span) (move T.shift) (allocType form' (move T.shift span)) := by
  subst hform
  refine .get fun s s' h => .bind_id (.modify ?_ fun _ _ hs _ => ?_) fun _ => .pure h.nextType
  · exact fun s => T.regressive.step (.alloc s (.type ⟨form, span⟩))
  · exact { hs with
      nodes := by
        simp only [hs.nodes, Nodes.appendMoved, Arena.appendMoved_push]
        rfl }

lemma follows_allocPattern {form form' : PatternForm} (span : Span)
    (hform : form' = move T.shift form) :
    Follows T (allocPattern form span) (move T.shift)
      (allocPattern form' (move T.shift span)) := by
  subst hform
  refine .get fun s s' h => .bind_id (.modify ?_ fun _ _ hs _ => ?_) fun _ => .pure h.nextPattern
  · exact fun s => T.regressive.step (.alloc s (.pattern ⟨form, span⟩))
  · exact { hs with
      nodes := by
        simp only [hs.nodes, Nodes.appendMoved, Arena.appendMoved_push]
        rfl }

lemma follows_allocDecl {node node' : DeclNode} (hnode : node' = move T.shift node) :
    Follows T (allocDecl node) (move T.shift) (allocDecl node') := by
  subst hnode
  refine .get fun s s' h => .bind_id (.modify ?_ fun _ _ hs _ => ?_) fun _ => .pure h.nextDecl
  · exact fun s => T.regressive.step (.alloc s (.decl node))
  · exact { hs with
      nodes := by
        simp only [hs.nodes, Nodes.appendMoved, Arena.appendMoved_push] }

lemma follows_exprFrom {form form' : ExprForm} (start : Nat) (hform : form' = move T.shift form) :
    Follows T (exprFrom start form) (move T.shift) (exprFrom (T.shift.pos start) form') :=
  .spanFrom start fun span => follows_allocExpr span hform

lemma follows_typeFrom {form form' : TypeForm} (start : Nat) (hform : form' = move T.shift form) :
    Follows T (typeFrom start form) (move T.shift) (typeFrom (T.shift.pos start) form') :=
  .spanFrom start fun span => follows_allocType span hform

lemma follows_patternFrom {form form' : PatternForm} (start : Nat)
    (hform : form' = move T.shift form) :
    Follows T (patternFrom start form) (move T.shift) (patternFrom (T.shift.pos start) form') :=
  .spanFrom start fun span => follows_allocPattern span hform

lemma follows_errorExpr (span : Span) :
    Follows T (errorExpr span) (move T.shift) (errorExpr (move T.shift span)) :=
  follows_allocExpr span rfl

/-! ## Names -/

lemma follows_intern (text : String) : Follows T (intern text) id (intern text) :=
  .modify (fun s => T.regressive.step (.intern s text)) fun _ _ hs _ =>
    { hs with names := T.insert text hs.names }

lemma follows_name (text : String) {span span' : Span} (hspan : span' = move T.shift span) :
    Follows T (name text span) (move T.shift) (name text span') := by
  subst hspan
  exact .bind_id (follows_intern text) fun _ => .pure rfl

lemma follows_missingName : Follows T missingName (move T.shift) missingName :=
  .start fun p => follows_name _ (move_empty _ p).symm

lemma follows_identifier : Follows T identifier (move T.shift) identifier := by
  refine .kind fun c => .ite (fun _ => ?_) fun _ => ?_
  · refine .tokenValue fun value => .tokenSpan fun span => .bind (follows_name value rfl) fun n => ?_
    exact .bind_id follows_advance fun _ => .pure rfl
  · exact .bind_id (follows_report _ _) fun _ => follows_missingName

lemma follows_dottedName : Follows T dottedName (move T.shift) dottedName := by
  refine .bind follows_identifier fun first => .loop_moves (fun path => ?_) [first]
  refine .view_id (fun _ _ hs => by rw [hs.kind, hs.peek]) fun found => ?_
  refine .ite (fun _ => ?_) fun _ => .pure rfl
  exact .bind_id follows_advance fun _ => .bind follows_identifier fun n => .pure (by simp)

lemma follows_label? : Follows T label? (move T.shift) label? := by
  refine .view_id (fun _ _ hs => by rw [hs.kind, hs.peek]) fun found => ?_
  refine .ite (fun _ => ?_) fun _ => .pure rfl
  exact .bind follows_identifier fun n => .bind_id follows_advance fun _ => .pure rfl

/-! ## Lists -/

section

variable [Moves α] {element element' : Rule α}
  (h : Follows T element (move T.shift) element')

include h

lemma follows_list (close : Kind) :
    Follows T (list close element) (move T.shift) (list close element') := by
  refine Follows.loop_moves (fun items => ?_) []
  refine .kind fun k => .ite (fun _ => .pure rfl) fun _ => .bind h fun a => ?_
  refine .bind_id (follows_optional _) fun comma => ?_
  exact .ite (fun _ => .pure (by simp)) fun _ => .pure (by simp)

lemma follows_behind (k : Kind) :
    Follows T (behind k element) (move T.shift) (behind k element') :=
  .bind_id (follows_optional k) fun _ => .ite (fun _ => .bind h fun _ => .pure rfl) fun _ => .pure rfl

lemma follows_separated (separator : Kind) :
    Follows T (separated separator element) (move T.shift) (separated separator element') := by
  refine .bind h fun first => .loop_moves (fun items => ?_) [first]
  refine .bind_id (follows_optional _) fun more => ?_
  exact .ite (fun _ => .bind h fun a => .pure (by simp)) fun _ => .pure rfl

end

/-! ## Nesting -/

section

variable {fallback : Span → Rule α} {fallback' : Span → Rule α'} {body : Rule α} {body' : Rule α'}
  {f : α → α'}

/-- Reading one level deeper, or past the depth allowed. -/
lemma nested_apply (fallback : Span → Rule α) (body : Rule α) (env : Env) (s : ParseState) :
    nested fallback body env s = if env.settings.maxDepth ≤ s.depth
      then fallback s.lexer.span env (s.reportDepth s.lexer.span env.settings.maxDepth)
      else (body env { s with depth := s.depth + 1 }).map
        fun p => (p.1, { p.2 with depth := p.2.depth - 1 }) := by
  change (if env.settings.maxDepth ≤ s.depth then _ else _ : Rule α) env s = _
  split
  · rfl
  · change (body env { s with depth := s.depth + 1 }).bind _ = _
    cases body env { s with depth := s.depth + 1 } with
    | none => rfl
    | some p => rfl

/-- Where the first parse goes deeper, so does the second one. -/
lemma follows_nested
    (hfallback : ∀ span, Follows T (fallback span) f (fallback' (move T.shift span)))
    (hbody : Follows T body f body') :
    Follows T (nested fallback body) f (nested fallback' body') := by
  refine ⟨fun {s a t} e hgood => ?_, fun {s s' a t} hs e hgood => ?_, fun hm {s s'} hs e => ?_⟩
  · rw [nested_apply] at e
    split at e
    · exact T.regressive.step (.reportDepth s _) ((hfallback _).good e hgood)
    case isFalse hdepth =>
      obtain ⟨⟨b, u⟩, hrun, e⟩ := Option.map_eq_some_iff.1 e
      cases e
      refine T.regressive.step (.deeper (Nat.lt_of_not_le hdepth)) (hbody.good hrun ?_)
      exact T.regressive.step (.shallower u) hgood
  · rw [nested_apply] at e
    split at e
    case isTrue hdepth =>
      have hgood' := (hfallback _).good e hgood
      have same : T.env.settings.maxDepth = T.env'.settings.maxDepth :=
        T.depth.resolve_right fun h => h.2 _ _ hgood'
      rw [nested_apply, if_pos (by rwa [hs.depth, ← same]), hs.span, ← same]
      exact (hfallback _).run (hs.reportDepth _ _) e hgood
    case isFalse hdepth =>
      have hdepth' : ¬ T.env'.settings.maxDepth ≤ s'.depth := by
        have := hs.depth
        obtain h | ⟨h, -⟩ := T.depth
        · omega
        · omega
      obtain ⟨⟨b, u⟩, hrun, e⟩ := Option.map_eq_some_iff.1 e
      cases e
      have halike : T.Alike { s with depth := s.depth + 1 } { s' with depth := s'.depth + 1 } :=
        { hs with depth := by simp only [hs.depth] }
      obtain ⟨u', hrun', hu⟩ := hbody.run halike hrun (T.regressive.step (.shallower u) hgood)
      refine ⟨{ u' with depth := u'.depth - 1 }, ?_, { hu with depth := by simp only [hu.depth] }⟩
      rw [nested_apply, if_neg hdepth', hrun']
      rfl
  · have same : T.env.settings.maxDepth = T.env'.settings.maxDepth :=
      T.depth.resolve_right fun h => h.2 s (.empty 0) (T.all_good hm _)
    rw [nested_apply] at e
    split at e
    case isTrue hdepth =>
      rw [nested_apply, if_pos (by rwa [hs.depth, ← same]), hs.span, ← same]
      exact (hfallback _).fails hm (hs.reportDepth _ _) e
    case isFalse hdepth =>
      have halike : T.Alike { s with depth := s.depth + 1 } { s' with depth := s'.depth + 1 } :=
        { hs with depth := by simp only [hs.depth] }
      rw [nested_apply, if_neg (by rwa [hs.depth, ← same])]
      rw [Option.map_eq_none_iff] at e ⊢
      exact hbody.fails hm halike e

/-- What is read in the body of a type is followed in that of the same type. -/
lemma follows_enclosedBy (owner : Option String) (hbody : Follows T body f body') :
    Follows T (enclosedBy owner body) f (enclosedBy owner body') := by
  refine .get fun s s' h => .bind_id (.modify ?_ fun _ _ hs _ => ?_) fun _ => .bind hbody fun a => ?_
  · exact fun s => T.regressive.enclose
  · exact { hs with enclosingType := rfl }
  · refine .bind_id (.modify ?_ fun _ _ hs _ => ?_) fun _ => .pure rfl
    · exact fun s => T.regressive.enclose
    · exact { hs with enclosingType := h.enclosingType }

end

end Rule

end CangjieSyntax
