import CangjieSyntax.Proofs.Grammar.Walks
import CangjieSyntax.Proofs.Termination
import CangjieSyntax.Proofs.Token.Shape

/-!
# Rules that take tokens of given shapes

`Crosses env shapes s r rest post` says that whatever the rule `r` yields in front of the tokens
`shapes` satisfies `post`, and that the parse then stands in front of the tokens `rest`, outside
attempts and having reported nothing. How the tokens are written is not said.
-/

namespace CangjieSyntax

variable {env : Env} {p : Shape} {shapes rest mid : List Shape} {s t u : ParseState} {α β : Type}

/-- Outside attempts, without a fault so far, the parse stands at the first of some tokens. -/
structure ParseState.Stands (env : Env) (shapes : List Shape) (s : ParseState) : Prop where
  lexer : ∃ m : Lexer, m.Offers env.src shapes ∧ s.lexer = m.scan env.src
  tentative : s.tentative = {}
  log : s.log = #[]
  errorCount : s.errorCount = 0
  stop : shapes = [] → s.prevStop = env.src.size

/-- From some tokens the parse has come in front of others, nested as before. Each token that was
taken starts behind the ones before it. -/
structure Crossed (env : Env) (shapes rest : List Shape) (s t : ParseState) : Prop where
  stands : t.Stands env rest
  depth : t.depth = s.depth
  nodes : s.nodes.Extends t.nodes
  start : s.start + shapes.length ≤ t.start + rest.length

/-- What a rule yields, behind which the parse stands in front of some tokens. -/
def Crosses (env : Env) (shapes : List Shape) (s : ParseState) (r : Rule α) (rest : List Shape)
    (post : α → ParseState → Prop) : Prop :=
  Ensures env s r fun a t => Crossed env shapes rest s t ∧ post a t

variable {r : Rule α} {k : α → Rule β} {good good' : α → ParseState → Prop}
  {post : β → ParseState → Prop}

lemma Crossed.trans (h : Crossed env shapes mid s t) (h' : Crossed env mid rest t u) :
    Crossed env shapes rest s u :=
  ⟨h'.stands, h'.depth.trans h.depth, h.nodes.trans h'.nodes, by
    have := h.start
    have := h'.start
    omega⟩

namespace ParseState.Stands

lemma crossed (h : s.Stands env shapes) : Crossed env shapes shapes s s :=
  ⟨h, rfl, .refl _, Nat.le_refl _⟩

lemma kind_eq (h : s.Stands env shapes) : s.kind = Shape.front shapes := by
  obtain ⟨m, hm, e⟩ := h.lexer
  rw [ParseState.kind, h.tentative, e]
  exact hm.kind_scan

lemma value_eq (h : s.Stands env (p :: rest)) : s.lexer.value = p.value := by
  obtain ⟨m, ⟨⟩ | ⟨shows, -⟩, e⟩ := h.lexer
  rw [e]
  exact shows.value

lemma lineBreak_eq (h : s.Stands env (p :: rest)) : s.lexer.flags.lineBreak = false := by
  obtain ⟨m, ⟨⟩ | ⟨shows, -⟩, e⟩ := h.lexer
  rw [e]
  exact shows.sameLine

/-- In front of the tokens behind the first one stands the lexer. -/
lemma offers (h : s.Stands env (p :: rest)) : s.lexer.Offers env.src rest := by
  obtain ⟨m, ⟨⟩ | ⟨-, behind⟩, e⟩ := h.lexer
  exact e ▸ behind

lemma peek_eq (h : s.Stands env (p :: rest)) : s.peek env.src = Shape.front rest :=
  h.offers.kind_scan

lemma lexer_log (h : s.Stands env shapes) : s.lexer.log = #[] := by
  obtain ⟨m, hm, e⟩ := h.lexer
  rw [e, hm.log_scan]

/-- The token behind the current one has no fault. -/
lemma quiet (h : s.Stands env (p :: rest)) :
    (s.lexer.scanKnown env.src).log = s.lexer.log := by
  rw [h.offers.scanKnown_eq, h.offers.log_scan, h.lexer_log]

/-- What is changed of a state without a token being taken. -/
lemma congr (h : s.Stands env shapes) {nodes : Nodes} {names : NameTable} {depth : Nat}
    {muted : Bool} : ParseState.Stands env shapes { s with nodes, names, depth, muted } :=
  ⟨h.lexer, h.tentative, h.log, h.errorCount, h.stop⟩

lemma advance_eq (h : s.Stands env (p :: rest)) : s.advance env.src = { s with
    lexer := s.lexer.scan env.src, prevStop := s.lexer.pos, prevSpan := s.lexer.span
    prevKind := s.lexer.kind, tokenCount := s.tokenCount + 1 } := by
  have hlimit : ∀ limit ∈ s.tentative.limit, s.tokenCount + 1 ≤ limit := by
    rw [h.tentative]
    exact fun _ e => nomatch e
  rw [Awaits.advance_eq_of_limit hlimit h.quiet, h.offers.scanKnown_eq]

lemma crossed_advance (h : s.Stands env (p :: rest)) :
    Crossed env (p :: rest) rest s (s.advance env.src) := by
  have hwidth : s.lexer.start < s.lexer.pos := by
    obtain ⟨m, ⟨⟩ | ⟨shows, -⟩, e⟩ := h.lexer
    rw [e]
    exact shows.width
  have hbehind := h.offers.le_start_scan
  rw [h.advance_eq]
  refine ⟨⟨⟨s.lexer, h.offers, rfl⟩, h.tentative, h.log, h.errorCount, ?_⟩, rfl, .refl _, ?_⟩
  · rintro rfl
    cases h.offers with
    | nil _ _ hpos => exact hpos
  · change s.lexer.start + (rest.length + 1) ≤ (s.lexer.scan env.src).start + rest.length
    omega

end ParseState.Stands

namespace Crosses

/-! ## Putting rules together -/

lemma pure {a : α} (h : s.Stands env shapes) (ha : good a s) :
    Crosses env shapes s (Pure.pure a : Rule α) shapes good :=
  Ensures.pure ⟨h.crossed, ha⟩

lemma mono (h : Crosses env shapes s r rest good)
    (hpost : ∀ a t, Crossed env shapes rest s t → good a t → good' a t) :
    Crosses env shapes s r rest good' :=
  Ensures.mono (fun a t h => ⟨h.1, hpost a t h.1 h.2⟩) h

lemma bind (h : Crosses env shapes s r mid good)
    (hk : ∀ a t, Crossed env shapes mid s t → good a t → Crosses env mid t (k a) rest post) :
    Crosses env shapes s (r >>= k) rest post :=
  Ensures.bind h fun a t ⟨hcrossed, ha⟩ =>
    Ensures.mono (fun _ _ h => ⟨hcrossed.trans h.1, h.2⟩) (hk a t hcrossed ha)

lemma view {f : Source → ParseState → α} (h : Crosses env shapes s (k (f env.src s)) rest post) :
    Crosses env shapes s (Rule.view f >>= k) rest post :=
  h

lemma get {k : ParseState → Rule β} (h : Crosses env shapes s (k s) rest post) :
    Crosses env shapes s ((get : Rule ParseState) >>= k) rest post :=
  h

lemma read {k : Env → Rule β} (h : Crosses env shapes s (k env) rest post) :
    Crosses env shapes s ((read : Rule Env) >>= k) rest post :=
  h

lemma endless : Crosses env shapes s Rule.endless rest good :=
  fun _ _ e => nomatch e

/-- A round that is not the last one. -/
lemma loop_next {step : β → Rule (β ⊕ α)} {b : β}
    (h : Crosses env shapes s (step b) mid fun next t => ∃ b', next = .inl b'
      ∧ ∀ rounds, Crosses env mid t (Rule.loopUpTo step rounds b') rest good) (rounds : Nat) :
    Crosses env shapes s (Rule.loopUpTo step rounds b) rest good := by
  cases rounds with
  | zero => exact endless
  | succ rounds =>
    refine h.bind ?_
    rintro _ t _ ⟨b', rfl, hb⟩
    exact hb rounds

/-- The last round. -/
lemma loop_done {step : β → Rule (β ⊕ α)} {b : β}
    (h : Crosses env shapes s (step b) rest fun next t => ∃ a, next = .inr a ∧ good a t)
    (rounds : Nat) : Crosses env shapes s (Rule.loopUpTo step rounds b) rest good := by
  cases rounds with
  | zero => exact endless
  | succ rounds =>
    refine h.bind ?_
    rintro _ t ht ⟨a, rfl, ha⟩
    exact .pure ht.stands ha

lemma loop {step : β → Rule (β ⊕ α)} {b : β}
    (h : ∀ rounds, Crosses env shapes s (Rule.loopUpTo step rounds b) rest good) :
    Crosses env shapes s (Rule.loop step b) rest good :=
  .read (h env.rounds)

end Crosses

namespace Rule

/-! ## Tokens -/

lemma crosses_advance (h : s.Stands env (p :: rest)) :
    Crosses env (p :: rest) s advance rest fun _ _ => True := by
  rintro _ _ ⟨⟩
  exact ⟨h.crossed_advance, trivial⟩

lemma crosses_optional (h : s.Stands env (p :: rest)) :
    Crosses env (p :: rest) s (optional p.kind) rest fun taken _ => taken = true := by
  refine .view ?_
  rw [h.kind_eq, Shape.front, beq_self_eq_true, if_pos rfl]
  exact (crosses_advance h).bind fun _ t ht _ => .pure ht.stands rfl

lemma crosses_optional_of_ne {k : Kind} (h : s.Stands env shapes) (hkind : Shape.front shapes ≠ k) :
    Crosses env shapes s (optional k) shapes fun taken t => taken = false ∧ t = s := by
  refine .view ?_
  rw [h.kind_eq, beq_eq_false_iff_ne.2 hkind, if_neg Bool.false_ne_true]
  exact .pure h ⟨rfl, rfl⟩

lemma crosses_require (h : s.Stands env (p :: rest)) :
    Crosses env (p :: rest) s (require p.kind) rest fun _ _ => True := by
  have expect : Crosses env (p :: rest) s (expect p.kind) rest fun _ _ => True := by
    refine (crosses_optional h).bind fun taken t ht htaken => ?_
    rw [htaken, if_pos rfl]
    exact .pure ht.stands trivial
  exact expect.bind fun _ t ht _ => .pure ht.stands trivial

lemma crosses_name {text : String} {span : Span} (h : s.Stands env shapes) :
    Crosses env shapes s (name text span) shapes fun n t => n.text = text ∧ t.lexer = s.lexer := by
  rintro _ _ ⟨⟩
  exact ⟨⟨h.congr, rfl, .refl _, Nat.le_refl _⟩, rfl, rfl⟩

lemma crosses_identifier (h : s.Stands env (p :: rest)) (hkind : p.kind.isIdentifier) :
    Crosses env (p :: rest) s identifier rest fun n _ => n.text = p.value := by
  refine .view ?_
  rw [h.kind_eq, Shape.front, if_pos hkind]
  refine .view (.view ?_)
  refine (crosses_name h).bind fun n t ht hn => ?_
  refine (crosses_advance ht.stands).bind fun _ u hu _ => ?_
  exact .pure hu.stands (hn.1.trans h.value_eq)

/-- Where no `>` stands, no operator is joined. -/
lemma crosses_operatorKind (h : s.Stands env shapes)
    (hgreater : Shape.front shapes ≠ .mark .greater) :
    Crosses env shapes s operatorKind shapes fun k t => k = Shape.front shapes ∧ t = s := by
  refine .view ?_
  rw [h.kind_eq, if_neg hgreater]
  exact .pure h ⟨rfl, rfl⟩

/-! ## Nodes and nesting -/

lemma crosses_allocExpr {form : ExprForm} {span : Span} (h : s.Stands env shapes) :
    Crosses env shapes s (allocExpr form span) shapes fun id t =>
      t.nodes.exprs.get? id = some ⟨form, span⟩ := by
  rintro _ _ ⟨⟩
  exact ⟨⟨h.congr, rfl, (Nodes.Extends.refl _).add (.expr _), Nat.le_refl _⟩,
    Arena.get?_push_next ..⟩

lemma crosses_exprFrom {form : ExprForm} {start : Nat} (h : s.Stands env shapes) :
    Crosses env shapes s (exprFrom start form) shapes fun id t =>
      ∃ span, t.nodes.exprs.get? id = some ⟨form, span⟩ :=
  .view ((crosses_allocExpr h).mono fun _ _ _ e => ⟨_, e⟩)

/-- Reading one level deeper, where the nesting allows it. -/
lemma crosses_nested {fallback : Span → Rule α} (good : α → Nodes → Prop)
    (hdepth : s.depth < env.settings.maxDepth)
    (hr : Crosses env shapes { s with depth := s.depth + 1 } r rest fun a u => good a u.nodes) :
    Crosses env shapes s (nested fallback r) rest fun a u => good a u.nodes := by
  intro a t e
  change (if env.settings.maxDepth ≤ s.depth then _ else _ : Rule α) env s = _ at e
  rw [if_neg (Nat.not_le.2 hdepth)] at e
  obtain ⟨⟨⟩, _, ⟨⟩, e⟩ := bind_eq_some.1 e
  obtain ⟨a, t, e, e'⟩ := bind_eq_some.1 e
  obtain ⟨hcrossed, ha⟩ := hr a t e
  cases e'
  refine ⟨⟨hcrossed.stands.congr, ?_, hcrossed.nodes, hcrossed.start⟩, ha⟩
  change t.depth - 1 = s.depth
  rw [hcrossed.depth]
  rfl

/-! ## Parses of a whole text -/

/-- A rule that takes all tokens of a text and comes to an end has nothing to report. -/
lemma runFrom_crosses {rule : Call → Rule α} {good : α → ParseState → Prop}
    (hs : s.Fresh env.src) (hoffers : s.lexer.Offers env.src shapes) (hne : shapes ≠ [])
    (hspares : SparesMembers (s.lexer.Meets env.src))
    (hreturns : ∀ {J : Region env} {allowed : Kind → Prop} {call : Call},
      SparesMembers allowed → Responds J allowed call → Returns J 0 (rule call))
    (hrule : ∀ t : ParseState, t.Stands env shapes → t.depth = 0 →
      t.lexer = s.lexer.scan env.src → Crosses env shapes t (rule (callTo env.nesting)) [] good) :
    ∃ a u, runFrom env rule s = some (a, u) ∧ u.diagnostics = #[] ∧ u.prevStop = env.src.size
      ∧ good a u := by
  obtain ⟨⟨a, u⟩, hrun⟩ := Option.isSome_iff_exists.1 (hs.isSome_runFrom hspares hreturns)
  have hlog : s.lexer.log = #[] := by
    cases hs <;> rfl
  have hadvance : s.advance env.src = { s with
      lexer := s.lexer.scan env.src, prevStop := s.lexer.pos, prevSpan := s.lexer.span
      prevKind := s.lexer.kind, tokenCount := s.tokenCount + 1 } := by
    rw [ParseState.Awaits.advance_eq_of_limit (by cases hs <;> exact fun _ h => nomatch h),
      hoffers.scanKnown_eq]
    rw [hoffers.scanKnown_eq, hoffers.log_scan, hlog]
  obtain ⟨⟨⟩, t, ht, hrest⟩ := bind_eq_some.1 hrun
  obtain rfl : { s.advance env.src with muted := false } = t := by
    cases ht
    rfl
  rw [hadvance] at hrest
  have stands : ParseState.Stands env shapes { s with
      lexer := s.lexer.scan env.src, prevStop := s.lexer.pos, prevSpan := s.lexer.span
      prevKind := s.lexer.kind, tokenCount := s.tokenCount + 1, muted := false } := by
    cases hs <;> exact ⟨⟨_, hoffers, rfl⟩, rfl, rfl, rfl, fun e => absurd e hne⟩
  have hdepth : s.depth = 0 := by
    cases hs <;> rfl
  obtain ⟨hcrossed, ha⟩ := hrule _ stands hdepth rfl a u hrest
  refine ⟨a, u, hrun, ?_, hcrossed.stands.stop rfl, ha⟩
  rw [ParseState.diagnostics, hcrossed.stands.lexer_log, hcrossed.stands.log]
  simp [Log.sorted]

end Rule

end CangjieSyntax
