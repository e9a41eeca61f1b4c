import CangjieSyntax.Grammar.File
import CangjieSyntax.Proofs.Grammar.Rule
import CangjieSyntax.Proofs.Token.Row

/-!
# Rules that take tiles

`Walks env behind s r rest post` says that whatever the rule `r` yields in the state `s` satisfies
`post`, and that the parse then stands in front of the tiles `rest`, having reported nothing. The
tiles `behind` come after those that may be taken. A limit on the tokens of a tentative reading
leaves room for all of the latter.
-/

namespace CangjieSyntax

/-- The parse stands at the first of some tiles, without a fault so far. -/
structure ParseState.Awaits (env : Env) (behind tiles : List Tile) (s : ParseState) : Prop where
  lexer : s.lexer.Awaits env.src (tiles ++ behind)
  log : s.log = #[]
  errorCount : s.errorCount = 0
  comparisons : s.comparisons = []
  failed : s.tentative.failed = false
  exhausted : s.tentative.exhausted = false
  affords : ∀ limit ∈ s.tentative.limit, s.tokenCount + tiles.length ≤ limit

/-- From one state the parse has come in front of some tiles, inside the same constructs and the
same tentative readings. -/
structure Walked (env : Env) (behind rest : List Tile) (s t : ParseState) : Prop where
  awaits : t.Awaits env behind rest
  tentative : t.tentative = s.tentative
  depth : t.depth = s.depth
  nodes : s.nodes.Extends t.nodes

/-- What a rule yields, behind which the parse stands in front of some tiles. -/
def Walks {α : Type} (env : Env) (behind : List Tile) (s : ParseState) (r : Rule α)
    (rest : List Tile) (post : α → ParseState → Prop) : Prop :=
  ∀ a t, r env s = some (a, t) → Walked env behind rest s t ∧ post a t

variable {env : Env} {s t u : ParseState} {α β : Type} {behind tiles rest mid : List Tile}
  {tile : Tile} {r : Rule α} {k : α → Rule β} {p p' : α → ParseState → Prop}
  {q : β → ParseState → Prop}

lemma Walked.trans (h : Walked env behind mid s t) (h' : Walked env behind rest t u) :
    Walked env behind rest s u :=
  ⟨h'.awaits, h'.tentative.trans h.tentative, h'.depth.trans h.depth, h.nodes.trans h'.nodes⟩

namespace ParseState.Awaits

lemma walked (h : s.Awaits env behind rest) : Walked env behind rest s s :=
  ⟨h, rfl, rfl, .refl _⟩

lemma kind_eq (h : s.Awaits env behind tiles) : s.kind = Tile.front (tiles ++ behind) := by
  rw [ParseState.kind, h.failed]
  exact h.lexer.kind

lemma peek_eq (h : s.Awaits env behind (tile :: tiles)) :
    s.peek env.src = Tile.front (tiles ++ behind) :=
  h.lexer.before.scan.kind

lemma value_eq (h : s.Awaits env behind (tile :: tiles)) : s.lexer.value = tile.value :=
  h.lexer.value tile rfl

/-- What is changed of a state without a token being taken. -/
lemma congr (h : s.Awaits env behind tiles) {nodes : Nodes} {names : NameTable} {depth : Nat}
    {muted : Bool} : ParseState.Awaits env behind tiles { s with nodes, names, depth, muted } :=
  ⟨h.lexer, h.log, h.errorCount, h.comparisons, h.failed, h.exhausted, h.affords⟩

lemma checkLimit_eq (h : ∀ limit ∈ s.tentative.limit, s.tokenCount ≤ limit) :
    s.checkLimit = s := by
  unfold ParseState.checkLimit
  split
  case h_1 limit hlimit => rw [if_neg (Nat.not_lt.2 (h limit hlimit))]
  case h_2 => rfl

/-- Taking a token only counts it if the limit allows for it and the next one has no fault. -/
lemma advance_eq_of_limit (hlimit : ∀ limit ∈ s.tentative.limit, s.tokenCount + 1 ≤ limit)
    (hlog : (s.lexer.scanKnown env.src).log = s.lexer.log) :
    s.advance env.src = { s with
      lexer := s.lexer.scanKnown env.src, prevStop := s.lexer.pos, prevSpan := s.lexer.span
      prevKind := s.lexer.kind, tokenCount := s.tokenCount + 1 } := by
  have e := @checkLimit_eq { s with
    prevStop := s.lexer.pos, prevSpan := s.lexer.span, prevKind := s.lexer.kind
    tokenCount := s.tokenCount + 1 } hlimit
  have hquiet : ¬s.lexer.log.size < (s.lexer.scanKnown env.src).log.size := by
    rw [hlog]
    exact Nat.lt_irrefl _
  unfold ParseState.advance
  rw [e]
  exact if_neg hquiet

lemma advance_eq (h : s.Awaits env behind (tile :: rest)) :
    s.advance env.src = { s with
      lexer := s.lexer.scanKnown env.src, prevStop := s.lexer.pos, prevSpan := s.lexer.span
      prevKind := s.lexer.kind, tokenCount := s.tokenCount + 1 } := by
  have hlog : (s.lexer.scanKnown env.src).log = s.lexer.log :=
    h.lexer.before.scanKnown.before.log.trans h.lexer.before.log.symm
  refine advance_eq_of_limit (fun limit hlimit => ?_) hlog
  have := h.affords limit hlimit
  rw [List.length_cons] at this
  omega

/-- A tentative reading may take some tiles, no more than the budget allows for. -/
lemma enterTentative (h : s.Awaits env [] (tiles ++ rest)) (hlimit : s.tentative.limit = none)
    (hbudget : tiles.length ≤ env.settings.budget) :
    (s.enterTentative env.settings.budget).Awaits env rest tiles := by
  have hlexer := h.lexer
  rw [List.append_nil] at hlexer
  refine ⟨hlexer, h.log, h.errorCount, h.comparisons, h.failed, h.exhausted, fun limit e => ?_⟩
  rw [ParseState.enterTentative, hlimit] at e
  cases e
  exact Nat.add_le_add_left hbudget _

end ParseState.Awaits

namespace Walks

/-! ## Putting rules together -/

lemma pure {a : α} (h : s.Awaits env behind rest) (ha : p a s) :
    Walks env behind s (Pure.pure a : Rule α) rest p := by
  rintro _ _ ⟨⟩
  exact ⟨h.walked, ha⟩

lemma mono (h : Walks env behind s r rest p)
    (hpost : ∀ a t, Walked env behind rest s t → p a t → p' a t) :
    Walks env behind s r rest p' := by
  intro a t e
  obtain ⟨hwalked, ha⟩ := h a t e
  exact ⟨hwalked, hpost a t hwalked ha⟩

lemma bind (h : Walks env behind s r mid p)
    (hk : ∀ a t, Walked env behind mid s t → p a t → Walks env behind t (k a) rest q) :
    Walks env behind s (r >>= k) rest q := by
  intro b u e
  obtain ⟨a, t, e, e'⟩ := Rule.bind_eq_some.1 e
  obtain ⟨hwalked, ha⟩ := h a t e
  obtain ⟨hwalked', hb⟩ := hk a t hwalked ha b u e'
  exact ⟨hwalked.trans hwalked', hb⟩

lemma view {f : Source → ParseState → α} (h : Walks env behind s (k (f env.src s)) rest q) :
    Walks env behind s (Rule.view f >>= k) rest q :=
  h

lemma get {k : ParseState → Rule β} (h : Walks env behind s (k s) rest q) :
    Walks env behind s ((get : Rule ParseState) >>= k) rest q :=
  h

lemma read {k : Env → Rule β} (h : Walks env behind s (k env) rest q) :
    Walks env behind s ((read : Rule Env) >>= k) rest q :=
  h

lemma endless : Walks env behind s Rule.endless rest p :=
  fun _ _ e => nomatch e

/-- A round that is not the last one. -/
lemma loop_next {step : β → Rule (β ⊕ α)} {b : β}
    (h : Walks env behind s (step b) mid fun next t => ∃ b', next = .inl b'
      ∧ ∀ rounds, Walks env behind t (Rule.loopUpTo step rounds b') rest p) (rounds : Nat) :
    Walks env behind s (Rule.loopUpTo step rounds b) rest p := by
  cases rounds with
  | zero => exact endless
  | succ rounds =>
    refine h.bind ?_
    rintro _ t _ ⟨b', rfl, hb⟩
    exact hb rounds

/-- The last round. -/
lemma loop_done {step : β → Rule (β ⊕ α)} {b : β}
    (h : Walks env behind s (step b) rest fun next t => ∃ a, next = .inr a ∧ p a t)
    (rounds : Nat) : Walks env behind s (Rule.loopUpTo step rounds b) rest p := by
  cases rounds with
  | zero => exact endless
  | succ rounds =>
    refine h.bind ?_
    rintro _ t ht ⟨a, rfl, ha⟩
    exact .pure ht.awaits ha

lemma loop {step : β → Rule (β ⊕ α)} {b : β}
    (h : ∀ rounds, Walks env behind s (Rule.loopUpTo step rounds b) rest p) :
    Walks env behind s (Rule.loop step b) rest p :=
  .read (h env.rounds)

/-- Each element of a list gives what belongs to it, wherever its turn comes. -/
lemma mapM {γ : Type} {f : β → Rule α} {items : List β} {meant : List γ} {nodes : Nodes}
    (good : γ → α → Nodes → Prop) (h : s.Awaits env behind rest) (hs : nodes.Extends s.nodes)
    (hgood : ∀ {c a nodes nodes'}, nodes.Extends nodes' → good c a nodes → good c a nodes')
    (hitems : List.Forall₂ (fun b c => ∀ t : ParseState, t.Awaits env behind rest →
      nodes.Extends t.nodes → Walks env behind t (f b) rest fun a u => good c a u.nodes)
      items meant) :
    Walks env behind s (items.mapM f) rest fun found u =>
      List.Forall₂ (fun c a => good c a u.nodes) meant found := by
  induction hitems generalizing s with
  | nil =>
    rw [List.mapM_nil]
    exact .pure h .nil
  | @cons b c items meant hitem _ ih =>
    rw [List.mapM_cons]
    refine (hitem s h hs).bind fun a t ht ha => ?_
    refine (ih ht.awaits (hs.trans ht.nodes)).bind fun found u hu hfound => ?_
    exact .pure hu.awaits (.cons (hgood hu.nodes ha) hfound)

end Walks

namespace Rule

/-! ## Tokens -/

lemma walks_advance (h : s.Awaits env behind (tile :: rest)) :
    Walks env behind s advance rest fun _ _ => True := by
  rintro _ _ ⟨⟩
  change Walked env behind rest s (s.advance env.src) ∧ True
  rw [h.advance_eq]
  refine ⟨⟨⟨h.lexer.before.scanKnown, h.log, h.errorCount, h.comparisons, h.failed, h.exhausted,
    fun limit hlimit => ?_⟩, rfl, rfl, .refl _⟩, trivial⟩
  have := h.affords limit hlimit
  rw [List.length_cons] at this
  change s.tokenCount + 1 + rest.length ≤ limit
  omega

lemma walks_optional (h : s.Awaits env behind (tile :: rest)) :
    Walks env behind s (optional tile.kind) rest fun taken _ => taken = true := by
  refine .view ?_
  rw [h.kind_eq, List.cons_append, Tile.front, beq_self_eq_true, if_pos rfl]
  exact (walks_advance h).bind fun _ t ht _ => .pure ht.awaits rfl

lemma walks_optional_of_ne {k : Kind} (h : s.Awaits env behind rest)
    (hkind : Tile.front (rest ++ behind) ≠ k) :
    Walks env behind s (optional k) rest fun taken t => taken = false ∧ t = s := by
  refine .view ?_
  rw [h.kind_eq, beq_eq_false_iff_ne.2 hkind, if_neg Bool.false_ne_true]
  exact .pure h ⟨rfl, rfl⟩

lemma walks_require (h : s.Awaits env behind (tile :: rest)) :
    Walks env behind s (require tile.kind) rest fun _ _ => True := by
  have expect : Walks env behind s (expect tile.kind) rest fun _ _ => True := by
    refine (walks_optional h).bind fun taken t ht htaken => ?_
    rw [htaken, if_pos rfl]
    exact .pure ht.awaits trivial
  exact expect.bind fun _ t ht _ => .pure ht.awaits trivial

lemma walks_name {text : String} {span : Span} (h : s.Awaits env behind rest) :
    Walks env behind s (name text span) rest fun n t => n.text = text ∧ t.nodes = s.nodes := by
  rintro _ _ ⟨⟩
  exact ⟨⟨h.congr, rfl, rfl, .refl _⟩, rfl, rfl⟩

lemma isIdentifier_name (x : Ident) : (Tile.name x).kind.isIdentifier := by
  rw [Tile.kind]
  split <;> rfl

lemma walks_identifier {x : Ident} (h : s.Awaits env behind (.name x :: rest)) :
    Walks env behind s identifier rest fun n _ => n.text = x.text := by
  refine .view ?_
  rw [h.kind_eq, List.cons_append, Tile.front, if_pos (isIdentifier_name x)]
  refine .view (.view ?_)
  refine (walks_name h).bind ?_
  rintro n t ht ⟨htext, -⟩
  refine (walks_advance ht.awaits).bind fun _ u hu _ => ?_
  exact .pure hu.awaits (htext.trans h.value_eq)

/-- A name with a colon behind it is a label. -/
lemma walks_labelled {x : Ident} (h : s.Awaits env behind (.name x :: .mark .colon :: rest)) :
    Walks env behind s label? rest fun label _ => label.map Name.text = some x.text := by
  have hlabel : (s.kind.isIdentifier && s.peek env.src == .mark .colon) = true := by
    rw [h.kind_eq, h.peek_eq, List.cons_append, Tile.front, isIdentifier_name]
    rfl
  refine .view ?_
  rw [hlabel, if_pos rfl]
  refine (walks_identifier h).bind fun n t ht hn => ?_
  refine (walks_advance ht.awaits).bind fun _ u hu _ => ?_
  exact .pure hu.awaits (by rw [Option.map_some, hn])

/-- Nothing else is a label. -/
lemma walks_noLabel (h : s.Awaits env behind tiles)
    (hcolon : (s.kind.isIdentifier && s.peek env.src == .mark .colon) = false) :
    Walks env behind s label? tiles fun label t => label = none ∧ t = s := by
  refine .view ?_
  rw [hcolon, if_neg Bool.false_ne_true]
  exact .pure h ⟨rfl, rfl⟩

/-- Where no `>` stands, no operator is joined. -/
lemma walks_operatorKind (h : s.Awaits env behind tiles)
    (hgreater : Tile.front (tiles ++ behind) ≠ .mark .greater) :
    Walks env behind s operatorKind tiles fun k t => k = Tile.front (tiles ++ behind) ∧ t = s := by
  refine .view ?_
  rw [h.kind_eq, if_neg hgreater]
  exact .pure h ⟨rfl, rfl⟩

/-! ## Nodes and nesting -/

lemma walks_allocExpr {form : ExprForm} {span : Span} (h : s.Awaits env behind rest) :
    Walks env behind s (allocExpr form span) rest fun id t =>
      t.nodes.exprs.get? id = some ⟨form, span⟩ := by
  rintro _ _ ⟨⟩
  exact ⟨⟨h.congr, rfl, rfl, (Nodes.Extends.refl _).add (.expr _)⟩, Arena.get?_push_next ..⟩

lemma walks_allocType {form : TypeForm} {span : Span} (h : s.Awaits env behind rest) :
    Walks env behind s (allocType form span) rest fun id t =>
      t.nodes.types.get? id = some ⟨form, span⟩ := by
  rintro _ _ ⟨⟩
  exact ⟨⟨h.congr, rfl, rfl, (Nodes.Extends.refl _).add (.type _)⟩, Arena.get?_push_next ..⟩

lemma walks_allocPattern {form : PatternForm} {span : Span} (h : s.Awaits env behind rest) :
    Walks env behind s (allocPattern form span) rest fun id t =>
      t.nodes.patterns.get? id = some ⟨form, span⟩ := by
  rintro _ _ ⟨⟩
  exact ⟨⟨h.congr, rfl, rfl, (Nodes.Extends.refl _).add (.pattern _)⟩, Arena.get?_push_next ..⟩

lemma walks_allocDecl {node : DeclNode} (h : s.Awaits env behind rest) :
    Walks env behind s (allocDecl node) rest fun id t => t.nodes.decls.get? id = some node := by
  rintro _ _ ⟨⟩
  exact ⟨⟨h.congr, rfl, rfl, (Nodes.Extends.refl _).add (.decl _)⟩, Arena.get?_push_next ..⟩

lemma walks_exprFrom {form : ExprForm} {start : Nat} (h : s.Awaits env behind rest) :
    Walks env behind s (exprFrom start form) rest fun id t =>
      ∃ span, t.nodes.exprs.get? id = some ⟨form, span⟩ :=
  .view ((walks_allocExpr h).mono fun _ _ _ e => ⟨_, e⟩)

lemma walks_typeFrom {form : TypeForm} {start : Nat} (h : s.Awaits env behind rest) :
    Walks env behind s (typeFrom start form) rest fun id t =>
      ∃ span, t.nodes.types.get? id = some ⟨form, span⟩ :=
  .view ((walks_allocType h).mono fun _ _ _ e => ⟨_, e⟩)

/-- Reading one level deeper, where the nesting allows it. -/
lemma walks_nested {fallback : Span → Rule α} (good : α → Nodes → Prop)
    (h : s.Awaits env behind tiles) (hdepth : s.depth < env.settings.maxDepth)
    (hr : ∀ t : ParseState, t.Awaits env behind tiles → t.depth = s.depth + 1 →
      t.tentative = s.tentative → Walks env behind t r rest fun a u => good a u.nodes) :
    Walks env behind s (nested fallback r) rest fun a u => good a u.nodes := by
  intro a t e
  change (if env.settings.maxDepth ≤ s.depth then _ else _ : Rule α) env s = _ at e
  rw [if_neg (Nat.not_le.2 hdepth)] at e
  obtain ⟨⟨⟩, _, ⟨⟩, e⟩ := bind_eq_some.1 e
  obtain ⟨a, t, e, e'⟩ := bind_eq_some.1 e
  obtain ⟨hwalked, ha⟩ := hr _ h.congr rfl rfl a t e
  cases e'
  refine ⟨⟨hwalked.awaits.congr, hwalked.tentative, ?_, hwalked.nodes⟩, ha⟩
  change t.depth - 1 = s.depth
  rw [hwalked.depth]
  rfl

/-- A tentative reading of some tiles, no more than the budget allows for, is committed. -/
lemma walks_attempt {body : Rule (Option α)} (good : α → Nodes → Prop)
    (h : s.Awaits env [] (tiles ++ rest)) (hlimit : s.tentative.limit = none)
    (hbudget : tiles.length ≤ env.settings.budget)
    (hbody : ∀ t : ParseState, t.Awaits env rest tiles → t.depth = s.depth →
      Walks env rest t body [] fun a? u => ∃ a, a? = some a ∧ good a u.nodes) :
    Walks env [] s (attempt body) rest fun found u =>
      ∃ a, found = .committed a ∧ good a u.nodes := by
  intro found u e
  obtain ⟨a?, t, hrun, hfound⟩ := attempt_eq_some e
  obtain ⟨hwalked, a, rfl, ha⟩ := hbody _ (h.enterTentative hlimit hbudget) rfl a? t hrun
  have htentative := hwalked.tentative
  have hfailed : t.tentative.failed = false := hwalked.awaits.failed
  obtain ⟨b, hb, -, rfl, rfl⟩ | ⟨hno, -⟩ := hfound
  · cases hb
    have e : (s.commit t).tentative = s.tentative := by
      rw [ParseState.commit, ParseState.leaveTentative, htentative, ParseState.enterTentative]
      exact congrArg₂ (Tentative.mk s.tentative.depth s.tentative.limit) h.failed.symm
        h.exhausted.symm
    have hlexer := hwalked.awaits.lexer
    refine ⟨⟨⟨?_, hwalked.awaits.log, hwalked.awaits.errorCount, hwalked.awaits.comparisons, ?_, ?_,
      ?_⟩, e, hwalked.depth, hwalked.nodes⟩, a, rfl, ha⟩
    · rwa [List.append_nil]
    · rw [e, h.failed]
    · rw [e, h.exhausted]
    · rw [e, hlimit]
      rintro _ ⟨⟩
  · rw [hfailed] at hno
    exact absurd hno (by simp)

end Rule

end CangjieSyntax
