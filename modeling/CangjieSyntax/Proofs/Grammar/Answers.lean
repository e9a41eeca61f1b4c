import CangjieSyntax.Proofs.Grammar.Reads
import CangjieSyntax.Proofs.Token.Spaced

/-!
# Rules that have an answer

`Answers env s r rest post` says that the rule `r` has an answer in the state `s`, which satisfies
`post`, and that the parse stands in front of the signs `rest` behind it, having reported nothing.
What a rule finds in front of it is told by `s.Faces env signs`.
-/

namespace CangjieSyntax

/-- Outside attempts, with nothing reported yet, the parse stands at the first of some signs. -/
structure ParseState.Faces (env : Env) (signs : List Sign) (s : ParseState) : Prop where
  tentative : s.tentative = {}
  log : s.log = #[]
  lexer : s.lexer.Facing env.src signs
  stop : signs = [] → s.prevStop = env.src.size

/-- From one state the parse has come in front of some signs, nested as before. -/
structure Passed (env : Env) (rest : List Sign) (s t : ParseState) : Prop where
  faces : t.Faces env rest
  depth : t.depth = s.depth
  exprs : s.nodes.exprs.Extends t.nodes.exprs

/-- A rule has an answer, behind which the parse stands in front of some signs. -/
def Answers {α : Type} (env : Env) (s : ParseState) (r : Rule α) (rest : List Sign)
    (post : α → ParseState → Prop) : Prop :=
  ∃ a t, r env s = some (a, t) ∧ Passed env rest s t ∧ post a t

variable {env : Env} {s t u : ParseState} {α β : Type} {signs rest mid : List Sign} {sign : Sign}
  {r : Rule α} {k : α → Rule β} {p p' : α → ParseState → Prop} {q : β → ParseState → Prop}

namespace Passed

lemma trans (h : Passed env mid s t) (h' : Passed env rest t u) : Passed env rest s u :=
  ⟨h'.faces, h'.depth.trans h.depth, h.exprs.trans h'.exprs⟩

end Passed

namespace ParseState.Faces

lemma passed (h : s.Faces env rest) : Passed env rest s s :=
  ⟨h, rfl, .refl _⟩

lemma kind_eq (h : s.Faces env rest) : s.kind = s.lexer.kind := by
  rw [ParseState.kind, h.tentative]
  rfl

/-- A sign that the lexer takes in one step is seen as a whole. -/
lemma kind_whole (h : s.Faces env (sign :: rest)) (hwhole : sign.scanned = sign.kind) :
    s.kind = sign.kind := by
  rw [h.kind_eq]
  cases h.lexer.read with
  | scanned hkind => exact hkind.trans hwhole
  | joined hkind => exact hkind

end ParseState.Faces

namespace Answers

/-! ## Putting rules together -/

lemma pure {a : α} (h : s.Faces env rest) (ha : p a s) :
    Answers env s (Pure.pure a : Rule α) rest p :=
  ⟨a, s, rfl, h.passed, ha⟩

lemma mono (h : Answers env s r rest p) (hpost : ∀ a t, Passed env rest s t → p a t → p' a t) :
    Answers env s r rest p' := by
  obtain ⟨a, t, e, hpassed, ha⟩ := h
  exact ⟨a, t, e, hpassed, hpost a t hpassed ha⟩

lemma bind (h : Answers env s r mid p)
    (hk : ∀ a t, Passed env mid s t → p a t → Answers env t (k a) rest q) :
    Answers env s (r >>= k) rest q := by
  obtain ⟨a, t, e, hpassed, ha⟩ := h
  obtain ⟨b, u, e', hpassed', hb⟩ := hk a t hpassed ha
  exact ⟨b, u, Rule.bind_eq_some.2 ⟨a, t, e, e'⟩, hpassed.trans hpassed', hb⟩

lemma view {f : Source → ParseState → α} (h : Answers env s (k (f env.src s)) rest q) :
    Answers env s (Rule.view f >>= k) rest q :=
  h

lemma read {k : Env → Rule β} (h : Answers env s (k env) rest q) :
    Answers env s ((read : Rule Env) >>= k) rest q :=
  h

/-- A round that is not the last one. -/
lemma loop_next {step : β → Rule (β ⊕ α)} {rounds : Nat} {b : β}
    (h : Answers env s (step b) mid fun next t =>
      ∃ b', next = .inl b' ∧ Answers env t (Rule.loopUpTo step rounds b') rest p) :
    Answers env s (Rule.loopUpTo step (rounds + 1) b) rest p := by
  refine h.bind ?_
  rintro _ t _ ⟨b', rfl, hb⟩
  exact hb

/-- The last round. -/
lemma loop_done {step : β → Rule (β ⊕ α)} {rounds : Nat} {b : β}
    (h : Answers env s (step b) rest fun next t => ∃ a, next = .inr a ∧ p a t) :
    Answers env s (Rule.loopUpTo step (rounds + 1) b) rest p := by
  refine h.bind ?_
  rintro _ t ht ⟨a, rfl, ha⟩
  exact .pure ht.faces ha

/-- A repeated step that comes to its end within so many rounds. -/
lemma loop {step : β → Rule (β ⊕ α)} {needed : Nat} {b : β} (hneeded : needed ≤ env.rounds)
    (h : ∀ rounds, Answers env s (Rule.loopUpTo step (rounds + needed) b) rest p) :
    Answers env s (Rule.loop step b) rest p := by
  obtain ⟨rounds, e⟩ := Nat.exists_eq_add_of_le hneeded
  refine .read ?_
  rw [e, Nat.add_comm]
  exact h rounds

/-- A rule behind which a step is repeated. -/
lemma bind_loop {r : Rule β} {step : β → Rule (β ⊕ α)}
    (h : Answers env s (r >>= Rule.loopUpTo step env.rounds) rest p) :
    Answers env s (r >>= Rule.loop step) rest p := by
  obtain ⟨a, t, e, hpassed, ha⟩ := h
  obtain ⟨b, u, hr, hloop⟩ := Rule.bind_eq_some.1 e
  exact ⟨a, t, Rule.bind_eq_some.2 ⟨b, u, hr, hloop⟩, hpassed, ha⟩

end Answers

namespace Rule

/-! ## Tokens -/

lemma answers_advance (h : s.Faces env (sign :: rest)) (hkind : s.kind = sign.kind) :
    Answers env s advance rest fun _ _ => True := by
  obtain ⟨tentative, errorCount, muted, -, htentative, -, e⟩ := s.advance_eq env.src
  have hlexer := h.lexer.scanKnown_next (h.kind_eq.symm.trans hkind)
  refine ⟨(), s.advance env.src, rfl, ?_, trivial⟩
  rw [e]
  refine ⟨⟨htentative h.tentative, h.log, hlexer, fun hrest => ?_⟩, rfl, .refl _⟩
  have hahead := h.lexer.ahead (h.kind_eq.symm.trans hkind)
  rw [hrest] at hahead
  exact hahead.size_eq.symm

/-- Where an operator may stand, the whole sign is read. -/
lemma answers_operatorKind (h : s.Faces env signs) :
    Answers env s operatorKind signs fun k t => k = Sign.headKind signs ∧ t.kind = k := by
  obtain ⟨hfacing, hkind⟩ := h.lexer.joinGreater
  have hfaces : ParseState.Faces env signs { s with lexer := s.lexer.joinGreater env.src } :=
    ⟨h.tentative, h.log, hfacing, h.stop⟩
  refine .view ?_
  by_cases hgreater : s.kind = .mark .greater
  case pos =>
    rw [if_pos hgreater]
    exact ⟨_, _, rfl, ⟨hfaces, rfl, .refl _⟩, hkind, hfaces.kind_eq⟩
  case neg =>
    rw [if_neg hgreater]
    have e : s.lexer.joinGreater env.src = s.lexer := by
      rw [Lexer.joinGreater, if_neg (h.kind_eq ▸ hgreater)]
    rw [e] at hkind
    exact .pure h ⟨h.kind_eq.trans hkind, rfl⟩

lemma answers_optional (h : s.Faces env (sign :: rest)) (hkind : s.kind = sign.kind) :
    Answers env s (optional sign.kind) rest fun taken _ => taken = true := by
  refine .view ?_
  rw [hkind, beq_self_eq_true, if_pos rfl]
  exact (answers_advance h hkind).bind fun _ t ht _ => .pure ht.faces rfl

lemma answers_optional_of_ne {k : Kind} (h : s.Faces env rest) (hkind : s.kind ≠ k) :
    Answers env s (optional k) rest fun taken t => taken = false ∧ t = s := by
  refine .view ?_
  rw [beq_eq_false_iff_ne.2 hkind, if_neg Bool.false_ne_true]
  exact .pure h ⟨rfl, rfl⟩

lemma answers_require (h : s.Faces env (sign :: rest)) (hkind : s.kind = sign.kind) :
    Answers env s (require sign.kind) rest fun _ _ => True := by
  have expect : Answers env s (expect sign.kind) rest fun _ _ => True := by
    refine (answers_optional h hkind).bind fun taken t ht htaken => ?_
    rw [htaken, if_pos rfl]
    exact .pure ht.faces trivial
  exact expect.bind fun _ t ht _ => .pure ht.faces trivial

lemma answers_name {text : String} {span : Span} (h : s.Faces env rest) :
    Answers env s (name text span) rest fun n t => n.text = text ∧ t.kind = s.kind :=
  ⟨_, _, rfl, ⟨⟨h.tentative, h.log, h.lexer, h.stop⟩, rfl, .refl _⟩, rfl, rfl⟩

lemma answers_identifier {c : Letter} (h : s.Faces env (.letter c :: rest)) :
    Answers env s identifier rest fun n _ => n.text = String.singleton c.char := by
  have hkind : s.kind = .identifier := h.kind_whole rfl
  refine .view ?_
  rw [hkind]
  refine .view (.view ?_)
  refine (answers_name h).bind ?_
  rintro n t ht ⟨htext, hsame⟩
  refine (answers_advance ht.faces (hsame.trans hkind)).bind fun _ u hu _ => ?_
  exact .pure hu.faces (htext.trans h.lexer.value_eq)

/-! ## Nodes and nesting -/

lemma answers_exprFrom {form : ExprForm} {start : Nat} (h : s.Faces env rest) :
    Answers env s (exprFrom start form) rest fun id t =>
      ∃ span, t.nodes.exprs.get? id = some ⟨form, span⟩ := by
  refine ⟨s.nodes.exprs.next, _, rfl, ⟨?_, rfl, ?_⟩, s.spanFrom start, ?_⟩
  · exact ⟨h.tentative, h.log, h.lexer, h.stop⟩
  · exact (Arena.Extends.refl _).push _
  · exact Arena.get?_push_next ..

/-- Reading one level deeper, where the nesting allows it. -/
lemma answers_nested {fallback : Span → Rule α} (good : α → Nodes → Prop) (h : s.Faces env signs)
    (hdepth : s.depth < env.settings.maxDepth)
    (hr : ∀ t : ParseState, t.Faces env signs → t.depth = s.depth + 1 → t.nodes = s.nodes →
      Answers env t r rest fun a u => good a u.nodes) :
    Answers env s (nested fallback r) rest fun a u => good a u.nodes := by
  have hdeeper : ParseState.Faces env signs { s with depth := s.depth + 1 } :=
    ⟨h.tentative, h.log, h.lexer, h.stop⟩
  obtain ⟨a, t, e, hpassed, ha⟩ := hr _ hdeeper rfl rfl
  have hshallower : Passed env rest s { t with depth := t.depth - 1 } := by
    obtain ⟨⟨htentative, hlog, hlexer, hstop⟩, hd, hexprs⟩ := hpassed
    refine ⟨⟨htentative, hlog, hlexer, hstop⟩, ?_, hexprs⟩
    show t.depth - 1 = s.depth
    rw [hd]
    rfl
  refine ⟨a, { t with depth := t.depth - 1 }, ?_, hshallower, ha⟩
  show (if env.settings.maxDepth ≤ s.depth then _ else _ : Rule α) env s = _
  rw [if_neg (Nat.not_le.2 hdepth)]
  exact bind_eq_some.2 ⟨(), _, rfl, bind_eq_some.2 ⟨a, t, e, rfl⟩⟩

end Rule

end CangjieSyntax
