import CangjieSyntax.Proofs.Pattern.Admitted
import CangjieSyntax.Proofs.Termination

/-!
# Alternations

A pattern of a `case` is a row of patterns with bars between them. Each of them is read where it
stands, and what they stand for is put together in one node: values with values, variants with variants,
in the order of the text. A pattern in parentheses is its content, so that an alternation inside another
one leaves nothing behind but its alternatives.

A bar that stands behind the value of a `return` or a `throw` at the end of a constant belongs to that
value, and the pattern goes on behind it.
-/

namespace CangjieSyntax

variable {env : Env} {call : Call} {one : Rule PatternId} {s s₀ t u : ParseState}
  {ids : List PatternId} {id : PatternId}

namespace Rule

lemma optional_of_kind {k : Kind} (h : s.kind = k) :
    optional k env s = some (true, s.advance env.src) := by
  change (if s.kind == k then _ else _ : Rule Bool) env s = _
  rw [if_pos (beq_iff_eq.2 h)]
  rfl

lemma optional_of_kind_ne {k : Kind} (h : s.kind ≠ k) : optional k env s = some (false, s) := by
  change (if s.kind == k then _ else _ : Rule Bool) env s = _
  rw [if_neg (by simpa using h)]
  rfl

/-- The patterns that a rule reads one after another from a place on, with bars between them, up to
one behind which no bar stands. -/
inductive Alternatives (env : Env) (one : Rule PatternId) :
    ParseState → List PatternId → ParseState → Prop
  | last {s t : ParseState} {id : PatternId} (hrun : one env s = some (id, t))
    (hend : t.kind ≠ .mark .bar) : Alternatives env one s [id] t
  | bar {s t u : ParseState} {id : PatternId} {ids : List PatternId} (hrun : one env s = some (id, t))
    (hbar : t.kind = .mark .bar) (hrest : Alternatives env one (t.advance env.src) ids u) :
    Alternatives env one s (id :: ids) u

/-- The patterns that a rule reads one after another, if there are at most so many. -/
def alternatives (one : Rule PatternId) : Nat → Rule (List PatternId)
  | 0 => endless
  | rounds + 1 => do
    let id ← one
    if ← optional (.mark .bar) then return id :: (← alternatives one rounds) else return [id]

lemma Alternatives.of_eq_some {rounds : Nat} (h : alternatives one rounds env s = some (ids, u)) :
    Alternatives env one s ids u := by
  induction rounds generalizing s ids with
  | zero => exact nomatch h
  | succ rounds ih =>
    obtain ⟨id, t, hrun, h⟩ := bind_eq_some.1 h
    obtain ⟨more, v, hmore, h⟩ := bind_eq_some.1 h
    by_cases hbar : t.kind = .mark .bar
    · rw [optional_of_kind hbar] at hmore
      cases hmore
      obtain ⟨rest, w, hrest, h⟩ := bind_eq_some.1 h
      cases h
      exact .bar hrun hbar (ih hrest)
    · rw [optional_of_kind_ne hbar] at hmore
      cases hmore
      cases h
      exact .last hrun hbar

/-! ## The rounds behind the first alternative -/

/-- A round in front of a bar takes it and reads the pattern behind it. -/
lemma alternativesRound_of_bar (hbar : s.kind = .mark .bar)
    (hrun : singlePattern call .matchCase env (s.advance env.src) = some (id, t))
    (rest : List PatternId) :
    alternativesRound call .matchCase rest env s = some (.inl (rest ++ [id]), t) :=
  bind_eq_some.2 ⟨true, _, optional_of_kind hbar, bind_eq_some.2 ⟨id, t, hrun, rfl⟩⟩

/-- Where no bar stands the rounds end. -/
lemma alternativesRound_of_end (hend : s.kind ≠ .mark .bar) (rest : List PatternId) :
    alternativesRound call .matchCase rest env s = some (.inr rest, s) :=
  bind_eq_some.2 ⟨false, s, optional_of_kind_ne hend, rfl⟩

/-- Whatever the rounds read is a row of alternatives. -/
lemma exists_alternatives_of_loopUpTo {n : Nat} {rest all : List PatternId}
    (hbar : t.kind = .mark .bar)
    (h : loopUpTo (alternativesRound call .matchCase) n rest env t = some (all, u)) :
    ∃ ids, Alternatives env (singlePattern call .matchCase) (t.advance env.src) ids u
      ∧ all = rest ++ ids := by
  induction n generalizing t rest with
  | zero => exact nomatch h
  | succ n ih =>
    obtain ⟨next, v, hround, h⟩ := bind_eq_some.1 h
    obtain ⟨more, _, hmore, hround⟩ := bind_eq_some.1 hround
    rw [optional_of_kind hbar] at hmore
    cases hmore
    obtain ⟨id, _, hrun, hround⟩ := bind_eq_some.1 hround
    cases hround
    by_cases hbar' : v.kind = .mark .bar
    · obtain ⟨ids, hrow, rfl⟩ := ih hbar' h
      exact ⟨id :: ids, .bar hrun hbar' hrow, List.append_assoc ..⟩
    · cases n with
      | zero => exact nomatch h
      | succ n =>
        obtain ⟨next, _, hround, h⟩ := bind_eq_some.1 h
        rw [alternativesRound_of_end hbar'] at hround
        cases hround
        cases h
        exact ⟨[id], .last hrun hbar', rfl⟩

/-- Within the depth allowed, whatever is read as a pattern of a `case` is a row of alternatives. -/
theorem exists_alternatives (hdepth : s.depth < env.settings.maxDepth)
    (h : pattern call .matchCase env s = some (id, t)) :
    ∃ ids u, Alternatives env (singlePattern call .matchCase) { s with depth := s.depth + 1 } ids u := by
  obtain ⟨_, hplain, -⟩ := (nested_eq_some hdepth).1 h
  obtain ⟨_, _, ⟨⟩, h⟩ := bind_eq_some.1 hplain
  obtain ⟨first, v, hrun, h⟩ := bind_eq_some.1 h
  by_cases hbar : v.kind = .mark .bar
  · change (if !(v.kind == .mark .bar) then _ else _ : Rule PatternId) env v = _ at h
    rw [if_neg (by simp [hbar])] at h
    obtain ⟨rest, u, hloop, -⟩ := bind_eq_some.1 h
    obtain ⟨ids, hrow, -⟩ := exists_alternatives_of_loopUpTo hbar hloop
    exact ⟨first :: ids, u, .bar hrun hbar hrow⟩
  · exact ⟨[first], v, .last hrun hbar⟩

section

variable {allowed : Kind → Prop} {J : Region env} (h : Steady J allowed call)

include h

/-- The rounds behind the first alternative read all others. There are more rounds than tokens left,
and each round takes a bar. -/
lemma Alternatives.loopUpTo_eq
    (hrow : Alternatives env (singlePattern call .matchCase) (t.advance env.src) ids u)
    (ht : J.mem t) (hbar : t.kind = .mark .bar) (rest : List PatternId) {n : Nat} (hn : t.lexer.left env.src < n) :
    Rule.loopUpTo (alternativesRound call .matchCase) n rest env t = some (rest ++ ids, u) := by
  have round (rest : List PatternId) (n : Nat) {t v : ParseState} {id : PatternId} (ht : J.mem t)
      (hbar : t.kind = .mark .bar)
      (hrun : singlePattern call .matchCase env (t.advance env.src) = some (id, v)) :
      Rule.loopUpTo (alternativesRound call .matchCase) (n + 1) rest env t
        = Rule.loopUpTo (alternativesRound call .matchCase) n (rest ++ [id]) env v
        ∧ J.mem v ∧ v.lexer.left env.src < t.lexer.left env.src := by
    have hround := alternativesRound_of_bar hbar hrun rest
    refine ⟨?_, ?_, ?_⟩
    · change (alternativesRound call .matchCase rest env t).bind _ = _
      rw [hround]
      rfl
    · exact (reads_alternativesRound .matchCase h.obeysHere rest t ht _ v hround).1
    · obtain ⟨hkind, hpasses⟩ := consumes_alternativesRound h .matchCase rest ht _ v hround rfl
      have hway := h.underway ht
      exact Lexer.left_lt_of_passes hway.regular hway.stretches hkind hpasses
  generalize hs : t.advance env.src = s at hrow
  induction hrow generalizing t rest n with
  | @last s v id hrun hend =>
    subst hs
    obtain ⟨n, rfl⟩ := Nat.exists_eq_succ_of_ne_zero (Nat.ne_zero_of_lt hn)
    obtain ⟨e, -, hless⟩ := round rest n ht hbar hrun
    obtain ⟨n, rfl⟩ : ∃ m, n = m + 1 := ⟨n - 1, by omega⟩
    rw [e]
    change (alternativesRound call .matchCase (rest ++ [id]) env v).bind _ = _
    rw [alternativesRound_of_end hend]
    rfl
  | @bar s v u id ids hrun hbar' hrest ih =>
    subst hs
    obtain ⟨n, rfl⟩ := Nat.exists_eq_succ_of_ne_zero (Nat.ne_zero_of_lt hn)
    obtain ⟨e, hv, hless⟩ := round rest n ht hbar hrun
    rw [e, ih hv hbar' (rest ++ [id]) (by omega) rfl, List.append_assoc, List.singleton_append]

lemma Alternatives.mem (hrow : Alternatives env (singlePattern call .matchCase) s ids u)
    (hs : J.mem s) : J.mem u := by
  have single {s t : ParseState} {id : PatternId} (hs : J.mem s)
      (hrun : singlePattern call .matchCase env s = some (id, t)) : J.mem t :=
    (yields_singlePattern .matchCase h.obeysHere s hs _ t hrun).1
  induction hrow with
  | last hrun hend => exact single hs hrun
  | bar hrun hbar hrest ih => exact ih (J.step (single hs hrun) (.advance _))

/-- Two patterns or more with bars between them are put together behind the last one. -/
lemma Alternatives.plainPattern_eq (hrow : Alternatives env (singlePattern call .matchCase) s ids u)
    (hs : J.mem s) (hlen : 2 ≤ ids.length) :
    plainPattern call .matchCase env s
      = (match PatternForm.alternation? (ids.filterMap u.nodes.patterns.get?) with
        | some form => allocPattern form (u.spanFrom s.start)
        | none => invalidPattern (u.spanFrom s.start) "a '|' alternation" : Rule PatternId) env u := by
  cases hrow with
  | last => simp at hlen
  | @bar _ t _ first rest hrun hbar hrest =>
    have ht : J.mem t := (yields_singlePattern .matchCase h.obeysHere s hs _ t hrun).1
    have rounds := hrest.loopUpTo_eq h ht hbar [] (Lexer.left_lt_rounds env _)
    change (singlePattern call .matchCase env s).bind _ = _
    rw [hrun]
    change (if !(t.kind == .mark .bar) then _ else _ : Rule PatternId) env t = _
    rw [if_neg (by simp [hbar])]
    change (loopUpTo (alternativesRound call .matchCase) env.rounds [] env t).bind _ = _
    rw [rounds]
    rfl

end

/-! ## The nodes of the alternatives -/

/-- Where no fault has been met, all alternatives are of forms that a `case` admits. -/
lemma Alternatives.admits (hcall : ∀ {α : Type} (g : Nonterminal α), GoesOn env (call g))
    (hpattern : ∀ t, s₀.Builds t →
      Gives env s₀ (·.Admits .matchCase) t (call (.pattern .matchCase)))
    (hrow : Alternatives env (singlePattern call .matchCase) s ids u) (h₀ : s₀.Builds s) :
    s.Builds u ∧ (u.errorCount = s₀.errorCount → ∀ id ∈ ids, u.nodes.Admits .matchCase id) := by
  induction hrow with
  | last hrun hend =>
    obtain ⟨ht, hid⟩ := gives_singlePattern .matchCase hcall h₀ hpattern _ _ hrun
    exact ⟨ht, fun clean id hmem => List.eq_of_mem_singleton hmem ▸ hid clean⟩
  | @bar _ t _ _ _ hrun hbar hrest ih =>
    obtain ⟨ht, hid⟩ := gives_singlePattern .matchCase hcall h₀ hpattern _ _ hrun
    have hstep : Step env t (t.advance env.src) := .advance t
    have hbehind := ParseState.Builds.of_step ht.settled hstep
    have ht₀ := h₀.trans ht
    obtain ⟨hu, hids⟩ := ih (ht₀.trans hbehind)
    have hu' := hbehind.trans hu
    refine ⟨ht.trans hu', fun clean => List.forall_mem_cons.2 ⟨?_, hids clean⟩⟩
    exact (hid (ht₀.clean hu' clean)).grow hu'.nodes

/-- The nodes of alternatives that a `case` admits. -/
lemma exists_nodes_of_admits {nodes : Nodes} (h : ∀ id ∈ ids, nodes.Admits .matchCase id) :
    ∃ ps, List.Forall₂ (fun id p => nodes.patterns.get? id = some p) ids ps
      ∧ ids.filterMap nodes.patterns.get? = ps := by
  induction ids with
  | nil => exact ⟨[], .nil, rfl⟩
  | cons id ids ih =>
    obtain ⟨hid, hids⟩ := List.forall_mem_cons.1 h
    obtain ⟨p, hp, -⟩ := hid.full
    obtain ⟨ps, hps, rfl⟩ := ih hids
    exact ⟨_, .cons hp hps, List.filterMap_cons_some hp⟩

/-! ## The whole alternation -/

/-- What alternatives are put together to. -/
inductive MergesTo (ps : List PatternNode) (span : Span) (s t : ParseState) (id : PatternId) : Prop
  | constant (hall : ∀ p ∈ ps, p.form.isConstant) (hclean : t.errorCount = s.errorCount)
    (hnode : t.nodes.patterns.get? id = some ⟨.constant (ps.flatMap (·.form.constants)), span⟩)
  | variant (hall : ∀ p ∈ ps, p.form.isVariant) (hclean : t.errorCount = s.errorCount)
    (hnode : t.nodes.patterns.get? id
      = some ⟨.variant (ps.flatMap fun p => p.form.variants p.span), span⟩)
  | mixed (hconstants : ¬ ∀ p ∈ ps, p.form.isConstant) (hvariants : ¬ ∀ p ∈ ps, p.form.isVariant)
    (hfault : t.errorCount = s.errorCount + 1)

/-- Two patterns or more that are read without a fault, one after another with bars between them, are
read as one pattern. -/
theorem Alternatives.mergesTo {nesting : Nat} (hfresh : s₀.Fresh env.src)
    (hvisits : Visits env (s₀.advance env.src) s) (hdepth : s.depth < env.settings.maxDepth)
    (hrow : Alternatives env (singlePattern (callTo nesting) .matchCase)
      { s with depth := s.depth + 1 } ids u)
    (hlen : 2 ≤ ids.length) (hclean : u.errorCount = s.errorCount) :
    ∃ ps id t, List.Forall₂ (fun id p => u.nodes.patterns.get? id = some p) ids ps
      ∧ callTo (nesting + 1) (.pattern .matchCase) env s = some (id, t)
      ∧ MergesTo ps (u.spanFrom s.start) s t id := by
  have steady := steady_behind env s₀.lexer nesting
  have hdeeper := (Region.behind env s₀.lexer).step (hfresh.visits hvisits) (.deeper hdepth)
  have hsettled := steady.settled.tentative hdeeper
  have hsettled' : u.tentative = {} := steady.settled.tentative (hrow.mem steady hdeeper)
  have hadmits := (hrow.admits (goesOn_callTo nesting) (fun _ => gives_callTo_pattern nesting .matchCase)
    (.refl hsettled)).2 hclean
  obtain ⟨ps, hps, hnodes⟩ := exists_nodes_of_admits hadmits
  have hfull : ∀ p ∈ ps, p.form.Full := hnodes ▸ Nodes.Admits.full_filterMap hadmits
  have hne : ps ≠ [] := by
    rintro rfl
    simp [List.forall₂_nil_right_iff.1 hps] at hlen
  have hrun := hrow.plainPattern_eq steady hdeeper hlen
  rw [hnodes] at hrun
  have merge {form : PatternForm} (hform : PatternForm.alternation? ps = some form) : ∃ id t,
      callTo (nesting + 1) (.pattern .matchCase) env s = some (id, t)
        ∧ t.errorCount = s.errorCount
        ∧ t.nodes.patterns.get? id = some ⟨form, u.spanFrom s.start⟩ := by
    rw [hform] at hrun
    exact ⟨_, _, (nested_eq_some hdepth).2 ⟨_, hrun, rfl⟩, hclean, Arena.get?_push_next _ _⟩
  by_cases hconstants : ∀ p ∈ ps, p.form.isConstant
  · obtain ⟨id, t, hrun, hclean, hnode⟩ :=
      merge (PatternForm.alternation?_of_isConstant hfull hne hconstants)
    exact ⟨ps, id, t, hps, hrun, .constant hconstants hclean hnode⟩
  by_cases hvariants : ∀ p ∈ ps, p.form.isVariant
  · obtain ⟨id, t, hrun, hclean, hnode⟩ :=
      merge (PatternForm.alternation?_of_isVariant hfull hne hvariants)
    exact ⟨ps, id, t, hps, hrun, .variant hvariants hclean hnode⟩
  · rw [PatternForm.alternation?_eq_none hfull hconstants hvariants] at hrun
    have counted := ParseState.errorCount_report hsettled' (u.spanFrom s.start) .invalidPattern
      ["a '|' alternation"]
    exact ⟨ps, _, _, hps, (nested_eq_some hdepth).2 ⟨_, hrun, rfl⟩,
      .mixed hconstants hvariants (hclean ▸ counted)⟩

/-- An alternation in parentheses with a bar and another value behind it. -/
def nestedText : Env where
  src := .ofString "(1 | 2) | 3"
  settings := {}

/-- The state in front of the alternation. -/
def nestedState : ParseState :=
  { ParseState.ofSource nestedText.src with
    lexer := (Lexer.ofSource nestedText.src).seek nestedText.src 0, prevStop := 0 }.advance
      nestedText.src

/-- The forms of the patterns in a `case` with the given text, if nothing is reported. -/
def caseForms (text : String) : Option (List PatternForm) := do
  let p ← parseExpression ("match (x) \x7b case " ++ text ++ " => y \x7d").toUTF8 0 {}
  guard p.diagnostics.isEmpty
  return p.nodes.patterns.nodes.toList.map (·.form)

end Rule

end CangjieSyntax
