import CangjieSyntax.Proofs.Formula.Basic
import CangjieSyntax.Proofs.Grammar.Answers

/-!
# Operands

How the operands of a formula are read: names, brackets with their elements, and operands with an
operator in front. Behind an operand comes an operator, a comma, a closing bracket or the end, and
none of them is a link that the operand goes on with.
-/

namespace CangjieSyntax

variable {env : Env} {s : ParseState} {signs rest : List Sign} {above : Nat}

/-- The kinds of the tokens behind an operand. -/
def Kind.behindOperand : List Kind :=
  .endOfFile :: [.mark .comma, .mark .closeParen, .mark .closeBracket]
    ++ BinaryOp.all.map fun op => .mark op.mark

/-- What the parse sees behind an operand. -/
lemma ParseState.Faces.kind_mem (h : s.Faces env rest) (hstops : Sign.Stops above rest) :
    s.kind ∈ Kind.behindOperand := by
  have closers : ∀ p ∈ [Punctuation.comma, .closeParen, .closeBracket],
      (Sign.mark p).scanned ∈ Kind.behindOperand ∧ (Sign.mark p).kind ∈ Kind.behindOperand := by
    decide
  have operators (op : BinaryOp) : (Sign.mark op.mark).scanned ∈ Kind.behindOperand
      ∧ (Sign.mark op.mark).kind ∈ Kind.behindOperand := by
    cases op <;> decide
  rw [h.kind_eq]
  obtain _ | ⟨_ | p, rest⟩ := rest
  · obtain ⟨e⟩ := h.lexer.read
    rw [e]
    exact List.mem_cons_self
  · exact hstops.elim
  · have hmem : (Sign.mark p).scanned ∈ Kind.behindOperand
        ∧ (Sign.mark p).kind ∈ Kind.behindOperand := by
      obtain hp | ⟨op, rfl, -⟩ := hstops
      · exact closers p hp
      · exact operators op
    cases h.lexer.read with
    | scanned e => exact e ▸ hmem.1
    | joined e => exact e ▸ hmem.2

namespace Rule

variable {call : Call} {p : ExprId → ParseState → Prop}

/-- An operand without links is a chain. -/
lemma answers_chain (hprimary : Answers env s (primary call) rest p)
    (hstops : Sign.Stops above rest) : Answers env s (chain call) rest p := by
  refine .view ?_
  refine hprimary.bind fun operand t ht hp => ?_
  have hmem := ht.faces.kind_mem hstops
  have hone := env.one_le_rounds
  refine .loop hone fun rounds => .loop_done ?_
  have hquestion : t.kind ≠ .mark .question := fun e => absurd (e ▸ hmem) (by decide)
  refine .view ?_
  have hno : (t.kind == .mark .question) = false := beq_eq_false_iff_ne.2 hquestion
  rw [hno]
  refine .view (.view ?_)
  split
  case h_1 link hlink =>
    -- No token behind an operand starts a link.
    unfold link? at hlink
    split at hlink
    case h_5 => exact nomatch hlink
    case h_1 e | h_2 e | h_3 e | h_4 e => exact absurd (e ▸ hmem) (by decide)
  case h_2 => exact .pure ht.faces ⟨operand, rfl, hp⟩

/-- A chain without operators behind it. -/
lemma answers_steps (hchain : Answers env s (chain call) rest p)
    (hstops : Sign.Stops above rest) : Answers env s (steps call) rest p := by
  refine .view ?_
  refine hchain.bind fun operand t ht hp => ?_
  have hone := env.one_le_rounds
  refine .loop hone fun rounds => .loop_done ?_
  refine .view (.view ?_)
  have none : ∀ k ∈ Kind.behindOperand, stepOp? k = .none := by decide
  rw [none t.kind (ht.faces.kind_mem hstops)]
  exact .pure ht.faces ⟨operand, rfl, hp⟩

/-- An operand without operators in front of it and behind it, and without links. -/
lemma answers_unary_primary (hop : unaryOp? s.kind = none)
    (hprimary : Answers env s (primary call) rest p) (hstops : Sign.Stops above rest) :
    Answers env s (unary call) rest p := by
  refine .view ?_
  rw [hop]
  exact answers_steps (answers_chain hprimary hstops) hstops

lemma answers_unary_mark {mark : Punctuation} (hkind : s.kind = .mark mark)
    (hop : unaryOp? (.mark mark) = none) (h : Answers env s (markExpr call mark) rest p)
    (hstops : Sign.Stops above rest) : Answers env s (unary call) rest p := by
  refine answers_unary_primary (by rw [hkind, hop]) ?_ hstops
  refine .view ?_
  rw [hkind]
  exact h

/-! ## Names -/

/-- A `<` behind a space opens no type arguments. -/
lemma answers_typeArguments? (h : s.Faces env rest) :
    Answers env s (typeArguments? call) rest fun args _ => args = [] := by
  have hcomparison : (s.kind == .mark .less && !s.lexer.flags.separated
      && !(env.remembers && s.comparisons.contains s.start)) = false := by
    by_cases hless : s.kind = .mark .less
    case pos => simp [h.lexer.less (h.kind_eq.symm.trans hless)]
    case neg => simp [hless]
  refine .read (.view ?_)
  rw [hcomparison]
  exact .pure h rfl

lemma answers_nameExpr {c : Letter} (h : s.Faces env (.letter c :: rest)) :
    Answers env s (primary call) rest fun id t => t.nodes.Denotes id (.name c) := by
  have hkind : s.kind = .identifier := h.kind_whole rfl
  refine .view ?_
  rw [hkind]
  refine .view ?_
  refine (answers_identifier h).bind fun name t ht hname => ?_
  refine (answers_typeArguments? ht.faces).bind ?_
  rintro _ u hu rfl
  refine (answers_exprFrom hu.faces).mono ?_
  rintro id v - ⟨span, e⟩
  exact .name e hname

end Rule

/-! ## Elements of brackets -/

/-- The kinds of the tokens that start an operand. -/
def Kind.startsOperand : List Kind :=
  .identifier :: Formula.openers.map .mark

lemma ParseState.Faces.kind_mem_start {t : Formula} (h : s.Faces env (t.signs ++ rest)) :
    s.kind ∈ Kind.startsOperand := by
  obtain ⟨head, tail, e, hopens⟩ := t.signs_eq_cons
  rw [e, List.cons_append] at h
  have whole : ∀ p ∈ Formula.openers, (Sign.mark p).scanned = (Sign.mark p).kind
      ∧ (Sign.mark p).kind ∈ Kind.startsOperand := by
    decide
  cases head with
  | letter c =>
    rw [h.kind_whole rfl]
    exact List.mem_cons_self
  | mark p =>
    obtain ⟨hwhole, hmem⟩ := whole p (hopens p rfl)
    rwa [h.kind_whole hwhole]

/-- Called as an expression, a formula is read as such wherever it stands at a given depth. -/
def Formula.ReadBy (t : Formula) (env : Env) (call : Call) (depth : Nat) : Prop :=
  ∀ (s : ParseState) (rest : List Sign), s.Faces env (t.signs ++ rest) → s.depth = depth →
    Sign.Stops Precedence.lowest.strength rest →
    Answers env s (call .expression) rest fun id u => u.nodes.Denotes id t

/-- There are fewer elements than rounds. -/
lemma ParseState.Faces.needed {first : Formula} {others : List Formula}
    (h : s.Faces env (first.signs ++ (Formula.signsBehind others ++ rest))) :
    others.length + 1 ≤ env.rounds := by
  have hsigns := h.lexer.length_le
  have hbehind := Formula.length_signsBehind others
  rw [List.length_append, List.length_append] at hsigns
  unfold Env.rounds
  omega

namespace Rule

variable {α β : Type} {call : Call} {depth : Nat}

/-- A repeated step that reads one formula in each round, with the comma behind it. What it has
found of the formulas read so far is told by `good`. -/
lemma answers_rounds {step : β → Rule (β ⊕ α)} (good : List Formula → β → Nodes → Prop)
    {p : α → ParseState → Prop} {tail : List Sign} {first : Formula}
    {others items done : List Formula} {b : β} (rounds : Nat)
    (hnext : ∀ {done b s} {t t' : Formula} {behind}, s.Faces env (t.signs ++ .mark .comma ::
      (t'.signs ++ behind)) → s.depth = depth → good done b s.nodes → t.ReadBy env call depth →
      Answers env s (step b) (t'.signs ++ behind) fun next u =>
        ∃ b', next = .inl b' ∧ good (done ++ [t]) b' u.nodes)
    (hlast : ∀ {done b s} {t : Formula}, s.Faces env (t.signs ++ tail) → s.depth = depth →
      good done b s.nodes → t.ReadBy env call depth → items = done ++ [t] →
      Answers env s (step b) rest fun next u => ∃ a, next = .inr a ∧ p a u)
    (h : s.Faces env (first.signs ++ (Formula.signsBehind others ++ tail)))
    (hdepth : s.depth = depth) (hgood : good done b s.nodes)
    (hitems : items = done ++ first :: others)
    (hread : ∀ t ∈ first :: others, t.ReadBy env call depth) :
    Answers env s (loopUpTo step (rounds + (others.length + 1)) b) rest p := by
  induction others generalizing first done b s with
  | nil =>
    obtain ⟨hfirst, -⟩ := List.forall_mem_cons.1 hread
    exact .loop_done (hlast h hdepth hgood hfirst hitems)
  | cons second others ih =>
    obtain ⟨hfirst, hothers⟩ := List.forall_mem_cons.1 hread
    rw [Formula.signsBehind, List.cons_append, List.cons_append, List.append_assoc] at h
    refine .loop_next ((hnext h hdepth hgood hfirst).mono ?_)
    rintro _ t ht ⟨b', rfl, hgood'⟩
    have hitems' : items = done ++ [first] ++ second :: others := by
      rw [hitems, List.append_assoc]
      rfl
    exact ⟨b', rfl, ih ht.faces (ht.depth.trans hdepth) hgood' hitems' hothers⟩

/-- Nothing is a label where there is no colon. -/
lemma answers_label? (h : s.Faces env signs) :
    Answers env s label? signs fun label t => label = none ∧ t = s := by
  have colon : ∀ p ∈ Sign.marks, (Sign.mark p).scanned ≠ .mark .colon := by
    decide
  have hlabel : (s.kind.isIdentifier && s.peek env.src == .mark .colon) = false := by
    cases signs with
    | nil =>
      obtain ⟨e⟩ := h.lexer.read
      rw [h.kind_eq, e]
      rfl
    | cons t rest =>
      cases t with
      | letter c =>
        obtain ⟨-, hpeek⟩ := h.lexer.scan_next (h.kind_eq.symm.trans (h.kind_whole rfl))
        rw [Bool.and_eq_false_iff, beq_eq_false_iff_ne, ParseState.peek, hpeek]
        right
        obtain _ | ⟨_ | p, rest⟩ := rest
        · exact fun e => nomatch e
        · exact fun e => nomatch e
        · exact colon p (h.lexer.plain (.mark p) (by simp))
      | mark p =>
        rw [h.kind_eq]
        cases h.lexer.read with
        | scanned e => rw [e]; rfl
        | joined e => rw [e]; rfl
  refine .view ?_
  rw [hlabel]
  exact .pure h ⟨rfl, rfl⟩

lemma answers_parenElement {t : Formula} (h : s.Faces env (t.signs ++ rest))
    (hread : t.ReadBy env call s.depth) (hstops : Sign.Stops Precedence.lowest.strength rest) :
    Answers env s (parenElement call) rest fun element u =>
      ∃ id, element = (none, id) ∧ u.nodes.Denotes id t := by
  refine .view ?_
  refine (answers_label? h).bind ?_
  rintro _ t ht ⟨rfl, rfl⟩
  refine (hread _ _ h rfl hstops).bind fun id u hu hid => ?_
  exact .pure hu.faces ⟨id, rfl, hid⟩

/-- The elements in parentheses are found without labels, in order. -/
lemma answers_parenElements {first : Formula} {others : List Formula} {comma : Bool}
    (h : s.Faces env (first.signs ++ (Formula.signsBehind others
      ++ (Formula.trailing comma ++ .mark .closeParen :: rest))))
    (hread : ∀ t ∈ first :: others, t.ReadBy env call s.depth) :
    Answers env s (parenElements call) (.mark .closeParen :: rest) fun elements u =>
      ∃ ids, elements = (ids.map fun id => (none, id), comma)
        ∧ u.nodes.DenotesAll ids (first :: others) := by
  have hneeded := h.needed
  refine .loop hneeded fun rounds => ?_
  refine answers_rounds (fun done b nodes => ∃ ids,
    b.1 = ids.map (fun id => (none, id)) ∧ nodes.DenotesAll ids done) rounds ?_ ?_ h rfl
    ⟨[], rfl, .nil _⟩ rfl hread
  -- The comma behind an element ends the elements only if the parenthesis stands behind it.
  · rintro done ⟨elements, c⟩ t u u' behind ht hdepth ⟨ids, rfl, hids⟩ hu
    have hstart : t.kind ≠ .endOfFile := fun e => absurd (e ▸ ht.kind_mem_start) (by decide)
    refine .view ?_
    rw [beq_eq_false_iff_ne.2 hstart, if_neg Bool.false_ne_true]
    refine (answers_parenElement ht (hdepth ▸ hu) (.inl (by decide))).bind ?_
    rintro _ v hv ⟨id, rfl, hid⟩
    have hcomma : v.kind = (Sign.mark .comma).kind := hv.faces.kind_whole rfl
    refine (answers_optional hv.faces hcomma).bind ?_
    rintro _ w hw rfl
    have hclose : w.kind ≠ .mark .closeParen :=
      fun e => absurd (e ▸ hw.faces.kind_mem_start) (by decide)
    refine .view ?_
    rw [beq_eq_false_iff_ne.2 hclose]
    refine .pure hw.faces ⟨_, rfl, ids ++ [id], ?_, ?_⟩
    · rw [List.map_append]
      rfl
    · exact hids.snoc (hv.exprs.trans hw.exprs) (hid.extend hw.exprs)
  · rintro done ⟨elements, c⟩ t u ht hdepth ⟨ids, rfl, hids⟩ hu hitems
    have hstart : t.kind ≠ .endOfFile := fun e => absurd (e ▸ ht.kind_mem_start) (by decide)
    have hstops : Sign.Stops Precedence.lowest.strength
        (Formula.trailing comma ++ .mark .closeParen :: rest) := by
      cases comma with
      | true => exact .inl (by decide)
      | false => exact .inl (by decide)
    refine .view ?_
    rw [beq_eq_false_iff_ne.2 hstart, if_neg Bool.false_ne_true]
    refine (answers_parenElement ht (hdepth ▸ hu) hstops).bind ?_
    rintro _ v hv ⟨id, rfl, hid⟩
    have hids' := hids.snoc hv.exprs hid
    rw [← hitems] at hids'
    cases comma with
    | true =>
      have hcomma : v.kind = (Sign.mark .comma).kind := hv.faces.kind_whole rfl
      refine (answers_optional hv.faces hcomma).bind ?_
      rintro _ w hw rfl
      have hclose : w.kind = .mark .closeParen := hw.faces.kind_whole rfl
      refine .view ?_
      rw [hclose]
      refine .pure hw.faces ⟨_, rfl, ids ++ [id], ?_, hids'.extend hw.exprs⟩
      rw [List.map_append]
      rfl
    | false =>
      have hclose : v.kind = .mark .closeParen := hv.faces.kind_whole rfl
      refine (answers_optional_of_ne (k := .mark .comma) hv.faces (by rw [hclose]; decide)).bind ?_
      rintro _ w hw ⟨rfl, rfl⟩
      refine .view ?_
      refine .pure hw.faces ⟨_, rfl, ids ++ [id], ?_, hids'⟩
      rw [List.map_append]
      rfl

/-- An element of an array that no star spreads. -/
lemma answers_arrayElement {t : Formula} (h : s.Faces env (t.signs ++ rest))
    (hread : t.ReadBy env call s.depth) (hstops : Sign.Stops Precedence.lowest.strength rest) :
    Answers env s (arrayElement call) rest fun id u => u.nodes.Denotes id t := by
  have hstar : s.kind ≠ .mark .star := fun e => absurd (e ▸ h.kind_mem_start) (by decide)
  refine .view ?_
  refine (answers_optional_of_ne h hstar).bind ?_
  rintro _ t ht ⟨rfl, rfl⟩
  exact hread _ _ h rfl hstops

/-- The elements in brackets are found in order. -/
lemma answers_arrayElements {items : List Formula}
    (h : s.Faces env (Formula.listed items ++ .mark .closeBracket :: rest))
    (hread : ∀ t ∈ items, t.ReadBy env call s.depth) :
    Answers env s (list (.mark .closeBracket) (arrayElement call)) (.mark .closeBracket :: rest)
      fun ids u => u.nodes.DenotesAll ids items := by
  have start {t : ParseState} {u : Formula} {behind : List Sign}
      (ht : t.Faces env (u.signs ++ behind)) :
      (t.kind == .mark .closeBracket || t.kind == .endOfFile) = false := by
    have none : ∀ k ∈ Kind.startsOperand,
        (k == .mark .closeBracket || k == .endOfFile) = false := by
      decide
    exact none t.kind ht.kind_mem_start
  obtain _ | ⟨first, others⟩ := items
  · have hclose : s.kind = .mark .closeBracket := h.kind_whole rfl
    refine .loop env.one_le_rounds fun rounds => .loop_done (.view ?_)
    rw [hclose]
    exact .pure h ⟨_, rfl, .nil _⟩
  rw [Formula.listed, List.append_assoc] at h
  refine .loop h.needed fun rounds => ?_
  refine answers_rounds (fun done ids nodes => nodes.DenotesAll ids done) rounds ?_ ?_ h rfl
    (.nil _) rfl hread
  · intro done ids t u u' behind ht hdepth hids hu
    refine .view ?_
    rw [start ht, if_neg Bool.false_ne_true]
    refine (answers_arrayElement ht (hdepth ▸ hu) (.inl (by decide))).bind fun id v hv hid => ?_
    have hcomma : v.kind = (Sign.mark .comma).kind := hv.faces.kind_whole rfl
    refine (answers_optional hv.faces hcomma).bind ?_
    rintro _ w hw rfl
    exact .pure hw.faces ⟨_, rfl, hids.snoc (hv.exprs.trans hw.exprs) (hid.extend hw.exprs)⟩
  · intro done ids t u ht hdepth hids hu hitems
    refine .view ?_
    rw [start ht, if_neg Bool.false_ne_true]
    refine (answers_arrayElement ht (hdepth ▸ hu) (.inl (by decide))).bind fun id v hv hid => ?_
    have hclose : v.kind = .mark .closeBracket := hv.faces.kind_whole rfl
    refine (answers_optional_of_ne (k := .mark .comma) hv.faces (by rw [hclose]; decide)).bind ?_
    rintro _ w hw ⟨rfl, rfl⟩
    have hids' := hids.snoc hv.exprs hid
    rw [← hitems] at hids'
    exact .pure hw.faces ⟨_, rfl, hids'⟩

/-! ## Brackets -/

/-- Behind an operand stands no arrow. -/
lemma isAt_thinArrow (h : s.Faces env rest) (hstops : Sign.Stops above rest) :
    (s.kind == .mark .thinArrow) = false := by
  have none : ∀ k ∈ Kind.behindOperand, (k == .mark .thinArrow) = false := by decide
  exact none s.kind (h.kind_mem hstops)

/-- Elements in parentheses make the form that `parenForm` says. -/
lemma answers_parenthesized {first : Formula} {others : List Formula} {comma : Bool}
    (h : s.Faces env (.mark .openParen :: (first.signs ++ (Formula.signsBehind others
      ++ (Formula.trailing comma ++ .mark .closeParen :: rest)))))
    (hread : ∀ t ∈ first :: others, t.ReadBy env call s.depth) (hstops : Sign.Stops above rest) :
    Answers env s (parenthesized call) rest fun id u => ∃ ids span,
      u.nodes.exprs.get? id = some ⟨parenForm (ids.map fun id => (none, id)) comma, span⟩
        ∧ u.nodes.DenotesAll ids (first :: others) := by
  have hopen : s.kind = (Sign.mark .openParen).kind := h.kind_whole rfl
  refine .view ?_
  refine (answers_advance h hopen).bind fun _ t ht _ => ?_
  have hclose : t.kind ≠ .mark .closeParen :=
    fun e => absurd (e ▸ ht.faces.kind_mem_start) (by decide)
  refine (answers_optional_of_ne ht.faces hclose).bind ?_
  rintro _ t ht' ⟨rfl, rfl⟩
  rw [if_neg Bool.false_ne_true]
  refine (answers_parenElements ht.faces (ht.depth ▸ hread)).bind ?_
  rintro _ u hu ⟨ids, rfl, hids⟩
  have hkind : u.kind = (Sign.mark .closeParen).kind := hu.faces.kind_whole rfl
  refine (answers_require hu.faces hkind).bind fun _ v hv _ => ?_
  refine .view ?_
  rw [isAt_thinArrow hv.faces hstops, if_neg Bool.false_ne_true, if_neg (by simp)]
  refine (answers_exprFrom hv.faces).mono ?_
  rintro id w hw ⟨span, e⟩
  exact ⟨ids, span, e, hids.extend (hv.exprs.trans hw.exprs)⟩

lemma answers_parens {t : Formula} (h : s.Faces env (t.parens.signs ++ rest))
    (hread : t.ReadBy env call s.depth) (hstops : Sign.Stops above rest) :
    Answers env s (parenthesized call) rest fun id u => u.nodes.Denotes id (.parens t) := by
  have h' : s.Faces env (.mark .openParen :: (t.signs ++ (Formula.signsBehind []
      ++ (Formula.trailing false ++ .mark .closeParen :: rest)))) := by
    simpa [Formula.signs, Formula.signsBehind, Formula.trailing] using h
  refine (answers_parenthesized h' (List.forall_mem_singleton.2 hread) hstops).mono ?_
  rintro id u - ⟨ids, span, e, hids⟩
  obtain ⟨only, rfl⟩ := List.length_eq_one_iff.1 hids.length
  exact .parens e (hids.denotes (only, t) List.mem_cons_self)

lemma answers_unit (h : s.Faces env (Formula.unit.signs ++ rest))
    (hstops : Sign.Stops above rest) :
    Answers env s (parenthesized call) rest fun id u => u.nodes.Denotes id .unit := by
  have hopen : s.kind = (Sign.mark .openParen).kind := h.kind_whole rfl
  refine .view ?_
  refine (answers_advance h hopen).bind fun _ t ht _ => ?_
  have hclose : t.kind = (Sign.mark .closeParen).kind := ht.faces.kind_whole rfl
  refine (answers_optional ht.faces hclose).bind ?_
  rintro _ u hu rfl
  rw [if_pos rfl]
  refine .view ?_
  rw [isAt_thinArrow hu.faces hstops, if_neg Bool.false_ne_true]
  refine (answers_exprFrom hu.faces).mono ?_
  rintro id v - ⟨span, e⟩
  exact .unit e

lemma answers_tuple {first : Formula} {others : List Formula}
    (h : s.Faces env ((Formula.tuple first others).signs ++ rest))
    (hread : ∀ t ∈ first :: others, t.ReadBy env call s.depth) (hstops : Sign.Stops above rest) :
    Answers env s (parenthesized call) rest
      fun id u => u.nodes.Denotes id (.tuple first others) := by
  have h' : s.Faces env (.mark .openParen :: (first.signs ++ (Formula.signsBehind others
      ++ (Formula.trailing others.isEmpty ++ .mark .closeParen :: rest)))) := by
    simpa [Formula.signs] using h
  refine (answers_parenthesized h' hread hstops).mono ?_
  rintro id u - ⟨ids, span, e, hids⟩
  have hform : parenForm (ids.map fun id => (none, id)) others.isEmpty = .tuple ids := by
    have hlength := hids.length
    cases others with
    | nil =>
      obtain ⟨only, rfl⟩ := List.length_eq_one_iff.1 hlength
      rfl
    | cons second others =>
      obtain _ | ⟨id, _ | ⟨id', ids⟩⟩ := ids
      · simp at hlength
      · simp at hlength
      · simp [parenForm, Function.comp_def]
  rw [hform] at e
  exact .tuple e hids.length hids.denotes

lemma answers_array {items : List Formula} (h : s.Faces env ((Formula.array items).signs ++ rest))
    (hread : ∀ t ∈ items, t.ReadBy env call s.depth) :
    Answers env s (array call) rest fun id u => u.nodes.Denotes id (.array items) := by
  have h' : s.Faces env (.mark .openBracket ::
      (Formula.listed items ++ .mark .closeBracket :: rest)) := by
    simpa [Formula.signs] using h
  have hopen : s.kind = (Sign.mark .openBracket).kind := h'.kind_whole rfl
  refine .view ?_
  refine (answers_advance h' hopen).bind fun _ t ht _ => ?_
  refine (answers_arrayElements ht.faces (ht.depth ▸ hread)).bind fun ids u hu hids => ?_
  have hclose : u.kind = (Sign.mark .closeBracket).kind := hu.faces.kind_whole rfl
  refine (answers_require hu.faces hclose).bind fun _ v hv _ => ?_
  refine (answers_exprFrom hv.faces).mono ?_
  rintro id w hw ⟨span, e⟩
  have hids' := hids.extend (hv.exprs.trans hw.exprs)
  exact .array e hids'.length hids'.denotes

end Rule

end CangjieSyntax
