import CangjieSyntax.Grammar.File
import CangjieSyntax.Parse
import CangjieSyntax.Proofs.Formula.Operands

/-!
# Precedence

A grouped formula is read as it is grouped. The operations on its left spine are found by as many
rounds of one loop, from the innermost to the outermost. The right operand of each is read above the
level of its operator, and ends in front of the next operator because that is not stronger.
-/

namespace CangjieSyntax

variable {env : Env} {s : ParseState} {signs rest : List Sign} {above start : Nat}

namespace Rule

variable {call : Call} {lhs : ExprId} {op : BinaryOp} {left right : Formula}

lemma binaryOp?_mark (op : BinaryOp) : (Kind.mark op.mark).binaryOp? = some op := by
  cases op <;> decide

/-- An operator above the given level takes its right operand. -/
lemma answers_operation (h : s.Faces env (.mark op.mark :: (right.signs ++ rest)))
    (hlhs : s.nodes.Denotes lhs left) (habove : above < op.precedence.strength)
    (hright : ∀ t : ParseState, t.Faces env (right.signs ++ rest) → t.depth = s.depth →
      Answers env t (call (.binary (rightAbove op))) rest fun id u => u.nodes.Denotes id right) :
    Answers env s (operationRound call above start lhs) rest fun next t =>
      ∃ id, next = .inl id ∧ t.nodes.Denotes id (.binary op left right) := by
  have operation : Answers env s (operation? call above start lhs) rest fun id? t =>
      ∃ id, id? = some id ∧ t.nodes.Denotes id (.binary op left right) := by
    refine (answers_operatorKind h).bind ?_
    rintro _ t ht ⟨rfl, hkind⟩
    have hhead : Sign.headKind (.mark op.mark :: (right.signs ++ rest)) = .mark op.mark := rfl
    rw [hhead] at hkind ⊢
    split
    case h_1 e | h_2 e => exact nomatch e
    case h_3 e | h_4 e => exact absurd (Kind.mark.inj e) (by cases op <;> decide)
    case h_5 =>
      -- No line is broken between the signs, so that none can end the operand.
      rw [binaryOp?_mark]
      have hline : t.lexer.flags.lineBreak = false := ht.faces.lexer.sameLine
      dsimp only
      rw [if_neg (Nat.not_le.2 habove)]
      refine .view ?_
      rw [hline, Bool.and_false, if_neg Bool.false_ne_true]
      refine (answers_advance ht.faces hkind).bind fun _ u hu _ => ?_
      refine (hright u hu.faces (hu.depth.trans ht.depth)).bind fun rhs v hv hrhs => ?_
      refine (answers_exprFrom hv.faces).bind ?_
      rintro id w hw ⟨span, e⟩
      have hlhs' := hlhs.extend (ht.exprs.trans (hu.exprs.trans (hv.exprs.trans hw.exprs)))
      exact .pure hw.faces ⟨id, rfl, .binary e hlhs' (hrhs.extend hw.exprs)⟩
  refine operation.bind ?_
  rintro _ t ht ⟨id, rfl, hid⟩
  exact .pure ht.faces ⟨id, rfl, hid⟩

/-- An operator that does not stop the operand above a level is no stronger than the level. -/
lemma strength_le_of_stops (hstops : Sign.Stops above rest)
    (h : (Sign.headKind rest).binaryOp? = some op) : op.precedence.strength ≤ above := by
  have closers : ∀ p ∈ [Punctuation.comma, .closeParen, .closeBracket],
      (Kind.mark p).binaryOp? = none := by
    decide
  obtain _ | ⟨_ | p, rest⟩ := rest
  · exact nomatch h
  · exact hstops.elim
  · obtain hp | ⟨op', rfl, hle⟩ := hstops
    · exact nomatch (closers p hp).symm.trans h
    · obtain rfl : op' = op := Option.some.inj ((binaryOp?_mark op').symm.trans h)
      exact hle

/-- What stops the operand above a level ends the rounds. -/
lemma answers_operation_stops (h : s.Faces env rest) (hstops : Sign.Stops above rest) :
    Answers env s (operationRound call above start lhs) rest fun next _ => next = .inr lhs := by
  have operation : Answers env s (operation? call above start lhs) rest fun id? _ =>
      id? = none := by
    refine (answers_operatorKind h).bind ?_
    rintro k t ht ⟨hhead, hkind⟩
    have hmem : k ∈ Kind.behindOperand := hkind ▸ ht.faces.kind_mem hstops
    split
    case h_1 | h_2 | h_3 | h_4 => exact absurd hmem (by decide)
    case h_5 =>
      cases hop : k.binaryOp? with
      | none => exact .pure ht.faces rfl
      | some op =>
        have hle := strength_le_of_stops hstops (hhead ▸ hop)
        dsimp only
        rw [if_pos hle]
        exact .pure ht.faces rfl
  refine operation.bind ?_
  rintro _ t ht rfl
  exact .pure ht.faces rfl

end Rule

namespace Formula

/-! ## Ways of reading a formula -/

/-- A formula that is no operation is read as an operand. -/
def ReadAsOperand (env : Env) (t : Formula) : Prop :=
  ∀ (nesting above : Nat) (s : ParseState) (rest : List Sign),
    s.Faces env (t.signs ++ rest) → t.steps ≤ nesting →
    s.depth + t.steps ≤ env.settings.maxDepth → Sign.Stops above rest →
    Answers env s (Rule.unary (Rule.callTo nesting)) rest fun id u => u.nodes.Denotes id t

/-- The first operand of a formula and the rounds behind it, as many as its spine is long, come to
where the formula has been read. -/
def ReadAsSpine (env : Env) (t : Formula) : Prop :=
  ∀ (nesting above start rounds : Nat) (s : ParseState) (rest end_ : List Sign)
    (post : ExprId → ParseState → Prop),
    s.Faces env (t.signs ++ rest) → t.steps ≤ nesting →
    s.depth + t.steps ≤ env.settings.maxDepth → t.BindsAbove above →
    Sign.Stops t.rightLevel rest →
    (∀ id u, Passed env rest s u → u.nodes.Denotes id t →
      Answers env u
        (Rule.loopUpTo (Rule.operationRound (Rule.callTo nesting) above start) rounds id)
        end_ post) →
    Answers env s (Rule.unary (Rule.callTo nesting)
      >>= Rule.loopUpTo (Rule.operationRound (Rule.callTo nesting) above start) (rounds + t.spine))
      end_ post

lemma readAsSpine_of_operand {t : Formula} (ht : t.isBinary = false) (h : t.ReadAsOperand env) :
    t.ReadAsSpine env := by
  intro nesting above start rounds s rest end_ post hs hnesting hdepth habove hstops hpost
  have hspine : t.spine = 0 := by
    cases t with
    | binary => exact nomatch ht
    | _ => rfl
  rw [hspine]
  exact (h nesting _ s rest hs hnesting hdepth hstops).bind hpost

/-- A formula on the right of an operator, or one by itself. -/
lemma answers_binary {t : Formula} {nesting : Nat} (h : t.ReadAsSpine env)
    (hs : s.Faces env (t.signs ++ rest)) (hnesting : t.steps ≤ nesting)
    (hdepth : s.depth + t.steps < env.settings.maxDepth) (habove : t.BindsAbove above)
    (hstops : Sign.Stops above rest) :
    Answers env s (Rule.binary (Rule.callTo nesting) above) rest
      fun id u => u.nodes.Denotes id t := by
  refine Rule.answers_nested (fun id nodes => nodes.Denotes id t) hs (by omega) ?_
  intro u hu hdeeper _
  -- Each operation of the spine has a sign, and each sign a byte.
  have hneeded : t.spine + 1 ≤ env.rounds := by
    have hsigns := hs.lexer.length_le
    have hspine := t.spine_lt
    rw [List.length_append] at hsigns
    unfold Env.rounds
    omega
  obtain ⟨rounds, e⟩ := Nat.exists_eq_add_of_le hneeded
  have key := h nesting above u.start (rounds + 1) u rest rest _ hu hnesting (by omega) habove
    (stops_rightLevel habove hstops) fun id v hv hid => .loop_done (p := fun id v =>
      v.nodes.Denotes id t) ((Rule.answers_operation_stops hv.faces hstops).mono ?_)
  · have e' : rounds + 1 + t.spine = env.rounds := by omega
    rw [e'] at key
    exact .view (.bind_loop key)
  · rintro _ w hw rfl
    exact ⟨id, rfl, hid.extend hw.exprs⟩

/-- A formula takes all operators, and what stops it is none that assigns. -/
lemma answers_lowest {t : Formula} {nesting : Nat} (h : t.ReadAsSpine env)
    (hs : s.Faces env (t.signs ++ rest)) (hnesting : t.steps ≤ nesting)
    (hdepth : s.depth + t.steps < env.settings.maxDepth)
    (hstops : Sign.Stops Precedence.lowest.strength rest) :
    Answers env s (Rule.binary (Rule.callTo nesting) Precedence.lowest.strength) rest
      fun id u => u.nodes.Denotes id t := by
  have habove : t.BindsAbove Precedence.lowest.strength := by
    cases t with
    | binary op left right => exact strength_pos op
    | _ => trivial
  exact answers_binary h hs hnesting hdepth habove hstops

lemma answers_noAssignment (h : s.Faces env rest) (hstops : Sign.Stops above rest) :
    Answers env s Rule.operatorKind rest fun k _ => k.assignOp? = none := by
  refine (Rule.answers_operatorKind h).mono ?_
  rintro k u hu ⟨-, hkind⟩
  have none : ∀ k ∈ Kind.behindOperand, k.assignOp? = .none := by decide
  exact none k (hkind ▸ hu.faces.kind_mem hstops)

/-- A formula behind which nothing is assigned. -/
lemma answers_unassigned {t : Formula} {nesting : Nat} {assigned : ExprId → AssignOp → Rule ExprId}
    (h : t.ReadAsSpine env) (hs : s.Faces env (t.signs ++ rest)) (hnesting : t.steps ≤ nesting)
    (hdepth : s.depth + t.steps < env.settings.maxDepth)
    (hstops : Sign.Stops Precedence.lowest.strength rest) :
    Answers env s (do
      let target ← Rule.binary (Rule.callTo nesting) Precedence.lowest.strength
      match (← Rule.operatorKind).assignOp? with
      | none => return target
      | some op => assigned target op) rest fun id u => u.nodes.Denotes id t := by
  refine (answers_lowest h hs hnesting hdepth hstops).bind fun id u hu hid => ?_
  refine (answers_noAssignment hu.faces hstops).bind fun k v hv hk => ?_
  rw [hk]
  exact .pure hv.faces (hid.extend hv.exprs)

/-- A formula as an element of a bracket. -/
lemma readBy_of_spine {t : Formula} {nesting depth : Nat} (h : t.ReadAsSpine env)
    (hnesting : t.steps < nesting) (hdepth : depth + t.steps < env.settings.maxDepth) :
    t.ReadBy env (Rule.callTo nesting) depth := by
  obtain _ | nesting := nesting
  · exact absurd hnesting (Nat.not_lt_zero _)
  intro s rest hs hs' hstops
  show Answers env s (Rule.expression (Rule.callTo nesting)) rest fun id u => u.nodes.Denotes id t
  exact .view (answers_unassigned h hs (Nat.le_of_lt_succ hnesting) (hs' ▸ hdepth) hstops)

/-- A formula as a statement. -/
lemma answers_statement {t : Formula} {nesting : Nat} (h : t.ReadAsSpine env)
    (hs : s.Faces env (t.signs ++ rest)) (hnesting : t.steps ≤ nesting)
    (hdepth : s.depth + t.steps < env.settings.maxDepth)
    (hstops : Sign.Stops Precedence.lowest.strength rest) :
    Answers env s (Rule.statement (Rule.callTo nesting)) rest fun id u => u.nodes.Denotes id t :=
  .view (answers_unassigned h hs hnesting hdepth hstops)

/-! ## All formulas -/

/-- The operations of a formula that is an operation. -/
lemma readAsSpine_binary {op : BinaryOp} {left right : Formula} (hleft : op.Admits .left left)
    (hright : op.Admits .right right) (ihleft : left.ReadAsSpine env)
    (ihright : right.ReadAsSpine env) : (binary op left right).ReadAsSpine env := by
  intro nesting above start rounds s rest end_ post hs hnesting hdepth habove hstops hpost
  have hs' : s.Faces env (left.signs ++ .mark op.mark :: (right.signs ++ rest)) := by
    simpa [signs] using hs
  rw [steps] at hnesting hdepth
  -- The round behind those of the left operand takes this operation.
  have e : rounds + (binary op left right).spine = rounds + 1 + left.spine := by
    rw [spine]
    omega
  rw [e]
  refine ihleft nesting above start (rounds + 1) s _ end_ post hs' (by omega) (by omega)
    (bindsAbove_of_admits_left hleft habove) (stops_of_admits_left hleft) fun id u hu hid => ?_
  refine .loop_next ((Rule.answers_operation hu.faces hid habove fun t ht hdepth' => ?_).mono ?_)
  · obtain ⟨nesting, rfl⟩ : ∃ n, nesting = n + 1 := Nat.exists_eq_add_of_le' (by omega)
    have := hu.depth
    exact answers_binary ihright ht (by omega) (by omega) (bindsAbove_of_admits_right hright) hstops
  · rintro _ v hv ⟨id', rfl, hid'⟩
    exact ⟨id', rfl, hpost id' v (hu.trans hv) hid'⟩

lemma unaryOp?_mark (op : UnaryOp) : Rule.unaryOp? (.mark op.mark) = some op := by
  cases op <;> rfl

lemma readAsOperand_unary {op : UnaryOp} {operand : Formula} (h : operand.ReadAsOperand env) :
    (unary op operand).ReadAsOperand env := by
  intro nesting above s rest hs hnesting hdepth hstops
  rw [signs, List.cons_append] at hs
  rw [steps] at hnesting hdepth
  have hkind : s.kind = .mark op.mark := hs.kind_whole (by cases op <;> rfl)
  obtain ⟨nesting, rfl⟩ : ∃ n, nesting = n + 1 := Nat.exists_eq_add_of_le' (by omega)
  refine .view ?_
  rw [hkind, unaryOp?_mark]
  refine .view ?_
  refine (Rule.answers_advance hs hkind).bind fun _ t ht _ => ?_
  have := ht.depth
  have hoperand : Answers env t
      (Rule.nested Rule.errorExpr (Rule.unary (Rule.callTo nesting))) rest
      fun id u => u.nodes.Denotes id operand := by
    refine Rule.answers_nested (fun id nodes => nodes.Denotes id operand) ht.faces (by omega) ?_
    intro u hu hdeeper _
    exact h nesting above u rest hu (by omega) (by omega) hstops
  refine hoperand.bind fun id u hu hid => ?_
  refine (Rule.answers_exprFrom hu.faces).mono ?_
  rintro id' v hv ⟨span, e⟩
  exact .unary e (hid.extend hv.exprs)

/-- What stands in brackets is read one step further in. -/
lemma readBy_items {items : List Formula} {nesting depth : Nat}
    (h : ∀ t ∈ items, t.ReadAsSpine env) (hnesting : stepsInto items ≤ nesting)
    (hdepth : depth + stepsInto items ≤ env.settings.maxDepth) :
    ∀ t ∈ items, t.ReadBy env (Rule.callTo nesting) depth := by
  induction items with
  | nil => exact fun t ht => nomatch ht
  | cons first others ih =>
    obtain ⟨hfirst, hothers⟩ := List.forall_mem_cons.1 h
    rw [stepsInto] at hnesting hdepth
    refine List.forall_mem_cons.2 ⟨readBy_of_spine hfirst (by omega) (by omega), ?_⟩
    exact ih hothers (by omega) (by omega)

/-- Every grouped formula is read as it is grouped. -/
theorem Grouped.read {t : Formula} (h : t.Grouped) :
    (t.isBinary = false → t.ReadAsOperand env) ∧ t.ReadAsSpine env := by
  have of_operand {t : Formula} (ht : t.isBinary = false) (h : t.ReadAsOperand env) :
      (t.isBinary = false → t.ReadAsOperand env) ∧ t.ReadAsSpine env :=
    ⟨fun _ => h, readAsSpine_of_operand ht h⟩
  induction h with
  | name c =>
    refine of_operand rfl fun nesting above s rest hs _ _ hstops => ?_
    have hkind : s.kind = .identifier := hs.kind_whole rfl
    exact Rule.answers_unary_primary (by rw [hkind]; rfl) (Rule.answers_nameExpr hs) hstops
  | binary hleft hright _ _ ihleft ihright =>
    exact ⟨(fun h => nomatch h), readAsSpine_binary hleft hright ihleft.2 ihright.2⟩
  | unary hoperand _ ih => exact of_operand rfl (readAsOperand_unary (ih.1 hoperand))
  | parens _ ih =>
    refine of_operand rfl fun nesting above s rest hs hnesting hdepth hstops => ?_
    have hread := readBy_of_spine ih.2 hnesting hdepth
    have hparens := Rule.answers_parens hs hread hstops
    exact Rule.answers_unary_mark (hs.kind_whole rfl) rfl hparens hstops
  | unit =>
    refine of_operand rfl fun nesting above s rest hs _ _ hstops => ?_
    exact Rule.answers_unary_mark (hs.kind_whole rfl) rfl (Rule.answers_unit hs hstops) hstops
  | tuple _ _ ihfirst ihothers =>
    refine of_operand rfl fun nesting above s rest hs hnesting hdepth hstops => ?_
    have hitems := List.forall_mem_cons.2 ⟨ihfirst.2, fun t ht => (ihothers t ht).2⟩
    have hread := readBy_items hitems hnesting hdepth
    have htuple := Rule.answers_tuple hs hread hstops
    exact Rule.answers_unary_mark (hs.kind_whole rfl) rfl htuple hstops
  | array _ ih =>
    refine of_operand rfl fun nesting above s rest hs hnesting hdepth hstops => ?_
    have hread := readBy_items (fun t ht => (ih t ht).2) hnesting hdepth
    exact Rule.answers_unary_mark (hs.kind_whole rfl) rfl (Rule.answers_array hs hread) hstops

end Formula

end CangjieSyntax

/-!
## Formulas read back

A grouped formula is written with a space between its signs. Parsed from the start of the text, it
is found again as it was, with nothing reported and nothing left.
-/

namespace CangjieSyntax

namespace Formula

/-- A formula with a space between its signs. -/
def text (t : Formula) : String :=
  " ".intercalate (t.signs.map Sign.text)

end Formula

lemma Sign.toList_intercalate (t : Sign) (rest : List Sign) :
    (" ".intercalate ((t :: rest).map Sign.text)).toList = t.text.toList ++ Sign.spaced rest := by
  induction rest generalizing t with
  | nil => simp [Sign.spaced]
  | cons u rest ih =>
    rw [List.map_cons, List.map_cons, String.intercalate_cons_cons, String.toList_append,
      String.toList_append, ← List.map_cons, ih]
    simp [Sign.spaced]

variable {env : Env} {s : ParseState} {t : Formula}

/-- A parse that begins ahead of the text of a formula stands in front of the formula. -/
lemma Rule.answers_begin (h : t.Grouped) (htentative : s.tentative = {}) (hlog : s.log = #[])
    (hmodes : s.lexer.modes = [.code 0]) (hlexerLog : s.lexer.log = #[])
    (hahead : env.src.Ahead s.lexer.pos t.text.toList) :
    Answers env s begin t.signs fun _ _ => True := by
  obtain ⟨head, tail, e, hopens⟩ := t.signs_eq_cons
  have hplain := h.plain
  rw [Formula.text, e, Sign.toList_intercalate] at hahead
  rw [e] at hplain ⊢
  -- A `<` without a space in front of it could open type arguments.
  have hless : head ≠ .mark .less := by
    rintro rfl
    exact absurd (hopens _ rfl) (by decide)
  have hfacing := Lexer.Facing.scan_first hmodes hlexerLog hplain hless hahead
  obtain ⟨tentative, errorCount, muted, -, hsettled, -, hadvance⟩ := s.advance_eq env.src
  refine ⟨(), { s.advance env.src with muted := false }, rfl, ?_, trivial⟩
  rw [hadvance]
  refine ⟨⟨hsettled htentative, hlog, hfacing.scanKnown_facing, fun h => nomatch h⟩, rfl, .refl _⟩

/-- Where a formula is all that is ahead, it is read as a statement. -/
lemma Rule.runFrom_statement (h : t.Grouped) (hs : Answers env s begin t.signs fun _ _ => True)
    (hdepth : s.depth + t.steps < env.settings.maxDepth) :
    ∃ id u, runFrom env statement s = some (id, u) ∧ Passed env [] s u ∧ u.nodes.Denotes id t := by
  refine hs.bind fun _ u hu _ => ?_
  have hfaces : u.Faces env (t.signs ++ []) := by
    rw [List.append_nil]
    exact hu.faces
  have hnesting : t.steps ≤ env.nesting := by
    have hsigns := hu.faces.lexer.length_le
    have hsteps := h.steps_lt
    unfold Env.nesting Env.rounds
    omega
  exact Formula.answers_statement h.read.2 hfaces hnesting (hu.depth ▸ hdepth) trivial

/-- The parse of a source whose text is a formula. -/
lemma Source.parseExpression_formula {src : Source} {settings : Settings} (h : t.Grouped)
    (htext : src.text = t.text) (hdepth : t.steps < settings.maxDepth) :
    ∃ p, src.parseExpression 0 settings = some p ∧ p.nodes.Denotes p.expr t
      ∧ p.diagnostics = #[] ∧ p.next = src.size := by
  have hahead : src.Ahead (min 0 src.size) t.text.toList := by
    rw [Nat.zero_min, ← htext]
    exact ahead_zero
  have hbegin : Answers ⟨src, settings, true⟩ { ParseState.ofSource src with
      lexer := (Lexer.ofSource src).seek src 0, prevStop := 0 } Rule.begin t.signs
      fun _ _ => True :=
    Rule.answers_begin h rfl rfl rfl rfl hahead
  have hlimit : 0 + t.steps < settings.maxDepth := by
    rwa [Nat.zero_add]
  obtain ⟨id, u, hrun, hu, hid⟩ := Rule.runFrom_statement h hbegin hlimit
  refine ⟨_, congrArg (Option.map _) hrun, hid, ?_, hu.faces.stop rfl⟩
  have hlogs : u.diagnostics = #[] := by
    rw [ParseState.diagnostics, hu.faces.lexer.log, hu.faces.log]
    simp [Log.sorted]
  show settings.locate u.diagnostics = #[]
  rw [hlogs, Settings.locate]
  split
  · simp [Log.inFile]
  · rfl

/-- Without more brackets than a formula needs, its text tells how it is grouped. -/
theorem Formula.text_injective {u : Formula} (ht : t.Grouped) (hu : u.Grouped)
    (h : t.text = u.text) : t = u := by
  obtain ⟨settings, hdepth⟩ : ∃ settings : Settings, settings.maxDepth = t.steps + u.steps + 1 :=
    ⟨{ maxDepth := t.steps + u.steps + 1 }, rfl⟩
  let src := Source.ofString t.text
  obtain ⟨p, hp, hpt, -⟩ := @Source.parseExpression_formula t src settings ht rfl (by omega)
  obtain ⟨p', hp', hpu, -⟩ := @Source.parseExpression_formula u src settings hu h (by omega)
  obtain rfl : p = p' := Option.some.inj (hp.symm.trans hp')
  exact hpt.unique hpu

/-- A formula that is grouped as the strength of its operators says is read back as it is, if the
nesting allows for one step more than it has. -/
theorem parse_grouped {settings : Settings} (h : t.Grouped)
    (hdepth : t.steps + 1 ≤ settings.maxDepth) :
    ∃ p, parseExpression t.text.toUTF8 0 settings = some p
      ∧ (∀ u, p.nodes.Denotes p.expr u ↔ u = t)
      ∧ p.diagnostics = #[]
      ∧ p.next = t.text.toUTF8.size := by
  obtain ⟨p, hparse, hdenotes, hdiagnostics, hnext⟩ :=
    Source.parseExpression_formula h (Eq.refl (Source.ofString t.text).text) hdepth
  have hboundary : (Source.ofString t.text).isBoundary 0 := Source.ahead_zero.isBoundary
  refine ⟨p, ?_, fun u => ?_, hdiagnostics, hnext⟩
  · have hdecoded : (do
        let src ← Source.ofBytes t.text.toUTF8
        if src.isBoundary 0 then return src else .error ⟨0, 1⟩ : Except Span Source)
          = .ok (Source.ofString t.text) := by
      rw [Source.ofBytes_toUTF8]
      exact if_pos hboundary
    rw [parseExpression, Nat.zero_min]
    dsimp only
    rw [hdecoded]
    exact hparse
  · constructor
    · exact fun hu => hu.unique hdenotes
    · rintro rfl
      exact hdenotes

/-- A comparison of a difference with an array. -/
def Formula.comparison : Formula :=
  let name (c : Char) (starts : Unicode.isIdentifierStart c) (ne_underscore : c ≠ '_') :=
    Formula.name ⟨c, starts, ne_underscore⟩
  let a := name 'a' (by decide +kernel) (by decide)
  let b := name 'b' (by decide +kernel) (by decide)
  let e := name 'é' (by decide +kernel) (by decide)
  .binary .greaterEqual
    (.binary .subtract a (.binary .power b (.unary .negate a)))
    (.array [.tuple e [], .unary .not .unit])

/-- A comparison that needs all of the nesting it is given. -/
theorem parse_grouped_of_comparison :
    Formula.comparison.text = "a - b ** - a >= [ ( é , ) , ! ( ) ]"
      ∧ Formula.comparison.Grouped
      ∧ Formula.comparison.steps + 1 ≤ 4
      ∧ ∃ p, parseExpression Formula.comparison.text.toUTF8 0 { maxDepth := 4 } = some p
        ∧ (∀ u, p.nodes.Denotes p.expr u ↔ u = Formula.comparison)
        ∧ p.diagnostics = #[]
        ∧ p.next = Formula.comparison.text.toUTF8.size := by
  have grouped : Formula.comparison.Grouped := by
    refine .binary (.inl (by decide)) trivial ?_ ?_
    · refine .binary trivial (.inl (by decide)) (.name _) ?_
      exact .binary trivial trivial (.name _) (.unary rfl (.name _))
    · refine .array ?_
      simp only [List.forall_mem_cons]
      exact ⟨.tuple (.name _) (fun _ h => nomatch h), .unary rfl .unit, fun _ h => nomatch h⟩
  have steps : Formula.comparison.steps + 1 ≤ 4 := by decide
  exact ⟨by decide +kernel, grouped, steps, parse_grouped grouped steps⟩

end CangjieSyntax
