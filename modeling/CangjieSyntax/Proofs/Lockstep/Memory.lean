import CangjieSyntax.Proofs.Lockstep.Grammar
import CangjieSyntax.Proofs.Termination
import CangjieSyntax.Proofs.Twin.Text

/-!
# No comparison is met again

A parse remembers each `<` that it has found to be a comparison, so as not to make another attempt
there. It never needs to: an attempt is made behind a name only, and behind a token nothing that was
found before lies ahead. So a parse that remembers nothing has the same answer.
-/

namespace CangjieSyntax

variable {env env' : Env} {l : Lexer} {s s' t u : ParseState} {α : Type}

/-! ## The same run -/

/-- Two environments in which rules without attempts do the same. -/
def Lockstep.same (env env' : Env) (src : env'.src = env.src)
    (maxDepth : env'.settings.maxDepth = env.settings.maxDepth) : Lockstep where
  env := env
  env' := env'
  src := src
  maxDepth := maxDepth
  alike s s' := s' = s
  parted _ _ := False
  lasts _ _ := True
  seen h := by rw [h]
  stride h hstride := by
    cases h
    left
    cases hstride <;> rfl
  refl _ := trivial
  trans _ _ := trivial
  step _ := trivial

/-- Two runs that do not part, of states that are alike only if they are the same, are the same. -/
lemma Lockstep.Meets.eq {L : Lockstep} {R : α → ParseState → Prop} {o o' : Option (α × ParseState)}
    (hparted : ∀ s s', ¬ L.parted s s') (halike : ∀ {s s'}, L.alike s s' → s' = s)
    (h : L.Meets R o o') : o' = o := by
  cases h with
  | none => rfl
  | some h => rw [halike h]
  | parted h => exact absurd h (hparted _ _)

lemma Agrees.apply_eq {src : env'.src = env.src}
    {maxDepth : env'.settings.maxDepth = env.settings.maxDepth} {r : Rule α}
    (h : Agrees (.same env env' src maxDepth) r) (s : ParseState) : r env' s = r env s :=
  (AgreesVia.meets h (s := s) rfl trivial).eq (fun _ _ => id) id

/-! ## What has been found lies behind -/

/-- A token at an offset or behind it. -/
def Lexer.Reaches (p : Nat) (l : Lexer) : Prop :=
  l.kind = .endOfFile ∨ p ≤ l.start

lemma Lexer.lasting_reaches (src : Source) (p : Nat) : Lasting src (Reaches p) where
  scanKnown {l} hregular hstretches h := by
    by_cases hkind : l.kind = .endOfFile
    · exact .inl (kind_scanKnown_of_ended hregular hkind)
    · exact (passes_scanKnown hregular hstretches hkind).imp_right fun hlt =>
        Nat.le_trans (h.resolve_left hkind) (Nat.le_of_lt hlt)
  joinGreater {l} h := by
    obtain ⟨hstart, -⟩ := joinGreater_frame src l
    rw [Reaches, hstart]
    exact h.imp_left kind_joinGreater_eq_endOfFile.2

namespace ParseState

/-- A state outside attempts, with no `<` ahead that has been found to be a comparison. The current
token may be one. -/
structure Beyond (env : Env) (l : Lexer) (s : ParseState) : Prop where
  mem : (Region.behind env l).mem s
  reached : ∀ p ∈ s.comparisons, s.lexer.Reaches p

/-- Every `<` that has been found to be a comparison lies in front of the current token. -/
def PastComparisons (s : ParseState) : Prop :=
  ∀ p ∈ s.comparisons, s.lexer.kind = .endOfFile ∨ p < s.lexer.start

namespace Beyond

variable (h : s.Beyond env l)

include h

lemma settled : s.tentative = {} :=
  (Region.settled_behind env l).tentative h.mem

lemma underway : s.Underway env (l.Admits env.src) :=
  h.mem.2.1

lemma step (hstep : Step env s t) : t.Beyond env l where
  mem := (Region.behind env l).step h.mem hstep
  reached p hp := by
    rw [hstep.grows.comparisons] at hp
    exact h.underway.lasts_step (Lexer.lasting_reaches env.src p) (h.reached p hp) hstep

lemma turn (hturn : Turn env s t) (hsame : t.comparisons = s.comparisons) : t.Beyond env l where
  mem := (Region.settled_behind env l).turn h.mem hturn
  reached p hp := by
    rw [hsame] at hp
    exact (h.underway.turn (l.allowsMarks_admits env.src) (Lexer.lasting_reaches env.src p)
      (h.reached p hp) h.settled hturn).2

/-- An attempt finds no comparison by itself. -/
lemma commit (htries : Tries env s u) (hok : u.tentative.failed = false) :
    (s.commit u).Beyond env l := by
  have hcontext := (Inside.of_tries h.settled htries).context
  exact h.turn (.commit htries hok) (congrArg (fun c => c.2.1) hcontext)

lemma giveUp (htries : Tries env s u) : (s.giveUp u).Beyond env l := by
  refine h.turn (.giveUp htries) ?_
  rw [(Inside.of_tries h.settled htries).giveUp_eq h.settled]

/-- The current token is found to be a comparison. -/
lemma remember : { s with comparisons := s.start :: s.comparisons }.Beyond env l where
  mem := (Region.settled_behind env l).turn h.mem (.remember s s.start)
  reached := List.forall_mem_cons.2 ⟨.inr (Nat.le_refl _), h.reached⟩

lemma past_advance : (s.advance env.src).PastComparisons := by
  intro p hp
  rw [(Step.advance s : Step env s _).grows.comparisons] at hp
  rw [lexer_advance]
  by_cases hkind : s.lexer.kind = .endOfFile
  · exact .inl (Lexer.kind_scanKnown_of_ended h.underway.regular hkind)
  · have hpasses := Lexer.passes_scanKnown h.underway.regular h.underway.stretches hkind
    exact hpasses.imp_right (Nat.lt_of_le_of_lt ((h.reached p hp).resolve_left hkind))

lemma past_step (hpast : s.PastComparisons) (hstep : Step env s t) : t.PastComparisons := by
  intro p hp
  rw [hstep.grows.comparisons] at hp
  exact h.underway.lasts_step (Lexer.lasting_passes env.src { s.lexer with start := p })
    (hpast p hp) hstep

end Beyond

/-- To remember what was found makes no difference where none of it lies at the current token. -/
lemma PastComparisons.contains_eq (h : s.PastComparisons) (hkind : s.kind ≠ .endOfFile) :
    s.comparisons.contains s.start = false := by
  have hnot : s.start ∉ s.comparisons := fun hmem =>
    Nat.lt_irrefl _ ((h _ hmem).resolve_left (lexer_kind_ne hkind))
  simpa using hnot

end ParseState

/-! ## With and without memory -/

/-- The environment in which no comparison is remembered. -/
abbrev Env.forgetful (env : Env) : Env :=
  { env with remembers := false }

/-- A parse that remembers comparisons, if its environment says so, and one that does not. -/
def Lockstep.memory (env : Env) (l : Lexer) : Lockstep where
  env := env
  env' := env.forgetful
  src := rfl
  maxDepth := rfl
  alike s s' := s' = s ∧ s.Beyond env l
  parted _ _ := False
  lasts _ _ := True
  seen h := by rw [h.1]
  stride h hstride := by
    obtain ⟨rfl, hs⟩ := h
    have ht := hs.step hstride.step
    left
    cases hstride <;> exact ⟨rfl, ht⟩
  refl _ := trivial
  trans _ _ := trivial
  step _ := trivial

namespace Lockstep

lemma settled_memory (env : Env) (l : Lexer) : (memory env l).Settled where
  unmute := fun ⟨e, hs⟩ => ⟨e ▸ rfl, hs.turn (.unmute _) rfl⟩
  joinGreater := fun ⟨e, hs⟩ => ⟨e ▸ rfl, hs.turn (.joinGreater _) rfl⟩
  enclose owner := fun ⟨e, hs⟩ => ⟨e ▸ rfl, hs.turn (.enclose _ owner) rfl⟩
  turn _ := trivial

lemma fresh_memory (env : Env) (l : Lexer) : (memory env l).Fresh ParseState.PastComparisons where
  advance h := h.2.past_advance
  step h := h.2.past_step

end Lockstep

namespace Rule

/-- An attempt whose body does the same in both runs and goes on by steps only. What it cannot
change is as it was where it is given up. -/
lemma agreesVia_attempt {body : Rule (Option α)} {Q : ParseState → Prop}
    (hsame : ∀ s, body env.forgetful s = body env s)
    (htries : ∀ {s result u}, body env (s.enterTentative env.settings.budget) = some (result, u) →
      Tries env s u)
    (hQ : ∀ s tokenCount names, Q s → Q { s with tokenCount, names }) :
    AgreesVia (.memory env l) Q (attempt body) fun a t => (∀ b, a ≠ .committed b) → Q t where
  lasts _ := trivial
  lasts' _ := trivial
  meets {s s'} hs hq := by
    obtain ⟨rfl, hs⟩ := hs
    have hrun : attempt body env.forgetful s' = attempt body env s' := by
      rw [attempt_apply, attempt_apply, hsame]
    change Lockstep.Meets _ _ (attempt body env s') (attempt body env.forgetful s')
    rw [hrun]
    cases e : attempt body env s' with
    | none => exact .none
    | some p =>
      obtain ⟨a, t⟩ := p
      obtain ⟨result, u, hbody, ⟨b, -, hok, rfl, rfl⟩ | ⟨-, rfl, rfl⟩⟩ := attempt_eq_some e
      · exact .some ⟨rfl, hs.commit (htries hbody) hok⟩ fun hnot => absurd rfl (hnot b)
      · refine .some ⟨rfl, hs.giveUp (htries hbody)⟩ fun _ => ?_
        rw [(Inside.of_tries hs.settled (htries hbody)).giveUp_eq hs.settled]
        exact hQ _ _ _ hq

/-- What keeps every invariant goes on by steps. -/
lemma tries_of_preserves {body : Rule (Option α)} {result : Option α}
    (h : ∀ K : Invariant env, Preserves K body)
    (e : body env (s.enterTentative env.settings.budget) = some (result, u)) : Tries env s u :=
  (h (.attempt env s) _ ⟨.refl, rfl⟩ result u e).holds.1

/-- Type arguments in the place of a value, given whether the current token may open any. -/
def typeArgumentsIf (call : Call) (candidate : Bool) : Rule (List TypeId) := do
  if !candidate then return []
  let opening ← tokenSpan
  match ← attempt (fittingArguments? call) with
  | .committed args => return args
  | .rewound =>
    modify fun s => { s with comparisons := opening.start :: s.comparisons }
    return []
  | .exhausted =>
    let budget := (← read).settings.budget
    reportAt opening .ambiguityExhausted ["<", toString budget]
    return []

lemma typeArguments?_apply (call : Call) (env : Env) (s : ParseState) :
    typeArguments? call env s = typeArgumentsIf call (s.kind == .mark .less
      && !s.lexer.flags.separated && !(env.remembers && s.comparisons.contains s.start)) env s :=
  rfl

section

variable {nesting : Nat}

lemma agrees_typeArgumentsIf (candidate : Bool) :
    Agrees (.memory env l) (typeArgumentsIf (callTo nesting) candidate) := by
  have htype (K : Invariant env) : Preserves K (fittingArguments? (callTo nesting)) :=
    preserves_fittingArguments? (preserves_callTo_type nesting K)
  have hsame := (agrees_fittingArguments? (agrees_callTo_type nesting)
    : Agrees (.same env env.forgetful rfl rfl) _).apply_eq
  refine .ite (fun _ => .pure fun _ => id) fun _ => ?_
  refine .bind (.view (R := fun opening s => s.start = opening.start) (fun _ _ => rfl)
    fun _ _ => rfl) fun opening => ?_
  refine .bind (agreesVia_attempt hsame (tries_of_preserves htype) fun _ _ _ h => h)
    fun result => ?_
  cases result with
  | committed args => exact .pure fun _ _ => trivial
  | rewound =>
    -- The current token is the `<` again.
    refine .bind (.modify (R := fun _ _ => True) (fun hs hplace => ?_) (fun _ => trivial)
      fun _ _ => trivial) fun _ => .pure fun _ _ => trivial
    obtain ⟨rfl, hs⟩ := hs
    exact ⟨rfl, hplace nofun ▸ hs.remember⟩
  | exhausted =>
    exact .read rfl (Agrees.bind (agrees_reportAt _ _ _) fun _ => .pure _).via

/-- Behind a token the answer whether a `<` is known to be a comparison is no, in both runs. -/
lemma agreesVia_typeArguments? :
    AgreesVia (.memory env l) ParseState.PastComparisons (typeArguments? (callTo nesting))
      fun _ _ => True where
  lasts _ := trivial
  lasts' _ := trivial
  meets {s s'} hs hpast := by
    obtain ⟨rfl, hbeyond⟩ := hs
    have hcandidate (remembers : Bool) : (s'.kind == .mark .less && !s'.lexer.flags.separated
        && !(remembers && s'.comparisons.contains s'.start))
          = (s'.kind == .mark .less && !s'.lexer.flags.separated) := by
      by_cases hkind : s'.kind = .mark .less
      · rw [hpast.contains_eq (by rw [hkind]; exact nofun), Bool.and_false, Bool.not_false,
          Bool.and_true]
      · simp [hkind]
    change (Lockstep.memory env l).Meets _ (typeArguments? (callTo nesting) env s')
      (typeArguments? (callTo nesting) env.forgetful s')
    rw [typeArguments?_apply, typeArguments?_apply, hcandidate, hcandidate]
    exact (agrees_typeArgumentsIf _).meets ⟨rfl, hbeyond⟩ trivial

lemma agrees_lambda_memory (hcall : ∀ {α : Type} (g : Nonterminal α),
      Agrees (.memory env l) (callTo nesting g)) (needsArrow : Bool) :
    Agrees (.memory env l) (lambda (callTo nesting) needsArrow) := by
  have hparams (K : Invariant env) : Preserves K (lambdaParams? (callTo nesting)) :=
    preserves_lambdaParams? (preserves_callTo_type nesting K)
  have hsame := (agrees_lambdaParams? (agrees_callTo_type nesting)
    : Agrees (.same env env.forgetful rfl rfl) _).apply_eq
  have hL := Lockstep.settled_memory env l
  refine .bind agrees_start fun start => .bind agrees_advance fun _ => ?_
  have hattempt := agreesVia_attempt (l := l) (Q := fun _ => True) hsame
    (tries_of_preserves hparams) fun _ _ _ => id
  refine .bind hattempt.agrees fun result => ?_
  cases result <;> grind

end

lemma agrees_callTo_memory (nesting : Nat) (g : Nonterminal α) :
    Agrees (.memory env l) (callTo nesting g) :=
  agrees_callTo (Lockstep.settled_memory env l) (Lockstep.fresh_memory env l)
    (fun _ => agreesVia_typeArguments?) (fun _ hcall => agrees_lambda_memory hcall) nesting g

end Rule

/-! ## Parses -/

namespace ParseState.Fresh

variable (h : s.Fresh env.src)

include h

lemma comparisons_eq : s.comparisons = [] := by
  cases h <;> rfl

lemma beyond : (s.advance env.src).Beyond env s.lexer where
  mem := h.behind.mem
  reached p hp := by
    rw [(Step.advance s : Step env s _).grows.comparisons, h.comparisons_eq] at hp
    exact nomatch hp

/-- From the start of a text on, a rule does the same whether comparisons are remembered or not. -/
theorem runFrom_forgetful (rule : Call → Rule α)
    (hrule : Agrees (.memory env s.lexer) (rule (Rule.callTo env.nesting))) :
    Rule.runFrom env.forgetful rule s = Rule.runFrom env rule s := by
  have hnesting : env.forgetful.nesting = env.nesting := by
    unfold Env.nesting Env.rounds
    rfl
  have hunmuted := h.beyond.turn (.unmute _) rfl
  change rule (Rule.callTo env.forgetful.nesting) env.forgetful _ = _
  rw [hnesting]
  exact (hrule.meets ⟨rfl, hunmuted⟩ trivial).eq (fun _ _ => id) And.left

end ParseState.Fresh

/-- The parse of a source as a file, with another attempt at a `<` whenever a rule comes there. -/
def Source.parseFileAnew (src : Source) (settings : Settings) (names : NameTable) :
    Option (FileParse × NameTable) :=
  let s := { ParseState.ofSource src with names }
  (Rule.runFrom { src, settings, remembers := false } Rule.file s).map fun (tree, s) =>
    ({ tree := { tree with nodes := s.nodes }, diagnostics := settings.locate s.diagnostics },
      s.names)

/-- The parse of a source from an offset on as one statement, in the same way. -/
def Source.parseExpressionAnew (src : Source) (offset : Nat) (settings : Settings) :
    Option ExprParse :=
  let s := ParseState.ofSource src
  let s := { s with lexer := s.lexer.seek src offset, prevStop := offset }
  (Rule.runFrom { src, settings, remembers := false } Rule.statement s).map fun (expr, s) =>
    { nodes := s.nodes, expr, next := s.prevStop, diagnostics := settings.locate s.diagnostics }

/-- The parse of bytes as a file, with another attempt at a `<` whenever a rule comes there, and
with the names met added to those of a table. -/
def parseFileIntoAnew (bytes : ByteArray) (settings : Settings) (names : NameTable) :
    Option (FileParse × NameTable) :=
  match Source.ofBytes bytes with
  | .ok src => src.parseFileAnew settings names
  | .error span => some ({ tree := {}, diagnostics := settings.encodingFault span }, names)

/-- The parse of one statement from an offset in bytes on, in the same way. -/
def parseExpressionAnew (bytes : ByteArray) (offset : Nat) (settings : Settings) :
    Option ExprParse :=
  let offset := min offset bytes.size
  let decoded : Except Span Source := do
    let src ← Source.ofBytes bytes
    if src.isBoundary offset then return src else .error ⟨offset, 1⟩
  match decoded with
  | .ok src => src.parseExpressionAnew offset settings
  | .error span =>
    let exprs : Arena .expr ExprNode := {}
    some {
      nodes := { exprs := exprs.push ⟨.error, span⟩ }, expr := exprs.next, next := offset
      diagnostics := settings.encodingFault span }

lemma Source.parseFileAnew_eq (src : Source) (settings : Settings) (names : NameTable) :
    src.parseFileAnew settings names = src.parseFile settings names := by
  have hfresh : ParseState.Fresh (Env.mk src settings true).src { ParseState.ofSource src with
      names } := .file names
  have hrun := hfresh.runFrom_forgetful Rule.file
    (Rule.agrees_file (Lockstep.settled_memory _ _) (Rule.agrees_callTo_memory _))
  exact congrArg (Option.map _) hrun

lemma Source.parseExpressionAnew_eq (src : Source) (offset : Nat) (settings : Settings) :
    src.parseExpressionAnew offset settings = src.parseExpression offset settings := by
  have hfresh : ParseState.Fresh (Env.mk src settings true).src { ParseState.ofSource src with
      lexer := (Lexer.ofSource src).seek src offset, prevStop := offset } := .expression offset
  have hrun := hfresh.runFrom_forgetful Rule.statement
    (Rule.agrees_callTo_memory ((Env.mk src settings true).nesting + 1) .statement)
  exact congrArg (Option.map _) hrun

end CangjieSyntax
