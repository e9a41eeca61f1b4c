import CangjieSyntax.Proofs.Grammar.Reads

/-!
# What the basic rules hold

Tokens, reports, nodes, names, lists, nesting and tentative readings. A report leaves a mark behind
that pays for the placeholder that is allocated next.
-/

namespace CangjieSyntax

instance {α : Type} [HasParts α] : HasParts (Attempt α) where
  parts
    | .committed a => parts a
    | .rewound => 0
    | .exhausted => 0

namespace Rule

variable {env : Env} {J : Region env} {α : Type}

/-! ## Tokens -/

lemma quiet_view (f : Source → ParseState → α) : Quiet J (view f) := by
  intro s hs a t e
  cases e
  exact ⟨hs, .refl s⟩

lemma quiet_advance : Quiet J advance :=
  .read <| .modify (fun _ hs => J.step hs (.advance _)) (fun _ => ParseState.advance_frame _)
    fun s _ => Step.excused (.advance s)

/-- A rule that takes a token keeps to any region that the token leads into. -/
lemma readsFrom_advance {β : Type} {k : Unit → Rule β} {held : Multiset Part}
    {post : β → Multiset Part} {s : ParseState} (hs : J.mem (s.advance env.src))
    (hk : Reads J held (k ()) post) : ReadsFrom J s held (advance >>= k) post := by
  intro b t e
  obtain ⟨ht, hkeeps⟩ := hk _ hs b t e
  have keeps : Keeps J.loses held held s (s.advance env.src) :=
    .of_frame (ParseState.advance_frame _) (Step.excused (.advance s))
  exact ⟨ht, keeps.trans hkeeps⟩

lemma quiet_operatorKind (hJ : J.Settled) : Quiet J operatorKind := by
  refine .view fun k => ?_
  split
  · refine .read <| .skip (.modify (fun s hs => hJ.turn hs (.joinGreater s)) ?_ ?_) fun _ => ?_
    · exact fun s => ⟨rfl, rfl, rfl⟩
    · intro s _ h
      unfold ParseState.Excused ParseState.Reported
      rw [Lexer.log_joinGreater]
      exact h
    · exact .get fun s => .pure rfl
  · exact .pure rfl

lemma quiet_optional (k : Kind) : Quiet J (optional k) := by
  refine .view fun here => ?_
  split
  · exact .skip quiet_advance fun _ => .pure rfl
  · exact .pure rfl

/-! ## Reports -/

/-- A report pays for a placeholder. -/
lemma reads_reportAt (span : Span) (m : Message) (args : List String) :
    Reads J 0 (reportAt span m args) fun _ => {.fault} := by
  intro s hs a t e
  cases e
  have hstep : Step env s (s.report span m args) := .report s span m args
  have keeps : Keeps J.loses 0 0 s (s.report span m args) :=
    .of_frame (s.report_frame span m args) hstep.excused
  exact ⟨J.step hs hstep, keeps.fault ((J.sound hs).report span m args)⟩

/-- A report pays for giving up whatever has been read before. -/
lemma reads_reported {r : Rule α} {held : Multiset Part} {post : α → Multiset Part} {span : Span}
    {m : Message} {args : List String} (h : Reads J {.fault} r post) :
    Reads J held (do reportAt span m args; r) post := by
  have report := (reads_reportAt (J := J) span m args).frame held
  refine .of_eq (add_zero held).symm (report.bind fun _ => .weaken ?_ h)
  exact .of_fault (by simp) (Multiset.le_add_left _ _)

lemma reads_report (m : Message) (args : List String) :
    Reads J 0 (report m args) fun _ => {.fault} :=
  .view fun span => reads_reportAt span m args

lemma quiet_reportAt (span : Span) (m : Message) (args : List String) :
    Quiet J (reportAt span m args) :=
  (reads_reportAt span m args).forget fun _ => .of_fault (by simp) (Multiset.zero_le _)

lemma quiet_report (m : Message) (args : List String) : Quiet J (report m args) :=
  (reads_report m args).forget fun _ => .of_fault (by simp) (Multiset.zero_le _)

lemma quiet_expect (k : Kind) : Quiet J (expect k) := by
  refine .skip (quiet_optional k) fun found => ?_
  split
  · exact .pure rfl
  · exact .skip (quiet_report _ _) fun _ => .pure rfl

lemma quiet_require (k : Kind) : Quiet J (require k) :=
  .skip (quiet_expect k) fun _ => .pure rfl

/-! ## Nodes -/

/-- An allocation turns the parts of a node into its place. -/
lemma keeps_alloc {loses : Prop} (s : ParseState) (node : Node) (hproper : node.Proper) :
    Keeps loses (parts node) {.node (s.nodes.nextRef node)} s { s with nodes := s.nodes.add node } :=
  ⟨rfl, rfl, fun _ _ hold => hold.add hproper⟩

lemma reads_allocExpr (form : ExprForm) (span : Span) :
    Reads J (parts form) (allocExpr form span) parts := by
  intro s hs a t e
  cases e
  exact ⟨J.step hs (.alloc s (.expr ⟨form, span⟩)), keeps_alloc s (.expr ⟨form, span⟩) trivial⟩

lemma reads_allocType (form : TypeForm) (span : Span) :
    Reads J (parts form) (allocType form span) parts := by
  intro s hs a t e
  cases e
  exact ⟨J.step hs (.alloc s (.type ⟨form, span⟩)), keeps_alloc s (.type ⟨form, span⟩) trivial⟩

lemma reads_allocPattern {form : PatternForm} (span : Span)
    (hproper : (Node.pattern ⟨form, span⟩).Proper) :
    Reads J (parts form) (allocPattern form span) parts := by
  intro s hs a t e
  cases e
  exact ⟨J.step hs (.alloc s (.pattern ⟨form, span⟩)), keeps_alloc s _ hproper⟩

lemma reads_allocDecl (node : DeclNode) : Reads J (parts node) (allocDecl node) parts := by
  intro s hs a t e
  cases e
  exact ⟨J.step hs (.alloc s (.decl node)), keeps_alloc s (.decl node) trivial⟩

lemma reads_exprFrom (start : Nat) (form : ExprForm) :
    Reads J (parts form) (exprFrom start form) parts :=
  .view fun span => reads_allocExpr form span

lemma reads_typeFrom (start : Nat) (form : TypeForm) :
    Reads J (parts form) (typeFrom start form) parts :=
  .view fun span => reads_allocType form span

lemma reads_errorExpr (span : Span) : Reads J {.fault} (errorExpr span) parts :=
  reads_allocExpr .error span

/-! ## Names -/

lemma quiet_intern (text : String) : Quiet J (intern text) :=
  .modify (fun s hs => J.step hs (.intern s text)) (fun _ => ⟨rfl, rfl, rfl⟩) fun _ _ h => h

/-- A name without a text must be excused where it is made. -/
lemma readsFrom_name {s : ParseState} {text : String} {held : Multiset Part} (hs : J.mem s)
    (span : Span) (h : text = "" → s.Excused) :
    ReadsFrom J s held (name text span) fun n => parts n + held := by
  intro a t e
  cases e
  refine ⟨J.step hs (.intern s text), ?_⟩
  have keeps : Keeps J.loses held held s { s with names := s.names.insert text } :=
    .of_frame ⟨rfl, rfl, rfl⟩ id
  refine keeps.also rfl fun p hp => ?_
  rw [Multiset.mem_singleton.1 hp]
  exact h

lemma reads_name (text : String) (span : Span) :
    Reads J {.name text} (name text span) parts :=
  .skip (quiet_intern text) fun _ => .pure rfl

lemma yields_name {text : String} (span : Span) (h : text ≠ "") : Yields J (name text span) :=
  .spelt h (.of_eq (zero_add _) (reads_name text span))

lemma reads_missingName : Reads J {.fault} missingName parts := by
  refine .view fun start s hs a t e => ?_
  cases e
  refine ⟨J.step hs (.intern s ""), rfl, rfl, fun _ rest hold => ?_⟩
  have excused : s.Excused := hold.good .fault (by simp)
  exact (hold.drop (.inr (.inl excused))).also rfl (by simpa [parts, Part.Good] using excused)

/-- The text of a current name is missing only if its error has been reported. -/
lemma excused_of_isName {s : ParseState} (hs : s.Sound) (h : s.kind.isName)
    (e : s.lexer.value = "") : s.Excused := by
  unfold ParseState.kind at h
  split at h
  · exact absurd h (by simp [Kind.isName])
  · exact .inl (.inr ((hs.named h).resolve_left (not_not_intro e)))

/-- The current name, which is not taken yet. -/
lemma yields_tokenName {β : Type} {k : Name → Rule β} {held : Multiset Part}
    {post : β → Multiset Part} {s : ParseState} (hs : J.mem s) (span : Span) (h : s.kind.isName)
    (hk : ∀ n, Reads J (parts n + held) (k n) post) :
    ReadsFrom J s held (name s.lexer.value span >>= k) post :=
  (readsFrom_name hs span (excused_of_isName (J.sound hs) h)).bind fun n _ _ ht => hk n _ ht

lemma yields_identifier : Yields J identifier := by
  intro s hs
  refine .view ?_
  split
  case isTrue h =>
    refine .view (.view (yields_tokenName hs _ ?_ fun n => ?_))
    · revert h
      change s.kind.isIdentifier = true → s.kind.isName = true
      cases s.kind <;> simp [Kind.isIdentifier, Kind.isName]
    · exact .skip quiet_advance fun _ => .pure (add_zero _)
  case isFalse => exact (reads_report .identifierExpected []).bind (fun _ => reads_missingName) s hs

lemma reads_dottedNameRound (path : List Name) :
    Reads J (parts path) (dottedNameRound path) parts := by
  refine .view fun more => ?_
  split
  · refine .skip quiet_advance fun _ => ?_
    refine .next yields_identifier fun n => .pure (by simp)
  · exact .pure rfl

lemma yields_dottedName : Yields J dottedName := by
  refine .first yields_identifier fun first => ?_
  exact (Reads.loop_parts reads_dottedNameRound [first]).of_eq (by simp)

lemma yields_label? : Yields J label? := by
  refine .view fun here => ?_
  split
  · refine .first yields_identifier fun n => ?_
    exact .skip quiet_advance fun _ => .pure rfl
  · exact .pure rfl

/-! ## Lists -/

section

variable [HasParts α] {held : Multiset Part} {element : Rule α}

/-- A round of a list whose elements use something that may be used again and again. -/
lemma reads_listRound (close : Kind) (h : Reads J held element fun a => held + parts a)
    (items : List α) :
    Reads J (held + parts items) (listRound close element items)
      (Sum.elim (fun items => held + parts items) fun items => held + parts items) := by
  refine .view fun k => ?_
  split
  · exact .pure rfl
  · refine .of_eq (add_comm _ _) (.use h fun a => ?_)
    refine .skip (quiet_optional _) fun comma => ?_
    split
    · exact .pure (by simp; abel)
    · exact .pure (by simp; abel)

lemma reads_list (close : Kind) (h : Reads J held element fun a => held + parts a) :
    Reads J held (list close element) fun items => held + parts items :=
  (Reads.loop (reads_listRound close h) []).of_eq (by simp)

lemma yields_list (close : Kind) (h : Yields J element) : Yields J (list close element) := by
  have h : Reads J 0 (list close element) fun items => 0 + parts items :=
    reads_list close (h.forget fun a => .of_eq (zero_add (parts a)).symm)
  exact h.forget fun items => .of_eq (zero_add (parts items))

lemma yields_behind (k : Kind) (h : Yields J element) : Yields J (behind k element) := by
  refine .skip (quiet_optional k) fun here => ?_
  split
  · exact .first h fun a => .pure rfl
  · exact .pure rfl

lemma reads_separatedRound (separator : Kind) (h : Yields J element) (items : List α) :
    Reads J (parts items) (separatedRound separator element items) parts := by
  refine .skip (quiet_optional separator) fun more => ?_
  split
  · exact .next h fun a => .pure (by simp)
  · exact .pure rfl

lemma yields_separated (separator : Kind) (h : Yields J element) :
    Yields J (separated separator element) := by
  refine .first h fun first => ?_
  exact (Reads.loop_parts (reads_separatedRound separator h) [first]).of_eq (by simp)

end

/-! ## Nesting and tentative readings -/

/-- Past the depth allowed, the report pays for the placeholder. -/
lemma reads_nested {fallback : Span → Rule α} {body : Rule α} {post : α → Multiset Part}
    (hfallback : ∀ span, Reads J {.fault} (fallback span) post) (hbody : Reads J 0 body post) :
    Reads J 0 (nested fallback body) post := by
  intro s hs
  change ReadsFrom J s 0 (if env.settings.maxDepth ≤ s.depth then _ else _) post
  split
  · refine .view (.bind (p := fun _ => {.fault}) ?_ fun _ u _ hu => hfallback _ u hu)
    intro a t e
    cases e
    have hstep : Step env s (s.reportDepth s.lexer.span env.settings.maxDepth) := .reportDepth s _
    have keeps : Keeps J.loses 0 0 s (s.reportDepth s.lexer.span env.settings.maxDepth) :=
      .of_frame (s.reportDepth_frame _ _) hstep.excused
    exact ⟨J.step hs hstep, keeps.fault ((J.sound hs).reportDepth _ _)⟩
  case isFalse hdepth =>
    intro a t e
    obtain ⟨_, s', hdeeper, e⟩ := Rule.bind_eq_some.1 e
    cases hdeeper
    obtain ⟨b, u, hrun, e⟩ := Rule.bind_eq_some.1 e
    cases e
    obtain ⟨hu, hkeeps⟩ := hbody _ (J.step hs (.deeper (Nat.lt_of_not_le hdepth))) a u hrun
    refine ⟨J.step hu (.shallower u), ?_, hkeeps.enclosingType, hkeeps.holds_of⟩
    change u.depth - 1 = s.depth
    rw [hkeeps.depth, Nat.add_sub_cancel]

/-- An attempt runs its body in a tentative reading, and then it is committed or given up. -/
lemma attempt_apply (body : Rule (Option α)) (env : Env) (s : ParseState) :
    attempt body env s = (body env (s.enterTentative env.settings.budget)).map fun p =>
      match p.1, p.2.tentative.failed with
      | some a, false => (.committed a, s.commit p.2)
      | _, _ => (if p.2.tentative.exhausted then .exhausted else .rewound, s.giveUp p.2) := by
  change (body env (s.enterTentative env.settings.budget)).bind _ = _
  cases body env (s.enterTentative env.settings.budget) with
  | none => rfl
  | some p =>
    obtain ⟨result, u⟩ := p
    cases result with
    | none => rfl
    | some a =>
      obtain ⟨lexer, nodes, names, log, depth, prevStop, prevSpan, prevKind, tokenCount, tentative⟩ := u
      obtain ⟨attempts, limit, failed, exhausted⟩ := tentative
      cases failed with
      | false => rfl
      | true => rfl

section

variable {body : Rule (Option α)} {s u : ParseState} {result : Option α}

lemma attempt_committed {a : α}
    (hrun : body env (s.enterTentative env.settings.budget) = some (some a, u))
    (hok : u.tentative.failed = false) :
    attempt body env s = some (.committed a, s.commit u) := by
  rw [attempt_apply, hrun]
  simp [hok]

lemma attempt_givenUp (hrun : body env (s.enterTentative env.settings.budget) = some (result, u))
    (hno : result = none ∨ u.tentative.failed = true) :
    attempt body env s
      = some (if u.tentative.exhausted then .exhausted else .rewound, s.giveUp u) := by
  rw [attempt_apply, hrun]
  obtain rfl | hfailed := hno
  · rfl
  · simp [hfailed]

lemma attempt_eq_some {t : ParseState} {a : Attempt α} (e : attempt body env s = some (a, t)) :
    ∃ result u, body env (s.enterTentative env.settings.budget) = some (result, u)
      ∧ ((∃ b, result = some b ∧ u.tentative.failed = false ∧ a = .committed b ∧ t = s.commit u)
        ∨ ((result = none ∨ u.tentative.failed = true)
          ∧ a = (if u.tentative.exhausted then .exhausted else .rewound) ∧ t = s.giveUp u)) := by
  obtain ⟨⟨result, u⟩, hrun, -⟩ := Option.map_eq_some_iff.1 (attempt_apply body env s ▸ e)
  refine ⟨result, u, hrun, ?_⟩
  by_cases hno : result = none ∨ u.tentative.failed = true
  · rw [attempt_givenUp hrun hno] at e
    cases e
    exact .inr ⟨hno, rfl, rfl⟩
  · rw [not_or, Bool.not_eq_true] at hno
    obtain ⟨b, rfl⟩ := Option.ne_none_iff_exists'.1 hno.1
    rw [attempt_committed hrun hno.2] at e
    cases e
    exact .inl ⟨b, rfl, hno.2, rfl, rfl⟩

end

/-- An attempt that is committed holds what its body holds, and one that is given up leaves all
nodes as they were. -/
lemma yields_attempt [HasParts α] (hJ : J.Settled) {body : Rule (Option α)}
    (h : ∀ K : Region env, Yields K body) : Yields J (attempt body) := by
  intro s hs a t e
  obtain ⟨result, u, hrun, hend⟩ := attempt_eq_some e
  -- The body keeps to the states of this attempt, which are a region of their own.
  obtain ⟨hu, hkeeps⟩ := h (Region.attempt env (J.sound hs)) _ .refl result u hrun
  obtain ⟨b, rfl, hfailed, rfl, rfl⟩ | ⟨-, rfl, rfl⟩ := hend
  · refine ⟨hJ.turn hs (.commit hu hfailed), hkeeps.depth, hkeeps.enclosingType, ?_⟩
    intro lossy himp rest hold
    -- The attempt has not failed, so that what is excused in it has been reported.
    refine (hkeeps.holds_of False.elim rest hold).mono fun hexcused => ?_
    exact .inl (hexcused.resolve_right (by simp [hfailed]))
  · refine ⟨hJ.turn hs (.giveUp hu), ?_⟩
    rw [(Inside.of_tries (hJ.tentative hs) hu).giveUp_eq (hJ.tentative hs)]
    have nothing : parts (if u.tentative.exhausted then .exhausted else .rewound : Attempt α) = 0 := by
      split <;> rfl
    rw [nothing]
    exact .of_frame ⟨rfl, rfl, rfl⟩ id

/-- A rule in the body of a type comes back to the type around it. -/
lemma reads_enclosedBy (hJ : J.Settled) {owner : Option String} {body : Rule α}
    {pre : Multiset Part} {post : α → Multiset Part} (h : Reads J pre body post) :
    Reads J pre (enclosedBy owner body) post := by
  intro s hs a t e
  unfold enclosedBy at e
  obtain ⟨_, _, hget, e⟩ := bind_eq_some.1 e
  cases hget
  obtain ⟨_, _, henter, e⟩ := bind_eq_some.1 e
  cases henter
  obtain ⟨b, u, hrun, e⟩ := bind_eq_some.1 e
  cases e
  obtain ⟨hu, hkeeps⟩ := h _ (hJ.turn hs (.enclose s owner)) a u hrun
  exact ⟨hJ.turn hu (.enclose u _), hkeeps.depth, rfl, hkeeps.holds_of⟩

end Rule

end CangjieSyntax
