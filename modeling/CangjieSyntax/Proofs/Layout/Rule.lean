import CangjieSyntax.Proofs.Grammar.Rule
import CangjieSyntax.Proofs.Layout.Lays

/-!
# How the basic rules lay out what they read

Tokens, reports, nodes, names, lists, nesting and tentative readings. A node that goes from the
start of a stretch up to the last token taken is nested if its parts are all that is held.
-/

namespace CangjieSyntax

instance {α : Type} [HasMarks α] : HasMarks (Attempt α) where
  marks
    | .committed a => marks a
    | .rewound => []
    | .exhausted => []

variable {env : Env} {J : Ground env} {α : Type} {s t u : ParseState} {lo : Nat}
  {held ms reading : List Mark} {span : Span}

/-! ## Nodes of a state -/

namespace Arranged

/-- A node in which nothing was missing goes from the start of the stretch to its end. -/
lemma alloc (node : Node) (h : Arranged env lo s held) (hs : s.Footed env)
    (hspan : node.span = s.spanFrom lo) (hreading : reading ∈ node.readings)
    (hsub : reading.Sublist held) (hbegun : Begun held) :
    Arranged env lo { s with nodes := s.nodes.add node } [.node (s.nodes.nextRef node)] where
  base := h.base
  le_start := h.le_start
  nodes := by
    refine h.nodes.add ⟨?_, fun m hm => h.valid m (hsub.subset ?_)⟩
    · rw [hspan]
      exact hs.spanFrom h.base
    · exact (Node.reading_perm hreading).mem_iff.2 hm
  reports := h.reports
  valid m hm := by
    rw [List.mem_singleton.1 hm]
    trivial
  laid hnot := by
    obtain ⟨hnested, hlaid⟩ := h.laid hnot
    have hle := hlaid.le_of_begun hbegun
    have hstop : node.span.stop = s.prevStop := by
      rw [hspan, ParseState.spanFrom, Nat.max_eq_left hle, Span.stop_ofBounds hle]
    have hstart : node.span.start = lo := by
      rw [hspan]
      rfl
    refine ⟨hnested.add ⟨reading, hreading, ?_⟩, ?_⟩
    · rw [hstart, hstop]
      exact hlaid.sublist hsub
    · exact .single Nodes.get?_add_nextRef (Nat.le_of_eq hstart.symm) (Nat.le_of_eq hstop)

/-- Where something was missing, any valid node may be allocated. -/
lemma alloc_fault (node : Node) (h : Arranged env lo s held) (hfault : .fault ∈ held)
    (hspan : node.span.Valid env.src) (hsub : (marks node).Sublist held) :
    Arranged env lo { s with nodes := s.nodes.add node }
      [.fault, .node (s.nodes.nextRef node)] where
  base := h.base
  le_start := h.le_start
  nodes := h.nodes.add ⟨hspan, fun m hm => h.valid m (hsub.subset hm)⟩
  reports := h.reports
  valid m hm := by
    simp only [List.mem_cons, List.not_mem_nil, or_false] at hm
    obtain rfl | rfl := hm <;> trivial
  laid hnot := absurd (h.excused hfault) hnot

/-- A report at a valid place. -/
lemma report (h : Arranged env lo s held) (honward : s.Onward t) (hnodes : t.nodes = s.nodes)
    (hlog : ∀ d ∈ t.log, d ∈ s.log ∨ d.span = span ∧ d.related = [])
    (hspan : span.Valid env.src) (hexcused : t.Excused) : Arranged env lo t (held ++ [.fault]) where
  base := h.base
  le_start := Nat.le_trans h.le_start honward.start
  nodes := hnodes ▸ h.nodes
  reports d hd := (hlog d hd).elim (h.reports d) fun e => .of_span (e.1 ▸ hspan) e.2
  valid m hm := by
    rcases List.mem_append.1 hm with hm | hm
    · exact h.valid m hm
    · rw [List.mem_singleton.1 hm]
      trivial
  laid := absurd hexcused

end Arranged

namespace Rule

/-! ## Tokens -/

lemma places_view [HasMarks α] {f : Source → ParseState → α} (hf : ∀ a : α, marks a = []) :
    Places J (view f) := by
  intro lo s hs a t e
  cases e
  exact ⟨hs, .refl s, fun h => hf _ ▸ h⟩

/-- A step that only changes the bookkeeping. -/
lemma places_modify {f : ParseState → ParseState} (hstep : ∀ s, J.mem s → J.mem (f s))
    (hstart : ∀ s, J.mem s → (f s).lexer.start = s.lexer.start)
    (hframe : ∀ s, (f s).prevStop = s.prevStop ∧ (f s).nodes = s.nodes ∧ (f s).log = s.log)
    (hexcused : ∀ s, J.mem s → s.Excused → (f s).Excused) :
    Places J (modify f : Rule Unit) := by
  intro lo s hs a t e
  cases e
  obtain ⟨hprevStop, hnodes, hlog⟩ := hframe s
  exact ⟨hstep s hs, .of_frame (hstart s hs) hprevStop hnodes (hexcused s hs),
    fun h => h.of_frame (hstart s hs) hprevStop hnodes hlog (hexcused s hs)⟩

lemma takes_advance : Takes J advance := by
  intro lo s hs a t e
  cases e
  have hfooted := J.footed hs
  obtain ⟨-, honward⟩ := hfooted.advance
  refine ⟨J.step hs (.advance s), honward, fun h => ?_⟩
  have hstop := ParseState.Footed.prevStop_advance env s
  have hnodes := (s.advance_frame env.src).1
  have hlog : (s.advance env.src).log = s.log := by
    obtain ⟨tentative, errorCount, muted, -, -, -, e⟩ := s.advance_eq env.src
    rw [e]
  refine ⟨h.base, Nat.le_trans h.le_start honward.start, hnodes ▸ h.nodes, hlog ▸ h.reports,
    fun m hm => ?_, fun hnot => ?_⟩
  · rw [List.mem_singleton.1 hm]
    trivial
  · rw [hnodes, hstop]
    exact ⟨(h.laid (hnot ∘ honward.excused)).1,
      .token (Nat.le_trans h.le_start hfooted.lexer.start_le) .nil⟩

lemma places_operatorKind (hJ : J.Settled) : Places J operatorKind := by
  refine fun lo => .view fun k => ?_
  split
  · refine .read <| .skip (places_modify (fun s hs => hJ.turn hs (.joinGreater s)) ?_ ?_ ?_)
      fun _ => ?_
    · exact fun s hs => (J.footed hs).lexer.joinGreater.2
    · exact fun s => ⟨rfl, rfl, rfl⟩
    · intro s _ h
      unfold ParseState.Excused ParseState.Reported
      rw [Lexer.log_joinGreater]
      exact h
    · exact .get fun s => .pure (List.Sublist.refl _)
  · exact .pure (List.Sublist.refl _)

/-- A token that is taken if it stands here. -/
lemma lays_optional (k : Kind) (lo : Nat) :
    Lays J lo [] (optional k) fun taken => if taken then [.token] else [] := by
  refine .view fun here => ?_
  split
  · exact .take takes_advance fun _ => .pure (List.Sublist.refl _)
  · exact .pure (List.Sublist.refl _)

/-! ## Reports -/

/-- A report at a span that is valid where all is arranged. -/
lemma laysFrom_reportAt (hs : J.mem s) (hspan : Arranged env lo s held → span.Valid env.src)
    (m : Message) (args : List String) :
    LaysFrom J lo s held (reportAt span m args) fun _ => held ++ [.fault] := by
  intro a t e
  cases e
  have hstep : Step env s (s.report span m args) := .report s span m args
  obtain ⟨-, honward⟩ := hstep.footed (J.footed hs)
  exact ⟨J.step hs hstep, honward, fun h => h.report honward (s.report_frame span m args).1
    (fun _ => ParseState.mem_log_report) (hspan h) ((J.sound hs).report span m args)⟩

lemma faults_reportAt (hspan : span.Valid env.src) (m : Message) (args : List String) :
    Faults J (reportAt span m args) :=
  fun _ _ hs => laysFrom_reportAt hs (fun _ => hspan) m args

lemma faults_report (m : Message) (args : List String) : Faults J (report m args) :=
  fun _ => .tokenSpan fun _ hspan => faults_reportAt hspan m args _

/-- A token that is taken, or reported if it is missing. -/
lemma lays_expect (k : Kind) (lo : Nat) :
    Lays J lo [] (expect k) fun taken => if taken then [.token] else [.fault] := by
  refine .use (lays_optional k) fun taken => ?_
  cases taken with
  | true => exact .pure (List.Sublist.refl _)
  | false => exact .faulty (faults_report _ _) fun _ => .pure (List.Sublist.refl _)

lemma takes_require (k : Kind) : Takes J (require k) := by
  refine fun lo => .use (lays_expect k) fun taken => ?_
  cases taken with
  | true => exact .pure (List.Sublist.refl _)
  | false =>
    refine .excuse (p := fun _ => [.fault]) (fun _ => List.mem_cons_self)
      (.pure (List.Sublist.refl _)) fun _ m hm => ?_
    exact .inr (.inl (List.mem_singleton.1 hm))

/-! ## Nodes -/

section

variable {s : ParseState} (hspan : span = s.spanFrom lo) (hbegun : Begun held)

include hspan hbegun

lemma laysFrom_allocExpr (hs : J.mem s) {form : ExprForm} (hsub : (marks form).Sublist held) :
    LaysFrom J lo s held (allocExpr form span) marks := by
  intro a t e
  cases e
  have hstep : Step env s _ := .alloc s (.expr ⟨form, span⟩)
  obtain ⟨-, honward⟩ := hstep.footed (J.footed hs)
  exact ⟨J.step hs hstep, honward, fun h =>
    h.alloc (.expr ⟨form, span⟩) (J.footed hs) hspan List.mem_cons_self hsub hbegun⟩

lemma laysFrom_allocType (hs : J.mem s) {form : TypeForm} (hsub : (marks form).Sublist held) :
    LaysFrom J lo s held (allocType form span) marks := by
  intro a t e
  cases e
  have hstep : Step env s _ := .alloc s (.type ⟨form, span⟩)
  obtain ⟨-, honward⟩ := hstep.footed (J.footed hs)
  exact ⟨J.step hs hstep, honward, fun h =>
    h.alloc (.type ⟨form, span⟩) (J.footed hs) hspan List.mem_cons_self hsub hbegun⟩

lemma laysFrom_allocPattern (hs : J.mem s) {form : PatternForm}
    (hsub : (marks form).Sublist held) : LaysFrom J lo s held (allocPattern form span) marks := by
  intro a t e
  cases e
  have hstep : Step env s _ := .alloc s (.pattern ⟨form, span⟩)
  obtain ⟨-, honward⟩ := hstep.footed (J.footed hs)
  exact ⟨J.step hs hstep, honward, fun h =>
    h.alloc (.pattern ⟨form, span⟩) (J.footed hs) hspan List.mem_cons_self hsub hbegun⟩

/-- The parts of a declaration are laid in one of the orders in which they may be read. -/
lemma laysFrom_allocDecl (hs : J.mem s) {node : DeclNode} (hnode : node.span = span)
    (hreading : reading ∈ (Node.decl node).readings) (hsub : reading.Sublist held) :
    LaysFrom J lo s held (allocDecl node) marks := by
  intro a t e
  cases e
  have hstep : Step env s _ := .alloc s (.decl node)
  obtain ⟨-, honward⟩ := hstep.footed (J.footed hs)
  exact ⟨J.step hs hstep, honward, fun h =>
    h.alloc (.decl node) (J.footed hs) (hnode.trans hspan) hreading hsub hbegun⟩

end

lemma lays_exprFrom {form : ExprForm} (hsub : (marks form).Sublist held) (hbegun : Begun held) :
    Lays J lo held (exprFrom lo form) marks :=
  fun _ hs => .view (laysFrom_allocExpr rfl hbegun hs hsub)

lemma lays_typeFrom {form : TypeForm} (hsub : (marks form).Sublist held) (hbegun : Begun held) :
    Lays J lo held (typeFrom lo form) marks :=
  fun _ hs => .view (laysFrom_allocType rfl hbegun hs hsub)

lemma lays_patternFrom {form : PatternForm} (hsub : (marks form).Sublist held)
    (hbegun : Begun held) : Lays J lo held (patternFrom lo form) marks :=
  fun _ hs => .view (laysFrom_allocPattern rfl hbegun hs hsub)

/-- A span up to the last token taken, behind a single token, is the span of that token. -/
lemma spanFrom_of_advance {u : Unit} (hs : s.Footed env) (e : advance env s = some (u, t)) :
    t.spanFrom s.lexer.start = s.lexer.span := by
  cases e
  unfold ParseState.spanFrom
  rw [ParseState.Footed.prevStop_advance, Nat.max_eq_left hs.lexer.start_le]
  rfl

/-! A node is allocated without a token being taken. -/

lemma spanFrom_of_allocExpr {form : ExprForm} {id : ExprId}
    (e : allocExpr form span env s = some (id, t)) : t.spanFrom lo = s.spanFrom lo := by
  cases e
  rfl

lemma spanFrom_of_allocType {form : TypeForm} {id : TypeId}
    (e : allocType form span env s = some (id, t)) : t.spanFrom lo = s.spanFrom lo := by
  cases e
  rfl

section

variable (hspan : span.Valid env.src) (hfault : .fault ∈ held)

include hspan hfault

lemma lays_allocExpr_fault {form : ExprForm} (hsub : (marks form).Sublist held) :
    Lays J lo held (allocExpr form span) fun id => .fault :: marks id := by
  intro s hs a t e
  cases e
  have hstep : Step env s _ := .alloc s (.expr ⟨form, span⟩)
  obtain ⟨-, honward⟩ := hstep.footed (J.footed hs)
  exact ⟨J.step hs hstep, honward, fun h =>
    h.alloc_fault (.expr ⟨form, span⟩) hfault hspan hsub⟩

lemma lays_allocType_fault {form : TypeForm} (hsub : (marks form).Sublist held) :
    Lays J lo held (allocType form span) fun id => .fault :: marks id := by
  intro s hs a t e
  cases e
  have hstep : Step env s _ := .alloc s (.type ⟨form, span⟩)
  obtain ⟨-, honward⟩ := hstep.footed (J.footed hs)
  exact ⟨J.step hs hstep, honward, fun h =>
    h.alloc_fault (.type ⟨form, span⟩) hfault hspan hsub⟩

lemma lays_allocPattern_fault {form : PatternForm} (hsub : (marks form).Sublist held) :
    Lays J lo held (allocPattern form span) fun id => .fault :: marks id := by
  intro s hs a t e
  cases e
  have hstep : Step env s _ := .alloc s (.pattern ⟨form, span⟩)
  obtain ⟨-, honward⟩ := hstep.footed (J.footed hs)
  exact ⟨J.step hs hstep, honward, fun h =>
    h.alloc_fault (.pattern ⟨form, span⟩) hfault hspan hsub⟩

lemma lays_allocDecl_fault {node : DeclNode} (hnode : node.span = span)
    (hsub : (marks node).Sublist held) :
    Lays J lo held (allocDecl node) fun id => .fault :: marks id := by
  intro s hs a t e
  cases e
  have hstep : Step env s _ := .alloc s (.decl node)
  obtain ⟨-, honward⟩ := hstep.footed (J.footed hs)
  exact ⟨J.step hs hstep, honward, fun h =>
    h.alloc_fault (.decl node) hfault (show node.span.Valid env.src from hnode ▸ hspan) hsub⟩

lemma lays_errorExpr : Lays J lo held (errorExpr span) marks :=
  (lays_allocExpr_fault hspan hfault (List.nil_sublist _)).forget fun _ =>
    List.sublist_cons_self _ _

end

/-! ## Names -/

lemma places_intern (text : String) : Places J (intern text) :=
  places_modify (fun s hs => J.step hs (.intern s text)) (fun _ _ => rfl) (fun _ => ⟨rfl, rfl, rfl⟩)
    fun _ _ h => h

lemma places_name (text : String) (hspan : span.Valid env.src) : Places J (name text span) :=
  fun _ => .skip (places_intern text) fun _ => .hold hspan (.pure (List.Sublist.refl _))

lemma places_missingName : Places J missingName :=
  fun _ => .edge fun _ hpos => places_name "" (.empty hpos) _

/-- A name takes a token, or it is reported that it is missing. -/
lemma lays_identifier (lo : Nat) : Lays J lo [] identifier fun n => .token :: marks n := by
  refine .view fun k => ?_
  split
  · refine .view fun text => .tokenSpan fun span hspan => .first (places_name text hspan) fun n => ?_
    exact .take takes_advance fun _ => .begun (by simp) (.pure (by simp))
  · refine .faulty (faults_report _ _) fun _ => ?_
    refine .excuse (fun n => ?_) (.frame places_missingName _) fun n m hm => ?_
    · simp
    · simp only [List.mem_cons] at hm
      simp
      tauto

lemma places_identifier : Places J identifier :=
  fun lo => (lays_identifier lo).forget fun _ => List.sublist_cons_self _ _

lemma lays_dottedNameRound {held : List Mark} (path : List Name) (lo : Nat) :
    Lays J lo (held ++ marks path) (dottedNameRound path)
      (Sum.elim (fun path => held ++ marks path) fun path => held ++ marks path) := by
  refine .view fun more => ?_
  split
  · refine .skip takes_advance fun _ => ?_
    exact .next places_identifier fun n => .pure (by simp)
  · exact .pure (List.Sublist.refl _)

lemma lays_dottedName (lo : Nat) : Lays J lo [] dottedName fun path => .token :: marks path := by
  refine .use lays_identifier fun first => ?_
  exact (Lays.loop (q := fun path => [.token] ++ marks path)
    (lays_dottedNameRound · lo) [first]).of_eq (by simp)

lemma places_dottedName : Places J dottedName :=
  fun lo => (lays_dottedName lo).forget fun _ => List.sublist_cons_self _ _

lemma places_label? : Places J label? := by
  refine fun lo => .view fun here => ?_
  split
  · refine .first places_identifier fun n => ?_
    exact .skip takes_advance fun _ => .pure (List.Sublist.refl _)
  · exact .pure (List.Sublist.refl _)

/-! ## Lists -/

section

variable [HasMarks α] {element : Rule α}

/-- A round of a list whose elements use something that stays as it is. -/
lemma lays_listRound (close : Kind)
    (h : ∀ items : List α, Lays J lo (held ++ marks items) element
      fun a => held ++ marks items ++ marks a) (items : List α) :
    Lays J lo (held ++ marks items) (listRound close element items)
      (Sum.elim (fun items => held ++ marks items) fun items => held ++ marks items) := by
  refine .view fun k => ?_
  split
  · exact .pure (List.Sublist.refl _)
  · refine .bind (h items) fun a => .skip (lays_optional _) fun comma => ?_
    split
    · exact .pure (by simp)
    · exact .pure (by simp)

lemma lays_list (close : Kind)
    (h : ∀ items : List α, Lays J lo (held ++ marks items) element
      fun a => held ++ marks items ++ marks a) :
    Lays J lo held (list close element) fun items => held ++ marks items :=
  .of_eq (by simp) (Lays.loop (q := fun items => held ++ marks items) (lays_listRound close h) [])

lemma places_list (close : Kind) (h : Places J element) : Places J (list close element) :=
  fun _ => lays_list close fun _ => .frame h _

lemma places_behind (k : Kind) (h : Places J element) : Places J (behind k element) := by
  refine fun lo => .skip (lays_optional k) fun here => ?_
  split
  · exact .first h fun a => .pure (List.Sublist.refl _)
  · exact .pure (List.Sublist.refl _)

lemma lays_separatedRound (separator : Kind) (h : Places J element) (items : List α) (lo : Nat) :
    Lays J lo (marks items) (separatedRound separator element items) marks := by
  refine .skip (lays_optional separator) fun more => ?_
  split
  · exact .next h fun a => .pure (by simp)
  · exact .pure (List.Sublist.refl _)

lemma places_separated (separator : Kind) (h : Places J element) :
    Places J (separated separator element) := by
  refine fun lo => .first h fun first => ?_
  exact (Lays.loop_marks (lays_separatedRound separator h · lo) [first]).of_eq (by simp)

end

/-! ## Nesting and tentative readings -/

/-- Past the depth allowed, the report stands for the fault. -/
lemma places_nested [HasMarks α] {fallback : Span → Rule α} {body : Rule α}
    (hfallback : ∀ lo span, span.Valid env.src → Lays J lo [.fault] (fallback span) marks)
    (hbody : Places J body) : Places J (nested fallback body) := by
  intro lo s hs
  change LaysFrom J lo s [] (if env.settings.maxDepth ≤ s.depth then _ else _) marks
  have hfooted := J.footed hs
  split
  · refine .view (.bind (p := fun _ => [.fault]) ?_ fun _ u _ hu =>
      hfallback lo _ hfooted.lexer.span u hu)
    intro a t e
    cases e
    have hstep : Step env s (s.reportDepth s.lexer.span env.settings.maxDepth) := .reportDepth s _
    obtain ⟨-, honward⟩ := hstep.footed hfooted
    exact ⟨J.step hs hstep, honward, fun h => h.report honward (s.reportDepth_frame _ _).1
      (fun _ => ParseState.mem_log_reportDepth) hfooted.lexer.span ((J.sound hs).reportDepth _ _)⟩
  case isFalse hdepth =>
    refine .bind (p := fun _ => []) ?_ fun _ u _ hu => .bind (hbody lo u hu) fun a v _ hv =>
      .bind (p := fun _ => marks a) ?_ fun _ w _ hw => Lays.pure (List.Sublist.refl _) w hw
    · intro a t e
      cases e
      have hstep : Step env s _ := .deeper (Nat.lt_of_not_le hdepth)
      exact ⟨J.step hs hstep, (hstep.footed hfooted).2,
        fun h => h.of_frame rfl rfl rfl rfl id⟩
    · intro a t e
      cases e
      have hstep : Step env v _ := .shallower v
      exact ⟨J.step hv hstep, (hstep.footed (J.footed hv)).2, fun h => h.of_frame rfl rfl rfl rfl id⟩

/-- An attempt that is committed lays out what its body does, and one that is given up leaves all as
it was. -/
lemma places_attempt [HasMarks α] (hJ : J.Settled) {body : Rule (Option α)}
    (h : ∀ K : Ground env, Places K body) : Places J (attempt body) := by
  intro lo s hs a t e
  have hfooted := J.footed hs
  have hsettled := hJ.tentative hs
  obtain ⟨result, u, hrun, hend⟩ := attempt_eq_some e
  -- The body keeps to the states of this attempt, which are a region of their own.
  have hentered : (Region.attempt env (J.sound hs)).ground.mem
      (s.enterTentative env.settings.budget) := ⟨.refl, hfooted.of_frame rfl rfl⟩
  obtain ⟨⟨htries, -⟩, -, harranged⟩ :=
    h (Region.attempt env (J.sound hs)).ground lo _ hentered result u hrun
  obtain ⟨b, rfl, hfailed, rfl, rfl⟩ | ⟨-, rfl, rfl⟩ := hend
  · have hturn : Turn env s (s.commit u) := .commit htries hfailed
    refine ⟨hJ.turn hs hturn, (hturn.footed hsettled hfooted).2, fun hpre => ?_⟩
    have hu := harranged (hpre.of_frame rfl rfl rfl rfl
      (ParseState.excused_enterTentative hsettled _).2)
    -- The attempt has not failed, so that what is excused in it has been reported.
    exact hu.of_frame rfl rfl rfl rfl fun hexcused => .inl (hexcused.resolve_right (by simp [hfailed]))
  · have hturn : Turn env s (s.giveUp u) := .giveUp htries
    refine ⟨hJ.turn hs hturn, (hturn.footed hsettled hfooted).2, fun hpre => ?_⟩
    have nothing : marks (if u.tentative.exhausted then .exhausted else .rewound : Attempt α) = [] := by
      split <;> rfl
    rw [(Inside.of_tries hsettled htries).giveUp_eq hsettled, nothing]
    exact hpre.of_frame rfl rfl rfl rfl id

/-- A rule in the body of a type. -/
lemma lays_enclosedBy (hJ : J.Settled) {owner : Option String} {body : Rule α} {pre : List Mark}
    {post : α → List Mark} (h : Lays J lo pre body post) :
    Lays J lo pre (enclosedBy owner body) post := by
  have encloses (owner : Option String) (ms : List Mark) :
      Lays J lo ms (modify fun s => { s with enclosingType := owner } : Rule Unit) fun _ => ms := by
    intro s hs a t e
    cases e
    have hturn : Turn env s _ := .enclose s owner
    exact ⟨hJ.turn hs hturn, (hturn.footed (hJ.tentative hs) (J.footed hs)).2,
      fun h => h.of_frame rfl rfl rfl rfl id⟩
  exact .get fun s => .bind (encloses owner pre) fun _ => .bind h fun a =>
    .bind (encloses _ _) fun _ => .pure (List.Sublist.refl _)

end Rule

end CangjieSyntax
