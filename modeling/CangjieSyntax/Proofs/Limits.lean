import CangjieSyntax.Proofs.Parse
import CangjieSyntax.Proofs.Twin.Lambda

/-!
# Limits and clean parses

A parse has diagnostics just where it has met a fault. One without diagnostics comes to the same end
under settings that allow more: more tokens in an attempt, and also more nesting if no `<` was found
to be a comparison. Where one was, it may have been for want of nesting.
-/

namespace CangjieSyntax

variable {env : Env} {src : Source} {settings settings' : Settings} {s t t' : ParseState}
  {α : Type}

/-! ## Faults are reported -/

/-- Only an error of the lexer makes a token count as a fault. -/
lemma ParseState.errorCount_advance (src : Source) (s : ParseState) :
    (s.advance src).errorCount = s.errorCount ∨ (s.advance src).lexer.log ≠ #[] := by
  obtain ⟨tentative, -, -, -, e⟩ := checkLimit_eq { s with
    prevStop := s.lexer.pos, prevSpan := s.lexer.span, prevKind := s.lexer.kind
    tokenCount := s.tokenCount + 1 }
  unfold advance
  dsimp only
  rw [e]
  split
  case isTrue hgrown =>
    have hlog : (s.lexer.scanKnown src).log ≠ #[] := fun h => by simp [h] at hgrown
    right
    unfold lexicalFault
    split
    · exact hlog
    · exact hlog
  case isFalse => exact .inl rfl

/-- A fault that is met outside attempts is reported, if those before it are. -/
lemma Step.reported_of_counted (hstep : Step env s t) (hsettled : s.tentative = {}) (h : s.Sound)
    (before : s.errorCount ≠ 0 → s.Reported) (ht : t.errorCount ≠ 0) : t.Reported := by
  have spoken {u : ParseState} (hstep : Step env s u) (hu : u.Excused) : u.Reported :=
    hu.resolve_right (by simp [hstep.settled hsettled])
  have hkeep := hstep.reported
  cases hstep with
  | advance =>
    obtain hcount | hlog := s.errorCount_advance env.src
    · exact hkeep (before (hcount ▸ ht))
    · exact .inr hlog
  | report span m args => exact spoken (.report s span m args) (h.report span m args)
  | reportDepth span => exact spoken (.reportDepth s span) (h.reportDepth span _)
  | alloc => exact before ht
  | intern => exact before ht
  | deeper => exact before ht
  | shallower => exact before ht

lemma Turn.reported_of_counted (hturn : Turn env s t) (hsettled : s.tentative = {})
    (before : s.errorCount ≠ 0 → s.Reported) (ht : t.errorCount ≠ 0) : t.Reported := by
  cases hturn with
  | unmute => exact before ht
  | joinGreater =>
    unfold ParseState.Reported
    rw [Lexer.log_joinGreater]
    exact before ht
  | remember start => exact before ht
  | enclose owner => exact before ht
  | commit htries ok =>
    have inside := Inside.of_tries hsettled htries
    have hcontext := inside.context
    simp only [ParseState.context, Prod.mk.injEq] at hcontext
    obtain ⟨log, -, -, -, errorCount, -⟩ := hcontext
    have scanned := inside.scanned.resolve_left (by simp [ok])
    have counted : s.errorCount ≠ 0 := errorCount ▸ ht
    exact (before counted).imp (log ▸ ·) (scanned ▸ ·)
  | giveUp htries =>
    rw [(Inside.of_tries hsettled htries).giveUp_eq hsettled] at ht ⊢
    exact before ht

/-- Whatever fault has been met has been reported. -/
theorem Reachable.reported (h : Reachable env s) : s.errorCount ≠ 0 → s.Reported := by
  induction h with
  | file names => exact fun h => absurd rfl h
  | expression offset => exact fun h => absurd rfl h
  | step hs hstep ih => exact hstep.reported_of_counted hs.settled hs.sound ih
  | turn hs hturn ih => exact hturn.reported_of_counted hs.settled ih

/-- Outside attempts a report counts as a fault. -/
lemma ParseState.errorCount_report (hs : s.tentative = {}) (span : Span) (m : Message)
    (args : List String) : (s.report span m args).errorCount = s.errorCount + 1 := by
  unfold report
  rw [if_neg (by simp [isTentative, hs])]
  dsimp only
  split <;> rfl

lemma ParseState.errorCount_reportDepth (hs : s.tentative = {}) (span : Span) (maxDepth : Nat) :
    (s.reportDepth span maxDepth).errorCount = s.errorCount + 1 := by
  unfold reportDepth
  rw [if_neg (by simp [isTentative, hs])]

/-- Outside attempts, a token behind which the lexer has reported something counts as a fault. -/
lemma ParseState.counted_advance (hs : s.tentative = {})
    (before : s.Reported → s.errorCount ≠ 0) (ht : (s.advance src).Reported) :
    (s.advance src).errorCount ≠ 0 := by
  have unlimited := checkLimit_of_settled (s := { s with
    prevStop := s.lexer.pos, prevSpan := s.lexer.span, prevKind := s.lexer.kind
    tokenCount := s.tokenCount + 1 }) hs
  unfold advance at ht ⊢
  dsimp only at ht ⊢
  rw [unlimited] at ht ⊢
  split at ht
  case isTrue hgrown =>
    rw [if_pos hgrown]
    unfold lexicalFault
    rw [if_neg (by simp [isTentative, hs])]
    exact Nat.succ_ne_zero _
  case isFalse hsame =>
    rw [if_neg hsame]
    -- The log behind the token has the one in front of it as a prefix, and is not longer.
    have hlog := (Lexer.log_scanKnown src s.lexer).eq_of_length_le (by simpa using hsame)
    exact before (ht.imp_right ((Array.toList_inj.1 hlog).trans_ne ·))

/-- What is reported outside attempts counts as a fault, if what was reported before does. -/
lemma Step.counted_of_reported (hstep : Step env s t) (hsettled : s.tentative = {})
    (before : s.Reported → s.errorCount ≠ 0) (ht : t.Reported) : t.errorCount ≠ 0 := by
  cases hstep with
  | advance => exact ParseState.counted_advance hsettled before ht
  | report span m args =>
    rw [ParseState.errorCount_report hsettled]
    exact Nat.succ_ne_zero _
  | reportDepth span =>
    rw [ParseState.errorCount_reportDepth hsettled]
    exact Nat.succ_ne_zero _
  | alloc | intern | deeper | shallower => exact before ht

lemma Turn.counted_of_reported (hturn : Turn env s t) (hsettled : s.tentative = {})
    (before : s.Reported → s.errorCount ≠ 0) (ht : t.Reported) : t.errorCount ≠ 0 := by
  cases hturn with
  | unmute | remember | enclose => exact before ht
  | joinGreater =>
    unfold ParseState.Reported at ht
    rw [Lexer.log_joinGreater] at ht
    exact before ht
  | commit htries ok =>
    have inside := Inside.of_tries hsettled htries
    have hcontext := inside.context
    simp only [ParseState.context, Prod.mk.injEq] at hcontext
    obtain ⟨log, -, -, -, errorCount, -⟩ := hcontext
    have scanned := inside.scanned.resolve_left (by simp [ok])
    have counted := before (ht.imp (log ▸ ·) (scanned ▸ ·))
    exact errorCount.trans_ne counted
  | giveUp htries =>
    rw [(Inside.of_tries hsettled htries).giveUp_eq hsettled] at ht ⊢
    exact before ht

/-- Whatever has been reported has been counted as a fault. -/
theorem Reachable.counted (h : Reachable env s) : s.Reported → s.errorCount ≠ 0 := by
  induction h with
  | file | expression => rintro (hlog | hlog) <;> exact absurd rfl hlog
  | step hs hstep ih => exact hstep.counted_of_reported hs.settled ih
  | turn hs hturn ih => exact hturn.counted_of_reported hs.settled ih

/-- There are no diagnostics just where no fault has been met. -/
theorem Reachable.diagnostics_eq_empty (h : Reachable env s) :
    s.diagnostics = #[] ↔ s.errorCount = 0 := by
  have hlogs : s.diagnostics ≠ #[] ↔ s.Reported := by
    have hsize : s.diagnostics.size = s.lexer.log.size + s.log.size := by
      simp [ParseState.diagnostics, Log.sorted]
    unfold ParseState.Reported
    rw [Ne, Ne, Ne, ← Array.size_eq_zero_iff, ← Array.size_eq_zero_iff, ← Array.size_eq_zero_iff]
    omega
  exact not_iff_not.1 (hlogs.trans ⟨h.counted, h.reported⟩)

/-- In a parse without diagnostics no fault has been met. -/
lemma Reachable.errorCount_eq_zero (h : Reachable env t)
    (hclean : settings.locate t.diagnostics = #[]) : t.errorCount = 0 := by
  by_contra hcount
  exact diagnostics_of_excused settings h (.inl (h.reported hcount)) hclean

lemma Reachable.clear (h : Reachable env t) (hclean : settings.locate t.diagnostics = #[])
    (hlimit : settings.maxDepth = settings'.maxDepth ∨ t.comparisons = []) :
    Clear settings settings' 0 t where
  errorCount := h.errorCount_eq_zero hclean
  attempts := by rw [h.settled]
  comparisons := hlimit

/-! ## Runs under two settings -/

/-- What two runs of one rule on one text give is the same: a value, nodes, the place behind it, and
reports. -/
structure SameRun (t t' : ParseState) : Prop where
  nodes : t'.nodes = t.nodes
  prevStop : t'.prevStop = t.prevStop
  diagnostics : t'.diagnostics = t.diagnostics

lemma Settings.Within.sameRun {h : settings.Within settings'} (halike : (h.outside src).Alike t t') :
    SameRun t t' where
  nodes := halike.nodes.trans (Nodes.appendMoved_refl _)
  prevStop := halike.prevStop
  diagnostics := by
    have lexer : t'.lexer = t.lexer := halike.lexes
    have log : t'.log = #[] ++ t.log.map (move .refl) := halike.log
    rw [move_refl_eq_id, Array.map_id, Array.empty_append] at log
    rw [ParseState.diagnostics, ParseState.diagnostics, lexer, log]

section

variable [Moves α] [HasParts α] {rule : Call → Rule α} {a : α}
  (h : settings.Within settings')
  (hyields : ∀ call, Obeys (.reachable { src, settings }) call →
    Yields (.reachable { src, settings }) (rule call))
  (hfollows : ∀ {call}, Calls (h.outside src) call call →
    Follows (h.outside src) (rule call) (move .refl) (rule call))
  (hs : Reachable { src, settings } s)
  (hrun : Rule.runFrom { src, settings } rule s = some (a, t))
  (hclean : settings.locate t.diagnostics = #[])
  (hlimit : settings.maxDepth = settings'.maxDepth ∨ t.comparisons = [])

include h hyields hfollows hs hrun hclean hlimit

/-- A rule that is run without diagnostics gives the same under settings that allow more. -/
theorem Rule.runFrom_of_within :
    ∃ t', runFrom { src, settings := settings' } rule s = some (a, t') ∧ SameRun t t' := by
  have clear : Clear settings settings' 0 t :=
    (runFrom_keeps (Region.settled_reachable _) hyields hs hrun).1.clear hclean hlimit
  have start : Follows (h.outside src) begin id begin :=
    .bind_id follows_advance fun _ => follows_unmute
  have nesting : Env.nesting { src, settings } = Env.nesting { src, settings := settings' } := by
    unfold Env.nesting Env.rounds
    rfl
  have follows : Follows (h.outside src) (do begin; rule (callTo (Env.nesting { src, settings })))
      (move .refl) (do begin; rule (callTo (Env.nesting { src, settings := settings' }))) := by
    rw [← nesting]
    exact .bind_id start fun _ => hfollows (tied_callTo h src _).calls
  obtain ⟨t', ht', halike⟩ := follows.run (h.alike_refl src hs.settled) hrun clear
  rw [move_refl] at ht'
  exact ⟨t', ht', h.sameRun halike⟩

end

/-! ## The budget -/

section

variable {budget : Nat} (hbudget : settings.budget ≤ budget)

include hbudget

lemma Source.parseFile_of_budget_le {names names' : NameTable} {p : FileParse}
    (hp : src.parseFile settings names = some (p, names')) (hclean : p.diagnostics = #[]) :
    ∃ names', src.parseFile { settings with budget } names = some (p, names') := by
  have h : settings.Within { settings with budget } := ⟨le_rfl, hbudget⟩
  obtain ⟨⟨tree, t⟩, hrun, e⟩ := Option.map_eq_some_iff.1 hp
  cases e
  obtain ⟨t', hrun', same⟩ := Rule.runFrom_of_within h
    (fun _ => Rule.yields_file (Region.settled_reachable _)) Rule.follows_file (.file names) hrun
    hclean (.inl rfl)
  refine ⟨t'.names, Option.map_eq_some_iff.2 ⟨_, hrun', ?_⟩⟩
  dsimp only
  rw [same.nodes, same.diagnostics]
  rfl

lemma Source.parseExpression_of_budget_le {offset : Nat} {p : ExprParse}
    (hp : src.parseExpression offset settings = some p) (hclean : p.diagnostics = #[]) :
    src.parseExpression offset { settings with budget } = some p := by
  have h : settings.Within { settings with budget } := ⟨le_rfl, hbudget⟩
  obtain ⟨⟨expr, t⟩, hrun, rfl⟩ := Option.map_eq_some_iff.1 hp
  obtain ⟨t', hrun', same⟩ := Rule.runFrom_of_within h
    (fun _ => Rule.yields_statement (Region.settled_reachable _)) Rule.follows_statement
    (.expression offset) hrun hclean (.inl rfl)
  refine Option.map_eq_some_iff.2 ⟨_, hrun', ?_⟩
  dsimp only
  rw [same.nodes, same.prevStop, same.diagnostics]
  rfl

/-- What is parsed without diagnostics is parsed to the same with more tokens for each attempt. -/
theorem parse_of_budget_le (bytes : ByteArray) :
    (∀ p, parseFile bytes settings = some p → p.diagnostics = #[] →
      parseFile bytes { settings with budget } = some p)
      ∧ ∀ offset p, parseExpression bytes offset settings = some p → p.diagnostics = #[] →
        parseExpression bytes offset { settings with budget } = some p := by
  refine ⟨fun p hp hclean => ?_, fun offset p hp hclean => ?_⟩
  · obtain ⟨⟨_, names⟩, hinto, rfl⟩ := Option.map_eq_some_iff.1 hp
    refine Option.map_eq_some_iff.2 ?_
    unfold parseFileInto at hinto ⊢
    split at hinto
    case h_1 src _ =>
      obtain ⟨names', hp'⟩ := Source.parseFile_of_budget_le hbudget hinto hclean
      exact ⟨_, hp', rfl⟩
    case h_2 => exact ⟨_, hinto, rfl⟩
  · unfold parseExpression at hp ⊢
    dsimp only at hp ⊢
    split at hp
    case h_1 src _ => exact Source.parseExpression_of_budget_le hbudget hp hclean
    case h_2 => exact hp

end

/-- A lambda without parameters, which are looked for in vain, and one with parameters. -/
theorem parse_of_budget_le_of_lambda :
    (∃ p, parseFile "let x = f \x7b a; b \x7d".toUTF8 { budget := 0 } = some p
      ∧ parseFile "let x = f \x7b a; b \x7d".toUTF8 { budget := 100 } = some p)
      ∧ ∃ p, parseExpression "f \x7b a, b: C<D> => a \x7d".toUTF8 0 { budget := 9 } = some p
        ∧ parseExpression "f \x7b a, b: C<D> => a \x7d".toUTF8 0 { budget := 100 } = some p := by
  have file : (parseFile "let x = f \x7b a; b \x7d".toUTF8 { budget := 0 }).map
      (fun p => p.diagnostics.size) = some 0 := by decide +kernel
  have expression : (parseExpression "f \x7b a, b: C<D> => a \x7d".toUTF8 0 { budget := 9 }).map
      (fun p => p.diagnostics.size) = some 0 := by decide +kernel
  obtain ⟨p, hp, size⟩ := Option.map_eq_some_iff.1 file
  obtain ⟨q, hq, size'⟩ := Option.map_eq_some_iff.1 expression
  have clean := Array.eq_empty_of_size_eq_zero size
  have clean' := Array.eq_empty_of_size_eq_zero size'
  exact ⟨⟨p, hp, (parse_of_budget_le (by decide) _).1 p hp clean⟩, q, hq,
    (parse_of_budget_le (by decide) _).2 0 q hq clean'⟩

end CangjieSyntax
