import CangjieSyntax.Proofs.Invariant.Precedence

/-!
# Placeholders

A placeholder stands in the tree where a fault was met in the place of an expression. Outside attempts
a fault is reported, unless the last report was made at the same offset or reports are held back
behind a fatal one. Without a fatal fault, then, every placeholder starts where a diagnostic does.
The spans may differ: a `>` at which something is reported as missing can be joined to what touches
it before a placeholder is made of it.
-/

namespace CangjieSyntax

open ExprForm (IsPrimary)

variable {env : Env} {s t : ParseState} {pos : Nat}

namespace ParseState

/-- A fault has been reported at the offset. -/
def Marks (s : ParseState) (pos : Nat) : Prop :=
  ∃ d ∈ s.log, d.span.start = pos

/-- The offset for which faults are held back has a report, and unless something fatal has been
reported, so has each offset where a placeholder starts. -/
structure Marked (s : ParseState) : Prop extends s.Candid False where
  held : ∀ pos, s.lastErrorStart = some pos → s.Marks pos
  placeholders : s.Fatal ∨ ∀ id node, s.nodes.exprs.get? id = some node → node.form = .error →
    s.Marks node.span.start

end ParseState

/-! ## Steps -/

/-- Reports stay, and the offset for which faults are held back is the one of the last report. -/
lemma Step.marks (hstep : Step env s t) : (∀ pos, s.Marks pos → t.Marks pos)
    ∧ ∀ pos, t.lastErrorStart = some pos → s.lastErrorStart = some pos ∨ t.Marks pos := by
  cases hstep with
  | advance =>
    obtain ⟨tentative, errorCount, muted, -, -, -, e⟩ := s.advance_eq env.src
    rw [e]
    exact ⟨fun _ => id, fun _ => .inl⟩
  | report span m args =>
    unfold ParseState.report
    dsimp only
    split
    · exact ⟨fun _ => id, fun _ => .inl⟩
    · split
      · exact ⟨fun _ => id, fun _ => .inl⟩
      · refine ⟨fun _ ⟨d, hd, e⟩ => ⟨d, Array.mem_push_of_mem _ hd, e⟩, fun pos e => .inr ?_⟩
        exact ⟨_, Array.mem_push_self, Option.some.inj e⟩
  | reportDepth span =>
    unfold ParseState.reportDepth
    split
    · exact ⟨fun _ => id, fun _ => .inl⟩
    · refine ⟨fun _ ⟨d, hd, e⟩ => ⟨d, ?_, e⟩, fun _ => .inl⟩
      dsimp only
      split
      · exact hd
      · exact Array.mem_push_of_mem _ hd
  | alloc => exact ⟨fun _ => id, fun _ => .inl⟩
  | intern => exact ⟨fun _ => id, fun _ => .inl⟩
  | deeper => exact ⟨fun _ => id, fun _ => .inl⟩
  | shallower => exact ⟨fun _ => id, fun _ => .inl⟩

/-- A step outside attempts reports nothing. -/
lemma Turn.log_eq (hs : s.tentative = {}) (hturn : Turn env s t) :
    t.log = s.log ∧ t.lastErrorStart = s.lastErrorStart := by
  cases hturn with
  | unmute | joinGreater | remember | enclose => exact ⟨rfl, rfl⟩
  | @commit u htries =>
    have hcontext := (Inside.of_tries hs htries).context
    simp only [ParseState.context, Prod.mk.injEq] at hcontext
    obtain ⟨log, -, -, lastErrorStart, -, -⟩ := hcontext
    exact ⟨log, lastErrorStart⟩
  | giveUp htries =>
    rw [(Inside.of_tries hs htries).giveUp_eq hs]
    exact ⟨rfl, rfl⟩

namespace ParseState.Marked

/-- What keeps the reports and the expressions keeps a state marked. -/
lemma of_frame (h : s.Marked) (ht : t.Candid False) (hfatal : s.Fatal → t.Fatal)
    (hmarks : ∀ pos, s.Marks pos → t.Marks pos)
    (hheld : ∀ pos, t.lastErrorStart = some pos → s.lastErrorStart = some pos ∨ t.Marks pos)
    (e : t.nodes.exprs = s.nodes.exprs) : t.Marked where
  toCandid := ht
  held pos hpos := (hheld pos hpos).elim (fun hpos => hmarks pos (h.held pos hpos)) id
  placeholders := by
    refine h.placeholders.imp hfatal fun hplaced id node hnode herror => ?_
    exact hmarks _ (hplaced id node (e ▸ hnode) herror)

lemma step (h : s.Marked) (hstep : Step env s t) (e : t.nodes.exprs = s.nodes.exprs) : t.Marked :=
  h.of_frame (h.toCandid.step hstep) (h.here.step hstep).fatal hstep.marks.1 hstep.marks.2 e

lemma turn (h : s.Marked) (hturn : Turn env s t) (e : t.nodes.exprs = s.nodes.exprs) :
    t.Marked := by
  obtain ⟨log, lastErrorStart⟩ := hturn.log_eq h.settled
  refine h.of_frame (h.toCandid.turn hturn) (h.here.turn hturn).fatal (fun pos hpos => ?_)
    (fun pos hpos => .inl (lastErrorStart ▸ hpos)) e
  rw [Marks, log]
  exact hpos

/-- A placeholder may be allocated where a fault has been reported. -/
lemma alloc (h : s.Marked) {node : ExprNode}
    (hnode : node.form = .error → s.Fatal ∨ s.Marks node.span.start) :
    ParseState.Marked { s with nodes := s.nodes.add (.expr node) } where
  toCandid := h.toCandid.of_frame h.settled h.lexical id .inl
  held := h.held
  placeholders := by
    obtain hfatal | hplaced := h.placeholders
    · exact .inl hfatal
    by_cases herror : node.form = .error
    · refine (hnode herror).imp id fun hmarks id other hother hform => ?_
      obtain ⟨-, rfl⟩ | hold := Nodes.get?_add_expr hother
      · exact hmarks
      · exact hplaced id other hold hform
    · refine .inr fun id other hother hform => ?_
      obtain ⟨-, rfl⟩ | hold := Nodes.get?_add_expr hother
      · exact absurd hform herror
      · exact hplaced id other hold hform

/-- Where a fault has been met, it has been reported or is held back behind a fatal one. -/
lemma fatal_or_marks (h : s.Marked) (hsilent : s.Silent pos) : s.Fatal ∨ s.Marks pos :=
  hsilent.imp h.muted (h.held pos)

end ParseState.Marked

/-! ## Rules -/

/-- The states that are marked. -/
def Invariant.marked (env : Env) : Invariant env where
  holds := ParseState.Marked
  step h hstep e := ParseState.Marked.step h hstep e

namespace Invariant

lemma allows_marked {form : ExprForm} (hform : form ≠ .error) : (marked env).Allows form :=
  fun _ _ h => ParseState.Marked.alloc h fun e => absurd e hform

lemma settled_marked (env : Env) : (marked env).Settled where
  tentative h := h.settled
  turn h hturn e := ParseState.Marked.turn h hturn e
  plain _ hform := allows_marked hform.2.2.2.2.2.2
  placeholder h hsilent :=
    ParseState.Marked.alloc h fun _ => ParseState.Marked.fatal_or_marks h hsilent

end Invariant

/-- All rules keep placeholders marked. -/
lemma Rule.preserves_marked (nesting : Nat) {α : Type} (g : Nonterminal α) :
    Preserves (Invariant.marked env) (callTo nesting g) := by
  have hI := Invariant.settled_marked env
  refine preserves_callTo hI (fun form _ _ hform => Invariant.allows_marked hform) ?_ ?_ nesting g
  · exact fun call htype => makes_nameExpr hI htype fun _ _ => Invariant.allows_marked nofun
  · exact fun nesting hcall =>
      (makes_quote hI hcall fun _ => Invariant.allows_marked nofun).makesAt _

/-! ## Whole parses -/

/-- Each placeholder among the expressions starts where a report of the log does. -/
def Nodes.Marked (nodes : Nodes) (log : Log) : Prop :=
  ∀ id span, nodes.exprs.get? id = some ⟨.error, span⟩ → ∃ d ∈ log, d.span.start = span.start

namespace ParseState.Marked

/-- In front of a text without nodes a state is marked. -/
lemma start (hcandid : s.Candid False) (hheld : s.lastErrorStart = none) (hnodes : s.nodes = {}) :
    s.Marked := by
  refine ⟨hcandid, fun pos e => ?_, .inr fun id node hnode => ?_⟩
  · cases hheld.symm.trans e
  · simp [hnodes, Arena.get?] at hnode

/-- Unless something fatal is among the diagnostics, they mark the placeholders. -/
lemma marked_of_not_fatal (h : s.Marked) {settings : Settings}
    (hnot : (settings.locate s.diagnostics).hasFatal = false) :
    s.nodes.Marked (settings.locate s.diagnostics) := by
  obtain hfatal | hplaced := h.placeholders
  · exact nomatch hnot.symm.trans (h.hasFatal hfatal settings)
  intro id span hnode
  obtain ⟨d, hd, e⟩ := hplaced id _ hnode rfl
  have hmem : d ∈ s.diagnostics := by simp [diagnostics, Log.sorted, hd]
  unfold Settings.locate
  split
  case h_1 file _ => exact ⟨d.inFile file, Array.mem_map.2 ⟨d, hmem, rfl⟩, e⟩
  case h_2 => exact ⟨d, hmem, e⟩

end ParseState.Marked

/-- In the tree of a parse that reports nothing fatal, every placeholder for an expression starts
where one of the diagnostics does. -/
theorem parse_marks_placeholders (bytes : ByteArray) (settings : Settings) :
    (∀ p, parseFile bytes settings = some p → p.isFatal = false → p.tree.nodes.Marked p.diagnostics)
      ∧ ∀ offset p, parseExpression bytes offset settings = some p → p.isFatal = false →
        p.nodes.Marked p.diagnostics := by
  have hI (src : Source) := Invariant.settled_marked ⟨src, settings, true⟩
  have hcall (src : Source) (nesting : Nat) {α : Type} (g : Nonterminal α) :
      Preserves (Invariant.marked ⟨src, settings, true⟩) (Rule.callTo nesting g) :=
    Rule.preserves_marked nesting g
  refine ⟨fun p h hnot => ?_, fun offset p h hnot => ?_⟩
  · rw [FileParse.isFatal] at hnot
    obtain ⟨src, t, -, ht, hnodes, hlog⟩ | ⟨span, -, hlog⟩ :=
      Invariant.of_parseFile hI hcall h fun _ _ => .start (.start rfl rfl rfl) rfl rfl
    · rw [hnodes, hlog]
      exact ht.marked_of_not_fatal (hlog ▸ hnot)
    · rw [hlog, settings.hasFatal_encodingFault] at hnot
      cases hnot
  · rw [ExprParse.isFatal] at hnot
    obtain ⟨src, t, -, ht, hnodes, hlog⟩ | ⟨span, -, hlog⟩ :=
      Invariant.of_parseExpression hI hcall h fun _ _ _ => .start (.start rfl rfl rfl) rfl rfl
    · rw [hnodes, hlog]
      exact ht.marked_of_not_fatal (hlog ▸ hnot)
    · rw [hlog, settings.hasFatal_encodingFault] at hnot
      cases hnot

/-- The brace that is missing behind a condition is reported at `>`, and the placeholder is made of
`>>=`. -/
example : (parseExpression "match (x) \x7b case 1[..if (b) >>= c] => d \x7d".toUTF8 0 {}).map
    (fun p => (p.diagnostics.toList.map (·.span), (p.nodes.exprs.get? ⟨6⟩).map (·.span)))
      = some ([⟨28, 1⟩], some ⟨28, 3⟩) := by
  decide +kernel

end CangjieSyntax
