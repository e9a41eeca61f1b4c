import Mathlib.Logic.Relation
import CangjieSyntax.Grammar.State
import CangjieSyntax.Proofs.Token.Lexer
import CangjieSyntax.Proofs.Tree.Forest

/-!
# Steps of a parse

All that a parse does to its state is a few sorts of steps. Those of `Step` are taken in tentative
readings as well; those of `Turn` only outside. A whole attempt is one turn: it is committed, or it
is given up. What an attempt leaves alone is `Inside`, which its steps preserve; therefore giving it
up brings back the state in front of it.
-/

namespace CangjieSyntax

variable {env : Env} {s t u : ParseState}

/-- The steps of any reading. -/
inductive Step (env : Env) : ParseState → ParseState → Prop
  | advance (s : ParseState) : Step env s (s.advance env.src)
  | report (s : ParseState) (span : Span) (m : Message) (args : List String) :
    Step env s (s.report span m args)
  | reportDepth (s : ParseState) (span : Span) :
    Step env s (s.reportDepth span env.settings.maxDepth)
  | alloc (s : ParseState) (node : Node) : Step env s { s with nodes := s.nodes.add node }
  | intern (s : ParseState) (text : String) : Step env s { s with names := s.names.insert text }
  | deeper {s : ParseState} (h : s.depth < env.settings.maxDepth) :
    Step env s { s with depth := s.depth + 1 }
  | shallower (s : ParseState) : Step env s { s with depth := s.depth - 1 }

/-- The states of an attempt that is made in a state. -/
def Tries (env : Env) (s u : ParseState) : Prop :=
  Relation.ReflTransGen (Step env) (s.enterTentative env.settings.budget) u

/-- The state behind an attempt that is committed. -/
def ParseState.commit (s u : ParseState) : ParseState :=
  u.leaveTentative s.tentative.limit

/-- The state behind an attempt that is given up. -/
def ParseState.giveUp (s u : ParseState) : ParseState :=
  (s.rewind (u.leaveTentative s.tentative.limit)).checkLimit

/-- The steps that are taken only outside tentative readings. -/
inductive Turn (env : Env) : ParseState → ParseState → Prop
  | unmute (s : ParseState) : Turn env s { s with muted := false }
  | joinGreater (s : ParseState) : Turn env s { s with lexer := s.lexer.joinGreater env.src }
  | remember (s : ParseState) (start : Nat) :
    Turn env s { s with comparisons := start :: s.comparisons }
  | enclose (s : ParseState) (owner : Option String) :
    Turn env s { s with enclosingType := owner }
  | commit {s u : ParseState} (h : Tries env s u) (ok : u.tentative.failed = false) :
    Turn env s (s.commit u)
  | giveUp {s u : ParseState} (h : Tries env s u) : Turn env s (s.giveUp u)

/-- The states that a parse can come to outside tentative readings. -/
inductive Reachable (env : Env) : ParseState → Prop
  /-- In front of a file. -/
  | file (names : NameTable) : Reachable env { ParseState.ofSource env.src with names }
  /-- In front of an expression inside a text. -/
  | expression (offset : Nat) :
    Reachable env { ParseState.ofSource env.src with
      lexer := (Lexer.ofSource env.src).seek env.src offset, prevStop := offset }
  | step {s t : ParseState} : Reachable env s → Step env s t → Reachable env t
  | turn {s t : ParseState} : Reachable env s → Turn env s t → Reachable env t

/-! ## What an attempt leaves alone -/

namespace ParseState

/-- What only steps outside tentative readings change. -/
def context (s : ParseState) : Log × List Nat × Bool × Option Nat × Nat × Option String :=
  (s.log, s.comparisons, s.muted, s.lastErrorStart, s.errorCount, s.enclosingType)

end ParseState

/-- An arena behind which nodes were added. -/
def Arena.Extends {sort : NodeSort} {α : Type} (a b : Arena sort α) : Prop :=
  ∃ rest, b.nodes = a.nodes ++ rest

namespace Arena.Extends

variable {sort : NodeSort} {α : Type} {a b c : Arena sort α}

lemma refl (a : Arena sort α) : a.Extends a :=
  ⟨#[], by simp⟩

lemma trans (h : a.Extends b) (h' : b.Extends c) : a.Extends c := by
  obtain ⟨rest, e⟩ := h
  obtain ⟨rest', e'⟩ := h'
  exact ⟨rest ++ rest', by rw [e', e, Array.append_assoc]⟩

/-- The nodes that were there before are where they were. -/
lemma get?_eq {id : NodeId sort} {x : α} (h : a.Extends b) (hx : a.get? id = some x) :
    b.get? id = some x := by
  obtain ⟨rest, e⟩ := h
  obtain ⟨hlt, -⟩ := Array.getElem?_eq_some_iff.1 hx
  rw [Arena.get?, e, Array.getElem?_append_left hlt]
  exact hx

lemma push (h : a.Extends b) (x : α) : a.Extends (b.push x) := by
  obtain ⟨rest, e⟩ := h
  exact ⟨rest.push x, by rw [Arena.push, e, Array.push_append]⟩

lemma truncate (h : a.Extends b) : b.truncate a.size = a := by
  obtain ⟨rest, e⟩ := h
  rw [Arena.truncate, e, Array.shrink_eq_take]
  simp [Arena.size]

end Arena.Extends

/-- Nodes behind which others were added. -/
structure Nodes.Extends (nodes others : Nodes) : Prop where
  exprs : nodes.exprs.Extends others.exprs
  types : nodes.types.Extends others.types
  patterns : nodes.patterns.Extends others.patterns
  decls : nodes.decls.Extends others.decls

namespace Nodes.Extends

variable {nodes others : Nodes}

lemma refl (nodes : Nodes) : nodes.Extends nodes :=
  ⟨.refl _, .refl _, .refl _, .refl _⟩

lemma trans {more : Nodes} (h : nodes.Extends others) (h' : others.Extends more) :
    nodes.Extends more :=
  ⟨h.exprs.trans h'.exprs, h.types.trans h'.types, h.patterns.trans h'.patterns,
    h.decls.trans h'.decls⟩

lemma add (h : nodes.Extends others) (node : Node) : nodes.Extends (others.add node) := by
  cases node with
  | expr node => exact { h with exprs := h.exprs.push node }
  | type node => exact { h with types := h.types.push node }
  | pattern node => exact { h with patterns := h.patterns.push node }
  | decl node => exact { h with decls := h.decls.push node }

/-- Cutting back to the counts of some nodes forgets what was added behind them. -/
lemma truncate (h : nodes.Extends others) : others.truncate nodes.counts = nodes := by
  unfold Nodes.truncate Nodes.counts
  rw [h.exprs.truncate, h.types.truncate, h.patterns.truncate, h.decls.truncate]

end Nodes.Extends

/-- A state of an attempt made in the state `s`: nodes and lexical errors are only added, an error
makes the attempt fail, and the context is as it was. -/
structure Inside (s u : ParseState) : Prop where
  tentative : u.tentative.depth = 1
  nodes : s.nodes.Extends u.nodes
  lexerLog : s.lexer.log.toList <+: u.lexer.log.toList
  scanned : u.tentative.failed = true ∨ u.lexer.log = s.lexer.log
  context : u.context = s.context

/-- Going past the limit makes an attempt fail and does nothing else. -/
lemma ParseState.checkLimit_eq (s : ParseState) : ∃ tentative : Tentative,
    (s.tentative.failed = true → tentative.failed = true) ∧ tentative.depth = s.tentative.depth
      ∧ (s.tentative = {} → tentative = {}) ∧ s.checkLimit = { s with tentative } := by
  unfold ParseState.checkLimit
  split
  case h_1 limit hlimit =>
    split
    · refine ⟨{ s.tentative with failed := true, exhausted := true }, fun _ => rfl, rfl, ?_, rfl⟩
      intro h
      rw [h] at hlimit
      exact nomatch hlimit
    · exact ⟨s.tentative, id, rfl, id, rfl⟩
  case h_2 => exact ⟨s.tentative, id, rfl, id, rfl⟩

/-- Without a limit on the tokens none is checked. -/
lemma ParseState.checkLimit_of_settled (h : s.tentative = {}) : s.checkLimit = s := by
  unfold ParseState.checkLimit
  rw [h]

namespace Inside

lemma enter (h : s.tentative = {}) (budget : Nat) : Inside s (s.enterTentative budget) where
  tentative := by simp [ParseState.enterTentative, h]
  nodes := .refl _
  lexerLog := List.prefix_refl _
  scanned := .inr rfl
  context := rfl

/-- A lexical fault, or any other, makes the attempt fail. -/
lemma fail (h : Inside s u) : Inside s u.fail :=
  { h with scanned := .inl rfl }

lemma advance (src : Source) (h : Inside s u) : Inside s (u.advance src) := by
  have grown : s.lexer.log.toList <+: (u.lexer.scanKnown src).log.toList :=
    h.lexerLog.trans (Lexer.log_scanKnown src u.lexer)
  obtain ⟨tentative, hfailed, hdepth, -, e⟩ := ParseState.checkLimit_eq { u with
    prevStop := u.lexer.pos, prevSpan := u.lexer.span, prevKind := u.lexer.kind
    tokenCount := u.tokenCount + 1 }
  have hdepth := hdepth.trans h.tentative
  unfold ParseState.advance
  dsimp only
  rw [e]
  split
  · unfold ParseState.lexicalFault
    rw [if_pos (by simp [ParseState.isTentative, hdepth])]
    exact ⟨hdepth, h.nodes, grown, .inl rfl, h.context⟩
  case isFalse hsame =>
    refine ⟨hdepth, h.nodes, grown, ?_, h.context⟩
    obtain hf | hlog := h.scanned
    · exact .inl (hfailed hf)
    · right
      -- The log behind the token has the one in front of it as a prefix, and is not longer.
      have hle := (Lexer.log_scanKnown src u.lexer).eq_of_length_le
        (by simpa using hsame)
      rw [← hlog]
      exact (Array.toList_inj.1 hle).symm

lemma report (h : Inside s u) (span : Span) (m : Message) (args : List String) :
    Inside s (u.report span m args) := by
  unfold ParseState.report
  rw [if_pos (by simp [ParseState.isTentative, h.tentative])]
  exact h.fail

lemma reportDepth (h : Inside s u) (span : Span) (maxDepth : Nat) :
    Inside s (u.reportDepth span maxDepth) := by
  unfold ParseState.reportDepth
  rw [if_pos (by simp [ParseState.isTentative, h.tentative])]
  exact h.fail

lemma step (h : Inside s u) (hstep : Step env u t) : Inside s t := by
  cases hstep with
  | advance => exact h.advance env.src
  | report span m args => exact h.report span m args
  | reportDepth span => exact h.reportDepth span _
  | alloc node => exact { h with nodes := h.nodes.add node }
  | intern text => exact { h with }
  | deeper hdepth => exact { h with }
  | shallower => exact { h with }

/-- Every state of an attempt is inside it. -/
lemma of_tries (hs : s.tentative = {}) (h : Tries env s u) : Inside s u := by
  induction h with
  | refl => exact enter hs _
  | tail _ hstep ih => exact ih.step hstep

/-- Giving an attempt up brings back all but the count of tokens and the names. -/
theorem giveUp_eq (h : Inside s u) (hs : s.tentative = {}) :
    s.giveUp u = { s with tokenCount := u.tokenCount, names := u.names } := by
  have hcontext := h.context
  simp only [ParseState.context, Prod.mk.injEq] at hcontext
  obtain ⟨log, comparisons, muted, lastErrorStart, errorCount, enclosingType⟩ := hcontext
  unfold ParseState.giveUp ParseState.leaveTentative ParseState.rewind
  rw [ParseState.checkLimit_of_settled]
  · dsimp only
    rw [h.nodes.truncate, Lexer.restore_of_isPrefix h.lexerLog, log, comparisons, muted,
      lastErrorStart, errorCount, enclosingType, h.tentative]
    cases s
    cases hs
    rfl
  · simp [h.tentative, hs]

end Inside

/-! ## What holds in every state -/

namespace ParseState

/-- Something has been reported. -/
def Reported (s : ParseState) : Prop :=
  s.log ≠ #[] ∨ s.lexer.log ≠ #[]

/-- Something has been reported, or the attempt under way has failed. -/
def Excused (s : ParseState) : Prop :=
  s.Reported ∨ s.tentative.failed = true

/-- Reports are held back only behind another one, and a name has a text unless its error has been
reported. -/
structure Sound (s : ParseState) : Prop where
  reported : s.muted = true ∨ s.lastErrorStart.isSome → s.Reported
  named : s.lexer.Named

/-- Taking a token changes the lexer, what is known of the previous token, and what a lexical error
or the limit on the tokens asks for. -/
lemma advance_eq (src : Source) (s : ParseState) : ∃ tentative errorCount muted,
    (s.tentative.failed = true → tentative.failed = true) ∧ (s.tentative = {} → tentative = {})
      ∧ (muted = true → s.muted = true ∨ (s.lexer.scanKnown src).log ≠ #[])
      ∧ s.advance src = { s with
        lexer := s.lexer.scanKnown src, prevStop := s.lexer.pos, prevSpan := s.lexer.span
        prevKind := s.lexer.kind, tokenCount := s.tokenCount + 1, tentative, errorCount, muted } := by
  unfold advance
  dsimp only
  obtain ⟨tentative, hfailed, -, settled, e⟩ := checkLimit_eq { s with
    prevStop := s.lexer.pos, prevSpan := s.lexer.span, prevKind := s.lexer.kind
    tokenCount := s.tokenCount + 1 }
  rw [e]
  split
  case isTrue hgrown =>
    have hlog : (s.lexer.scanKnown src).log ≠ #[] := by
      intro h
      simp [h] at hgrown
    unfold lexicalFault
    split
    case isTrue htentative =>
      refine ⟨_, _, _, fun _ => rfl, ?_, fun h => .inl h, rfl⟩
      intro h
      simp [isTentative, settled h] at htentative
    case isFalse => exact ⟨_, _, _, hfailed, settled, fun _ => .inr hlog, rfl⟩
  case isFalse => exact ⟨_, _, _, hfailed, settled, fun h => .inl h, rfl⟩

/-- Reporting a fault leaves the nodes and what is around the place alone. -/
lemma report_frame (span : Span) (m : Message) (args : List String) :
    (s.report span m args).nodes = s.nodes ∧ (s.report span m args).depth = s.depth
      ∧ (s.report span m args).enclosingType = s.enclosingType := by
  unfold report
  dsimp only
  split
  · exact ⟨rfl, rfl, rfl⟩
  · split <;> exact ⟨rfl, rfl, rfl⟩

lemma reportDepth_frame (span : Span) (maxDepth : Nat) :
    (s.reportDepth span maxDepth).nodes = s.nodes ∧ (s.reportDepth span maxDepth).depth = s.depth
      ∧ (s.reportDepth span maxDepth).enclosingType = s.enclosingType := by
  unfold reportDepth
  split <;> exact ⟨rfl, rfl, rfl⟩

lemma advance_frame (src : Source) :
    (s.advance src).nodes = s.nodes ∧ (s.advance src).depth = s.depth
      ∧ (s.advance src).enclosingType = s.enclosingType := by
  obtain ⟨tentative, errorCount, muted, -, -, -, e⟩ := s.advance_eq src
  rw [e]
  exact ⟨rfl, rfl, rfl⟩

/-- A fault that is met is reported, or held back behind another one. -/
lemma Sound.report (h : s.Sound) (span : Span) (m : Message) (args : List String) :
    (s.report span m args).Excused := by
  unfold ParseState.report
  dsimp only
  split
  · exact .inr rfl
  · split
    case isTrue hheld =>
      rw [Bool.or_eq_true, beq_iff_eq] at hheld
      exact .inl (h.reported (hheld.imp_right fun e => by simp [e]))
    case isFalse => exact .inl (.inl (by simp))

lemma Sound.reportDepth (h : s.Sound) (span : Span) (maxDepth : Nat) :
    (s.reportDepth span maxDepth).Excused := by
  unfold ParseState.reportDepth
  split
  · exact .inr rfl
  · left
    cases hm : s.muted with
    | false => exact .inl (by simp)
    | true => simpa [Reported, hm] using h.reported (.inl hm)

lemma Reported.scanKnown {src : Source} (h : s.Reported) :
    s.log ≠ #[] ∨ (s.lexer.scanKnown src).log ≠ #[] := by
  obtain h | h := h
  · exact .inl h
  · right
    intro e
    have hprefix := Lexer.log_scanKnown src s.lexer
    rw [e] at hprefix
    exact h (Array.toList_inj.1 (List.prefix_nil.1 hprefix))

end ParseState

namespace Step

lemma reported (hstep : Step env s t) (h : s.Reported) : t.Reported := by
  cases hstep with
  | advance =>
    obtain ⟨tentative, errorCount, muted, -, -, -, e⟩ := s.advance_eq env.src
    rw [e]
    exact h.scanKnown
  | report span m args =>
    unfold ParseState.report
    dsimp only
    split
    · exact h
    · split
      · exact h
      · exact .inl (by simp)
  | reportDepth span =>
    unfold ParseState.reportDepth
    split
    · exact h
    · cases hm : s.muted with
      | false => exact .inl (by simp)
      | true => simpa [ParseState.Reported, hm] using h
  | alloc => exact h
  | intern => exact h
  | deeper => exact h
  | shallower => exact h

lemma failed (hstep : Step env s t) (h : s.tentative.failed = true) :
    t.tentative.failed = true := by
  cases hstep with
  | advance =>
    obtain ⟨tentative, errorCount, muted, hfailed, -, -, e⟩ := s.advance_eq env.src
    rw [e]
    exact hfailed h
  | report span m args =>
    unfold ParseState.report
    dsimp only
    split
    · rfl
    · split <;> exact h
  | reportDepth span =>
    unfold ParseState.reportDepth
    split
    · rfl
    · exact h
  | alloc => exact h
  | intern => exact h
  | deeper => exact h
  | shallower => exact h

lemma excused (hstep : Step env s t) (h : s.Excused) : t.Excused :=
  h.imp hstep.reported hstep.failed

lemma settled (hstep : Step env s t) (h : s.tentative = {}) : t.tentative = {} := by
  have hnot : ¬ s.isTentative = true := by simp [ParseState.isTentative, h]
  cases hstep with
  | advance =>
    obtain ⟨tentative, errorCount, muted, -, hsettled, -, e⟩ := s.advance_eq env.src
    rw [e]
    exact hsettled h
  | report span m args =>
    unfold ParseState.report
    rw [if_neg hnot]
    dsimp only
    split <;> exact h
  | reportDepth span =>
    unfold ParseState.reportDepth
    rw [if_neg hnot]
    exact h
  | alloc => exact h
  | intern => exact h
  | deeper => exact h
  | shallower => exact h

lemma sound (hstep : Step env s t) (h : s.Sound) : t.Sound := by
  have reported := hstep.reported
  cases hstep with
  | advance =>
    obtain ⟨tentative, errorCount, muted, -, -, hmuted, e⟩ := s.advance_eq env.src
    rw [e] at reported ⊢
    refine ⟨?_, h.named.scanKnown⟩
    rintro (hm | hl)
    · obtain hm | hlog := hmuted hm
      · exact reported (h.reported (.inl hm))
      · exact .inr hlog
    · exact reported (h.reported (.inr hl))
  | report span m args =>
    unfold ParseState.report at reported ⊢
    split
    · exact ⟨h.reported, h.named⟩
    · dsimp only
      split
      · exact ⟨h.reported, h.named⟩
      · exact ⟨fun _ => .inl (by simp), h.named⟩
  | reportDepth span =>
    unfold ParseState.reportDepth
    split
    · exact ⟨h.reported, h.named⟩
    · refine ⟨fun _ => ?_, h.named⟩
      cases hm : s.muted with
      | false => exact .inl (by simp)
      | true => simpa [ParseState.Reported, hm] using h.reported (.inl hm)
  | alloc => exact ⟨h.reported, h.named⟩
  | intern => exact ⟨h.reported, h.named⟩
  | deeper => exact ⟨h.reported, h.named⟩
  | shallower => exact ⟨h.reported, h.named⟩

end Step

namespace Tries

lemma sound (h : Tries env s u) (hs : s.Sound) : u.Sound := by
  induction h with
  | refl => exact ⟨hs.reported, hs.named⟩
  | tail _ hstep ih => exact hstep.sound ih

end Tries

namespace Turn

lemma settled (hturn : Turn env s t) (h : s.tentative = {}) : t.tentative = {} := by
  cases hturn with
  | unmute => exact h
  | joinGreater => exact h
  | remember start => exact h
  | enclose owner => exact h
  | commit htries ok =>
    simp [ParseState.commit, ParseState.leaveTentative, (Inside.of_tries h htries).tentative, h]
  | giveUp htries =>
    rw [(Inside.of_tries h htries).giveUp_eq h]
    exact h

lemma sound (hturn : Turn env s t) (hsettled : s.tentative = {}) (h : s.Sound) : t.Sound := by
  cases hturn with
  | unmute => exact ⟨fun hm => h.reported (.inr (hm.resolve_left Bool.false_ne_true)), h.named⟩
  | joinGreater =>
    refine ⟨fun hm => ?_, h.named.joinGreater⟩
    unfold ParseState.Reported
    rw [Lexer.log_joinGreater]
    exact h.reported hm
  | remember start => exact ⟨h.reported, h.named⟩
  | enclose owner => exact ⟨h.reported, h.named⟩
  | commit htries ok =>
    have h := htries.sound h
    exact ⟨h.reported, h.named⟩
  | giveUp htries =>
    rw [(Inside.of_tries hsettled htries).giveUp_eq hsettled]
    exact ⟨h.reported, h.named⟩

end Turn

namespace Reachable

/-- No reading is tentative outside of attempts. -/
theorem settled (h : Reachable env s) : s.tentative = {} := by
  induction h with
  | file names => rfl
  | expression offset => rfl
  | step _ hstep ih => exact hstep.settled ih
  | turn _ hturn ih => exact hturn.settled ih

theorem sound (h : Reachable env s) : s.Sound := by
  induction h with
  | file names => exact ⟨fun hm => by simp [ParseState.ofSource] at hm, fun e => nomatch e⟩
  | expression offset => exact ⟨fun hm => by simp [ParseState.ofSource] at hm, fun e => nomatch e⟩
  | step _ hstep ih => exact hstep.sound ih
  | turn h hturn ih => exact hturn.sound h.settled ih

end Reachable

end CangjieSyntax
