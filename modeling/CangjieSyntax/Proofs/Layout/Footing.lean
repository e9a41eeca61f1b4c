import CangjieSyntax.Proofs.Grammar.Reads
import CangjieSyntax.Proofs.Layout.Laid
import CangjieSyntax.Proofs.Token.Progress

/-!
# The offsets of a parse

A parse that starts between characters only comes to offsets between characters: the current token
starts and ends there, and the last token taken ended there, in front of the current one. Tokens are
taken in the order of the text, so that neither offset ever gets smaller.
-/

namespace CangjieSyntax

variable {env : Env} {src : Source} {l m : Lexer} {s t u : ParseState}

namespace Lexer

/-- The current token and the errors so far are between characters. -/
structure Footed (src : Source) (l : Lexer) : Prop where
  sound : l.Sound src
  start : src.isBoundary l.start
  pos : src.isBoundary l.pos
  start_le : l.start ≤ l.pos
  log : ∀ d ∈ l.log, d.Valid src

namespace Footed

lemma span (h : l.Footed src) : l.span.Valid src :=
  .ofBounds h.start h.pos

lemma stop_span (h : l.Footed src) : l.span.stop = l.pos :=
  Span.stop_ofBounds h.start_le

lemma scan (h : l.Footed src) : (l.scan src).Footed src ∧ l.pos ≤ (l.scan src).start := by
  obtain ⟨hadvances, hfollows⟩ := advances_of_isBoundary h.sound h.pos
  refine ⟨⟨hadvances.sound, hfollows.start_boundary, hfollows.boundary, hadvances.start_le, ?_⟩,
    hadvances.le_start⟩
  intro d hd
  obtain hd | ⟨e, he, rfl⟩ := mem_log_scan hd
  · exact h.log d hd
  · exact .of_span (Lexeme.errors_read l.modes h.pos e he).span rfl

lemma addFlags (h : l.Footed src) (flags : TokenFlags) : (l.addFlags flags).Footed src :=
  ⟨⟨h.sound.stacked, h.sound.placed⟩, h.start, h.pos, h.start_le, h.log⟩

/-- The next known token starts behind the current one. -/
lemma scanKnown (h : l.Footed src) :
    (l.scanKnown src).Footed src ∧ l.pos ≤ (l.scanKnown src).start := by
  refine scanKnown_of_first (P := fun m => m.Footed src ∧ l.pos ≤ m.start) h.scan ?_ ?_
  · intro m ⟨hm, hle⟩
    exact ⟨hm.scan.1, Nat.le_trans hle (Nat.le_trans hm.start_le hm.scan.2)⟩
  · intro m flags ⟨hm, hle⟩
    exact ⟨hm.addFlags flags, hle⟩

lemma joinGreater (h : l.Footed src) :
    (l.joinGreater src).Footed src ∧ (l.joinGreater src).start = l.start := by
  unfold Lexer.joinGreater
  split
  · split
    case h_1 p stop hjoin =>
      obtain ⟨hstop, hlt, -⟩ := Punctuation.joinGreater?_stop hjoin
      exact ⟨⟨⟨h.sound.stacked, .inl hstop⟩, h.start, hstop,
        Nat.le_trans h.start_le (Nat.le_of_lt hlt), h.log⟩, rfl⟩
    case h_2 => exact ⟨h, rfl⟩
  · exact ⟨h, rfl⟩

lemma ofSource (src : Source) : (Lexer.ofSource src).Footed src where
  sound := sound_ofSource src
  start := Source.isBoundary_zero
  pos := isBoundary_ofSource src
  start_le := Nat.zero_le _
  log _ hd := nomatch hd

lemma seek {offset : Nat} (h : src.isBoundary offset) (l : Lexer) (hlog : l.log = #[]) :
    (l.seek src offset).Footed src := by
  have hoffset : min offset src.size = offset :=
    Nat.min_eq_left (Source.le_size_of_isBoundary h)
  have hpos : src.isBoundary (min offset src.size) := hoffset.symm ▸ h
  refine ⟨.seek offset l, hpos, hpos, Nat.le_refl _, fun d hd => ?_⟩
  change d ∈ l.log at hd
  rw [hlog] at hd
  exact nomatch hd

end Footed

end Lexer

namespace ParseState

/-- The offsets of a state are between characters. -/
structure Footed (env : Env) (s : ParseState) : Prop where
  lexer : s.lexer.Footed env.src
  prevStop : env.src.isBoundary s.prevStop
  prevStop_le : s.prevStop ≤ s.lexer.start

/-- The state `t` is further on than `s`: nothing has been taken back. -/
structure Onward (s t : ParseState) : Prop where
  start : s.lexer.start ≤ t.lexer.start
  prevStop : s.prevStop ≤ t.prevStop
  nodes : s.nodes.Grows t.nodes
  excused : s.Excused → t.Excused

namespace Onward

lemma refl (s : ParseState) : s.Onward s :=
  ⟨Nat.le_refl _, Nat.le_refl _, .refl _, id⟩

lemma trans (h : s.Onward t) (h' : t.Onward u) : s.Onward u :=
  ⟨Nat.le_trans h.start h'.start, Nat.le_trans h.prevStop h'.prevStop, h.nodes.trans h'.nodes,
    h'.excused ∘ h.excused⟩

/-- What only changes the bookkeeping of a state. -/
lemma of_frame (hlexer : t.lexer.start = s.lexer.start) (hprevStop : t.prevStop = s.prevStop)
    (hnodes : t.nodes = s.nodes) (hexcused : s.Excused → t.Excused) : s.Onward t :=
  ⟨Nat.le_of_eq hlexer.symm, Nat.le_of_eq hprevStop.symm, hnodes ▸ .refl _, hexcused⟩

end Onward

namespace Footed

lemma advance (h : s.Footed env) : (s.advance env.src).Footed env ∧ s.Onward (s.advance env.src) := by
  obtain ⟨hlexer, hle⟩ := h.lexer.scanKnown
  have hexcused := Step.excused (.advance s : Step env s (s.advance env.src))
  obtain ⟨tentative, errorCount, muted, -, -, -, e⟩ := s.advance_eq env.src
  rw [e] at hexcused ⊢
  exact ⟨⟨hlexer, h.lexer.pos, hle⟩, Nat.le_trans h.lexer.start_le hle,
    Nat.le_trans h.prevStop_le h.lexer.start_le, .refl _, hexcused⟩

/-- Behind a token that has been taken, it is the last one. -/
lemma prevStop_advance (env : Env) (s : ParseState) : (s.advance env.src).prevStop = s.lexer.pos := by
  obtain ⟨tentative, errorCount, muted, -, -, -, e⟩ := s.advance_eq env.src
  rw [e]

/-- A span from an offset between characters up to the last token taken. -/
lemma spanFrom {pos : Nat} (h : s.Footed env) (hpos : env.src.isBoundary pos) :
    (s.spanFrom pos).Valid env.src := by
  refine .ofBounds hpos ?_
  obtain hle | hle := Nat.le_total s.prevStop pos
  · rw [Nat.max_eq_right hle]
    exact hpos
  · rw [Nat.max_eq_left hle]
    exact h.prevStop

lemma of_frame (h : s.Footed env) (hlexer : t.lexer = s.lexer) (hprevStop : t.prevStop = s.prevStop) :
    t.Footed env := by
  refine ⟨hlexer ▸ h.lexer, hprevStop ▸ h.prevStop, ?_⟩
  rw [hlexer, hprevStop]
  exact h.prevStop_le

end Footed

/-- A report only changes the log and the bookkeeping. -/
lemma report_place (s : ParseState) (span : Span) (m : Message) (args : List String) :
    (s.report span m args).lexer = s.lexer ∧ (s.report span m args).prevStop = s.prevStop := by
  unfold report
  dsimp only
  split
  · exact ⟨rfl, rfl⟩
  · split <;> exact ⟨rfl, rfl⟩

lemma reportDepth_place (s : ParseState) (span : Span) (maxDepth : Nat) :
    (s.reportDepth span maxDepth).lexer = s.lexer
      ∧ (s.reportDepth span maxDepth).prevStop = s.prevStop := by
  unfold reportDepth
  split <;> exact ⟨rfl, rfl⟩

lemma mem_log_report {span : Span} {m : Message} {args : List String} {d : Diagnostic}
    (h : d ∈ (s.report span m args).log) :
    d ∈ s.log ∨ d.span = span ∧ d.related = [] := by
  unfold report at h
  dsimp only at h
  split at h
  · exact .inl h
  · split at h
    · exact .inl h
    · exact (Array.mem_push.1 h).imp_right (by rintro rfl; exact ⟨rfl, rfl⟩)

lemma mem_log_reportDepth {span : Span} {maxDepth : Nat} {d : Diagnostic}
    (h : d ∈ (s.reportDepth span maxDepth).log) :
    d ∈ s.log ∨ d.span = span ∧ d.related = [] := by
  unfold reportDepth at h
  split at h
  · exact .inl h
  · dsimp only at h
    split at h
    · exact .inl h
    · exact (Array.mem_push.1 h).imp_right (by rintro rfl; exact ⟨rfl, rfl⟩)

end ParseState

/-- Each step leads on from offset to offset. -/
lemma Step.footed (hstep : Step env s t) (h : s.Footed env) : t.Footed env ∧ s.Onward t := by
  have hexcused := hstep.excused
  cases hstep with
  | advance => exact h.advance
  | report span m args =>
    obtain ⟨hlexer, hprevStop⟩ := s.report_place span m args
    exact ⟨h.of_frame hlexer hprevStop,
      .of_frame (by rw [hlexer]) hprevStop (s.report_frame span m args).1 hexcused⟩
  | reportDepth span =>
    obtain ⟨hlexer, hprevStop⟩ := s.reportDepth_place span env.settings.maxDepth
    exact ⟨h.of_frame hlexer hprevStop,
      .of_frame (by rw [hlexer]) hprevStop (s.reportDepth_frame span _).1 hexcused⟩
  | alloc node => exact ⟨h.of_frame rfl rfl, Nat.le_refl _, Nat.le_refl _, .add _ node, hexcused⟩
  | intern text => exact ⟨h.of_frame rfl rfl, .of_frame rfl rfl rfl hexcused⟩
  | deeper => exact ⟨h.of_frame rfl rfl, .of_frame rfl rfl rfl hexcused⟩
  | shallower => exact ⟨h.of_frame rfl rfl, .of_frame rfl rfl rfl hexcused⟩

lemma Tries.footed (htries : Tries env s u) (h : s.Footed env) :
    u.Footed env ∧ (s.enterTentative env.settings.budget).Onward u := by
  induction htries with
  | refl => exact ⟨h.of_frame rfl rfl, .refl _⟩
  | tail _ hstep ih =>
    obtain ⟨hu, honward⟩ := ih
    obtain ⟨ht, honward'⟩ := hstep.footed hu
    exact ⟨ht, honward.trans honward'⟩

/-- An attempt does not count as failed where it begins. -/
lemma ParseState.excused_enterTentative (hs : s.tentative = {}) (budget : Nat) :
    (s.enterTentative budget).Excused ↔ s.Excused := by
  unfold ParseState.Excused ParseState.Reported ParseState.enterTentative
  rw [hs]

/-- So does each turn outside attempts. -/
lemma Turn.footed (hturn : Turn env s t) (hsettled : s.tentative = {}) (h : s.Footed env) :
    t.Footed env ∧ s.Onward t := by
  cases hturn with
  | unmute => exact ⟨h.of_frame rfl rfl, .of_frame rfl rfl rfl id⟩
  | joinGreater =>
    obtain ⟨hlexer, hstart⟩ := h.lexer.joinGreater
    refine ⟨⟨hlexer, h.prevStop, hstart.symm ▸ h.prevStop_le⟩, .of_frame hstart rfl rfl ?_⟩
    unfold ParseState.Excused ParseState.Reported
    rw [Lexer.log_joinGreater]
    exact id
  | remember start => exact ⟨h.of_frame rfl rfl, .of_frame rfl rfl rfl id⟩
  | enclose owner => exact ⟨h.of_frame rfl rfl, .of_frame rfl rfl rfl id⟩
  | @commit u htries ok =>
    obtain ⟨hu, honward⟩ := htries.footed h
    refine ⟨hu.of_frame rfl rfl, honward.start, honward.prevStop, honward.nodes, fun hexcused => ?_⟩
    -- The attempt has not failed, so that what is excused in it has been reported.
    have hreported := honward.excused ((ParseState.excused_enterTentative hsettled _).2 hexcused)
    exact .inl (hreported.resolve_right (by simp [ok]))
  | giveUp htries =>
    rw [(Inside.of_tries hsettled htries).giveUp_eq hsettled]
    exact ⟨h.of_frame rfl rfl, .of_frame rfl rfl rfl id⟩

/-! ## Regions -/

/-- A region whose states have their offsets between characters. -/
structure Ground (env : Env) extends Region env where
  footed : ∀ {s}, mem s → s.Footed env

/-- The states of a region with their offsets between characters. -/
def Region.ground (J : Region env) : Ground env where
  mem s := J.mem s ∧ s.Footed env
  loses := J.loses
  sound h := J.sound h.1
  step h hstep := ⟨J.step h.1 hstep, (hstep.footed h.2).1⟩
  footed h := h.2

lemma Region.Settled.ground {J : Region env} (hJ : J.Settled) : J.ground.Settled where
  tentative h := hJ.tentative h.1
  turn h hturn := ⟨hJ.turn h.1 hturn, (hturn.footed (hJ.tentative h.1) h.2).1⟩
  property h := hJ.property h.1

end CangjieSyntax
