import CangjieSyntax.Grammar.TokenClass
import CangjieSyntax.Proofs.Grammar.Scanning
import CangjieSyntax.Proofs.Token.Progress

/-!
# Where a parse is

Taking a token brings a parse closer to the end of the text, and nothing it does brings it back,
since a reading that is given up goes back to where it was tried from. So what lasts from token to
token holds of all that a parse does from some place on: that a token has been passed, or that at
most so many are left.
-/

namespace CangjieSyntax

variable {env : Env} {src : Source} {allowed : Kind → Prop} {P : Lexer → Prop} {l m : Lexer}
  {s t u : ParseState}

/-! ## Places -/

namespace Lexer

/-- A bound on the tokens from the current one up to the end of the text. -/
def left (src : Source) (l : Lexer) : Nat :=
  if l.kind = .endOfFile then 0 else src.size + 1 - l.start

/-- A place that a parse comes to from the one of `l`: it has passed the token there, or it is still
at that token, whose kind changes only if a `>` is joined. -/
structure Since (l m : Lexer) : Prop where
  ended : l.kind = .endOfFile → m.kind = .endOfFile
  moved : l.Passes m ∨ m.start = l.start ∧ (m.kind = l.kind ∨ m.kind.endsItems = false)

/-- What taking tokens and joining them keeps. -/
structure Lasting (src : Source) (P : Lexer → Prop) : Prop where
  scanKnown : ∀ {l : Lexer}, l.Regular src → l.Stretches src → P l → P (l.scanKnown src)
  joinGreater : ∀ {l : Lexer}, P l → P (l.joinGreater src)

/-- A joined mark starts where the `>` did. -/
lemma joinGreater_frame (src : Source) (l : Lexer) :
    (l.joinGreater src).start = l.start
      ∧ ((l.joinGreater src).kind = l.kind
        ∨ (l.joinGreater src).kind.endsItems = false ∧ l.kind = .mark .greater) := by
  unfold joinGreater
  split
  case isTrue hgreater =>
    split
    case h_1 p stop hjoin =>
      refine ⟨rfl, .inr ⟨?_, hgreater⟩⟩
      unfold Punctuation.joinGreater? at hjoin
      split at hjoin
      · split at hjoin <;> cases hjoin <;> rfl
      · split at hjoin <;> cases hjoin
        rfl
    case h_2 => exact ⟨rfl, .inl rfl⟩
  case isFalse => exact ⟨rfl, .inl rfl⟩

lemma kind_joinGreater_eq_endOfFile :
    (l.joinGreater src).kind = .endOfFile ↔ l.kind = .endOfFile := by
  obtain ⟨-, hsame | ⟨hmark, hgreater⟩⟩ := joinGreater_frame src l
  · rw [hsame]
  · constructor
    · intro hend
      rw [hend] at hmark
      exact nomatch hmark
    · intro hend
      exact nomatch hend.symm.trans hgreater

lemma Regular.start_le_size (h : l.Regular src) (hl : l.Stretches src) : l.start ≤ src.size := by
  obtain hpos | ⟨hlt, -⟩ := h.sound.placed
  · exact Nat.le_trans hl.start_le (Source.le_size_of_isBoundary hpos)
  · exact Nat.le_trans hl.start_le (Nat.le_of_lt hlt)

lemma left_lt_of_passes (h : l.Regular src) (hl : l.Stretches src) (hkind : l.kind ≠ .endOfFile)
    (hpasses : l.Passes m) : m.left src < l.left src := by
  have hle := h.start_le_size hl
  unfold left
  rw [if_neg hkind]
  split
  · omega
  case isFalse hm =>
    have hlt := hpasses.resolve_left hm
    omega

/-- A parse has more rounds than tokens. -/
lemma left_lt_rounds (env : Env) (l : Lexer) : l.left env.src < env.rounds := by
  unfold left Env.rounds
  split <;> omega

/-- At the end of the text a parse stays there. -/
lemma kind_scanKnown_of_ended (h : l.Regular src) (hkind : l.kind = .endOfFile) :
    (l.scanKnown src).kind = .endOfFile := by
  have hall : (l.scanKnown src).Ended src :=
    scanKnown_of_first (P := fun m => m.Ended src) (h.ended hkind).scan.1
      (fun m hm => hm.scan.1) (fun m flags hm => ⟨hm.kind, hm.pos, hm.modes⟩)
  exact hall.kind

lemma Passes.scanKnown (hm : m.Regular src) (hstretches : m.Stretches src) (h : l.Passes m) :
    l.Passes (m.scanKnown src) := by
  by_cases hkind : m.kind = .endOfFile
  · exact .inl (kind_scanKnown_of_ended hm hkind)
  · obtain hend | hlt := passes_scanKnown hm hstretches hkind
    · exact .inl hend
    · exact .inr (Nat.lt_trans (h.resolve_left hkind) hlt)

lemma Since.refl (l : Lexer) : l.Since l :=
  ⟨id, .inr ⟨rfl, .inl rfl⟩⟩

/-- What passes a token that a parse has come to passes the one it came from. -/
lemma Since.passes {n : Lexer} (h : l.Since m) (hpasses : m.Passes n) (hkind : m.kind ≠ .endOfFile) :
    l.Passes n := by
  obtain hpassed | ⟨hstart, -⟩ := h.moved
  · exact hpasses.imp_right (Nat.lt_trans (hpassed.resolve_left hkind))
  · exact hpasses.imp_right (hstart ▸ ·)

lemma lasting_passes (src : Source) (l : Lexer) : Lasting src l.Passes where
  scanKnown := Passes.scanKnown
  joinGreater {m} h := by
    obtain ⟨hstart, -⟩ := joinGreater_frame src m
    rw [Passes, hstart]
    exact h.imp_left kind_joinGreater_eq_endOfFile.2

lemma lasting_since (src : Source) (l : Lexer) : Lasting src l.Since where
  scanKnown {m} hm hstretches h := by
    refine ⟨fun hend => kind_scanKnown_of_ended hm (h.ended hend), .inl ?_⟩
    by_cases hkind : m.kind = .endOfFile
    · exact .inl (kind_scanKnown_of_ended hm hkind)
    · exact h.passes (passes_scanKnown hm hstretches hkind) hkind
  joinGreater {m} h := by
    refine ⟨fun hend => kind_joinGreater_eq_endOfFile.2 (h.ended hend), ?_⟩
    obtain hpassed | ⟨hstart, hkind⟩ := h.moved
    · exact .inl ((lasting_passes src l).joinGreater hpassed)
    · obtain ⟨hjoined, hsame | ⟨hmark, -⟩⟩ := joinGreater_frame src m
      · exact .inr ⟨hjoined.trans hstart, hsame ▸ hkind⟩
      · exact .inr ⟨hjoined.trans hstart, .inr hmark⟩

lemma lasting_left (src : Source) (bound : Nat) : Lasting src fun l => l.left src < bound where
  scanKnown {l} h hl hbound := by
    by_cases hkind : l.kind = .endOfFile
    · rw [left, if_pos hkind] at hbound
      rwa [left, if_pos (kind_scanKnown_of_ended h hkind)]
    · exact Nat.lt_trans (left_lt_of_passes h hl hkind (passes_scanKnown h hl hkind)) hbound
  joinGreater {l} hbound := by
    obtain ⟨hstart, -⟩ := joinGreater_frame src l
    simp only [left, kind_joinGreater_eq_endOfFile, hstart]
    exact hbound

end Lexer

/-! ## States on the way -/

/-- A state behind the first token of a parse, at a token of an allowed kind with none but such
tokens ahead. -/
structure ParseState.Underway (env : Env) (allowed : Kind → Prop) (s : ParseState) : Prop where
  scanning : ∃ log, s.Scanning env allowed log
  stretches : s.lexer.Stretches env.src
  allowed : allowed s.lexer.kind

/-- All marks are allowed, so that it makes no difference how a `>` is joined. -/
def AllowsMarks (allowed : Kind → Prop) : Prop :=
  ∀ p, allowed (.mark p)

namespace ParseState

lemma Underway.regular (h : s.Underway env allowed) : s.lexer.Regular env.src := by
  obtain ⟨log, hscanning⟩ := h.scanning
  exact hscanning.regular

lemma Scanning.underway_advance {log : Log} (h : s.Scanning env allowed log) :
    (s.advance env.src).Underway env allowed := by
  refine ⟨⟨log, h.step (.advance s)⟩, ?_, ?_⟩
  · obtain ⟨tentative, errorCount, muted, -, -, -, e⟩ := s.advance_eq env.src
    rw [e]
    exact .scanKnown h.regular
  · obtain ⟨tentative, errorCount, muted, -, -, -, e⟩ := s.advance_eq env.src
    rw [e]
    exact h.remains.kind_scanKnown h.regular

lemma lexer_advance (src : Source) (s : ParseState) :
    (s.advance src).lexer = s.lexer.scanKnown src := by
  obtain ⟨tentative, errorCount, muted, -, -, -, e⟩ := s.advance_eq src
  rw [e]

/-- A token that is seen is there. -/
lemma lexer_kind_ne (h : s.kind ≠ .endOfFile) : s.lexer.kind ≠ .endOfFile := by
  unfold kind at h
  split at h
  · exact absurd rfl h
  · exact h

/-- Outside attempts every token is seen. -/
lemma kind_of_settled (h : s.tentative = {}) : s.kind = s.lexer.kind := by
  unfold kind
  rw [h]
  rfl

/-- Between two states the token of the first has been taken. -/
def Consumes (s t : ParseState) : Prop :=
  s.lexer.kind ≠ .endOfFile ∧ s.lexer.Passes t.lexer

end ParseState

/-- A report leaves the lexer alone. -/
lemma ParseState.lexer_report (s : ParseState) (span : Span) (m : Message) (args : List String) :
    (s.report span m args).lexer = s.lexer := by
  unfold report
  split
  · rfl
  · dsimp only
    split <;> rfl

/-- A step takes the current token or leaves the lexer alone. -/
lemma Step.lexer (hstep : Step env s t) :
    t = s.advance env.src ∨ t.lexer = s.lexer := by
  cases hstep with
  | advance => exact .inl rfl
  | report span m args => exact .inr (s.lexer_report span m args)
  | reportDepth span =>
    right
    unfold ParseState.reportDepth
    split <;> rfl
  | alloc => exact .inr rfl
  | intern => exact .inr rfl
  | deeper => exact .inr rfl
  | shallower => exact .inr rfl

namespace ParseState.Underway

lemma step (h : s.Underway env allowed) (hstep : Step env s t) : t.Underway env allowed := by
  obtain ⟨log, hscanning⟩ := h.scanning
  obtain rfl | hlexer := hstep.lexer
  · exact hscanning.underway_advance
  · exact ⟨⟨log, hscanning.step hstep⟩, hlexer ▸ h.stretches, hlexer ▸ h.allowed⟩

lemma lasts_step (hP : Lexer.Lasting env.src P) (h : s.Underway env allowed) (hs : P s.lexer)
    (hstep : Step env s t) : P t.lexer := by
  obtain rfl | hlexer := hstep.lexer
  · rw [ParseState.lexer_advance]
    exact hP.scanKnown h.regular h.stretches hs
  · rw [hlexer]
    exact hs

lemma enter (h : s.Underway env allowed) (budget : Nat) :
    (s.enterTentative budget).Underway env allowed := by
  obtain ⟨log, hscanning⟩ := h.scanning
  exact ⟨⟨log, hscanning.regular, hscanning.remains, hscanning.grammatical⟩, h.stretches, h.allowed⟩

lemma tries (hP : Lexer.Lasting env.src P) (h : s.Underway env allowed) (hs : P s.lexer)
    (htries : Tries env s u) : u.Underway env allowed ∧ P u.lexer := by
  induction htries with
  | refl => exact ⟨h.enter _, hs⟩
  | tail _ hstep ih => exact ⟨ih.1.step hstep, lasts_step hP ih.1 ih.2 hstep⟩

lemma turn (hmarks : AllowsMarks allowed) (hP : Lexer.Lasting env.src P)
    (h : s.Underway env allowed) (hs : P s.lexer) (hsettled : s.tentative = {})
    (hturn : Turn env s t) : t.Underway env allowed ∧ P t.lexer := by
  obtain ⟨log, hscanning⟩ := h.scanning
  have ht : t.Scanning env allowed log := hscanning.turn hmarks hsettled hturn
  cases hturn with
  | unmute => exact ⟨⟨⟨log, ht⟩, h.stretches, h.allowed⟩, hs⟩
  | joinGreater =>
    refine ⟨⟨⟨log, ht⟩, h.stretches.joinGreater, ?_⟩, hP.joinGreater hs⟩
    change allowed (s.lexer.joinGreater env.src).kind
    unfold Lexer.joinGreater
    split
    · split
      · exact hmarks _
      · exact h.allowed
    · exact h.allowed
  | remember start => exact ⟨⟨⟨log, ht⟩, h.stretches, h.allowed⟩, hs⟩
  | enclose owner => exact ⟨⟨⟨log, ht⟩, h.stretches, h.allowed⟩, hs⟩
  | commit htries ok =>
    obtain ⟨hu, hPu⟩ := h.tries hP hs htries
    exact ⟨⟨⟨log, ht⟩, hu.stretches, hu.allowed⟩, hPu⟩
  | giveUp htries =>
    rw [(Inside.of_tries hsettled htries).giveUp_eq hsettled] at ht ⊢
    exact ⟨⟨⟨log, ht⟩, h.stretches, h.allowed⟩, hs⟩

end ParseState.Underway

/-! ## Regions of places -/

/-- All sound states, in attempts and outside. -/
def Region.anywhere (env : Env) : Region env where
  mem s := s.Sound
  loses := True
  sound h := h
  step h hstep := hstep.sound h

/-- The states of a region on the way whose place has a lasting property. -/
def Region.along (J : Region env) (allowed : Kind → Prop) (hP : Lexer.Lasting env.src P) :
    Region env where
  mem s := J.mem s ∧ s.Underway env allowed ∧ P s.lexer
  loses := allowed (.keyword .kwProp)
  sound h := J.sound h.1
  step h hstep := ⟨J.step h.1 hstep, h.2.1.step hstep, h.2.1.lasts_step hP h.2.2 hstep⟩

lemma Region.Settled.along {J : Region env} (hJ : J.Settled) (hmarks : AllowsMarks allowed)
    (hP : Lexer.Lasting env.src P) : (J.along allowed hP).Settled where
  tentative h := hJ.tentative h.1
  turn h hturn := ⟨hJ.turn h.1 hturn, h.2.1.turn hmarks hP h.2.2 (hJ.tentative h.1) hturn⟩
  property h hkind := by
    change allowed _
    rw [← hkind, ParseState.kind_of_settled (hJ.tentative h.1)]
    exact h.2.1.allowed

/-- The states of a region with a bound on the tokens left. -/
abbrev Region.below (J : Region env) (allowed : Kind → Prop) (bound : Nat) : Region env :=
  J.along allowed (Lexer.lasting_left env.src bound)

/-- The states of a region that have passed a token. -/
abbrev Region.past (J : Region env) (allowed : Kind → Prop) (l : Lexer) : Region env :=
  J.along allowed (Lexer.lasting_passes env.src l)

/-- The states of a region that have come from a token. -/
abbrev Region.since (J : Region env) (allowed : Kind → Prop) (l : Lexer) : Region env :=
  J.along allowed (Lexer.lasting_since env.src l)

/-- Behind a token fewer are left. -/
lemma Region.below_advance {J : Region env} {bound : Nat}
    (h : (J.below allowed (bound + 1)).mem s) (hkind : s.kind ≠ .endOfFile) :
    (J.below allowed bound).mem (s.advance env.src) := by
  obtain ⟨hs, hway, hleft⟩ := h
  refine ⟨J.step hs (.advance s), hway.step (.advance s), ?_⟩
  rw [ParseState.lexer_advance]
  have hpasses := Lexer.passes_scanKnown hway.regular hway.stretches (ParseState.lexer_kind_ne hkind)
  have hlt := Lexer.left_lt_of_passes hway.regular hway.stretches (ParseState.lexer_kind_ne hkind)
    hpasses
  exact Nat.lt_of_lt_of_le hlt (Nat.le_of_lt_succ hleft)

/-- What is consumed behind a place that a parse has come to is behind the one it came from. -/
lemma ParseState.Consumes.since (h : u.Consumes t) (hsince : s.lexer.Since u.lexer) :
    s.Consumes t :=
  ⟨fun hend => h.1 (hsince.ended hend), hsince.passes h.2 h.1⟩

/-- Taking a token consumes it. -/
lemma ParseState.Underway.consumes_advance (h : s.Underway env allowed)
    (hkind : s.kind ≠ .endOfFile) : s.Consumes (s.advance env.src) := by
  have hseen := ParseState.lexer_kind_ne hkind
  refine ⟨hseen, ?_⟩
  rw [ParseState.lexer_advance]
  exact Lexer.passes_scanKnown h.regular h.stretches hseen

/-- Behind a token it has been passed. -/
lemma Region.past_advance {J : Region env} (hs : J.mem s) (hway : s.Underway env allowed)
    (hkind : s.kind ≠ .endOfFile) : (J.past allowed s.lexer).mem (s.advance env.src) :=
  ⟨J.step hs (.advance s), hway.step (.advance s), (hway.consumes_advance hkind).2⟩

/-- A token taken at a place that a parse has come to is behind the one it came from. -/
lemma Region.consumes_advance {J : Region env} (hu : (J.since allowed s.lexer).mem u)
    (hkind : u.kind ≠ .endOfFile) : s.Consumes (u.advance env.src) :=
  (hu.2.1.consumes_advance hkind).since hu.2.2

end CangjieSyntax
