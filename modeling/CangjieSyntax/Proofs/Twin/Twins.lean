import CangjieSyntax.Grammar.File
import CangjieSyntax.Proofs.Grammar.Steps
import CangjieSyntax.Proofs.Tree.Move

/-!
# Two parses side by side

Many facts about a parse compare it with another one: of the same text under other settings, or of
the same code at another place. `Twins` says how the two are meant to correspond: which states of the
lexers stand at the same token, how offsets and places are moved, and which states of the first
parse are good, so that something is claimed of them. `Alike` relates the states of the two parses.
-/

namespace CangjieSyntax

/-- Two lexers stand at the same token, up to its place. -/
structure Lexer.Same (m : Move) (l l' : Lexer) : Prop where
  start : l'.start = m.pos l.start
  pos : l'.pos = m.pos l.pos
  kind : l'.kind = l.kind
  value : l'.value = l.value
  suffix : l'.suffix = l.suffix
  lineBreak : l'.flags.lineBreak = l.flags.lineBreak
  separated : l'.flags.separated = l.flags.separated

/-- Two lexers see the same ahead. -/
structure Lexer.SeesAlike (src src' : Source) (l l' : Lexer) : Prop where
  peek : (l'.scan src').kind = (l.scan src).kind
  atModifier : l'.atModifier src' = l.atModifier src
  atMacroCall : l'.atMacroCall src' = l.atMacroCall src
  kindAfterModifiers : l'.kindAfterModifiers src' = l.kindAfterModifiers src
  macroPackageAhead : l'.macroPackageAhead src' = l.macroPackageAhead src
  literal : Literal.ofToken src' l'.token = Literal.ofToken src l.token
  text : l'.span.text? src' = l.span.text? src

/-- No step of a parse leads to such a state but from such a state, attempts set apart. -/
structure Regressive (env : Env) (good : ParseState → Prop) : Prop where
  step : ∀ {s t}, Step env s t → good t → good s
  unmute : ∀ {s : ParseState}, good { s with muted := false } → good s
  joinGreater : ∀ {s : ParseState}, good { s with lexer := s.lexer.joinGreater env.src } → good s
  enclose : ∀ {s : ParseState} {owner : Option String}, good { s with enclosingType := owner } →
    good s

/-- How two parses correspond. -/
structure Twins where
  env : Env
  env' : Env
  /-- Where the code of the first parse stands in the second one. -/
  shift : Move
  /-- The nodes that the second parse had allocated before. -/
  base : Nodes
  /-- What the second parse had reported before. -/
  before : Log
  /-- The lexical errors that the second parse had met before. -/
  lexBefore : Log
  /-- How many faults the second parse had met before. -/
  errors : Nat
  /-- Both parses are inside an attempt. -/
  tentative : Bool
  /-- Both parses have the same number of tokens left in an attempt, and not only the second one at
  least as many. -/
  exact : Prop
  /-- The states of the first parse of which something is claimed. -/
  good : ParseState → Prop
  /-- The second parse has no answer where the first one has none. -/
  mirrored : Prop
  /-- The lexers stand at the same place of the code. -/
  lexes : Lexer → Lexer → Prop
  /-- How the names that were met correspond, of which nothing need be claimed. -/
  names : NameTable → NameTable → Prop := fun _ _ => True
  base_counts : base.counts = shift.counts
  rounds_le : env.rounds ≤ env'.rounds
  /-- Then both are allowed the same, number their nodes alike, and all states are good. -/
  rounds_eq : mirrored → env.rounds = env'.rounds
  counts : mirrored → shift.counts = ⟨0, 0, 0, 0⟩
  all_good : mirrored → ∀ s, good s
  /-- The second parse may go deeper, if nothing is claimed where the first one went too deep. -/
  depth : env.settings.maxDepth = env'.settings.maxDepth
    ∨ env.settings.maxDepth ≤ env'.settings.maxDepth
      ∧ ∀ s span, ¬ good (ParseState.reportDepth s span env.settings.maxDepth)
  regressive : Regressive env good
  exhausted : exact ∨ ∀ s, good s → s.tentative.exhausted = true → s.tentative.failed = false
  same : ∀ {l l'}, lexes l l' → l.Same shift l'
  sees : ∀ {l l'}, lexes l l' → l.SeesAlike env.src env'.src l'
  log : ∀ {l l'}, lexes l l' → l'.log = lexBefore ++ l.log.map (move shift)
  scanKnown : ∀ {l l'}, lexes l l' → lexes (l.scanKnown env.src) (l'.scanKnown env'.src)
  joinGreater : ∀ {l l'}, lexes l l' → lexes (l.joinGreater env.src) (l'.joinGreater env'.src)
  insert : ∀ {t t'} (text : String), names t t' → names (t.insert text) (t'.insert text) := by
    exact fun _ h => h

namespace Twins

variable (T : Twins)

/-- The attempts of the two parses, and how many tokens were taken so far. -/
structure Tried (t : Tentative) (tokens : Nat) (t' : Tentative) (tokens' : Nat) : Prop where
  depth : t.depth = 1
  depth' : t'.depth = 1
  failed : t'.failed = t.failed
  exhausted : t'.exhausted = t.exhausted
  /-- The second parse may go at least as far as the first one. -/
  limit : ∃ limit limit', t.limit = some limit ∧ t'.limit = some limit'
    ∧ limit + tokens' ≤ limit' + tokens ∧ (T.exact → limit + tokens' = limit' + tokens)

/-- The states of the two parses correspond. How many tokens were taken so far does not count. -/
structure Alike (s s' : ParseState) : Prop where
  lexes : T.lexes s.lexer s'.lexer
  nodes : s'.nodes = T.base.appendMoved T.shift s.nodes
  names : T.names s.names s'.names
  log : s'.log = T.before ++ s.log.map (move T.shift)
  depth : s'.depth = s.depth
  prevStop : s'.prevStop = T.shift.pos s.prevStop
  prevKind : s'.prevKind = s.prevKind
  prevText : s'.prevSpan.text? T.env'.src = s.prevSpan.text? T.env.src
  settled : T.tentative = false → s.tentative = {} ∧ s'.tentative = {}
  tried : T.tentative = true → T.Tried s.tentative s.tokenCount s'.tentative s'.tokenCount
  comparisons : ∀ p, T.shift.pos p ∈ s'.comparisons ↔ p ∈ s.comparisons
  muted : s'.muted = s.muted
  lastErrorStart : ∀ p, s'.lastErrorStart = some (T.shift.pos p) ↔ s.lastErrorStart = some p
  errorCount : s'.errorCount = T.errors + s.errorCount
  enclosingType : s'.enclosingType = s.enclosingType

/-- What rules look at is alike in two states. -/
structure Looks (s s' : ParseState) : Prop where
  kind : s'.kind = s.kind
  start : s'.start = T.shift.pos s.start
  pos : s'.lexer.pos = T.shift.pos s.lexer.pos
  tokenKind : s'.lexer.kind = s.lexer.kind
  lineBreak : s'.lexer.flags.lineBreak = s.lexer.flags.lineBreak
  separated : s'.lexer.flags.separated = s.lexer.flags.separated
  nodes : s'.nodes = T.base.appendMoved T.shift s.nodes
  prevStop : s'.prevStop = T.shift.pos s.prevStop
  errorCount : s'.errorCount = T.errors + s.errorCount
  enclosingType : s'.enclosingType = s.enclosingType

/-- A state that looks like the given one. -/
def image (s : ParseState) : ParseState :=
  { s with
    lexer := { s.lexer with start := T.shift.pos s.lexer.start, pos := T.shift.pos s.lexer.pos }
    nodes := T.base.appendMoved T.shift s.nodes
    prevStop := T.shift.pos s.prevStop
    errorCount := T.errors + s.errorCount }

lemma looks_image (s : ParseState) : T.Looks s (T.image s) :=
  ⟨rfl, rfl, rfl, rfl, rfl, rfl, rfl, rfl, rfl, rfl⟩

end Twins

variable {T : Twins} {s s' t u : ParseState}

lemma Message.move_diagnostic (m : Move) (message : Message) (span : Span) (args : List String) :
    move m (message.diagnostic span args) = message.diagnostic (move m span) args := rfl

namespace Twins.Alike

lemma isTentative (h : T.Alike s s') : s'.isTentative = s.isTentative := by
  unfold ParseState.isTentative
  cases e : T.tentative with
  | false =>
    obtain ⟨hs, hs'⟩ := h.settled e
    rw [hs, hs']
  | true =>
    have := h.tried e
    rw [this.depth, this.depth']

lemma failed (h : T.Alike s s') : s'.tentative.failed = s.tentative.failed := by
  cases e : T.tentative with
  | false =>
    obtain ⟨hs, hs'⟩ := h.settled e
    rw [hs, hs']
  | true => exact (h.tried e).failed

lemma same (h : T.Alike s s') : s.lexer.Same T.shift s'.lexer :=
  T.same h.lexes

lemma sees (h : T.Alike s s') : s.lexer.SeesAlike T.env.src T.env'.src s'.lexer :=
  T.sees h.lexes

/-! ## What rules look at -/

lemma kind (h : T.Alike s s') : s'.kind = s.kind := by
  unfold ParseState.kind
  rw [h.failed, h.same.kind]

lemma peek (h : T.Alike s s') : s'.peek T.env'.src = s.peek T.env.src :=
  h.sees.peek

lemma start (h : T.Alike s s') : s'.start = T.shift.pos s.start :=
  h.same.start

lemma span (h : T.Alike s s') : s'.lexer.span = move T.shift s.lexer.span := by
  rw [Lexer.span, Lexer.span, h.same.start, h.same.pos, move_ofBounds]

lemma spanFrom (h : T.Alike s s') (start : Nat) :
    s'.spanFrom (T.shift.pos start) = move T.shift (s.spanFrom start) := by
  rw [ParseState.spanFrom, ParseState.spanFrom, h.prevStop, move_ofBounds, T.shift.pos_max]

lemma looks (h : T.Alike s s') : T.Looks s s' where
  kind := h.kind
  start := h.start
  pos := h.same.pos
  tokenKind := h.same.kind
  lineBreak := h.same.lineBreak
  separated := h.same.separated
  nodes := h.nodes
  prevStop := h.prevStop
  errorCount := h.errorCount
  enclosingType := h.enclosingType

lemma atModifier (h : T.Alike s s') : s'.atModifier T.env'.src = s.atModifier T.env.src := by
  rw [ParseState.atModifier, ParseState.atModifier, h.kind, h.sees.atModifier]

lemma atDeclaration (h : T.Alike s s') :
    s'.atDeclaration T.env'.src = s.atDeclaration T.env.src := by
  rw [ParseState.atDeclaration, ParseState.atDeclaration, h.kind, h.peek, h.atModifier]

lemma modifier? (h : T.Alike s s') : s'.modifier? T.env'.src = s.modifier? T.env.src := by
  unfold ParseState.modifier?
  rw [h.kind, h.peek, h.atModifier, h.same.value]

/-! ## Reports -/

/-- A failed attempt is alike in both parses. -/
lemma fail (h : T.Alike s s') (htentative : s.isTentative = true) : T.Alike s.fail s'.fail := by
  have inside : T.tentative = true := by
    by_contra e
    rw [Bool.not_eq_true] at e
    simp [ParseState.isTentative, (h.settled e).1] at htentative
  exact { h with
    settled := fun e => absurd inside (by simp [e])
    tried := fun _ => { h.tried inside with failed := rfl } }

/-- A fault outside attempts counts in both parses. -/
lemma count (h : T.Alike s s') (muted : Bool) :
    T.Alike { s with errorCount := s.errorCount + 1, muted }
      { s' with errorCount := s'.errorCount + 1, muted } :=
  { h with muted := rfl, errorCount := by simp only [h.errorCount]; omega }

lemma report (h : T.Alike s s') (span : Span) (m : Message) (args : List String) :
    T.Alike (s.report span m args) (s'.report (move T.shift span) m args) := by
  unfold ParseState.report
  dsimp only
  rw [h.isTentative]
  split
  case isTrue htentative => exact h.fail htentative
  case isFalse =>
    have heard : (s'.muted || s'.lastErrorStart == some (move T.shift span).start)
        = (s.muted || s.lastErrorStart == some span.start) := by
      rw [h.muted, start_move]
      congr 1
      rw [Bool.eq_iff_iff, beq_iff_eq, beq_iff_eq]
      exact h.lastErrorStart span.start
    rw [heard]
    have counted : s'.errorCount + 1 = T.errors + (s.errorCount + 1) := by
      rw [h.errorCount]
      omega
    split
    · exact { h with errorCount := counted }
    · exact { h with
        errorCount := counted
        lastErrorStart := fun p => by simp [T.shift.pos_inj]
        log := by simp [h.log, Message.move_diagnostic] }

lemma reportDepth (h : T.Alike s s') (span : Span) (maxDepth : Nat) :
    T.Alike (s.reportDepth span maxDepth) (s'.reportDepth (move T.shift span) maxDepth) := by
  unfold ParseState.reportDepth
  rw [h.isTentative, h.muted]
  split
  case isTrue htentative => exact h.fail htentative
  case isFalse =>
    refine { h with muted := rfl, errorCount := by simp only [h.errorCount]; omega, log := ?_ }
    dsimp only
    split
    · exact h.log
    · simp [h.log, Message.move_diagnostic]

/-! ## Tokens -/

/-- The limit on the tokens is checked alike, unless the first attempt is out of them. -/
lemma checkLimit (h : T.Alike s s') (hlimit : T.exact ∨ s.checkLimit ≠ s.exhaust) :
    T.Alike s.checkLimit s'.checkLimit := by
  cases e : T.tentative with
  | false =>
    obtain ⟨hs, hs'⟩ := h.settled e
    rwa [ParseState.checkLimit_of_settled hs, ParseState.checkLimit_of_settled hs']
  | true =>
    have tried := h.tried e
    obtain ⟨limit, limit', hl, hl', hle, hexact⟩ := tried.limit
    unfold ParseState.checkLimit at hlimit ⊢
    rw [hl] at hlimit
    rw [hl, hl']
    dsimp only at hlimit ⊢
    by_cases hpast : limit < s.tokenCount
    · have hexact := hexact (hlimit.resolve_right (by simp [hpast]))
      rw [if_pos hpast, if_pos (show limit' < s'.tokenCount by omega)]
      exact { h with
        settled := fun e' => absurd e (by simp [e'])
        tried := fun _ => { tried with failed := rfl, exhausted := rfl } }
    · rw [if_neg hpast, if_neg (show ¬ limit' < s'.tokenCount by omega)]
      exact h

lemma scanKnown (h : T.Alike s s') :
    T.Alike { s with lexer := s.lexer.scanKnown T.env.src }
      { s' with lexer := s'.lexer.scanKnown T.env'.src } :=
  { h with lexes := T.scanKnown h.lexes }

lemma lexicalFault (h : T.Alike s s') : T.Alike s.lexicalFault s'.lexicalFault := by
  unfold ParseState.lexicalFault
  rw [h.isTentative]
  split
  case isTrue htentative => exact h.fail htentative
  case isFalse => exact h.count true

/-- The current token becomes the previous one. -/
lemma take (h : T.Alike s s') :
    T.Alike
      { s with
        prevStop := s.lexer.pos, prevSpan := s.lexer.span, prevKind := s.lexer.kind
        tokenCount := s.tokenCount + 1 }
      { s' with
        prevStop := s'.lexer.pos, prevSpan := s'.lexer.span, prevKind := s'.lexer.kind
        tokenCount := s'.tokenCount + 1 } := by
  refine { h with
    prevStop := h.same.pos, prevKind := h.same.kind, prevText := h.sees.text
    tried := fun e => ?_ }
  have tried := h.tried e
  obtain ⟨limit, limit', hlimit, hlimit', hle, hexact⟩ := tried.limit
  refine { tried with limit := ⟨limit, limit', hlimit, hlimit', ?_, fun exact => ?_⟩ }
  · dsimp only
    omega
  · have := hexact exact
    dsimp only
    omega

lemma advance (h : T.Alike s s') (hgood : T.good (s.advance T.env.src)) :
    T.Alike (s.advance T.env.src) (s'.advance T.env'.src) := by
  have taken := h.take
  set v := { s with
    prevStop := s.lexer.pos, prevSpan := s.lexer.span, prevKind := s.lexer.kind
    tokenCount := s.tokenCount + 1 } with hv
  set v' := { s' with
    prevStop := s'.lexer.pos, prevSpan := s'.lexer.span, prevKind := s'.lexer.kind
    tokenCount := s'.tokenCount + 1 } with hv'
  have counted : T.Alike v.checkLimit v'.checkLimit := by
    refine taken.checkLimit (T.exhausted.imp_right fun hbad hexhaust => ?_)
    -- An attempt that is out of tokens stays so behind the token.
    have out : (s.advance T.env.src).tentative.exhausted = true
        ∧ (s.advance T.env.src).tentative.failed = true := by
      unfold ParseState.advance ParseState.lexicalFault ParseState.fail
      dsimp only
      rw [← hv, hexhaust]
      split
      · split
        · exact ⟨rfl, rfl⟩
        · exact ⟨rfl, rfl⟩
      · exact ⟨rfl, rfl⟩
    have := hbad _ hgood out.1
    simp [out.2] at this
  have scanned := counted.scanKnown
  -- Both lexers report an error, or neither does.
  have size (u u' : ParseState) (h : T.Alike u u') :
      u'.lexer.log.size = T.lexBefore.size + u.lexer.log.size := by
    rw [T.log h.lexes]
    simp
  have before := size _ _ counted
  have behind := size _ _ scanned
  unfold ParseState.advance
  dsimp only at behind ⊢
  rw [← hv, ← hv', behind, before]
  simp only [Nat.add_lt_add_iff_left]
  split
  · exact scanned.lexicalFault
  · exact scanned

end Twins.Alike

end CangjieSyntax
