import CangjieSyntax.Proofs.Comment.Basic
import CangjieSyntax.Proofs.Excerpt.Parse
import CangjieSyntax.Proofs.Termination

/-!
# Comments are transparent

A text with a comment and the text with a blank in its place are parsed side by side. A gap that
reaches the comment goes on behind it, and the gap with the blank goes on in the same way. Both have
the same line breaks and the same errors, and both separate the tokens around them. Only whether a
blank or comment lies in the gap may differ: a line feed by itself is neither.

So two lexers at the same token, one in each text, come to the same next token. In front of the
comment they read the same text; the gap that reaches it is crossed by both in one step; and behind
it they read the same text again. The two parses take the same tokens, so they come to the same tree
and the same diagnostics, up to offsets behind the comment.
-/

namespace CangjieSyntax

variable {src src' : Source} {m : Move} {a pos stop stop' outer : Nat} {closed closed' : Bool}
  {pieces : List Gap.Piece} {l l' : Lexer}

/-! ## Comments are spelt in one way -/

/-- A line comment ends where its line does. -/
lemma Source.skipWhile_lineComment (hle : pos ≤ stop) (hinside : ¬src.HasLineFeed pos stop)
    (hend : stop = src.size ∨ src.byteAt stop = some 0x0A) :
    src.skipWhile (· != 0x0A) pos = stop := by
  have hsize : stop ≤ src.size :=
    hend.elim Nat.le_of_eq fun h => Nat.le_of_lt (lt_size_of_byteAt h)
  refine Nat.le_antisymm ?_ (Nat.le_of_not_lt fun hlt => ?_)
  · obtain rfl | hfeed := hend
    · exact skipWhile_le_size hle
    · by_contra hlt
      obtain ⟨b, hb, hne⟩ := byteAt_in_run hle (Nat.lt_of_not_le hlt)
      rw [hfeed, Option.some.injEq] at hb
      simp [← hb] at hne
  · obtain hsame | hfeed := Gap.lineComment_end (Nat.le_trans hle hsize)
    · omega
    · exact hinside ⟨_, src.le_skipWhile _ pos, hlt, hfeed⟩

namespace BlockComment.Spans

lemma le_size (h : Spans src outer pos stop closed) : pos ≤ src.size := by
  cases h with
  | close h | closeInner h | openInner h =>
    exact Nat.le_of_lt (Source.lt_size_of_byteAt (Source.startsWith_pair.1 h).1)
  | skip hlt => exact Nat.le_of_lt hlt
  | unclosed => exact le_rfl

/-- A comment ends at one place only. -/
lemma unique (h : Spans src outer pos stop closed) (h' : Spans src outer pos stop' closed') :
    stop' = stop ∧ closed' = closed := by
  have never {pos : Nat} (h : src.startsWith pos [0x2A, 0x2F])
      (h' : src.startsWith pos [0x2F, 0x2A]) : False := by
    have := (Source.startsWith_pair.1 h).1.symm.trans (Source.startsWith_pair.1 h').1
    simp at this
  have past {b d : UInt8} (h : src.startsWith src.size [b, d]) : False := by
    have := (Source.startsWith_pair.1 h).1
    simp [src.byteAt_size] at this
  induction h generalizing stop' closed' with
  | close h =>
    cases h' with
    | close => exact ⟨rfl, rfl⟩
    | openInner hopen => exact (never h hopen).elim
    | skip _ hclose => exact absurd h hclose
    | unclosed => exact (past h).elim
  | closeInner h _ ih =>
    cases h' with
    | closeInner _ rest => exact ih rest
    | openInner hopen => exact (never h hopen).elim
    | skip _ hclose => exact absurd h hclose
    | unclosed => exact (past h).elim
  | openInner h _ ih =>
    cases h' with
    | close hclose | closeInner hclose => exact (never hclose h).elim
    | openInner _ rest => exact ih rest
    | skip _ _ hopen => exact absurd h hopen
    | unclosed => exact (past h).elim
  | skip hlt hclose hopen _ ih =>
    cases h' with
    | close h | closeInner h => exact absurd h hclose
    | openInner h => exact absurd h hopen
    | skip _ _ _ rest => exact ih rest
    | unclosed => exact absurd hlt (Nat.lt_irrefl _)
  | unclosed =>
    cases h' with
    | close h | closeInner h | openInner h => exact (past h).elim
    | skip hlt => exact absurd hlt (Nat.lt_irrefl _)
    | unclosed => exact ⟨rfl, rfl⟩

lemma read_eq (h : Spans src outer pos stop closed) :
    (read src pos outer).stop = stop ∧ (read src pos outer).closed = closed :=
  h.unique (spans_read src pos outer h.le_size).1

end BlockComment.Spans

/-! ## Gaps -/

namespace Gap

lemma Spans.le (h : Spans src pos stop pieces) : pos ≤ stop := by
  induction h with
  | nil => exact le_rfl
  | lineFeed _ _ ih | carriageReturn _ _ ih | blank _ _ ih => exact Nat.le_of_succ_le ih
  | lineComment _ hle _ _ _ ih => omega
  | @blockComment pos _ _ _ _ _ comment _ ih =>
    have := BlockComment.le_stop_read src (pos + 2) 0 comment.le_size
    rw [comment.read_eq.1] at this
    omega

/-- Two gaps say the same of the tokens around them. -/
structure Same (m : Move) (g g' : Gap) : Prop where
  stop : g'.stop = m.pos g.stop
  lineBreak : g'.lineBreak = g.lineBreak
  separated : g'.flags.separated = g.flags.separated
  errors : g'.errors = move m g.errors

namespace Same

variable {g g' : Gap} (h : g.Same m g')

include h

lemma lineBreakInFront : Gap.Same m { g with lineBreak := true } { g' with lineBreak := true } :=
  { h with lineBreak := rfl, separated := rfl }

lemma triviaInFront : Gap.Same m { g with trivia := true } { g' with trivia := true } :=
  { h with separated := by simp [flags, TokenFlags.separated] }

lemma behindComment (hpos : m.pos pos + 2 = m.pos (pos + 2)) (comment : BlockComment) :
    (Gap.behindComment pos comment g).Same m
      (Gap.behindComment (m.pos pos) (move m comment) g') where
  stop := h.stop
  lineBreak := congrArg (comment.lineBreak || ·) h.lineBreak
  separated := by simp [Gap.behindComment, flags, TokenFlags.separated]
  errors := by
    unfold Gap.behindComment
    dsimp only
    rw [h.errors, hpos, show (move m comment).closed = comment.closed from rfl]
    split <;> rfl

end Same

lemma same_move (m : Move) (g : Gap) : g.Same m (move m g) :=
  ⟨rfl, rfl, rfl, rfl⟩

end Gap

namespace Source.Blanked

variable (w : src.Blanked src' m a)

include w

lemma size_eq : src'.size = m.pos src.size := by
  cases w.behind.border with
  | ended _ h' => exact h'
  | comment h => simp [src.byteAt_size] at h

/-- A gap behind the comment. -/
lemma gap_behind (hle : a + 1 ≤ pos) (hpos : src.isBoundary pos) :
    Gap.read src' (m.pos pos) = move m (Gap.read src pos) :=
  w.behind.gap hle (le_size_of_isBoundary hpos) hpos (.inr w.size_eq.le)

/-- At the comment. -/
lemma gap_at : (Gap.read src a).Same m (Gap.read src' a) ∧ a + 1 ≤ (Gap.read src a).stop := by
  have hbehind : src.isBoundary (a + 1) := by
    obtain ⟨hblank, -⟩ | ⟨hblank, -⟩ := w.blank
    · exact isBoundary_behind_ascii hblank (by decide)
    · exact isBoundary_behind_ascii hblank (by decide)
  have hle := (Gap.stop_read hbehind).2
  have hrest := w.gap_behind le_rfl hbehind
  have hto := w.comment.le
  have hblank := w.blank
  have hcomment := w.comment
  generalize m.pos (a + 1) = stop at hrest hto hblank hcomment
  cases hcomment with
  | line h _ hinside hend =>
    have hnone : ¬src'.HasLineFeed a stop := by
      rwa [hasLineFeed_behind_pair h (by decide) (by decide) hto]
    have hspace := (hblank.resolve_left fun h => hnone h.2).1
    rw [Gap.read_of_lineComment h, skipWhile_lineComment hto hinside hend, hrest,
      Gap.read_of_blank (byteIs_iff.2 ⟨_, hspace, rfl⟩)]
    exact ⟨(Gap.same_move m _).triviaInFront, hle⟩
  | block h inside =>
    obtain ⟨hend, hclosed⟩ := inside.read_eq
    have hfeed := (BlockComment.spans_read src' (a + 2) 0 inside.le_size).2
    rw [hend, ← hasLineFeed_behind_pair h (by decide) (by decide) hto] at hfeed
    rw [Gap.read_of_blockComment h, hend, hrest, Gap.behindComment, hclosed]
    obtain ⟨hblank, hbreak⟩ | ⟨hblank, hbreak⟩ := hblank
    · rw [hfeed.2 hbreak, Gap.read_of_lineBreak hblank (by decide)]
      exact ⟨⟨rfl, rfl, rfl, rfl⟩, hle⟩
    · rw [Bool.eq_false_iff.2 (mt hfeed.1 hbreak),
        Gap.read_of_blank (byteIs_iff.2 ⟨_, hblank, rfl⟩)]
      exact ⟨⟨rfl, Bool.false_or _, by simp [Gap.flags, TokenFlags.separated], rfl⟩, hle⟩

/-! ### In front of the comment -/

lemma byteAt_front {b : UInt8} (hlt : pos < a) (h : src'.byteAt pos = some b) :
    src.byteAt pos = some b := by
  rw [← w.front.byteAt (Nat.zero_le pos) hlt, w.stays pos (Nat.le_of_lt hlt), h]

lemma startsWith_front {b d : UInt8} (hlt : pos + 1 < a) (h : src'.startsWith pos [b, d]) :
    src.startsWith pos [b, d] := by
  obtain ⟨hfirst, hsecond⟩ := startsWith_pair.1 h
  exact startsWith_pair.2 ⟨w.byteAt_front (Nat.lt_of_succ_lt hlt) hfirst, w.byteAt_front hlt hsecond⟩

lemma skipWhile_front (pos : Nat) (hle : pos ≤ a) (hstop : src'.skipWhile (· != 0x0A) pos ≤ a) :
    src.skipWhile (· != 0x0A) pos = src'.skipWhile (· != 0x0A) pos := by
  have hskip := w.front.skipWhile (f := (· != 0x0A)) (Nat.zero_le pos) hle
    (by rwa [w.stays pos hle, w.stays a le_rfl]) (.inl nofun)
  rw [w.stays pos hle, w.stays _ hskip.2] at hskip
  exact hskip.1.symm

lemma blockComment_front (outer pos : Nat) (hle : pos ≤ a)
    (hstop : (BlockComment.read src' pos outer).stop ≤ a) :
    BlockComment.read src' pos outer = move m (BlockComment.read src pos outer)
      ∧ (BlockComment.read src pos outer).stop = (BlockComment.read src' pos outer).stop := by
  have hread := w.front.blockComment outer (Nat.zero_le pos) hle
    (by rwa [w.stays pos hle, w.stays a le_rfl])
  rw [w.stays pos hle] at hread
  rw [hread] at hstop ⊢
  refine ⟨rfl, (w.stays _ ?_).symm⟩
  exact (m.strict.le_iff_le).1 ((w.stays a le_rfl).symm ▸ hstop)

/-- A gap that reaches the comment. -/
lemma gap (h : Gap.Spans src' pos a pieces) :
    (Gap.read src pos).Same m (Gap.read src' pos) ∧ a + 1 ≤ (Gap.read src pos).stop := by
  -- The pieces in front of the comment stand in both texts, and at the comment there is none left.
  generalize hend : a = stop at h
  induction h with
  | nil =>
    subst hend
    exact w.gap_at
  | @lineFeed pos stop pieces h rest ih =>
    subst hend
    obtain ⟨hsame, hle⟩ := ih rfl
    rw [Gap.read_of_lineBreak h (by decide),
      Gap.read_of_lineBreak (w.byteAt_front rest.le h) (by decide)]
    exact ⟨hsame.lineBreakInFront, hle⟩
  | @carriageReturn pos stop pieces h rest ih =>
    subst hend
    obtain ⟨hsame, hle⟩ := ih rfl
    rw [Gap.read_of_lineBreak h (by decide),
      Gap.read_of_lineBreak (w.byteAt_front rest.le h) (by decide)]
    exact ⟨hsame.lineBreakInFront, hle⟩
  | @blank pos stop pieces h rest ih =>
    subst hend
    obtain ⟨hsame, hle⟩ := ih rfl
    obtain ⟨b, hb, hblank⟩ := byteIs_iff.1 h
    rw [Gap.read_of_blank h,
      Gap.read_of_blank (byteIs_iff.2 ⟨b, w.byteAt_front rest.le hb, hblank⟩)]
    exact ⟨hsame.triviaInFront, hle⟩
  | @lineComment pos mid stop pieces h hle hinside hend' rest ih =>
    subst hend
    obtain ⟨hsame, hbehind⟩ := ih rfl
    have hmid := rest.le
    have hskip' := skipWhile_lineComment hle hinside hend'
    have hskip := w.skipWhile_front (pos + 2) (by omega) (by rw [hskip']; exact hmid)
    rw [Gap.read_of_lineComment h, Gap.read_of_lineComment (w.startsWith_front (by omega) h), hskip,
      hskip']
    exact ⟨hsame.triviaInFront, hbehind⟩
  | @blockComment pos mid stop closed pieces h comment rest ih =>
    subst hend
    obtain ⟨hsame, hbehind⟩ := ih rfl
    have hmid := rest.le
    have hle := BlockComment.le_stop_read src' (pos + 2) 0 comment.le_size
    have hstop' := comment.read_eq.1
    rw [hstop'] at hle
    obtain ⟨hread, hstop⟩ := w.blockComment_front 0 (pos + 2) (by omega)
      (by rw [hstop']; exact hmid)
    have hpos : m.pos pos + 2 = m.pos (pos + 2) := by
      rw [w.stays pos (by omega), w.stays (pos + 2) (by omega)]
    have hcomment := hsame.behindComment hpos (BlockComment.read src (pos + 2) 0)
    rw [w.stays pos (by omega), ← hread] at hcomment
    rw [Gap.read_of_blockComment h, Gap.read_of_blockComment (w.startsWith_front (by omega) h),
      hstop, hstop']
    exact ⟨hcomment, hbehind⟩

end Source.Blanked

/-! ## On the way to the comment -/

/-- No gap starts at a byte that joins. -/
lemma Gap.Spans.eq_of_joins {stop : Nat} {pieces : List Gap.Piece} {b : UInt8}
    (h : Spans src pos stop pieces) (hb : src.byteAt pos = some b) (hjoins : Byte.joins b) :
    stop = pos := by
  have clash {d : UInt8} (hd : src.byteAt pos = some d) (hne : Byte.joins d = false) : False := by
    obtain rfl : b = d := Option.some.inj (hb.symm.trans hd)
    simp [hjoins] at hne
  cases h with
  | nil => rfl
  | lineFeed h | carriageReturn h => exact (clash h (by decide)).elim
  | blank h =>
    obtain ⟨d, hd, hblank⟩ := Source.byteIs_iff.1 h
    simp only [Byte.isBlank, Bool.or_eq_true, beq_iff_eq] at hblank
    obtain (rfl | rfl) | rfl := hblank <;> exact (clash hd (by decide)).elim
  | lineComment h | blockComment h =>
    exact (clash (Source.startsWith_pair.1 h).1 (by decide)).elim

namespace Lexer.Approaches

/-- The comment lies ahead. -/
lemma le (h : l.Approaches src a) (hl : l.Sound src) : l.pos ≤ a := by
  induction h with
  | gap _ h => exact h.le
  | token _ ih =>
    have := ih hl.advances.sound
    have := hl.advances.le_start
    have := hl.advances.start_le
    omega

/-- What lies ahead is a matter of the place and the modes. -/
lemma congr (h : l.Approaches src a) {k : Lexer} (hpos : k.pos = l.pos)
    (hmodes : k.modes = l.modes) : k.Approaches src a := by
  induction h generalizing k with
  | gap hcode h => exact .gap (hmodes ▸ hcode) (hpos ▸ h)
  | @token l _ ih =>
    refine .token (ih ?_ ?_)
    · unfold scan
      rw [hpos, hmodes]
      rfl
    · unfold scan
      rw [hpos, hmodes]
      change ModeChange.apply _ k.modes = ModeChange.apply _ l.modes
      rw [hmodes]

/-- All of a run of bytes that join may be passed over at once. -/
lemma run_iff (hcode : (Mode.top l.modes).isCode) (hslash : src.byteAt a = some 0x2F) :
    Approaches src a { l with pos := src.skipWhile Byte.joins l.pos } ↔ l.Approaches src a := by
  -- Each token in the run leaves the place closer to its end.
  induction hn : src.skipWhile Byte.joins l.pos - l.pos using Nat.strongRecOn generalizing l with
  | ind n ih =>
    obtain heq | hlt := Nat.eq_or_lt_of_le (src.le_skipWhile Byte.joins l.pos)
    · rw [← heq]
    · obtain ⟨b, hb, hjoins⟩ := Source.byteAt_in_run (Nat.le_refl _) hlt
      obtain ⟨-, hmodes, -, hmoves, hle⟩ := scan_of_joins hcode hb hjoins
      have hend := Source.skipWhile_in_run (Nat.le_of_lt hmoves) hle
      have hrest := ih _ (by omega) (l := l.scan src) (by rw [hmodes]; exact hcode) rfl
      rw [hend] at hrest
      have hstep : l.Approaches src a → (l.scan src).Approaches src a := by
        intro h
        cases h with
        | token h => exact h
        | gap _ h =>
          rw [h.eq_of_joins hb hjoins, hb, Option.some.injEq] at hslash
          exact absurd hjoins (by rw [hslash]; decide)
      constructor
      · exact fun h => .token (hrest.1 (h.congr rfl hmodes))
      · exact fun h => (hrest.2 (hstep h)).congr rfl hmodes.symm

lemma joinGreater (h : l.Approaches src a) (hl : l.Regular src) (hslash : src.byteAt a = some 0x2F) :
    (l.joinGreater src).Approaches src a := by
  unfold Lexer.joinGreater
  split
  case isTrue hgreater =>
    have hcode := hl.greater hgreater
    split
    case h_1 p stop hjoin =>
      obtain ⟨-, hlt, hle⟩ := Punctuation.joinGreater?_stop hjoin
      have hrun := (run_iff hcode hslash).2 h
      refine (run_iff (l := { l with kind := .mark p, pos := stop }) hcode hslash).1
        (hrun.congr ?_ rfl)
      exact Source.skipWhile_in_run (Nat.le_of_lt hlt) hle
    case h_2 => exact h
  case isFalse => exact h

end Lexer.Approaches

/-! ## One token -/

/-- A token of code behind the comment, or the end of the text. -/
lemma Source.Blanked.token_behind (w : src.Blanked src' m a) {modes : List Mode}
    (hcode : (Mode.top modes).isCode) (hle : a + 1 ≤ pos) (hpos : src.isBoundary pos) :
    Lexeme.readToken src' modes (m.pos pos) = move m (Lexeme.readToken src modes pos) := by
  have hsize := le_size_of_isBoundary hpos
  have hpos' : src'.isBoundary (m.pos pos) := (w.behind.isBoundary hle hsize).trans hpos
  refine w.behind.codeToken hle (.inr ⟨hsize, w.size_eq.le⟩) ?_
  rw [← w.size_eq]
  exact Lexeme.readToken_le_size hcode hpos'

lemma Lexer.scan_eq (src : Source) (h : (Mode.top l.modes).isCode) :
    l.scan src = l.accept (Gap.read src l.pos).stop
      { Lexeme.readToken src l.modes (Gap.read src l.pos).stop with
        flags := (Gap.read src l.pos).flags.union
          (Lexeme.readToken src l.modes (Gap.read src l.pos).stop).flags
        errors := (Gap.read src l.pos).errors
          ++ (Lexeme.readToken src l.modes (Gap.read src l.pos).stop).errors } := by
  unfold scan
  rw [Lexeme.read_of_code src h]

/-- Two lexers, one in the text with the blank and one in the text with the comment, at the same
token: either the comment lies ahead of both, or the token stands behind it. -/
structure Lexer.Across (src src' : Source) (m : Move) (a : Nat) (l l' : Lexer) : Prop
    extends l.Abreast src src' m l' where
  place : l.pos ≤ a ∧ l'.Approaches src' a ∨ a + 1 ≤ l.start

namespace Lexer.Across

variable (h : l.Across src src' m a l') (w : src.Blanked src' m a)

include h w

/-- The next token is the same, and it stands on the same side of the comment. -/
theorem scan : (l.scan src).Across src src' m a (l'.scan src') := by
  have hadvances' := h.regular'.sound.advances
  obtain ⟨hle, happroaches⟩ | hbehind := h.place
  · cases happroaches with
    | token happroaches =>
      -- The comment lies behind the token.
      have hstop := happroaches.le h.regular'.scan.sound
      rw [← w.stays a le_rfl] at hstop
      obtain ⟨hscan, hle⟩ := h.toAbreast.scan w.front (Nat.zero_le _) hle hstop
      exact ⟨hscan, .inl ⟨hle, happroaches⟩⟩
    | gap hcode' hspans =>
      -- The comment lies in the gap in front of the token.
      have hcode : (Mode.top l.modes).isCode := h.modes ▸ hcode'
      have hpos : l'.pos = l.pos := h.same.pos.trans (w.stays l.pos hle)
      obtain ⟨hsame, hbehind⟩ := w.gap (hpos ▸ hspans)
      have htoken := w.token_behind hcode hbehind (Gap.stop_read h.boundary).1
      have hscan' := Lexer.scan_eq src' hcode'
      rw [hpos, h.modes, hsame.stop, htoken] at hscan'
      refine ⟨h.accept (Lexer.scan_eq src hcode) hscan' ?_ ?_ ?_, .inr ?_⟩
      · rw [hsame.errors]
        simp only [Moves.move, List.map_append]
      · exact congrArg (· || _) hsame.lineBreak
      · change ((Gap.read src' l.pos).flags.union _).separated = _
        rw [TokenFlags.separated_union, TokenFlags.separated_union, hsame.separated]
        rfl
      · rw [Lexer.scan_eq src hcode]
        exact hbehind
  · -- The comment lies in front of the last token.
    have hlo : a + 1 ≤ l.pos := Nat.le_trans hbehind h.start_le
    obtain ⟨hscan, -⟩ := h.toAbreast.scan w.behind hlo (Source.le_size_of_isBoundary h.boundary)
      (w.size_eq ▸ hadvances'.le_size)
    have hadvances := (advances_of_isBoundary h.regular.sound h.boundary).1
    exact ⟨hscan, .inr (Nat.le_trans hlo hadvances.le_start)⟩

lemma joinGreater : (l.joinGreater src).Across src src' m a (l'.joinGreater src') := by
  obtain ⟨hle, happroaches⟩ | hbehind := h.place
  · obtain ⟨hjoin, -, hle⟩ := h.toAbreast.joinGreater w.front (Nat.zero_le _) hle
    exact ⟨hjoin, .inl ⟨hle, happroaches.joinGreater h.regular' w.comment.slash⟩⟩
  · obtain ⟨hjoin, hstart, -⟩ := h.toAbreast.joinGreater w.behind (Nat.le_trans hbehind h.start_le)
      (Source.le_size_of_isBoundary h.boundary)
    exact ⟨hjoin, .inr (hstart ▸ hbehind)⟩

/-- The current token stands on one side of the comment. -/
lemma inside : ∃ lo hi, src.Excerpt src' m lo hi ∧ lo ≤ l.start ∧ l.pos ≤ hi := by
  obtain ⟨hle, -⟩ | hbehind := h.place
  · exact ⟨0, a, w.front, Nat.zero_le _, hle⟩
  · exact ⟨a + 1, src.size, w.behind, hbehind, Source.le_size_of_isBoundary h.boundary⟩

end Lexer.Across

/-- Whatever two lexers at the same token do, they stay at the same token. -/
lemma Source.Blanked.bisimulation (w : src.Blanked src' m a) :
    Lexer.Bisimulation src src' m (Lexer.Across src src' m a) where
  abreast h := h.toAbreast
  inside h := h.inside w
  scan h := h.scan w
  joinGreater h := h.joinGreater w
  addFlags h lineBreak separated := ⟨h.toAbreast.addFlags lineBreak separated,
    h.place.imp_left fun hplace => ⟨hplace.1, hplace.2.congr rfl rfl⟩⟩
  restore h hk := ⟨h.toAbreast.restore hk.toAbreast,
    h.place.imp_left fun hplace => ⟨hplace.1, hplace.2.congr rfl rfl⟩⟩
  size_eq := w.size_eq
  counts := w.counts

/-! ## Parses -/

variable {b : Nat}

/-- In front of the first token both texts are alike. -/
lemma Source.Blanked.across_ofSource (w : src.Blanked src' m a)
    (hmet : (Lexer.ofSource src').Approaches src' a) :
    (Lexer.ofSource src).Across src src' m a (Lexer.ofSource src') := by
  have hle := hmet.le (Lexer.sound_ofSource src')
  have hzero := w.stays 0 (Nat.zero_le a)
  have hmark : src'.startsWith 0 byteOrderMark = src.startsWith 0 byteOrderMark := by
    have hword : ∀ b ∈ byteOrderMark, b ∉ Byte.closing := by decide
    have hstarts := w.front.startsWith hword le_rfl (Nat.zero_le a)
    rwa [hzero] at hstarts
  have hpos : (Lexer.ofSource src').pos = (Lexer.ofSource src).pos := by
    unfold Lexer.ofSource
    rw [hmark]
  rw [hpos] at hle
  exact
    { same := ⟨hzero.symm, hpos.trans (w.stays _ hle).symm, rfl, rfl, rfl, rfl, rfl⟩
      modes := rfl
      log := Array.map_empty.symm
      regular := .ofSource src
      regular' := .ofSource src'
      boundary := Lexer.isBoundary_ofSource src
      start_le := Nat.zero_le _
      place := .inl ⟨hle, hmet⟩ }

/-- A comment is transparent: with a space in its place, or a line feed if it holds one, a text is
parsed to the same tree with the same diagnostics, up to offsets behind the comment. If a text is so
long that its offsets do not fit in 32 bits, the one with the blank must have a parse. -/
theorem parseFile_blankOut {bytes : ByteArray} (settings : Settings)
    (hbytes : Source.ofBytes bytes = .ok src) (h : src.HasComment a b)
    (hsize : bytes.size ≤ 2 ^ 32 ∨ (parseFile (blankOut bytes a b) settings).isSome) :
    parseFile bytes settings
      = (parseFile (blankOut bytes a b) settings).map (move (.past a (b - (a + 1)))) := by
  obtain rfl := Source.bytes_of_ofBytes hbytes
  obtain ⟨blanked, hblanked, w⟩ := blanked_of_comment h.comment
  rw [parseFile_of_ofBytes hblanked, Option.isSome_map] at hsize
  rw [parseFile_of_ofBytes hblanked, parseFile_of_ofBytes hbytes]
  exact w.bisimulation.parseFile_eq settings (w.across_ofSource h.met) (w.stays 0 (Nat.zero_le a))
    .empty hsize

/-- A comment over two lines between a name and its initializer, which is missing. -/
theorem parseFile_blankOut_of_block :
    (parseFile "let x\n= ".toUTF8 {}).isSome
      ∧ parseFile "let x/*\n*/= ".toUTF8 {}
        = (parseFile "let x\n= ".toUTF8 {}).map (move (.past 5 4)) := by
  let src := Source.ofString "let x/*\n*/= "
  have comment : src.CommentAt 5 10 :=
    .block (by decide +kernel) (.skip (by decide +kernel) (by decide +kernel) (by decide +kernel)
      (.close (by decide +kernel)))
  -- The comment stands right behind the second token.
  have gap : Gap.Spans src (((Lexer.ofSource src).scan src).scan src).pos 5 [] := by
    rw [show (((Lexer.ofSource src).scan src).scan src).pos = 5 by decide +kernel]
    exact .nil 5
  have met : (Lexer.ofSource src).Approaches src 5 := .token (.token (.gap (by decide +kernel) gap))
  have blanked : blankOut "let x/*\n*/= ".toUTF8 5 10 = "let x\n= ".toUTF8 := by decide +kernel
  have hparse := parseFile_blankOut {} (Source.ofBytes_toUTF8 "let x/*\n*/= ") ⟨comment, met⟩
    (.inl (by decide +kernel))
  rw [blanked] at hparse
  exact ⟨by decide +kernel, hparse⟩

end CangjieSyntax
