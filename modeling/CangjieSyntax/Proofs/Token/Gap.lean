import CangjieSyntax.Proofs.Token.Extent

/-!
# Gaps

What lies between two tokens of code consists of blanks, line breaks and comments. A line comment
goes up to a line feed or to the end of the text. A block comment goes up to the mark that closes it
when the marks in it are paired from left to right; one that is never closed goes up to the end of
the text.
-/

namespace CangjieSyntax

variable {src : Source} {pos mid stop outer i : Nat} {closed : Bool}

/-- Whether a line feed stands from one offset up to another. -/
def Source.HasLineFeed (src : Source) (pos stop : Nat) : Prop :=
  ∃ i, pos ≤ i ∧ i < stop ∧ src.byteAt i = some 0x0A

/-- The inside of a block comment that goes on at `pos` within some outer comments, with the offset
behind it, and whether it is closed. -/
inductive BlockComment.Spans (src : Source) : (outer pos stop : Nat) → (closed : Bool) → Prop
  | close {pos : Nat} (h : src.startsWith pos [0x2A, 0x2F]) : Spans src 0 pos (pos + 2) true
  | closeInner {outer pos stop : Nat} {closed : Bool} (h : src.startsWith pos [0x2A, 0x2F])
    (rest : Spans src outer (pos + 2) stop closed) : Spans src (outer + 1) pos stop closed
  | openInner {outer pos stop : Nat} {closed : Bool} (h : src.startsWith pos [0x2F, 0x2A])
    (rest : Spans src (outer + 1) (pos + 2) stop closed) : Spans src outer pos stop closed
  | skip {outer pos stop : Nat} {closed : Bool} (hlt : pos < src.size)
    (hclose : ¬src.startsWith pos [0x2A, 0x2F]) (hopen : ¬src.startsWith pos [0x2F, 0x2A])
    (rest : Spans src outer (pos + 1) stop closed) : Spans src outer pos stop closed
  | unclosed (outer : Nat) : Spans src outer src.size src.size false

/-- A piece of a gap. -/
inductive Gap.Piece where
  | lineFeed
  | carriageReturn
  /-- A space, a tab or a form feed. -/
  | blank
  | lineComment
  | blockComment (closed : Bool)
  deriving DecidableEq

/-- Whether a piece is a blank or a comment. -/
def Gap.Piece.isTrivia : Gap.Piece → Bool
  | lineFeed | carriageReturn => false
  | blank | lineComment | blockComment _ => true

/-- The pieces from one offset up to another. -/
inductive Gap.Spans (src : Source) : (pos stop : Nat) → List Gap.Piece → Prop
  | nil (pos : Nat) : Spans src pos pos []
  | lineFeed {pos stop : Nat} {pieces : List Gap.Piece} (h : src.byteAt pos = some 0x0A)
    (rest : Spans src (pos + 1) stop pieces) : Spans src pos stop (.lineFeed :: pieces)
  | carriageReturn {pos stop : Nat} {pieces : List Gap.Piece} (h : src.byteAt pos = some 0x0D)
    (rest : Spans src (pos + 1) stop pieces) : Spans src pos stop (.carriageReturn :: pieces)
  | blank {pos stop : Nat} {pieces : List Gap.Piece} (h : src.byteIs pos Byte.isBlank)
    (rest : Spans src (pos + 1) stop pieces) : Spans src pos stop (.blank :: pieces)
  | lineComment {pos mid stop : Nat} {pieces : List Gap.Piece}
    (h : src.startsWith pos [0x2F, 0x2F]) (hle : pos + 2 ≤ mid)
    (hinside : ¬src.HasLineFeed (pos + 2) mid)
    (hend : mid = src.size ∨ src.byteAt mid = some 0x0A) (rest : Spans src mid stop pieces) :
    Spans src pos stop (.lineComment :: pieces)
  | blockComment {pos mid stop : Nat} {closed : Bool} {pieces : List Gap.Piece}
    (h : src.startsWith pos [0x2F, 0x2A]) (comment : BlockComment.Spans src 0 (pos + 2) mid closed)
    (rest : Spans src mid stop pieces) : Spans src pos stop (.blockComment closed :: pieces)

/-! ## Line feeds -/

namespace Source

lemma not_hasLineFeed_self (src : Source) (pos : Nat) : ¬src.HasLineFeed pos pos := by
  rintro ⟨i, hle, hlt, -⟩
  omega

lemma hasLineFeed_split (hpos : pos ≤ mid) (hmid : mid ≤ stop) :
    src.HasLineFeed pos stop ↔ src.HasLineFeed pos mid ∨ src.HasLineFeed mid stop := by
  constructor
  · rintro ⟨i, hle, hlt, hi⟩
    by_cases h : i < mid
    · exact .inl ⟨i, hle, h, hi⟩
    · exact .inr ⟨i, Nat.le_of_not_lt h, hlt, hi⟩
  · rintro (⟨i, hle, hlt, hi⟩ | ⟨i, hle, hlt, hi⟩)
    · exact ⟨i, hle, Nat.lt_of_lt_of_le hlt hmid, hi⟩
    · exact ⟨i, Nat.le_trans hpos hle, hlt, hi⟩

lemma hasLineFeed_succ : src.HasLineFeed pos (pos + 1) ↔ src.byteAt pos = some 0x0A := by
  constructor
  · rintro ⟨i, hle, hlt, hi⟩
    rwa [Nat.le_antisymm hle (Nat.lt_succ_iff.1 hlt)]
  · exact fun h => ⟨pos, Nat.le_refl _, Nat.lt_succ_self _, h⟩

/-- The offset behind a byte that is no line feed. -/
lemma hasLineFeed_behind (h : src.byteAt pos ≠ some 0x0A) (hstop : pos + 1 ≤ stop) :
    src.HasLineFeed pos stop ↔ src.HasLineFeed (pos + 1) stop := by
  rw [hasLineFeed_split (Nat.le_succ pos) hstop, hasLineFeed_succ, or_iff_right h]

lemma startsWith_pair {b d : UInt8} :
    src.startsWith pos [b, d] ↔ src.byteAt pos = some b ∧ src.byteAt (pos + 1) = some d := by
  simp [startsWith]

/-- A search meets no line feed on its way if it would end there. -/
lemma not_hasLineFeed_run {p : UInt8 → Bool} (hp : p 0x0A = false) :
    ¬src.HasLineFeed pos (src.skipWhile p pos) := by
  rintro ⟨i, hle, hlt, hi⟩
  obtain ⟨b, hb, hpb⟩ := byteAt_in_run hle hlt
  rw [hi, Option.some.injEq] at hb
  rw [← hb, hp] at hpb
  exact nomatch hpb

/-- Behind two bytes that are no line feeds. -/
lemma hasLineFeed_behind_pair {b d : UInt8} (h : src.startsWith pos [b, d]) (hb : b ≠ 0x0A)
    (hd : d ≠ 0x0A) (hstop : pos + 2 ≤ stop) :
    src.HasLineFeed pos stop ↔ src.HasLineFeed (pos + 2) stop := by
  obtain ⟨hfirst, hsecond⟩ := startsWith_pair.1 h
  rw [hasLineFeed_behind (by simp [hfirst, hb]) (by omega),
    hasLineFeed_behind (by simp [hsecond, hd]) hstop]

end Source

/-! ## Comments -/

namespace BlockComment

/-- Bytes in front of a mark belong to the comment. -/
lemma Spans.of_run (hpos : pos ≤ i) (hi : i ≤ src.skipWhile (fun b => !isMark b) pos)
    (h : Spans src outer i stop closed) : Spans src outer pos stop closed := by
  induction hk : i - pos generalizing pos i with
  | zero => rwa [Nat.le_antisymm hpos (by omega)]
  | succ k ih =>
    obtain ⟨b, hb, hmark⟩ : ∃ b, src.byteAt (i - 1) = some b ∧ !isMark b :=
      Source.byteAt_in_run (p := fun b => !isMark b) (show pos ≤ i - 1 by omega) (by omega)
    have hplain : b ≠ 0x2A ∧ b ≠ 0x2F := by
      simp only [isMark, Bool.not_eq_eq_eq_not, Bool.not_true, Bool.or_eq_false_iff,
        beq_eq_false_iff_ne] at hmark
      exact hmark.1
    have hrest : Spans src outer (i - 1 + 1) stop closed := by
      rwa [Nat.sub_add_cancel (by omega)]
    refine ih (i := i - 1) (by omega) (by omega) ?_ (by omega)
    refine .skip (Source.lt_size_of_byteAt hb) ?_ ?_ hrest
    · simp [Source.startsWith_pair, hb, hplain.1]
    · simp [Source.startsWith_pair, hb, hplain.2]

/-- The marks of a comment are found behind bytes that belong to it. -/
lemma run_of_find? (h : src.find? isMark pos = some i) :
    src.skipWhile (fun b => !isMark b) pos = i := by
  simp only [Source.find?] at h
  split at h
  · exact Option.some.inj h
  · exact absurd h.symm (Option.some_ne_none i)

lemma Spans.of_find? (h : src.find? isMark pos = some i) (hspans : Spans src outer i stop closed) :
    Spans src outer pos stop closed :=
  hspans.of_run (Source.find?_bounds h).1 (Nat.le_of_eq (run_of_find? h).symm)

lemma hasLineFeed_of_find? (h : src.find? isMark pos = some i) (hstop : i ≤ stop) :
    src.HasLineFeed pos stop ↔ src.HasLineFeed i stop := by
  have hnone : ¬src.HasLineFeed pos i := run_of_find? h ▸ Source.not_hasLineFeed_run rfl
  rw [Source.hasLineFeed_split (Source.find?_bounds h).1 hstop, or_iff_right hnone]

/-- A comment is read as it is spelt, and so are its line feeds. -/
theorem spans_read (src : Source) (pos outer : Nat) (hpos : pos ≤ src.size) :
    Spans src outer pos (read src pos outer).stop (read src pos outer).closed
      ∧ ((read src pos outer).lineBreak ↔ src.HasLineFeed pos (read src pos outer).stop) := by
  have closer {i : Nat}
      (h : (src.byteAt i == some 0x2A && src.byteAt (i + 1) == some 0x2F) = true) :
      src.startsWith i [0x2A, 0x2F] := Source.startsWith_pair.2 (by simpa using h)
  have opener {i : Nat}
      (h : (src.byteAt i == some 0x2F && src.byteAt (i + 1) == some 0x2A) = true) :
      src.startsWith i [0x2F, 0x2A] := Source.startsWith_pair.2 (by simpa using h)
  fun_induction read src pos outer with
  | case1 pos outer h =>
    have hend : src.skipWhile (fun b => !isMark b) pos = src.size := by
      have hle := Source.skipWhile_le_size (p := fun b => !isMark b) hpos
      simp only [Source.find?, ite_eq_right_iff, reduceCtorEq, imp_false, Nat.not_lt] at h
      exact Nat.le_antisymm hle h
    have hnone : ¬src.HasLineFeed pos src.size := hend ▸ Source.not_hasLineFeed_run rfl
    exact ⟨.of_run hpos (Nat.le_of_eq hend.symm) (.unclosed outer), by simpa using hnone⟩
  | case2 pos outer i h hfeed rest ih =>
    have hi := (Source.find?_bounds h).2
    have hfeed := beq_iff_eq.1 hfeed
    have hle := le_stop_read src (i + 1) outer hi
    refine ⟨.of_find? h (.skip hi ?_ ?_ (ih hi).1), ?_⟩
    · simp [Source.startsWith_pair, hfeed]
    · simp [Source.startsWith_pair, hfeed]
    · exact iff_of_true rfl ⟨i, (Source.find?_bounds h).1, hle, hfeed⟩
  | case3 pos i h _ hclose =>
    refine ⟨.of_find? h (.close (closer hclose)), iff_of_false Bool.false_ne_true ?_⟩
    rw [hasLineFeed_of_find? h (Nat.le_add_right i 2),
      Source.hasLineFeed_behind_pair (closer hclose) (by decide) (by decide) (Nat.le_refl _)]
    exact src.not_hasLineFeed_self (i + 2)
  | case4 pos i h _ hclose outer ih =>
    have hi := Source.lt_size_of_byteAt (Source.startsWith_pair.1 (closer hclose)).2
    have hle := le_stop_read src (i + 2) outer hi
    obtain ⟨hspans, hbreak⟩ := ih hi
    refine ⟨.of_find? h (.closeInner (closer hclose) hspans), ?_⟩
    rw [hbreak, hasLineFeed_of_find? h (by omega),
      Source.hasLineFeed_behind_pair (closer hclose) (by decide) (by decide) hle]
  | case5 pos outer i h _ _ hopen ih =>
    have hi := Source.lt_size_of_byteAt (Source.startsWith_pair.1 (opener hopen)).2
    have hle := le_stop_read src (i + 2) (outer + 1) hi
    obtain ⟨hspans, hbreak⟩ := ih hi
    refine ⟨.of_find? h (.openInner (opener hopen) hspans), ?_⟩
    rw [hbreak, hasLineFeed_of_find? h (by omega),
      Source.hasLineFeed_behind_pair (opener hopen) (by decide) (by decide) hle]
  | case6 pos outer i h hfeed hclose hopen ih =>
    have hi := (Source.find?_bounds h).2
    have hle := le_stop_read src (i + 1) outer hi
    obtain ⟨hspans, hbreak⟩ := ih hi
    refine ⟨.of_find? h (.skip hi ?_ ?_ hspans), ?_⟩
    · simpa [Source.startsWith_pair] using hclose
    · simpa [Source.startsWith_pair] using hopen
    · rw [hbreak, hasLineFeed_of_find? h (by omega),
        Source.hasLineFeed_behind (by simpa using hfeed) hle]

/-- A comment ends between characters. -/
lemma isBoundary_read (src : Source) (pos outer : Nat) (hpos : pos ≤ src.size) :
    src.isBoundary (read src pos outer).stop := by
  have ends {i : Nat} {b d : UInt8} (hd : d < 0x80)
      (h : (src.byteAt i == some b && src.byteAt (i + 1) == some d) = true) :
      src.isBoundary (i + 2) := by
    rw [Bool.and_eq_true, beq_iff_eq, beq_iff_eq] at h
    exact Source.isBoundary_behind_ascii h.2 hd
  fun_induction read src pos outer with
  | case1 => exact Source.isBoundary_size
  | case2 pos outer i h _ rest ih => exact ih (Source.find?_bounds h).2
  | case3 pos i h _ hclose => exact ends (by decide) hclose
  | case4 pos i h _ hclose outer ih =>
    exact ih (Source.le_size_of_isBoundary (ends (by decide) hclose))
  | case5 pos outer i h _ _ hopen ih =>
    exact ih (Source.le_size_of_isBoundary (ends (by decide) hopen))
  | case6 pos outer i h _ _ _ ih => exact ih (Source.find?_bounds h).2

end BlockComment

/-! ## Gaps -/

namespace Gap

/-- A line comment ends at a line feed or at the end of the text. -/
lemma lineComment_end (hpos : pos ≤ src.size) :
    src.skipWhile (· != 0x0A) pos = src.size
      ∨ src.byteAt (src.skipWhile (· != 0x0A) pos) = some 0x0A := by
  cases hstop : src.byteAt (src.skipWhile (· != 0x0A) pos) with
  | some b =>
    have hb := Source.byteAt_skipWhile hstop
    rw [bne_eq_false_iff_eq] at hb
    exact .inr (congrArg some hb)
  | none =>
    exact .inl (Nat.le_antisymm (Source.skipWhile_le_size hpos) (Source.byteAt_eq_none hstop))

lemma isBoundary_lineComment (hpos : pos ≤ src.size) :
    src.isBoundary (src.skipWhile (· != 0x0A) pos) := by
  obtain h | h := lineComment_end hpos
  · rw [h]
    exact Source.isBoundary_size
  · exact Source.isBoundary_of_ascii h (by decide)

lemma stop_read (h : src.isBoundary pos) :
    src.isBoundary (read src pos).stop ∧ pos ≤ (read src pos).stop := by
  fun_induction read src pos with
  | case1 | case6 => exact ⟨h, Nat.le_refl _⟩
  | case2 pos b hb hbreak rest ih =>
    obtain ⟨hstop, hle⟩ := ih (Source.isBoundary_behind_ascii hb (Byte.ascii_isLineBreak b hbreak))
    exact ⟨hstop, Nat.le_of_succ_le hle⟩
  | case3 pos b hb _ hblank rest ih =>
    obtain ⟨hstop, hle⟩ := ih (Source.isBoundary_behind_ascii hb (Byte.ascii_isBlank b hblank))
    exact ⟨hstop, Nat.le_of_succ_le hle⟩
  | case4 pos b hb _ _ hline rest ih =>
    rw [Bool.and_eq_true, beq_iff_eq, beq_iff_eq] at hline
    obtain ⟨hstop, hle⟩ := ih (isBoundary_lineComment (Source.lt_size_of_byteAt hline.2))
    have := src.le_skipWhile (· != 0x0A) (pos + 2)
    exact ⟨hstop, by dsimp only [rest] at hle ⊢; omega⟩
  | case5 pos b hb _ _ _ hopen comment rest ih =>
    rw [Bool.and_eq_true, beq_iff_eq, beq_iff_eq] at hopen
    have hsize := Source.lt_size_of_byteAt hopen.2
    obtain ⟨hstop, hle⟩ := ih (BlockComment.isBoundary_read src (pos + 2) 0 hsize)
    have := BlockComment.le_stop_read src (pos + 2) 0 hsize
    exact ⟨hstop, by dsimp only [comment, rest] at hle ⊢; omega⟩

/-- A gap is read as it is spelt, and its flags say what is in it. -/
theorem spans_read (h : src.isBoundary pos) :
    ∃ pieces, Spans src pos (read src pos).stop pieces
      ∧ ((read src pos).lineBreak ↔
        src.HasLineFeed pos (read src pos).stop ∨ .carriageReturn ∈ pieces)
      ∧ ((read src pos).trivia ↔ ∃ piece ∈ pieces, piece.isTrivia) := by
  fun_induction read src pos with
  | case1 | case6 => exact ⟨[], .nil _, by simp [src.not_hasLineFeed_self], by simp⟩
  | case2 pos b hb hbreak rest ih =>
    have hbehind := Source.isBoundary_behind_ascii hb (Byte.ascii_isLineBreak b hbreak)
    have hle := (stop_read hbehind).2
    obtain ⟨pieces, hspans, hfeed, htrivia⟩ := ih hbehind
    simp only [Byte.isLineBreak, Bool.or_eq_true, beq_iff_eq] at hbreak
    obtain rfl | rfl := hbreak
    · exact ⟨_, .lineFeed hb hspans, iff_of_true rfl (.inl ⟨pos, Nat.le_refl _, hle, hb⟩),
        by simpa [Piece.isTrivia] using htrivia⟩
    · exact ⟨_, .carriageReturn hb hspans, iff_of_true rfl (.inr List.mem_cons_self),
        by simpa [Piece.isTrivia] using htrivia⟩
  | case3 pos b hb hbreak hblank rest ih =>
    have hbehind := Source.isBoundary_behind_ascii hb (Byte.ascii_isBlank b hblank)
    have hle := (stop_read hbehind).2
    obtain ⟨pieces, hspans, hfeed, -⟩ := ih hbehind
    refine ⟨_, .blank (Source.byteIs_iff.2 ⟨b, hb, hblank⟩) hspans, ?_, by simp [Piece.isTrivia]⟩
    have hb' : src.byteAt pos ≠ some 0x0A := by
      rintro e
      rw [hb, Option.some.injEq] at e
      rw [e] at hbreak
      exact hbreak rfl
    change rest.lineBreak ↔ src.HasLineFeed pos rest.stop ∨ _
    rw [Source.hasLineFeed_behind hb' hle, hfeed]
    simp
  | case4 pos b hb _ _ hline rest ih =>
    rw [Bool.and_eq_true, beq_iff_eq, beq_iff_eq] at hline
    have hmark : src.startsWith pos [0x2F, 0x2F] :=
      Source.startsWith_pair.2 ⟨hline.1 ▸ hb, hline.2⟩
    have hsize := Source.lt_size_of_byteAt hline.2
    have hbehind := isBoundary_lineComment hsize
    have hinside : ¬src.HasLineFeed (pos + 2) (src.skipWhile (· != 0x0A) (pos + 2)) :=
      Source.not_hasLineFeed_run rfl
    have hcomment := src.le_skipWhile (· != 0x0A) (pos + 2)
    have hle := (stop_read hbehind).2
    obtain ⟨pieces, hspans, hfeed, -⟩ := ih hbehind
    refine ⟨_, .lineComment hmark hcomment hinside (lineComment_end hsize) hspans, ?_,
      by simp [Piece.isTrivia]⟩
    change rest.lineBreak ↔ src.HasLineFeed pos rest.stop ∨ _
    rw [Source.hasLineFeed_behind_pair hmark (by decide) (by decide) (Nat.le_trans hcomment hle),
      Source.hasLineFeed_split hcomment hle, or_iff_right hinside, hfeed]
    simp
  | case5 pos b hb _ _ _ hopen comment rest ih =>
    rw [Bool.and_eq_true, beq_iff_eq, beq_iff_eq] at hopen
    have hmark : src.startsWith pos [0x2F, 0x2A] :=
      Source.startsWith_pair.2 ⟨hopen.1 ▸ hb, hopen.2⟩
    have hsize := Source.lt_size_of_byteAt hopen.2
    obtain ⟨hcomment, hbreak⟩ := BlockComment.spans_read src (pos + 2) 0 hsize
    have hinside := BlockComment.le_stop_read src (pos + 2) 0 hsize
    have hbehind := BlockComment.isBoundary_read src (pos + 2) 0 hsize
    have hle := (stop_read hbehind).2
    obtain ⟨pieces, hspans, hfeed, -⟩ := ih hbehind
    refine ⟨_, .blockComment hmark hcomment hspans, ?_, by simp [Piece.isTrivia]⟩
    change (comment.lineBreak || rest.lineBreak) ↔ src.HasLineFeed pos rest.stop ∨ _
    rw [Bool.or_eq_true, hbreak, hfeed,
      Source.hasLineFeed_behind_pair hmark (by decide) (by decide) (Nat.le_trans hinside hle),
      Source.hasLineFeed_split hinside hle, or_assoc]
    simp [comment]

end Gap

end CangjieSyntax
