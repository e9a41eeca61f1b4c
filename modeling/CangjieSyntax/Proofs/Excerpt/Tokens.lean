import CangjieSyntax.Proofs.Excerpt.Strings
import CangjieSyntax.Proofs.Token.Progress

/-!
# Tokens in an excerpt

A token that ends in the excerpt of the second text is the same in both texts, and so is the gap in
front of it.
-/

namespace CangjieSyntax

instance : Moves BlockComment where
  move m c := { c with stop := m.pos c.stop }
  move_refl _ := rfl

instance : Moves Gap where
  move m g := { g with stop := m.pos g.stop, errors := move m g.errors }
  move_refl g := by
    change { g with errors := move .refl g.errors } = g
    rw [move_refl]

/-! ## Equations -/

namespace BlockComment

variable {src : Source} {pos outer i : Nat}

lemma read_none (h : src.find? isMark pos = none) :
    read src pos outer = ⟨src.size, false, false⟩ := by
  rw [read]
  split
  · rfl
  · exact absurd (h.symm.trans ‹_›) (by simp)

lemma read_some (h : src.find? isMark pos = some i) :
    read src pos outer
      = if src.byteAt i == some 0x0A then { read src (i + 1) outer with lineBreak := true }
        else if src.startsWith i [0x2A, 0x2F] then
          match outer with
          | 0 => ⟨i + 2, false, true⟩
          | outer + 1 => read src (i + 2) outer
        else if src.startsWith i [0x2F, 0x2A] then read src (i + 2) (outer + 1)
        else read src (i + 1) outer := by
  simp only [Source.startsWith, Bool.and_true]
  rw [read]
  split
  · exact absurd (h.symm.trans ‹_›) (by simp)
  · next i' h' =>
    obtain rfl : i = i' := Option.some.inj (h.symm.trans h')
    rfl

/-- A comment goes on behind its marks, and behind both bytes of a closing one. -/
lemma lt_stop_read (outer : Nat) (h : src.find? isMark pos = some i) :
    i < (read src pos outer).stop
      ∧ (src.startsWith i [0x2A, 0x2F] → i + 2 ≤ (read src pos outer).stop) := by
  have hone := le_stop_read src (i + 1) outer (Source.find?_bounds h).2
  have htwo (n : Nat) {b d : UInt8} (h : src.startsWith i [b, d]) :
      i + 2 ≤ (read src (i + 2) n).stop :=
    le_stop_read src (i + 2) n (Source.lt_size_of_byteAt (Source.startsWith_pair.1 h).2)
  rw [read_some h]
  split
  case isTrue hfeed =>
    refine ⟨hone, fun hclose => ?_⟩
    have := (beq_iff_eq.1 hfeed).symm.trans (Source.startsWith_pair.1 hclose).1
    exact absurd this (by decide)
  split
  case isTrue hclose =>
    cases outer with
    | zero => exact ⟨Nat.lt_add_of_pos_right (by decide), fun _ => le_rfl⟩
    | succ outer => exact ⟨Nat.lt_of_succ_le (Nat.le_of_succ_le (htwo outer hclose)), htwo outer⟩
  case isFalse hclose =>
    refine ⟨?_, fun h => absurd h hclose⟩
    split
    case isTrue hopen => exact Nat.lt_of_succ_le (Nat.le_of_succ_le (htwo (outer + 1) hopen))
    case isFalse => exact hone

end BlockComment

namespace Gap

variable {src : Source} {pos : Nat} {b : UInt8}

/-- A gap with a block comment in front of it. -/
def behindComment (pos : Nat) (comment : BlockComment) (rest : Gap) : Gap :=
  { rest with
    lineBreak := comment.lineBreak || rest.lineBreak
    trivia := true
    errors :=
      if comment.closed then rest.errors
      else (.unterminatedComment, ⟨pos, pos + 2⟩) :: rest.errors }

lemma move_behindComment {m : Move} (h : m.pos pos + 2 = m.pos (pos + 2)) (comment : BlockComment)
    (rest : Gap) :
    move m (behindComment pos comment rest)
      = behindComment (m.pos pos) (move m comment) (move m rest) := by
  cases comment with
  | mk stop lineBreak closed =>
    cases closed with
    | true => rfl
    | false => simp [behindComment, Moves.move, h]

lemma read_none (h : src.byteAt pos = none) : read src pos = { stop := pos } := by
  rw [read]
  split
  · rfl
  · exact absurd (h.symm.trans ‹_›) (by simp)

lemma read_some (h : src.byteAt pos = some b) :
    read src pos
      = if Byte.isLineBreak b then { read src (pos + 1) with lineBreak := true }
        else if Byte.isBlank b then { read src (pos + 1) with trivia := true }
        else if src.startsWith pos [0x2F, 0x2F] then
          { read src (src.skipWhile (· != 0x0A) (pos + 2)) with trivia := true }
        else if src.startsWith pos [0x2F, 0x2A] then
          behindComment pos (BlockComment.read src (pos + 2) 0)
            (read src (BlockComment.read src (pos + 2) 0).stop)
        else { stop := pos } := by
  have hmark (d : UInt8) :
      src.startsWith pos [0x2F, d] = (b == 0x2F && src.byteAt (pos + 1) == some d) := by
    simp [Source.startsWith, h]
  rw [read, hmark, hmark]
  split
  · exact absurd (h.symm.trans ‹_›) (by simp)
  · next b' h' =>
    obtain rfl : b = b' := Option.some.inj (h.symm.trans h')
    rfl

lemma read_of_lineBreak (h : src.byteAt pos = some b) (hbreak : Byte.isLineBreak b) :
    read src pos = { read src (pos + 1) with lineBreak := true } := by
  rw [read_some h, if_pos hbreak]

lemma read_of_blank (h : src.byteIs pos Byte.isBlank) :
    read src pos = { read src (pos + 1) with trivia := true } := by
  obtain ⟨b, hb, hblank⟩ := Source.byteIs_iff.1 h
  have hbreak : ¬Byte.isLineBreak b := by
    simp only [Byte.isBlank, Bool.or_eq_true, beq_iff_eq] at hblank
    obtain (rfl | rfl) | rfl := hblank <;> decide
  rw [read_some hb, if_neg hbreak, if_pos hblank]

lemma read_of_lineComment (h : src.startsWith pos [0x2F, 0x2F]) :
    read src pos = { read src (src.skipWhile (· != 0x0A) (pos + 2)) with trivia := true } := by
  rw [read_some (Source.startsWith_pair.1 h).1, if_neg (by decide), if_neg (by decide), if_pos h]

lemma read_of_blockComment (h : src.startsWith pos [0x2F, 0x2A]) :
    read src pos = behindComment pos (BlockComment.read src (pos + 2) 0)
      (read src (BlockComment.read src (pos + 2) 0).stop) := by
  obtain ⟨hfirst, hsecond⟩ := Source.startsWith_pair.1 h
  have hline : ¬src.startsWith pos [0x2F, 0x2F] := by simp [Source.startsWith, hsecond]
  rw [read_some hfirst, if_neg (by decide), if_neg (by decide), if_neg hline, if_pos h]

/-- A line comment belongs to the gap. -/
lemma le_stop_of_lineComment (h : src.startsWith pos [0x2F, 0x2F]) :
    src.skipWhile (· != 0x0A) (pos + 2) ≤ (read src pos).stop ∧ pos + 2 ≤ (read src pos).stop := by
  have hsecond := (Source.startsWith_pair.1 h).2
  have hle := src.le_skipWhile (· != 0x0A) (pos + 2)
  have hstop := (stop_read (isBoundary_lineComment (Source.lt_size_of_byteAt hsecond))).2
  rw [read_of_lineComment h]
  exact ⟨hstop, Nat.le_trans hle hstop⟩

/-- A block comment belongs to the gap. -/
lemma le_stop_of_blockComment (h : src.startsWith pos [0x2F, 0x2A]) :
    (BlockComment.read src (pos + 2) 0).stop ≤ (read src pos).stop := by
  have hsecond := (Source.startsWith_pair.1 h).2
  rw [read_of_blockComment h]
  exact (stop_read
    (BlockComment.isBoundary_read src (pos + 2) 0 (Source.lt_size_of_byteAt hsecond))).2

/-- A gap ends in front of an offset, or at the end of a text that does not go on behind it. -/
def EndsBefore (src : Source) (stop : Nat) (g : Gap) : Prop :=
  g.stop < stop ∨ src.size ≤ stop

namespace EndsBefore

variable {stop : Nat} {g : Gap} (h : g.EndsBefore src stop)

include h

lemma le (hsize : g.stop ≤ src.size) : g.stop ≤ stop := by
  unfold EndsBefore at h
  omega

lemma lt (hle : pos ≤ g.stop) (hsize : pos < src.size) : pos < stop := by
  unfold EndsBefore at h
  omega

end EndsBefore

section

variable {src' : Source} {m : Move} {stop : Nat} {g g' : Gap}
  (h : MovedIf m (EndsBefore src' stop) g g')

include h

lemma moved_lineBreakInFront :
    MovedIf m (EndsBefore src' stop) { g with lineBreak := true } { g' with lineBreak := true } := by
  intro hend
  rw [h hend]
  rfl

lemma moved_triviaInFront :
    MovedIf m (EndsBefore src' stop) { g with trivia := true } { g' with trivia := true } := by
  intro hend
  rw [h hend]
  rfl

lemma moved_behindComment (hpos : m.pos pos + 2 = m.pos (pos + 2)) (comment : BlockComment) :
    MovedIf m (EndsBefore src' stop) (behindComment pos comment g)
      (behindComment (m.pos pos) (move m comment) g') := by
  intro hend
  rw [move_behindComment hpos, h hend]

end

end Gap

namespace Lexeme

variable {modes : List Mode} {pos stop : Nat}

/-- The token of code at an offset. -/
def readToken (src : Source) (modes : List Mode) (pos : Nat) : Lexeme :=
  match src.byteAt pos with
  | none => endOfFile src modes pos
  | some first => readCode src modes pos first

lemma read_of_code (src : Source) (h : (Mode.top modes).isCode) :
    read src modes pos
      = ((Gap.read src pos).stop, { readToken src modes (Gap.read src pos).stop with
          flags := (Gap.read src pos).flags.union
            (readToken src modes (Gap.read src pos).stop).flags
          errors := (Gap.read src pos).errors
            ++ (readToken src modes (Gap.read src pos).stop).errors }) := by
  unfold read
  cases hmode : Mode.top modes with
  | text => exact nomatch hmode ▸ h
  | code => rfl

lemma readToken_le_size {src : Source} (hcode : (Mode.top modes).isCode)
    (hpos : src.isBoundary pos) : (readToken src modes pos).stop ≤ src.size := by
  unfold readToken
  cases hfirst : src.byteAt pos with
  | none => exact Nat.le_trans (Nat.le_of_eq endOfFile_stop) (Source.le_size_of_isBoundary hpos)
  | some first =>
    exact Source.le_size_of_isBoundary (stands_readCode hpos hfirst hcode).boundary

/-- Only at the end of the text is a token of code empty. -/
lemma endsBefore_of_readToken {src : Source} (hcode : (Mode.top modes).isCode)
    (hpos : src.isBoundary pos) (h : (readToken src modes (Gap.read src pos).stop).stop ≤ stop) :
    (Gap.read src pos).EndsBefore src stop := by
  unfold readToken at h
  cases hfirst : src.byteAt (Gap.read src pos).stop with
  | none =>
    rw [hfirst] at h
    dsimp only at h
    rw [endOfFile_stop] at h
    exact .inr (Nat.le_trans (Source.byteAt_eq_none hfirst) h)
  | some first =>
    rw [hfirst] at h
    obtain hlt | ⟨-, -, hends⟩ := (stands_readCode (Gap.stop_read hpos).1 hfirst hcode).moves
    · exact .inl (Nat.lt_of_lt_of_le hlt h)
    · exact absurd (hends first hfirst) (by simp [Gap.not_isLineBreak_stop hfirst])

end Lexeme

/-! ## Tokens of code -/

namespace Source.Excerpt

variable {src src' : Source} {m : Move} {lo hi p q : Nat} {first : UInt8} {modes : List Mode}
  (w : src.Excerpt src' m lo hi)

include w

lemma closeBrace (hlo : lo ≤ p) (hhi : p < hi) :
    Lexeme.closeBrace modes (m.pos p) = move m (Lexeme.closeBrace modes p) := by
  unfold Lexeme.closeBrace
  rw [w.add_one hlo hhi]
  split <;> rfl

lemma code (hlo : lo ≤ p) (hhi : p < hi) :
    MovedIf m (·.stop ≤ m.pos hi) (Lexeme.readCode src modes p first)
      (Lexeme.readCode src' modes (m.pos p) first) := by
  have hlo' : lo ≤ p + 1 := Nat.le_succ_of_le hlo
  have hle := Nat.le_of_lt hhi
  have hword : (if Word.startsAt src' (m.pos p) then Word.read src' (m.pos p)
      else Lexeme.readMark src' (m.pos p))
      = move m (if Word.startsAt src p then Word.read src p else Lexeme.readMark src p) := by
    rw [w.startsAt hlo hle, w.word hlo hle, w.readMark hlo hhi, apply_ite (move m)]
  have hbehind : (src'.byteAt (m.pos p + 1)).bind Quote.ofByte?
      = (src.byteAt (p + 1)).bind Quote.ofByte? := by
    rw [w.add_one hlo hhi, w.byteAt_bind (by decide) hlo' hhi]
  unfold Lexeme.readCode
  dsimp only
  rw [hword, hbehind, w.startsWithPoint hlo hle]
  refine .ite (fun _ _ => ?openBrace) fun _ => .ite (fun _ _ => w.closeBrace hlo hhi) fun _ =>
    .ite (fun _ _ => w.dollarWord hlo hhi) fun _ => .ite (fun _ => w.hash hlo hhi) fun _ =>
    .ite (fun _ _ => w.rawWord hlo hhi) fun _ => .ite (fun _ _ => w.number hlo hhi) fun _ =>
    .ite (fun _ _ => ?point) fun _ => ?quotes
  case openBrace =>
    rw [w.add_one hlo hhi]
    rfl
  case point =>
    obtain ⟨hmoved, hle, hstop⟩ := w.readPointFirst hlo hhi
    rw [hmoved]
    exact w.withSuffix hlo hle hstop
  case quotes =>
    cases Quote.ofByte? first with
    | some quote => exact fun _ => w.stringStart hlo hhi
    | none =>
      cases hquote : (src.byteAt (p + 1)).bind Quote.ofByte? with
      | none => exact fun _ => rfl
      | some quote =>
        obtain ⟨b, hb, hbyte⟩ := Option.bind_eq_some_iff.1 hquote
        rw [Quote.byte_of_ofByte? hbyte] at hb
        have hlt : p + 2 ≤ hi := w.lt_of_byteAt quote.byte_not_mem_closing hhi hb
        refine .ite (fun _ => w.charLiteral false hlo hlt hb) fun _ =>
          .ite (fun _ => ?_) fun _ _ => rfl
        cases quote with
        | single => exact w.charLiteral true hlo hlt hb
        | double => exact w.byteString hlo hlt hb

/-! ## Gaps -/

/-- No comment stands behind the excerpt in the first text. -/
lemma not_slash : src.byteAt hi ≠ some 0x2F := by
  cases w.border with
  | ended h => exact h ▸ src.byteAt_size ▸ nofun
  | comment h hb =>
    rw [h]
    rintro ⟨⟩
    obtain hb | hb := hb <;> exact absurd hb (by decide)

/-- Both texts end with the excerpt, or neither does. -/
lemma size_eq (h : src'.size ≤ m.pos hi) : src'.size = m.pos src.size := by
  cases w.border with
  | ended hsize hsize' => rw [hsize, hsize']
  | comment _ _ hslash => exact absurd (lt_size_of_byteAt hslash) (Nat.not_lt.2 h)

/-- A pair of bytes whose second one is a slash, and not that of the comment behind the excerpt. -/
lemma startsWith_slash (hlo : lo ≤ p) (hhi : p < hi)
    (h : src'.startsWith (m.pos p) [b, 0x2F] → m.pos p + 2 ≤ m.pos hi) :
    src'.startsWith (m.pos p) [b, 0x2F] = src.startsWith p [b, 0x2F] := by
  have hlo' : lo ≤ p + 1 := Nat.le_succ_of_le hlo
  have hnext := w.add_one hlo hhi
  have hbyte := w.byteAt hlo hhi
  obtain hlt | ⟨hnone, hnone'⟩ | ⟨hend, hslash⟩ := w.inside_or_end (p := p + 1) hhi
  · simp only [Source.startsWith, hbyte, hnext, w.byteAt hlo' hlt]
  · simp only [Source.startsWith, hbyte, hnext, hnone, hnone']
  · have hfirst : src.byteAt p ≠ some b := by
      intro hfirst
      have := h (startsWith_pair.2 ⟨hbyte.trans hfirst, hnext ▸ hslash⟩)
      have hpast : m.pos p + 1 = m.pos hi := by rw [hnext, hend]
      omega
    simp only [Source.startsWith, hbyte, beq_false_of_ne hfirst, Bool.false_and]

/-- The marks in a comment are found at the same places, up to the end of the excerpt. -/
lemma findMark {i' : Nat} (hlo : lo ≤ p) (hhi : p ≤ hi)
    (h : src'.find? BlockComment.isMark (m.pos p) = some i') (hlt : i' < m.pos hi) :
    ∃ i, src.find? BlockComment.isMark p = some i ∧ m.pos i = i' ∧ lo ≤ i ∧ i < hi := by
  obtain ⟨hsame, -⟩ := w.find? hlo hhi (by rw [h]; exact Nat.le_of_lt hlt)
    (by rw [h]; exact .inr (.inl hlt))
  obtain ⟨i, hmark, rfl⟩ := Option.map_eq_some_iff.1 (hsame.symm.trans h)
  exact ⟨i, hmark, rfl, Nat.le_trans hlo (find?_bounds hmark).1, m.strict.lt_iff_lt.1 hlt⟩

/-- The inside of a comment that ends in the excerpt. -/
lemma blockComment (outer : Nat) (hlo : lo ≤ p) (hhi : p ≤ hi) :
    MovedIf m (·.stop ≤ m.pos hi) (BlockComment.read src p outer)
      (BlockComment.read src' (m.pos p) outer) := by
  induction hn : hi - p using Nat.strongRecOn generalizing p outer with
  | ind n ih =>
    intro h
    cases hfound : src'.find? BlockComment.isMark (m.pos p) with
    | none =>
      rw [BlockComment.read_none hfound] at h ⊢
      obtain ⟨hsame, -⟩ := w.find? hlo hhi (by rw [hfound]; exact h) (.inr (.inr h))
      rw [BlockComment.read_none (Option.map_eq_none_iff.1 (hsame.symm.trans hfound)), w.size_eq h]
      rfl
    | some i' =>
      obtain ⟨hmore, hclosed⟩ := BlockComment.lt_stop_read outer hfound
      obtain ⟨i, hmark, rfl, hlo', hlt⟩ := w.findMark hlo hhi hfound (Nat.lt_of_lt_of_le hmore h)
      have hfrom := (find?_bounds hmark).1
      have hlo'' : lo ≤ i + 1 := Nat.le_succ_of_le hlo'
      -- The mark that closes the comment might end with the slash of the comment behind the excerpt.
      have hclose := w.startsWith_slash hlo' hlt fun hclose => Nat.le_trans (hclosed hclose) h
      have hopen : src'.startsWith (m.pos i) [0x2F, 0x2A] = src.startsWith i [0x2F, 0x2A] :=
        w.startsWith_mark (by decide) (by decide) hlo' hlt
      suffices MovedIf m (·.stop ≤ m.pos hi) (BlockComment.read src p outer)
          (BlockComment.read src' (m.pos p) outer) from this h
      rw [BlockComment.read_some hfound, BlockComment.read_some hmark, hclose, hopen,
        w.byteAt hlo' hlt, w.add_one hlo' hlt]
      refine .ite (fun _ h => ?_) fun _ => .ite (fun hclose => ?_) fun _ =>
        .ite (fun hopen => ?_) fun _ => ih _ (by omega) outer hlo'' hlt rfl
      · rw [ih _ (by omega) outer hlo'' hlt rfl h]
        rfl
      · have hle : i + 2 ≤ hi :=
          Nat.lt_of_le_of_ne hlt fun e => w.not_slash (e ▸ (startsWith_pair.1 hclose).2)
        rw [w.add hlo' hle]
        cases outer with
        | zero => exact fun _ => rfl
        | succ outer => exact ih _ (by omega) outer (by omega) hle rfl
      · have hle : i + 2 ≤ hi :=
          w.lt_of_byteAt (p := i + 1) (by decide) hlt (startsWith_pair.1 hopen).2
        rw [w.add hlo' hle]
        exact ih _ (by omega) (outer + 1) (by omega) hle rfl

/-- The end of a line comment that ends in the excerpt. -/
lemma lineComment (hlo : lo ≤ p) (hhi : p < hi) (h : src.startsWith p [0x2F, 0x2F])
    (hend : src'.skipWhile (· != 0x0A) (m.pos p + 2) ≤ m.pos hi) :
    src'.skipWhile (· != 0x0A) (m.pos p + 2) = m.pos (src.skipWhile (· != 0x0A) (p + 2))
      ∧ src.skipWhile (· != 0x0A) (p + 2) ≤ hi := by
  have hle : p + 2 ≤ hi :=
    Nat.lt_of_le_of_ne hhi fun e => w.not_slash (e ▸ (startsWith_pair.1 h).2)
  rw [w.add hlo hle] at hend ⊢
  exact w.skipWhile (Nat.le_add_right_of_le hlo) hle hend (.inl nofun)

/-- A gap that ends in the excerpt and in front of a comment behind it. -/
lemma gap (hlo : lo ≤ p) (hhi : p ≤ hi) (hpos : src.isBoundary p) :
    MovedIf m (Gap.EndsBefore src' (m.pos hi)) (Gap.read src p) (Gap.read src' (m.pos p)) := by
  induction hn : hi - p using Nat.strongRecOn generalizing p with
  | ind n ih =>
    intro h
    have hpos' : src'.isBoundary (m.pos p) := (w.isBoundary hlo hhi).trans hpos
    obtain ⟨hstop', hle⟩ := Gap.stop_read hpos'
    have hend := h.le (le_size_of_isBoundary hstop')
    cases hb' : src'.byteAt (m.pos p) with
    | none =>
      have hb : src.byteAt p = none := by
        obtain hlt | ⟨hnone, -⟩ | ⟨-, hslash⟩ := w.inside_or_end hhi
        · exact (w.byteAt hlo hlt).symm.trans hb'
        · exact hnone
        · exact nomatch hslash.symm.trans hb'
      rw [Gap.read_none hb', Gap.read_none hb]
      rfl
    | some b =>
      have hlt : p < hi := m.strict.lt_iff_lt.1 (h.lt hle (lt_size_of_byteAt hb'))
      have hb : src.byteAt p = some b := (w.byteAt hlo hlt).symm.trans hb'
      have hlo' : lo ≤ p + 1 := Nat.le_succ_of_le hlo
      have hline := w.startsWith_slash hlo hlt fun hmark =>
        Nat.le_trans (Gap.le_stop_of_lineComment hmark).2 hend
      have hblock : src'.startsWith (m.pos p) [0x2F, 0x2A] = src.startsWith p [0x2F, 0x2A] :=
        w.startsWith_mark (by decide) (by decide) hlo hlt
      suffices MovedIf m (Gap.EndsBefore src' (m.pos hi)) (Gap.read src p)
          (Gap.read src' (m.pos p)) from this h
      rw [Gap.read_some hb', Gap.read_some hb, hline, hblock, w.add_one hlo hlt]
      refine .ite (fun hbreak => ?_) fun _ => .ite (fun hblank => ?_) fun _ => .ite (fun hmark => ?_)
        fun _ => .ite (fun hmark => ?_) fun _ _ => rfl
      · have hbehind := isBoundary_behind_ascii hb (Byte.ascii_isLineBreak b hbreak)
        exact Gap.moved_lineBreakInFront (ih _ (by omega) hlo' hlt hbehind rfl)
      · have hbehind := isBoundary_behind_ascii hb (Byte.ascii_isBlank b hblank)
        exact Gap.moved_triviaInFront (ih _ (by omega) hlo' hlt hbehind rfl)
      · have hrun := (Gap.le_stop_of_lineComment (hline.trans hmark)).1
        obtain ⟨hskip, hinside⟩ := w.lineComment hlo hlt hmark (Nat.le_trans hrun hend)
        have hbehind := Gap.isBoundary_lineComment (lt_size_of_byteAt (startsWith_pair.1 hmark).2)
        have hfrom := src.le_skipWhile (· != 0x0A) (p + 2)
        rw [hskip]
        exact Gap.moved_triviaInFront (ih _ (by omega) (by omega) hinside hbehind rfl)
      · have hsecond := (startsWith_pair.1 hmark).2
        have hle' : p + 2 ≤ hi := w.lt_of_byteAt (p := p + 1) (by decide) hlt hsecond
        have hrun := Gap.le_stop_of_blockComment (hblock.trans hmark)
        rw [w.add hlo hle'] at hrun ⊢
        have hcomment := w.blockComment 0 (Nat.le_add_right_of_le hlo) hle' (Nat.le_trans hrun hend)
        have hfrom := BlockComment.le_stop_read src (p + 2) 0 (lt_size_of_byteAt hsecond)
        have hbehind := BlockComment.isBoundary_read src (p + 2) 0 (lt_size_of_byteAt hsecond)
        rw [hcomment] at hrun ⊢
        have hinside : (BlockComment.read src (p + 2) 0).stop ≤ hi :=
          (pos_le (m := m)).1 (Nat.le_trans hrun hend)
        exact Gap.moved_behindComment (ih _ (by omega) (by omega) hinside hbehind rfl)
          (w.add hlo hle') _

/-! ## Any token -/

lemma endOfFile (hend : src'.size ≤ m.pos hi) :
    Lexeme.endOfFile src' modes (m.pos p) = move m (Lexeme.endOfFile src modes p) := by
  unfold Lexeme.endOfFile
  rw [w.size_eq hend]
  split <;> rfl

/-- A token of code behind a gap that ends in front of a comment behind the excerpt. -/
lemma codeToken (hlo : lo ≤ p) (hhi : p < hi ∨ p ≤ hi ∧ src'.size ≤ m.pos hi) :
    MovedIf m (·.stop ≤ m.pos hi) (Lexeme.readToken src modes p)
      (Lexeme.readToken src' modes (m.pos p)) := by
  unfold Lexeme.readToken
  obtain hlt | ⟨hnone, hnone'⟩ | ⟨rfl, hslash⟩ := w.inside_or_end (p := p) (by omega)
  · rw [w.byteAt hlo hlt]
    cases hfirst : src.byteAt p with
    | none => exact absurd (byteAt_eq_none hfirst) (Nat.not_le.2 (Nat.lt_of_lt_of_le hlt w.le_size.1))
    | some first => exact w.code hlo hlt
  · rw [hnone, hnone']
    exact fun _ => w.endOfFile (Nat.le_trans (byteAt_eq_none hnone') (pos_le.2 (by omega)))
  · have := lt_size_of_byteAt hslash
    omega

/-- The next token, if it ends in the excerpt. -/
theorem read (modes : List Mode) (hlo : lo ≤ p) (hhi : p ≤ hi) (hpos : src.isBoundary p)
    (h : (Lexeme.read src' modes (m.pos p)).2.stop ≤ m.pos hi) :
    Lexeme.read src' modes (m.pos p)
      = (m.pos (Lexeme.read src modes p).1, move m (Lexeme.read src modes p).2) := by
  cases hmode : Mode.top modes with
  | text quote multiLine =>
    unfold Lexeme.read at h ⊢
    rw [hmode] at h ⊢
    exact congrArg _ (w.string hlo hhi hpos h)
  | code braces =>
    have hcode : (Mode.top modes).isCode := by rw [hmode]; rfl
    have hpos' : src'.isBoundary (m.pos p) := (w.isBoundary hlo hhi).trans hpos
    rw [Lexeme.read_of_code src hcode, Lexeme.read_of_code src' hcode] at *
    have hends := Lexeme.endsBefore_of_readToken hcode hpos' h
    have hsize := hends.le (le_size_of_isBoundary (Gap.stop_read hpos').1)
    -- A gap that went on with the comment behind the excerpt would leave no room for the token.
    have hgap := w.gap hlo hhi hpos hends
    rw [hgap] at h hends hsize ⊢
    obtain ⟨-, hle⟩ := Gap.stop_read hpos
    generalize Gap.read src p = gap at *
    have hinside : gap.stop < hi ∨ gap.stop ≤ hi ∧ src'.size ≤ m.pos hi :=
      hends.imp m.strict.lt_iff_lt.1 fun hend => ⟨pos_le.1 hsize, hend⟩
    have htoken := w.codeToken (Nat.le_trans hlo hle) hinside h
    have hstop : (move m gap).stop = m.pos gap.stop := rfl
    rw [hstop, htoken]
    simp only [Moves.move, List.map_append, Gap.flags]

end Source.Excerpt

end CangjieSyntax
