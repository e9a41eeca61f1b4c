import CangjieSyntax.Proofs.Excerpt.Tokens

/-!
# Comments and the blanks in their place

A comment that lies between two tokens of code can be replaced: by a space, or by a line feed if it
holds one. What stands in front of the comment and what stands behind it are then excerpts of both
texts.
-/

namespace CangjieSyntax

variable {src src' : Source} {a b pos stop : Nat}

/-- A comment stands from one offset up to another. A line comment goes up to the end of the line
and does not take in its line feed; a block comment is closed. -/
inductive Source.CommentAt (src : Source) (a b : Nat) : Prop
  | line (h : src.startsWith a [0x2F, 0x2F]) (hle : a + 2 ≤ b)
    (hinside : ¬src.HasLineFeed (a + 2) b) (hend : b = src.size ∨ src.byteAt b = some 0x0A)
  | block (h : src.startsWith a [0x2F, 0x2A]) (inside : BlockComment.Spans src 0 (a + 2) b true)

/-- Reading on from a state comes to a gap between tokens of code that reaches an offset. -/
inductive Lexer.Approaches (src : Source) (a : Nat) : Lexer → Prop
  | gap {l : Lexer} {pieces : List Gap.Piece} (hcode : (Mode.top l.modes).isCode)
    (h : Gap.Spans src l.pos a pieces) : Approaches src a l
  | token {l : Lexer} (h : Approaches src a (l.scan src)) : Approaches src a l

/-- Whether the lexer meets a comment from one offset up to another. -/
structure Source.HasComment (src : Source) (a b : Nat) : Prop where
  comment : src.CommentAt a b
  met : (Lexer.ofSource src).Approaches src a

/-- The bytes with a space in the place of a stretch, or with a line feed if the stretch holds
one. -/
def blankOut (bytes : ByteArray) (a b : Nat) : ByteArray :=
  bytes.extract 0 a
    ++ ⟨#[if (bytes.extract a b).data.contains 0x0A then 0x0A else 0x20]⟩
    ++ bytes.extract b bytes.size

/-- The move behind a place that something more stands at in the other text: offsets behind `stop`
are `length` bytes further on there. -/
def Move.past (stop length : Nat) : Move where
  pos p := if p ≤ stop then p else p + length
  strict p q h := by
    dsimp only
    split <;> split <;> omega
  counts := ⟨0, 0, 0, 0⟩

lemma Move.pos_past_of_le {length : Nat} (h : pos ≤ stop) : (past stop length).pos pos = pos :=
  if_pos h

lemma Move.pos_past_of_lt {length : Nat} (h : stop < pos) :
    (past stop length).pos pos = pos + length :=
  if_neg (Nat.not_le.2 h)

/-- `src` is `src'` with a space or a line feed in the place of the comment at `a`. -/
structure Source.Blanked (src src' : Source) (m : Move) (a : Nat) : Prop where
  comment : src'.CommentAt a (m.pos (a + 1))
  blank : src.byteAt a = some 0x0A ∧ src'.HasLineFeed a (m.pos (a + 1))
    ∨ src.byteAt a = some 0x20 ∧ ¬src'.HasLineFeed a (m.pos (a + 1))
  stays : ∀ p ≤ a, m.pos p = p
  counts : m.counts = ⟨0, 0, 0, 0⟩
  front : src.Excerpt src' m 0 a
  behind : src.Excerpt src' m (a + 1) src.size

/-! ## Where comments end -/

/-- A closed comment ends with the mark that closes it. -/
lemma BlockComment.Spans.closing {outer : Nat} (h : Spans src outer pos stop true) :
    ∃ last, pos ≤ last ∧ stop = last + 2 ∧ src.startsWith last [0x2A, 0x2F] := by
  generalize hclosed : true = closed at h
  induction h with
  | @close pos h => exact ⟨pos, le_rfl, rfl, h⟩
  | closeInner _ _ ih | openInner _ _ ih =>
    obtain ⟨last, hle, hstop⟩ := ih hclosed
    exact ⟨last, by omega, hstop⟩
  | skip _ _ _ _ ih =>
    obtain ⟨last, hle, hstop⟩ := ih hclosed
    exact ⟨last, by omega, hstop⟩
  | unclosed => exact nomatch hclosed

namespace Source.CommentAt

lemma slash (h : src.CommentAt a b) : src.byteAt a = some 0x2F := by
  cases h with
  | line h | block h => exact (startsWith_pair.1 h).1

lemma isBoundary (h : src.CommentAt a b) : src.isBoundary a ∧ src.isBoundary b := by
  refine ⟨isBoundary_of_ascii h.slash (by decide), ?_⟩
  cases h with
  | line _ _ _ hend =>
    obtain rfl | hfeed := hend
    · exact isBoundary_size
    · exact isBoundary_of_ascii hfeed (by decide)
  | block _ inside =>
    obtain ⟨last, -, rfl, hlast⟩ := inside.closing
    exact isBoundary_behind_ascii (startsWith_pair.1 hlast).2 (by decide)

lemma le (h : src.CommentAt a b) : a + 2 ≤ b := by
  cases h with
  | line _ hle => exact hle
  | block _ inside =>
    obtain ⟨last, hle, rfl, -⟩ := inside.closing
    omega

/-- Neither an operand nor a number stands around the end of a comment. -/
lemma byteIs_endsOperand (h : src.CommentAt a b) (hpoint : src.byteAt b = some 0x2E) :
    src.byteIs (b - 1) Numeral.endsOperand = false := by
  cases h with
  | line _ _ _ hend =>
    obtain rfl | hfeed := hend
    · exact nomatch (src.byteAt_size).symm.trans hpoint
    · exact nomatch hfeed.symm.trans hpoint
  | block _ inside =>
    obtain ⟨last, -, rfl, hlast⟩ := inside.closing
    rw [byteIs, show last + 2 - 1 = last + 1 from rfl, (startsWith_pair.1 hlast).2]
    rfl

end Source.CommentAt

/-! ## Comments in gaps -/

/-- A gap between two pieces of it. -/
lemma Gap.Spans.split {front rest : List Gap.Piece} (h : Spans src pos stop (front ++ rest)) :
    ∃ mid, Spans src pos mid front ∧ Spans src mid stop rest := by
  induction front generalizing pos with
  | nil => exact ⟨pos, .nil pos, h⟩
  | cons piece front ih =>
    rw [List.cons_append] at h
    cases h with
    | lineFeed h hrest =>
      obtain ⟨mid, hfront, hmid⟩ := ih hrest
      exact ⟨mid, .lineFeed h hfront, hmid⟩
    | carriageReturn h hrest =>
      obtain ⟨mid, hfront, hmid⟩ := ih hrest
      exact ⟨mid, .carriageReturn h hfront, hmid⟩
    | blank h hrest =>
      obtain ⟨mid, hfront, hmid⟩ := ih hrest
      exact ⟨mid, .blank h hfront, hmid⟩
    | lineComment h hle hinside hend hrest =>
      obtain ⟨mid, hfront, hmid⟩ := ih hrest
      exact ⟨mid, .lineComment h hle hinside hend hfront, hmid⟩
    | blockComment h inside hrest =>
      obtain ⟨mid, hfront, hmid⟩ := ih hrest
      exact ⟨mid, .blockComment h inside hfront, hmid⟩

lemma Lexer.Approaches.of_iterate {l : Lexer} {n : Nat}
    (h : ((Lexer.scan src)^[n] l).Approaches src a) : l.Approaches src a := by
  induction n generalizing l with
  | zero => exact h
  | succ n ih => exact .token (ih h)

/-- Every comment that is closed in the gap in front of a token of code is met. -/
theorem hasComment_of_gap {n : Nat} {l : Lexer} {front rest : List Gap.Piece} {piece : Gap.Piece}
    (hl : (Lexer.scan src)^[n] (Lexer.ofSource src) = l) (hcode : (Mode.top l.modes).isCode)
    (h : Gap.Spans src l.pos stop (front ++ piece :: rest))
    (hpiece : piece = .lineComment ∨ piece = .blockComment true) :
    ∃ a b, src.HasComment a b ∧ Gap.Spans src l.pos a front ∧ Gap.Spans src b stop rest := by
  obtain ⟨a, hfront, h⟩ := h.split
  have happroaches : l.Approaches src a := .gap hcode hfront
  have met : (Lexer.ofSource src).Approaches src a := .of_iterate (hl ▸ happroaches)
  obtain rfl | rfl := hpiece
  · cases h with
    | lineComment h hle hinside hend hrest =>
      exact ⟨a, _, ⟨.line h hle hinside hend, met⟩, hfront, hrest⟩
  · cases h with
    | blockComment h inside hrest => exact ⟨a, _, ⟨.block h inside, met⟩, hfront, hrest⟩

/-! ## The text with the blank -/

lemma contains_extract (src : Source) (a b : Nat) :
    (src.bytes.extract a b).data.contains 0x0A ↔ src.HasLineFeed a b := by
  have hbyte (i : Nat) : src.byteAt i = src.bytes.data[i]? := by
    rw [Source.byteAt]
    by_cases hlt : i < src.bytes.size
    · rw [getElem?_pos src.bytes i hlt, Array.getElem?_eq_getElem hlt]
      rfl
    · rw [getElem?_neg src.bytes i hlt, Array.getElem?_eq_none (Nat.le_of_not_lt hlt)]
  rw [Array.contains_iff_mem, ByteArray.data_extract, Array.mem_iff_getElem?]
  simp only [Array.getElem?_extract]
  constructor
  · rintro ⟨i, hi⟩
    split at hi
    case isTrue hlt =>
      exact ⟨a + i, Nat.le_add_right a i, by omega, (hbyte _).trans hi⟩
    case isFalse => cases hi
  · rintro ⟨i, hle, hlt, hi⟩
    have hsize := Source.lt_size_of_byteAt hi
    refine ⟨i - a, ?_⟩
    rw [hbyte] at hi
    have : src.bytes.data.size = src.size := rfl
    rw [if_pos (by omega), Nat.add_sub_cancel' hle, hi]

/-- The character in the place of a stretch. -/
lemma exists_blank (src : Source) (a b : Nat) :
    ∃ blank : Char,
      [blank].utf8Encode
        = ⟨#[if (src.bytes.extract a b).data.contains 0x0A then 0x0A else 0x20]⟩
      ∧ blank.utf8Size = 1
      ∧ (blank = '\n' ∧ src.HasLineFeed a b ∨ blank = ' ' ∧ ¬src.HasLineFeed a b) := by
  rw [← contains_extract]
  by_cases hfeed : (src.bytes.extract a b).data.contains 0x0A
  · exact ⟨'\n', by rw [if_pos hfeed]; rfl, rfl, .inl ⟨rfl, hfeed⟩⟩
  · exact ⟨' ', by rw [if_neg hfeed]; rfl, rfl, .inr ⟨rfl, hfeed⟩⟩

section

variable {front inside behind : List Char} {blank : Char}

/-- The characters of the bytes with a blank. -/
lemma blankOut_eq_utf8Encode (hfront : src.Ahead 0 (front ++ (inside ++ behind)))
    (ha : a = front.utf8Encode.size) (hbehind : src.Ahead b behind)
    (hblank : [blank].utf8Encode
      = ⟨#[if (src.bytes.extract a b).data.contains 0x0A then 0x0A else 0x20]⟩) :
    blankOut src.bytes a b = (front ++ blank :: behind).utf8Encode := by
  have hleft := hfront.extract
  have hright := (show src.Ahead b (behind ++ []) by rwa [List.append_nil]).extract
  rw [Nat.zero_add, ← ha] at hleft
  rw [← hbehind.size_eq] at hright
  rw [blankOut, ← hblank, hleft, show src.bytes.size = src.size from rfl, hright,
    ByteArray.append_assoc, ← List.utf8Encode_append, ← List.utf8Encode_append]
  rfl

variable {length : Nat} (hblank : src.byteAt a = some 0x0A ∨ src.byteAt a = some 0x20)

include hblank

/-- What stands in front of a comment. -/
lemma Source.excerpt_front (h : src'.CommentAt a b) (hfront : src.Ahead 0 (front ++ blank :: behind))
    (hfront' : src'.Ahead 0 (front ++ (inside ++ behind))) (ha : a = front.utf8Encode.size) :
    src.Excerpt src' (.past a length) 0 a := by
  have hzero : (Move.past a length).pos 0 = 0 := Move.pos_past_of_le (Nat.zero_le a)
  refine excerpt_of_ahead hfront (hzero.symm ▸ hfront') (by rw [Nat.zero_add, ha]) ?_ ?_ fun _ => ?_
  · intro p k _ hk
    rw [Move.pos_past_of_le (by omega), Move.pos_past_of_le hk]
  · have hslash : src'.byteAt ((Move.past a length).pos a) = some 0x2F := by
      rw [Move.pos_past_of_le le_rfl]
      exact h.slash
    exact hblank.elim (fun hfeed => .comment hfeed (.inr rfl) hslash)
      fun hspace => .comment hspace (.inl rfl) hslash
  · rw [hzero]
    rfl

/-- What stands behind a comment. -/
lemma Source.excerpt_behind (h : src'.CommentAt a b) (hb : a + 1 + length = b)
    (hbehind : src.Ahead (a + 1) behind) (hbehind' : src'.Ahead b behind) :
    src.Excerpt src' (.past a length) (a + 1) src.size := by
  have hpos : (Move.past a length).pos (a + 1) = b :=
    (Move.pos_past_of_lt (Nat.lt_succ_self a)).trans hb
  refine excerpt_to_end hbehind (hpos.symm ▸ hbehind') ?_ fun hpoint => ?_
  · intro p k hp
    rw [Move.pos_past_of_lt hp, Move.pos_past_of_lt (by omega)]
    omega
  · have hpoint' : src'.byteAt b = some 0x2E := by
      have hleft := hbehind.byteAt 0
      have hright := hbehind'.byteAt 0
      rw [Nat.add_zero] at hleft hright
      rw [hright, ← hleft, hpoint]
    have hblankIs : src.byteIs a Numeral.endsOperand = false := by
      rw [Source.byteIs]
      obtain hbyte | hbyte := hblank
      · rw [hbyte]
        rfl
      · rw [hbyte]
        rfl
    rw [hpos, h.byteIs_endsOperand hpoint', Nat.add_sub_cancel, hblankIs, Bool.and_false,
      Bool.and_false]

end

/-- The bytes with a blank in the place of a comment are a text again. -/
theorem blanked_of_comment (h : src'.CommentAt a b) :
    ∃ src, Source.ofBytes (blankOut src'.bytes a b) = .ok src
      ∧ src.Blanked src' (.past a (b - (a + 1))) a := by
  have hle := h.le
  obtain ⟨cs, hcs⟩ := Source.isBoundary_iff.1 h.isBoundary.1
  obtain ⟨behind, hbehind⟩ := Source.isBoundary_iff.1 h.isBoundary.2
  obtain ⟨inside, rfl, -⟩ := hcs.between hbehind (by omega)
  obtain ⟨front, hall, ha⟩ := Source.ahead_zero.between hcs (Nat.zero_le a)
  rw [Nat.zero_add] at ha
  have hfront' : src'.Ahead 0 (front ++ (inside ++ behind)) := hall ▸ Source.ahead_zero
  -- The comment begins and ends between two characters, and the blank is one, too.
  obtain ⟨blank, hencoded, hwidth, hfeed⟩ := exists_blank src' a b
  let text := String.ofList (front ++ blank :: behind)
  let src := Source.ofString text
  have htext : src.text.toList = front ++ blank :: behind := String.toList_ofList
  have hfront : src.Ahead 0 (front ++ blank :: behind) := htext ▸ Source.ahead_zero
  have hat : src.Ahead a (blank :: behind) := ⟨front, htext, ha⟩
  have hbytes : blankOut src'.bytes a b = text.toUTF8 := by
    rw [blankOut_eq_utf8Encode hfront' ha hbehind hencoded, ← htext, ← Source.bytes_eq_utf8Encode]
    rfl
  have hblank : src.byteAt a = some 0x0A ∧ src'.HasLineFeed a b
      ∨ src.byteAt a = some 0x20 ∧ ¬src'.HasLineFeed a b := by
    have hbyte := hat.byteAt 0
    rw [Nat.add_zero] at hbyte
    rw [hbyte]
    exact hfeed.imp (fun h => ⟨by rw [h.1]; rfl, h.2⟩) fun h => ⟨by rw [h.1]; rfl, h.2⟩
  have hblank' := hblank.imp And.left And.left
  have hb : a + 1 + (b - (a + 1)) = b := Nat.add_sub_cancel' (by omega)
  have hmove : (Move.past a (b - (a + 1))).pos (a + 1) = b :=
    (Move.pos_past_of_lt (Nat.lt_succ_self a)).trans hb
  exact ⟨src, by rw [hbytes, Source.ofBytes_toUTF8],
    { comment := hmove.symm ▸ h
      blank := hmove.symm ▸ hblank
      stays := fun p hp => Move.pos_past_of_le hp
      counts := rfl
      front := Source.excerpt_front hblank' h hfront hfront' ha
      behind := Source.excerpt_behind hblank' h hb (hwidth ▸ hat.tail) hbehind }⟩

end CangjieSyntax
