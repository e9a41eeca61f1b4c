import CangjieSyntax.Proofs.Token.Checked
import CangjieSyntax.Proofs.Token.Scan

/-!
# Accesses in range

Wherever a scan may stand, every access that the next step makes is in range: checked reading has a
result, and it is that of reading. A text is taken out between places that lie between characters
only, and what is looked at lies in front of the end of the text.
-/

namespace CangjieSyntax

variable {src : Source} {modes : List Mode} {pos start stop outer : Nat} {b first : UInt8}
  {l : Lexer}

lemma difference?_of_le {a b : Nat} (h : b ≤ a) : difference? a b = some (a - b) :=
  if_pos h

namespace Source

lemma suffix?_of_le (h : pos ≤ src.size) : src.suffix? pos = some pos :=
  if_pos h

/-- Of two places between characters, the characters from the later one on are among those from the
earlier one on. -/
lemma Ahead.split {cs ds : List Char} (h : src.Ahead start cs) (h' : src.Ahead stop ds)
    (hle : start ≤ stop) : ∃ word, cs = word ++ ds ∧ stop = start + word.utf8Encode.size := by
  obtain ⟨before, e, rfl⟩ := h
  obtain ⟨before', e', rfl⟩ := h'
  obtain ⟨word, rfl, rfl⟩ | ⟨word, rfl, rfl⟩ := List.append_eq_append_iff.1 (e.symm.trans e')
  · exact ⟨word, rfl, by rw [List.utf8Encode_append, ByteArray.size_append]⟩
  · cases word with
    | nil => exact ⟨[], rfl, by simp⟩
    | cons c word =>
      rw [List.utf8Encode_append, ByteArray.size_append, size_utf8Encode_cons] at hle
      have := c.utf8Size_pos
      omega

/-- Between two places between characters there is a text. -/
lemma slice?_of_isBoundary (hstart : src.isBoundary start) (hstop : src.isBoundary stop)
    (hle : start ≤ stop) : src.slice? start stop = some (src.slice start stop) := by
  obtain ⟨cs, hcs⟩ := isBoundary_iff.1 hstart
  obtain ⟨ds, hds⟩ := isBoundary_iff.1 hstop
  obtain ⟨word, rfl, rfl⟩ := hcs.split hds hle
  have hvalid : word.utf8Encode.IsValidUTF8 := ByteArray.isValidUTF8_utf8Encode
  have hsome : (src.slice? start (start + word.utf8Encode.size)).isSome := by
    rw [slice?, if_pos ⟨hstart, hle, le_size_of_isBoundary hstop⟩, hcs.extract, String.fromUTF8?,
      dif_pos hvalid]
    rfl
  obtain ⟨text, htext⟩ := Option.isSome_iff_exists.1 hsome
  rw [slice, htext, Option.getD_some]

end Source

/-! ## Gaps -/

namespace BlockComment

/-- At the next mark. -/
lemma readChecked_of_find? {i depth : Nat} {mark : UInt8} (hpos : pos ≤ src.size)
    (h : src.find? isMark pos = some i) (hmark : src.byteAt i = some mark) :
    readChecked src pos depth =
      if mark == 0x0A then
        (readChecked src (i + 1) depth).map fun rest => { rest with lineBreak := true }
      else if mark == 0x2A && src.byteAt (i + 1) == some 0x2F then
        (difference? depth 1).bind fun depth =>
          if depth = 0 then some ⟨i + 2, false, true⟩ else readChecked src (i + 2) depth
      else if mark == 0x2F && src.byteAt (i + 1) == some 0x2A then
        readChecked src (i + 2) (depth + 1)
      else readChecked src (i + 1) depth := by
  rw [readChecked, Source.suffix?_of_le hpos]
  simp only [Option.bind_eq_bind, Option.bind_some]
  split
  case h_1 hnone => exact absurd (h.symm.trans hnone) (Option.some_ne_none i)
  case h_2 i' hi' =>
    obtain rfl : i = i' := Option.some.inj (h.symm.trans hi')
    rw [hmark, Option.bind_some, Option.map_eq_bind]
    rfl

/-- The count of the comments around a place is never taken below zero. -/
lemma readChecked_eq (hpos : pos ≤ src.size) :
    readChecked src pos (outer + 1) = some (read src pos outer) := by
  fun_induction read src pos outer with
  | case1 pos outer h =>
    rw [readChecked, Source.suffix?_of_le hpos]
    simp only [Option.bind_eq_bind, Option.bind_some]
    split
    case h_1 => rfl
    case h_2 i hi => exact absurd (hi.symm.trans h) (Option.some_ne_none i)
  | case2 pos outer i h hfeed rest ih =>
    rw [readChecked_of_find? hpos h (beq_iff_eq.1 hfeed), ih (Source.find?_bounds h).2]
    rfl
  | case3 pos i h hfeed hclose =>
    rw [Bool.and_eq_true, beq_iff_eq] at hclose
    rw [readChecked_of_find? hpos h hclose.1]
    simp [hclose.2, difference?]
  | case4 pos i h hfeed hclose outer ih =>
    rw [Bool.and_eq_true, beq_iff_eq] at hclose
    have hsize := Source.lt_size_of_byteAt (beq_iff_eq.1 hclose.2)
    rw [readChecked_of_find? hpos h hclose.1]
    simp [hclose.2, difference?, ih hsize]
  | case5 pos outer i h hfeed hclose hopen ih =>
    rw [Bool.and_eq_true, beq_iff_eq] at hopen
    have hsize := Source.lt_size_of_byteAt (beq_iff_eq.1 hopen.2)
    rw [readChecked_of_find? hpos h hopen.1]
    simp [hopen.2, ih hsize]
  | case6 pos outer i h hfeed hclose hopen ih =>
    obtain ⟨mark, hmark, -⟩ := Source.byteAt_of_find? h
    rw [readChecked_of_find? hpos h hmark, ih (Source.find?_bounds h).2]
    simp only [hmark, Option.some_beq_some] at hfeed hclose hopen
    rw [if_neg hfeed, if_neg hclose, if_neg hopen]

end BlockComment

namespace Gap

/-- At a byte of the text. -/
lemma readChecked_of_byteAt (hb : src.byteAt pos = some b) :
    readChecked src pos =
      if Byte.isLineBreak b then
        (readChecked src (pos + 1)).map fun rest => { rest with lineBreak := true }
      else if Byte.isBlank b then
        (readChecked src (pos + 1)).map fun rest => { rest with trivia := true }
      else if b == 0x2F && src.byteAt (pos + 1) == some 0x2F then
        (src.suffix? pos).bind fun _ =>
          (readChecked src (src.skipWhile (· != 0x0A) (pos + 2))).map
            fun rest => { rest with trivia := true }
      else if b == 0x2F && src.byteAt (pos + 1) == some 0x2A then
        (BlockComment.readChecked src (pos + 2) 1).bind fun comment =>
          if pos < comment.stop then
            (readChecked src comment.stop).map fun rest => { rest with
              lineBreak := comment.lineBreak || rest.lineBreak
              trivia := true
              errors :=
                if comment.closed then rest.errors
                else (.unterminatedComment, ⟨pos, pos + 2⟩) :: rest.errors }
          else none
      else some { stop := pos } := by
  rw [readChecked]
  split
  case h_1 hnone => exact absurd (hb.symm.trans hnone) (Option.some_ne_none b)
  case h_2 b' hb' =>
    obtain rfl : b = b' := Option.some.inj (hb.symm.trans hb')
    simp only [Option.map_eq_bind]
    rfl

lemma readChecked_eq (h : src.isBoundary pos) : readChecked src pos = some (read src pos) := by
  fun_induction read src pos with
  | case1 pos hnone =>
    rw [readChecked]
    split
    case h_1 => rfl
    case h_2 b hb => exact absurd (hb.symm.trans hnone) (Option.some_ne_none b)
  | case2 pos b hb hbreak rest ih =>
    have hbehind := Source.isBoundary_behind_ascii hb (Byte.ascii_isLineBreak b hbreak)
    rw [readChecked_of_byteAt hb, if_pos hbreak, ih hbehind]
    rfl
  | case3 pos b hb hbreak hblank rest ih =>
    have hbehind := Source.isBoundary_behind_ascii hb (Byte.ascii_isBlank b hblank)
    rw [readChecked_of_byteAt hb, if_neg hbreak, if_pos hblank, ih hbehind]
    rfl
  | case4 pos b hb hbreak hblank hline rest ih =>
    have hsize := (Bool.and_eq_true _ _ ▸ hline).2
    rw [beq_iff_eq] at hsize
    have hbehind := isBoundary_lineComment (Source.lt_size_of_byteAt hsize)
    rw [readChecked_of_byteAt hb, if_neg hbreak, if_neg hblank, if_pos hline, ih hbehind,
      Source.suffix?_of_le (Nat.le_of_lt (Source.lt_size_of_byteAt hb))]
    rfl
  | case5 pos b hb hbreak hblank hline hopen comment rest ih =>
    have hsize := (Bool.and_eq_true _ _ ▸ hopen).2
    rw [beq_iff_eq] at hsize
    have hinside := Source.lt_size_of_byteAt hsize
    have hbehind := BlockComment.isBoundary_read src (pos + 2) 0 hinside
    have hlt : pos < (BlockComment.read src (pos + 2) 0).stop :=
      Nat.lt_of_lt_of_le (by omega) (BlockComment.le_stop_read src (pos + 2) 0 hinside)
    rw [readChecked_of_byteAt hb, if_neg hbreak, if_neg hblank, if_neg hline, if_pos hopen,
      BlockComment.readChecked_eq hinside, Option.bind_some, if_pos hlt, ih hbehind]
    rfl
  | case6 pos b hb hbreak hblank hline hopen =>
    rw [readChecked_of_byteAt hb, if_neg hbreak, if_neg hblank, if_neg hline, if_neg hopen]

end Gap

/-! ## Words, marks and numbers -/

namespace Word

/-- A word is taken out between two characters. -/
lemma slice?_skip (h : src.isBoundary pos) :
    src.slice? pos (skip src pos) = some (src.slice pos (skip src pos)) :=
  Source.slice?_of_isBoundary h (isBoundary_skip h) (le_skip src pos)

lemma readChecked_eq (h : startsAt src pos) : readChecked src pos = some (read src pos) := by
  rw [readChecked, slice?_skip (isBoundary_of_startsAt h)]
  rfl

lemma readRawChecked_eq (h : src.isBoundary (pos + 1)) :
    readRawChecked src pos = some (readRaw src pos) := by
  unfold readRawChecked
  rw [slice?_skip h]
  split <;> rfl

lemma readDollarChecked_eq (h : src.isBoundary (pos + 1)) :
    readDollarChecked src pos = some (readDollar src pos) := by
  unfold readDollarChecked
  rw [slice?_skip h]
  split <;> rfl

end Word

namespace Numeral

lemma startsWithPointChecked_eq (src : Source) (start : Nat) :
    startsWithPointChecked src start = some (startsWithPoint src start) := by
  unfold startsWithPointChecked
  split
  case isTrue h =>
    rw [Bool.and_eq_true, beq_iff_eq, bne_iff_ne] at h
    have hlt := Source.lt_size_of_byteAt h.1
    obtain ⟨b, hb⟩ := Source.byteAt_of_lt (show start - 1 < src.size by omega)
    rw [difference?_of_le (Nat.one_le_iff_ne_zero.2 h.2)]
    simp [hb]
  case isFalse => rfl

lemma withSuffixChecked_eq {body : Body} (h : src.isBoundary start) (hbody : body.Stands src start) :
    withSuffixChecked src start body = some (withSuffix src start body) := by
  have hsuffix := Source.slice?_of_isBoundary hbody.boundary
    (Source.isBoundary_skipChars (p := Unicode.isIdentifierPart) hbody.boundary)
    (src.le_skipChars _ _)
  unfold withSuffixChecked
  rw [Source.slice?_of_isBoundary h hbody.boundary (Nat.le_of_lt hbody.moves), hsuffix]
  simp only [Option.bind_eq_bind, Option.bind_some]
  split <;> rfl

lemma readChecked_eq (hfirst : src.byteAt start = some first) (hdigit : Byte.isDigit first) :
    readChecked src start = some (read src start) := by
  have hstart := Source.isBoundary_of_ascii hfirst (Byte.ascii_isDigit first hdigit)
  have hbyte (rest : Option Lexeme) : (src.byteAt start >>= fun _ => rest) = rest := by
    rw [hfirst]
    rfl
  exact (hbyte _).trans (withSuffixChecked_eq hstart (stands_body hfirst hdigit))

end Numeral

lemma Lexeme.readMarkChecked_eq (h : pos ≤ src.size) :
    readMarkChecked src pos = some (readMark src pos) := by
  rw [readMarkChecked, Source.suffix?_of_le h]
  rfl

/-! ## Escapes, strings and literals -/

lemma Escape.readChecked_eq (src : Source) (rule : EscapeRule) (start : Nat) :
    readChecked src rule start = some (read src rule start) := by
  unfold readChecked
  split
  case isTrue h =>
    rw [Bool.and_eq_true, beq_iff_eq, beq_iff_eq] at h
    have hdigits := Source.isBoundary_behind_ascii h.2 (by decide)
    rw [Source.slice?_of_isBoundary hdigits
      (Source.isBoundary_skipWhile Byte.ascii_isHexDigit hdigits) (src.le_skipWhile _ _)]
    rfl
  case isFalse => rfl

namespace StringText

variable {quote : Quote} {multiLine : Bool}

lemma closesChecked_eq (quote : Quote) (multiLine : Bool) (h : pos ≤ src.size) :
    closesChecked src quote multiLine pos = some (closes src quote multiLine pos) := by
  unfold closesChecked
  rw [Source.suffix?_of_le h]
  split <;> rfl

/-- A plain byte neither ends the content nor starts an escape. -/
lemma goes_of_isPlain (hb : src.byteAt pos = some b) (hplain : isPlain quote multiLine b) :
    ¬(closes src quote multiLine pos || opensHole src pos || breaksOff src multiLine pos)
      ∧ ¬(src.byteAt pos == some 0x5C) := by
  simp only [isPlain, Bool.not_eq_eq_eq_not, Bool.not_true, Bool.or_eq_false_iff,
    beq_eq_false_iff_ne] at hplain
  obtain ⟨⟨⟨hquote, hslash⟩, hdollar⟩, hbreak⟩ := hplain
  refine ⟨?_, by simp [hb, hslash]⟩
  cases multiLine with
  | true => simp [closes, opensHole, breaksOff, Source.startsWith, hb, hquote, hdollar]
  | false =>
    simp only [Bool.not_false, Bool.true_and] at hbreak
    simp [closes, opensHole, breaksOff, Source.byteIs, hb, hquote, hdollar, hbreak]

lemma ascii_of_not_isPlain : ∀ b, isPlain quote multiLine b = false → b < 0x80 := by
  intro b hb
  simp only [isPlain, Bool.not_eq_eq_eq_not, Bool.not_false, Bool.or_eq_true, beq_iff_eq,
    Bool.and_eq_true] at hb
  obtain ((rfl | rfl) | rfl) | ⟨-, hbreak⟩ := hb
  · exact quote.ascii_byte
  · decide
  · decide
  · exact Byte.ascii_isLineBreak b hbreak

/-- The characters of a plain run are read one by one. -/
lemma readContent_run {word cs : List Char} (h : src.Ahead pos (word ++ cs))
    (hrun : pos + word.utf8Encode.size ≤ src.skipWhile (isPlain quote multiLine) pos) :
    readContent src quote multiLine pos =
      { readContent src quote multiLine (pos + word.utf8Encode.size) with
        text := word ++ (readContent src quote multiLine (pos + word.utf8Encode.size)).text } := by
  induction word generalizing pos with
  | nil => simp
  | cons c word ih =>
    rw [Source.size_utf8Encode_cons] at hrun ⊢
    have := c.utf8Size_pos
    obtain ⟨b, hb, hplain⟩ := Source.byteAt_in_run (Nat.le_refl pos)
      (show pos < src.skipWhile (isPlain quote multiLine) pos by omega)
    obtain ⟨hgoes, hslash⟩ := goes_of_isPlain hb hplain
    have hsize := Source.lt_size_of_byteAt hb
    have hend : src.skipWhile (isPlain quote multiLine) (pos + c.utf8Size)
        = src.skipWhile (isPlain quote multiLine) pos :=
      Source.skipWhile_in_run (Nat.le_add_right _ _) (by omega)
    have hrest := ih h.tail (by rw [hend]; omega)
    have hchar : src.charAtD pos = c := by rw [Source.charAtD, h.charAt, Option.getD_some]
    rw [readContent, dif_neg (Nat.not_le.2 hsize), if_neg hgoes, if_neg hslash]
    simp only [hchar]
    rw [hrest, Nat.add_assoc]
    rfl

/-- A plain run taken out in one piece is the same as its characters. -/
lemma readContent_slice (h : src.isBoundary pos) (hlt : pos < src.size) :
    readContent src quote multiLine pos =
      { readContent src quote multiLine (src.skipWhile (isPlain quote multiLine) pos) with
        text := (src.slice pos (src.skipWhile (isPlain quote multiLine) pos)).toList
          ++ (readContent src quote multiLine
            (src.skipWhile (isPlain quote multiLine) pos)).text } := by
  have hstop := Source.isBoundary_skipWhile_not (p := isPlain quote multiLine)
    ascii_of_not_isPlain (Nat.le_of_lt hlt)
  obtain ⟨cs, hcs⟩ := Source.isBoundary_iff.1 h
  obtain ⟨ds, hds⟩ := Source.isBoundary_iff.1 hstop
  obtain ⟨word, rfl, e⟩ := hcs.split hds (src.le_skipWhile _ pos)
  rw [e, hcs.slice, String.toList_ofList]
  exact readContent_run hcs (Nat.le_of_eq e.symm)

/-- Content is taken out between characters only. -/
lemma readContentChecked_eq (h : src.isBoundary pos) :
    readContentChecked src quote multiLine pos = some (readContent src quote multiLine pos) := by
  -- Both go on from each place that the checked loop comes to.
  induction hn : src.size - pos using Nat.strongRecOn generalizing pos with
  | ind n ih =>
    rw [readContentChecked]
    split
    case isTrue hend =>
      rw [readContent, dif_pos hend]
    case isFalse hend =>
      have hlt := Nat.lt_of_not_le hend
      simp only [closesChecked_eq quote multiLine (Nat.le_of_lt hlt), Escape.readChecked_eq,
        Source.suffix?_of_le (Nat.le_of_lt hlt), Option.bind_eq_bind, Option.bind_some]
      split
      case isTrue hgoes =>
        rw [readContent, dif_neg hend, if_pos hgoes]
        rfl
      case isFalse hgoes =>
        split
        case isTrue hslash =>
          have hescape := Escape.lt_stop_read src .text pos
          rw [if_pos hescape, ih _ (by omega) (Escape.isBoundary_read .text (beq_iff_eq.1 hslash)) rfl,
            readContent.eq_def src quote multiLine pos, dif_neg hend, if_neg hgoes, if_pos hslash]
          rfl
        case isFalse hslash =>
          split
          case isTrue hrun =>
            have hstop := Source.isBoundary_skipWhile_not (p := isPlain quote multiLine)
              ascii_of_not_isPlain (Nat.le_of_lt hlt)
            rw [Source.slice?_of_isBoundary h hstop (Nat.le_of_lt hrun), Option.bind_some,
              ih _ (by omega) hstop rfl, readContent_slice h hlt]
            rfl
          case isFalse hrun =>
            obtain ⟨c, hc⟩ := Source.charAt_of_isBoundary h hlt
            have hpos := c.utf8Size_pos
            rw [hc, Option.getD_some, ih _ (by omega) (Source.isBoundary_behind hc) rfl,
              readContent.eq_def src quote multiLine pos, dif_neg hend, if_neg hgoes, if_neg hslash,
              Source.charAtD, hc]
            rfl

lemma readChecked_eq (h : src.isBoundary pos) :
    readChecked src quote multiLine pos = some (read src quote multiLine pos) := by
  have hsize := Source.le_size_of_isBoundary h
  unfold readChecked read
  rw [closesChecked_eq quote multiLine hsize, readContentChecked_eq h]
  simp only [Option.bind_eq_bind, Option.bind_some]
  split
  · rfl
  split
  · rfl
  split
  · rfl
  split <;> rfl

end StringText

namespace CharLiteral

variable {isByte : Bool} {quote : Quote}

lemma readBodyChecked_eq (src : Source) (isByte : Bool) (pos : Nat) :
    readBodyChecked src isByte pos = some (readBody src isByte pos) := by
  have hchar : difference? (pos + (src.charAtD pos).utf8Size) (src.charAtD pos).utf8Size
      = some (pos + (src.charAtD pos).utf8Size - (src.charAtD pos).utf8Size) :=
    difference?_of_le (Nat.le_add_left _ _)
  unfold readBodyChecked
  simp only [Escape.readChecked_eq, hchar, Option.bind_eq_bind, Option.bind_some]
  split
  · rfl
  · split <;> rfl

lemma readLiteralChecked_eq (hquote : src.byteAt (start + 1) = some quote.byte) :
    readLiteralChecked src isByte quote start = some (read src isByte quote start) := by
  have hpos := Source.isBoundary_behind_ascii hquote quote.ascii_byte
  unfold readLiteralChecked
  simp only [hquote, readBodyChecked_eq, Option.bind_eq_bind, Option.bind_some]
  split
  case isTrue hinside =>
    rw [Bool.and_eq_true, Bool.not_eq_true', Bool.or_eq_false_iff, decide_eq_false_iff_not,
      Nat.not_le] at hinside
    have hbody := Source.le_size_of_isBoundary (readBody_stop isByte hpos hinside.1.1).1
    rw [Source.suffix?_of_le hbody]
    split <;> rfl
  case isFalse => rfl

lemma readByteTextChecked_eq (src : Source) (pos : Nat) :
    readByteTextChecked src pos = some (readByteText src pos) := by
  fun_induction readByteText src pos with
  | case1 pos hend => rw [readByteTextChecked, dif_pos hend]
  | case2 pos hend hbreak => rw [readByteTextChecked, dif_neg hend, if_pos hbreak]
  | case3 pos hend hbreak hclose =>
    rw [readByteTextChecked, dif_neg hend, if_neg hbreak, if_pos hclose]
  | case4 pos hend hbreak hclose hslash escape rest ih =>
    rw [readByteTextChecked, dif_neg hend, if_neg hbreak, if_neg hclose, if_pos hslash,
      Escape.readChecked_eq]
    simp only [Option.bind_eq_bind, Option.bind_some, if_pos (Escape.lt_stop_read src .byte pos)]
    rw [ih]
    rfl
  | case5 pos hend hbreak hclose hslash c stop rest hascii ih =>
    rw [readByteTextChecked, dif_neg hend, if_neg hbreak, if_neg hclose, if_neg hslash]
    simp only [Option.bind_eq_bind]
    rw [ih]
    exact if_pos hascii
  | case6 pos hend hbreak hclose hslash c stop rest hascii ih =>
    rw [readByteTextChecked, dif_neg hend, if_neg hbreak, if_neg hclose, if_neg hslash]
    simp only [Option.bind_eq_bind]
    rw [ih]
    exact if_neg hascii

lemma readByteStringChecked_eq (src : Source) (start : Nat) :
    readByteStringChecked src start = some (readByteString src start) := by
  unfold readByteStringChecked
  rw [readByteTextChecked_eq]
  rfl

end CharLiteral

namespace RawString

variable {quote : Quote} {fence : Nat}

lemma closerChecked_eq (h : pos ≤ src.size) :
    closerChecked src quote fence pos = some (closer? src quote fence pos) := by
  fun_induction closer? src quote fence pos with
  | case1 pos hnone =>
    rw [closerChecked, Source.suffix?_of_le h]
    simp only [Option.bind_eq_bind, Option.bind_some]
    split
    case h_1 => rfl
    case h_2 i hi => exact absurd (hi.symm.trans hnone) (Option.some_ne_none i)
  | case2 pos i hi hfence =>
    rw [closerChecked, Source.suffix?_of_le h]
    simp only [Option.bind_eq_bind, Option.bind_some]
    split
    case h_1 hnone => exact absurd (hi.symm.trans hnone) (Option.some_ne_none i)
    case h_2 i' hi' =>
      obtain rfl : i = i' := Option.some.inj (hi.symm.trans hi')
      rw [Source.suffix?_of_le (Source.find?_bounds hi).2, Option.bind_some, if_pos hfence]
      rfl
  | case3 pos i hi hfence ih =>
    rw [closerChecked, Source.suffix?_of_le h]
    simp only [Option.bind_eq_bind, Option.bind_some]
    split
    case h_1 hnone => exact absurd (hi.symm.trans hnone) (Option.some_ne_none i)
    case h_2 i' hi' =>
      obtain rfl : i = i' := Option.some.inj (hi.symm.trans hi')
      rw [Source.suffix?_of_le (Source.find?_bounds hi).2, Option.bind_some, if_neg hfence]
      exact ih (Source.find?_bounds hi).2

/-- What stands between the quotes is taken out. -/
lemma readLiteralChecked_eq (hquote : src.byteAt (start + fence) = some quote.byte) :
    readLiteralChecked src fence quote start = some (read src fence quote start) := by
  have hbody := Source.isBoundary_behind_ascii hquote quote.ascii_byte
  have hsize := Source.le_size_of_isBoundary hbody
  unfold readLiteralChecked
  simp only [closerChecked_eq hsize, Option.bind_eq_bind, Option.bind_some]
  split
  case h_1 found hfound =>
    obtain ⟨hle, hbyte, -⟩ := closer?_found hfound
    rw [Source.slice?_of_isBoundary hbody (Source.isBoundary_of_ascii hbyte quote.ascii_byte) hle]
    rfl
  case h_2 =>
    rw [Source.slice?_of_isBoundary hbody Source.isBoundary_size hsize]
    rfl

lemma readHashChecked_eq (h : start ≤ src.size) :
    readHashChecked src start = some (readHash src start) := by
  unfold readHashChecked readHash
  simp only [Source.suffix?_of_le h, Option.bind_eq_bind, Option.bind_some]
  cases hquote : (src.byteAt (start + hashes src start)).bind Quote.ofByte? with
  | none => rfl
  | some quote =>
    obtain ⟨b, hb, hof⟩ := Option.bind_eq_some_iff.1 hquote
    rw [Quote.byte_of_ofByte? hof] at hb
    exact readLiteralChecked_eq hb

end RawString

/-! ## Any token -/

namespace Lexeme

lemma readCodeChecked_eq (hpos : src.isBoundary pos) (hfirst : src.byteAt pos = some first) :
    readCodeChecked src modes pos first = some (readCode src modes pos first) := by
  have hlt := Source.lt_size_of_byteAt hfirst
  have word :
      (if Word.startsAt src pos then Word.readChecked src pos else readMarkChecked src pos)
        = some (if Word.startsAt src pos then Word.read src pos else readMark src pos) := by
    split
    case isTrue h => exact Word.readChecked_eq h
    case isFalse => exact readMarkChecked_eq (Nat.le_of_lt hlt)
  unfold readCodeChecked readCode
  simp only [Numeral.startsWithPointChecked_eq, Option.bind_eq_bind, Option.bind_some]
  split
  · rfl
  split
  · rfl
  split
  case isTrue h =>
    rw [beq_iff_eq.1 h] at hfirst
    exact Word.readDollarChecked_eq (Source.isBoundary_behind_ascii hfirst (by decide))
  split
  · exact RawString.readHashChecked_eq (Nat.le_of_lt hlt)
  split
  case isTrue h =>
    rw [beq_iff_eq.1 h] at hfirst
    exact Word.readRawChecked_eq (Source.isBoundary_behind_ascii hfirst (by decide))
  split
  case isTrue h => exact Numeral.readChecked_eq hfirst h
  split
  case isTrue h => exact Numeral.withSuffixChecked_eq hpos (Numeral.stands_readPointFirst h)
  cases Quote.ofByte? first with
  | some quote => rfl
  | none =>
    cases hbehind : (src.byteAt (pos + 1)).bind Quote.ofByte? with
    | none => exact word
    | some quote =>
      obtain ⟨b, hb, hquote⟩ := Option.bind_eq_some_iff.1 hbehind
      rw [Quote.byte_of_ofByte? hquote] at hb
      dsimp only
      split
      · exact CharLiteral.readLiteralChecked_eq hb
      split
      · cases quote with
        | single => exact CharLiteral.readLiteralChecked_eq hb
        | double => exact CharLiteral.readByteStringChecked_eq src pos
      · exact word

/-- Inside a character nothing is taken out. -/
lemma readCodeChecked_inside (hfirst : src.byteAt pos = some first) (h : ¬src.isBoundary pos) :
    readCodeChecked src modes pos first = some (readCode src modes pos first) := by
  have hb := Source.not_ascii_of_not_isBoundary hfirst h
  have hdigit : Byte.isDigit first = false :=
    Bool.eq_false_iff.2 fun hd => hb first (Byte.ascii_isDigit first hd) rfl
  have hword : Word.startsAt src pos = false :=
    Bool.eq_false_iff.2 fun hstarts => h (Word.isBoundary_of_startsAt hstarts)
  have hpoint : Numeral.startsWithPoint src pos = false := by
    simp [Numeral.startsWithPoint, hfirst, hb]
  have hmark := readMarkChecked_eq (Nat.le_of_lt (Source.lt_size_of_byteAt hfirst))
  unfold readCodeChecked readCode
  simp only [Numeral.startsWithPointChecked_eq, hpoint, hword, hmark, Option.bind_eq_bind,
    Option.bind_some]
  cases (src.byteAt (pos + 1)).bind Quote.ofByte? with
  | none => simp [hb, hdigit, Quote.ofByte?]
  | some quote => simp [hb, hdigit, Quote.ofByte?]

/-- Reading goes on behind the gap from any place at which the gap ends. -/
lemma readChecked_of_code (hcode : (Mode.top modes).isCode)
    (hgap : Gap.readChecked src pos = some (Gap.read src pos))
    (hread : ∀ first, src.byteAt (Gap.read src pos).stop = some first →
      readCodeChecked src modes (Gap.read src pos).stop first
        = some (readCode src modes (Gap.read src pos).stop first)) :
    readChecked src modes pos = some (read src modes pos) := by
  unfold readChecked read
  cases hmode : Mode.top modes with
  | text => exact nomatch hmode ▸ hcode
  | code =>
    simp only [hgap, Option.bind_eq_bind, Option.bind_some]
    cases hfirst : src.byteAt (Gap.read src pos).stop with
    | none =>
      rw [if_pos (Source.byteAt_eq_none hfirst)]
      rfl
    | some first =>
      rw [if_neg (Nat.not_le.2 (Source.lt_size_of_byteAt hfirst)), Option.bind_some,
        hread first hfirst]
      rfl

end Lexeme

namespace Lexer

/-- Every access of the next step is in range. -/
theorem Sound.scanChecked_eq (h : l.Sound src) : l.scanChecked src = some (l.scan src) := by
  have hread : Lexeme.readChecked src l.modes l.pos = some (Lexeme.read src l.modes l.pos) := by
    by_cases hpos : src.isBoundary l.pos
    · cases hmode : Mode.top l.modes with
      | text quote multiLine =>
        unfold Lexeme.readChecked Lexeme.read
        simp only [hmode, StringText.readChecked_eq hpos]
        rfl
      | code =>
        refine Lexeme.readChecked_of_code (by rw [hmode]; rfl) (Gap.readChecked_eq hpos) ?_
        exact fun first => Lexeme.readCodeChecked_eq (Gap.stop_read hpos).1
    · obtain ⟨hlt, hcode⟩ := h.placed.resolve_left hpos
      obtain ⟨first, hfirst⟩ := Source.byteAt_of_lt hlt
      have hb := Source.not_ascii_of_not_isBoundary hfirst hpos
      have hgap := Gap.read_of_not_ascii hfirst hb
      refine Lexeme.readChecked_of_code hcode ?_ ?_
      · rw [Gap.readChecked_of_byteAt hfirst, hgap]
        simp [Byte.isLineBreak, Byte.isBlank, hb]
      · rw [hgap]
        exact fun first hfirst => Lexeme.readCodeChecked_inside hfirst hpos
  rw [scanChecked, hread]
  rfl

lemma Sound.seekChecked_eq (h : l.Sound src) (pos : Nat) :
    l.seekChecked src pos = some (l.seek src pos) := by
  obtain ⟨braces, hbottom⟩ := h.stacked.bottom
  rw [seekChecked, hbottom]
  rfl

end Lexer

end CangjieSyntax
