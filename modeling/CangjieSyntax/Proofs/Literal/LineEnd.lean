import CangjieSyntax.Proofs.Token.Balance
import CangjieSyntax.Proofs.Token.Change
import CangjieSyntax.Proofs.Token.Tile

/-!
# Literals that end on their line

Runes, bytes, byte strings and strings on one line end with their line: at a line break, or at the
end of the text, a literal that is not closed ends and is reported. Only a backslash takes the line
break behind it into the literal, as an invalid escape, which is reported as well.
-/

namespace CangjieSyntax

variable {src : Source} {pos start stop mid i : Nat} {b : UInt8} {rule : EscapeRule}
  {errors errors' : LexErrors}

/-- Bytes of a class without line breaks. -/
lemma Byte.isLineBreak_eq_false {p : UInt8 → Bool} (hfeed : p 0x0A = false)
    (hreturn : p 0x0D = false) (h : p b) : isLineBreak b = false := by
  rw [Bool.eq_false_iff, Ne, isLineBreak, Bool.or_eq_true, beq_iff_eq, beq_iff_eq]
  rintro (rfl | rfl)
  · exact Bool.false_ne_true (hfeed.symm.trans h)
  · exact Bool.false_ne_true (hreturn.symm.trans h)

/-- The line breaks from `start` up to `stop` stand right behind backslashes, and each of them is
reported as an invalid escape. -/
def Source.EscapesBreaks (src : Source) (start stop : Nat) (errors : LexErrors) : Prop :=
  ∀ i b, start ≤ i → i < stop → src.byteAt i = some b → Byte.isLineBreak b →
    ∃ k, i = k + 1 ∧ start ≤ k ∧ src.byteAt k = some 0x5C
      ∧ (.invalidEscape (Char.ofNat b.toNat), ⟨k, k + 2⟩) ∈ errors

namespace Source.EscapesBreaks

lemma of_none (h : ∀ i b, start ≤ i → i < stop → src.byteAt i = some b →
    Byte.isLineBreak b = false) : src.EscapesBreaks start stop errors := by
  intro i b hle hlt hb hline
  rw [h i b hle hlt hb] at hline
  exact nomatch hline

lemma of_le (h : stop ≤ start) : src.EscapesBreaks start stop errors :=
  of_none fun _ _ _ _ => by omega

/-- A single byte that breaks no line. -/
lemma byte (hb : src.byteAt pos = some b) (hline : Byte.isLineBreak b = false) :
    src.EscapesBreaks pos (pos + 1) errors := by
  refine of_none fun i b' hle hlt hb' => ?_
  obtain rfl : i = pos := by omega
  rwa [← Option.some.inj (hb.symm.trans hb')]

lemma mono (h : src.EscapesBreaks start stop errors) (hsub : errors ⊆ errors') :
    src.EscapesBreaks start stop errors' := by
  intro i b hle hlt hb hline
  obtain ⟨k, e, hk, hslash, hmem⟩ := h i b hle hlt hb hline
  exact ⟨k, e, hk, hslash, hsub hmem⟩

/-- One stretch behind another. -/
lemma trans (h : src.EscapesBreaks start mid errors) (h' : src.EscapesBreaks mid stop errors)
    (hle : start ≤ mid) : src.EscapesBreaks start stop errors := by
  intro i b hi hlt hb hline
  obtain hmid | hmid := Nat.lt_or_ge i mid
  · exact h i b hi hmid hb hline
  · obtain ⟨k, e, hk, hslash, hmem⟩ := h' i b hmid hlt hb hline
    exact ⟨k, e, Nat.le_trans hle hk, hslash, hmem⟩

lemma append (h : src.EscapesBreaks start mid errors) (h' : src.EscapesBreaks mid stop errors')
    (hle : start ≤ mid) : src.EscapesBreaks start stop (errors ++ errors') :=
  (h.mono (List.subset_append_left _ _)).trans (h'.mono (List.subset_append_right _ _)) hle

/-- A run of bytes that break no line. -/
lemma run {p : UInt8 → Bool} (hfeed : p 0x0A = false) (hreturn : p 0x0D = false) :
    src.EscapesBreaks pos (src.skipWhile p pos) errors := by
  refine of_none fun i b hle hlt hb => ?_
  obtain ⟨b', hb', hpb⟩ := byteAt_in_run hle hlt
  rw [Option.some.inj (hb.symm.trans hb')]
  exact Byte.isLineBreak_eq_false hfeed hreturn hpb

/-- A character that breaks no line. -/
lemma char (h : src.isBoundary pos) (hlt : pos < src.size)
    (hline : ¬src.byteIs pos Byte.isLineBreak) :
    src.EscapesBreaks pos (pos + (src.charAtD pos).utf8Size) errors := by
  obtain ⟨c, hc⟩ := charAt_of_isBoundary h hlt
  obtain ⟨cs, hcs⟩ := ahead_of_charAt hc
  rw [charAtD, hc, Option.getD_some]
  refine of_none fun i b' hle hlt hb' => ?_
  obtain rfl | hne := Nat.eq_or_lt_of_le hle
  · rwa [byteIs, hb', Option.any_some, Bool.not_eq_true] at hline
  · have hsize : c.utf8Size ≠ 1 := by omega
    have hbyte := hcs.byteAt (i - pos)
    rw [Nat.add_sub_cancel' hle, hb', encoded_cons,
      List.getElem?_append_left (by rw [String.length_utf8EncodeChar]; omega)] at hbyte
    have hlarge := not_ascii_of_mem_utf8EncodeChar hsize (List.mem_of_getElem? hbyte.symm)
    rw [Bool.eq_false_iff]
    exact fun hline => UInt8.not_lt.2 hlarge (Byte.ascii_isLineBreak b' hline)

end Source.EscapesBreaks

/-! ## Escapes -/

namespace Escape

lemma escapesBreaks_readCodePoint (h : src.byteAt start = some 0x5C)
    (hu : src.byteAt (start + 1) = some 0x75) :
    src.EscapesBreaks start (readCodePoint src rule start).stop errors := by
  have hfront : src.EscapesBreaks start (start + 2) errors :=
    .trans (.byte h rfl) (.byte hu rfl) (Nat.le_succ _)
  unfold readCodePoint
  split
  case isFalse => exact hfront
  case isTrue hopen =>
    have hdigits : src.EscapesBreaks start (src.skipWhile Byte.isHexDigit (start + 3)) errors :=
      (hfront.trans (.byte (beq_iff_eq.1 hopen) rfl) (Nat.le_add_right start 2)).trans
        (.run rfl rfl) (Nat.le_add_right start 3)
    have hend : src.EscapesBreaks start (if src.byteAt (src.skipWhile Byte.isHexDigit (start + 3))
        == some 0x7D then src.skipWhile Byte.isHexDigit (start + 3) + 1
        else src.skipWhile Byte.isHexDigit (start + 3)) errors := by
      split
      case isTrue hclose =>
        have hle := src.le_skipWhile Byte.isHexDigit (start + 3)
        exact hdigits.trans (.byte (beq_iff_eq.1 hclose) rfl) (by omega)
      case isFalse => exact hdigits
    dsimp only
    split
    · exact hend
    · split <;> exact hend

/-- A line break in an escape is what stands behind the backslash. -/
lemma escapesBreaks_read (rule : EscapeRule) (h : src.byteAt start = some 0x5C) :
    src.EscapesBreaks start (read src rule start).stop (read src rule start).error.toList := by
  have hslash {errors : LexErrors} : src.EscapesBreaks start (start + 1) errors := .byte h rfl
  unfold read
  split
  case h_1 => exact hslash
  case h_2 b hb =>
    split
    case isTrue hu =>
      obtain rfl := beq_iff_eq.1 hu
      exact escapesBreaks_readCodePoint h hb
    case isFalse =>
      split
      case h_1 c hc =>
        have hline : Byte.isLineBreak b = false :=
          Byte.isLineBreak_eq_false (p := fun b => (simple? rule b).isSome) rfl rfl
            (Option.isSome_of_eq_some hc)
        exact hslash.trans (.byte hb hline) (Nat.le_succ start)
      case h_2 =>
        cases hline : Byte.isLineBreak b with
        | false =>
          have hnone : ¬src.byteIs (start + 1) Byte.isLineBreak := by
            rw [Source.byteIs, hb, Option.any_some, hline]
            exact Bool.false_ne_true
          exact hslash.trans (.char (Source.isBoundary_behind_ascii h (by decide))
            (Source.lt_size_of_byteAt hb) hnone) (Nat.le_succ start)
        | true =>
          -- The line break is all there is behind the backslash.
          obtain ⟨hc, hsize⟩ := Source.charAt_of_ascii hb (Byte.ascii_isLineBreak b hline)
          rw [Source.charAtD, hc, Option.getD_some]
          dsimp only
          rw [hsize]
          intro i b' hle hlt hb' hline'
          obtain rfl | hne := Nat.eq_or_lt_of_le hle
          · rw [Option.some.inj (hb'.symm.trans h)] at hline'
            exact absurd hline' Bool.false_ne_true
          · obtain rfl : i = start + 1 := by omega
            rw [Option.some.inj (hb'.symm.trans hb)]
            exact ⟨start, rfl, Nat.le_refl _, h, List.mem_singleton_self _⟩

end Escape

/-! ## Literals -/

namespace StringText

/-- Content of a string on one line. -/
lemma escapesBreaks_readContent (quote : Quote) (h : src.isBoundary pos) :
    src.EscapesBreaks pos (readContent src quote false pos).stop
      (readContent src quote false pos).errors := by
  fun_induction readContent src quote false pos with
  | case1 | case2 => exact .of_le (Nat.le_refl _)
  | case3 pos _ _ hslash escape rest ih =>
    have hslash := beq_iff_eq.1 hslash
    exact (Escape.escapesBreaks_read .text hslash).append
      (ih (Escape.isBoundary_read .text hslash)) (Nat.le_of_lt (Escape.lt_stop_read src .text pos))
  | case4 pos hle hgoes _ c rest ih =>
    have hlt := Nat.lt_of_not_le hle
    have hline : ¬src.byteIs pos Byte.isLineBreak := by
      rw [Bool.or_eq_true, not_or] at hgoes
      exact hgoes.2
    exact (Source.EscapesBreaks.char h hlt hline).trans
      (ih (Source.isBoundary_behind_charAtD h hlt)) (Nat.le_add_right _ _)

end StringText

namespace CharLiteral

lemma escapesBreaks_readBody (isByte : Bool) (h : src.isBoundary pos) (hlt : pos < src.size)
    (hline : ¬src.byteIs pos Byte.isLineBreak) :
    src.EscapesBreaks pos (readBody src isByte pos).stop (readBody src isByte pos).errors := by
  unfold readBody
  split
  case isTrue hslash => exact Escape.escapesBreaks_read _ (beq_iff_eq.1 hslash)
  case isFalse => exact .char h hlt hline

/-- The inside of a byte string. -/
lemma escapesBreaks_readByteText (h : src.isBoundary pos) :
    src.EscapesBreaks pos (readByteText src pos).stop (readByteText src pos).errors := by
  fun_induction readByteText src pos with
  | case1 | case2 => exact .of_le (Nat.le_refl _)
  | case3 pos _ _ hclose => exact .byte (beq_iff_eq.1 hclose) rfl
  | case4 pos _ _ _ hslash escape rest ih =>
    have hslash := beq_iff_eq.1 hslash
    exact (Escape.escapesBreaks_read .byte hslash).append
      (ih (Escape.isBoundary_read .byte hslash)) (Nat.le_of_lt (Escape.lt_stop_read src .byte pos))
  | case5 pos hle hline _ _ c stop rest _ ih =>
    have hlt := Nat.lt_of_not_le hle
    exact (Source.EscapesBreaks.char h hlt hline).trans
      (ih (Source.isBoundary_behind_charAtD h hlt)) (Nat.le_add_right _ _)
  | case6 pos hle hline _ _ c stop rest _ ih =>
    have hlt := Nat.lt_of_not_le hle
    have hrest := ih (Source.isBoundary_behind_charAtD h hlt)
    exact (Source.EscapesBreaks.char h hlt hline).trans
      (hrest.mono (List.subset_cons_self _ _)) (Nat.le_add_right _ _)

end CharLiteral

/-- The report of a literal that is not closed. -/
def Kind.unterminated (k : Kind) : LexError :=
  if k = .byteStringLiteral then .unterminatedString else .unterminatedCharLiteral

/-- How a rune, a byte or a byte string goes with its line: all its line breaks are escaped, and it
ends behind its closing quote, or else where the line ends, with a report. -/
structure Lexeme.EndsOnLine (src : Source) (start : Nat) (l : Lexeme) : Prop where
  breaks : src.EscapesBreaks start l.stop l.errors
  closed : l.flags.unterminated = false → start + 2 < l.stop
    ∧ ∃ quote : Quote, src.byteAt (start + 1) = some quote.byte
      ∧ src.byteAt (l.stop - 1) = some quote.byte
  unterminated : l.flags.unterminated →
    src.EndsLine l.stop ∧ (l.kind.unterminated, ⟨start, l.stop⟩) ∈ l.errors

namespace Lexeme.EndsOnLine

variable {l : Lexeme} {quote : Quote}

/-- A literal that ends behind its closing quote. -/
lemma closedBehind (hbreaks : src.EscapesBreaks start mid l.errors) (hle : start + 2 ≤ mid)
    (hquote : src.byteAt (start + 1) = some quote.byte) (hclose : src.byteAt mid = some quote.byte)
    (hstop : l.stop = mid + 1) (hflag : l.flags.unterminated = false) : l.EndsOnLine src start where
  breaks := by
    have hbyte : Byte.isLineBreak quote.byte = false := by cases quote <;> rfl
    rw [hstop]
    exact hbreaks.trans (.byte hclose hbyte) (by omega)
  closed _ := ⟨by omega, quote, hquote, by rw [hstop]; exact hclose⟩
  unterminated h := absurd (hflag.symm.trans h) Bool.false_ne_true

/-- A literal that ends with its line. -/
lemma openAt (hbreaks : src.EscapesBreaks start l.stop l.errors) (hline : src.EndsLine l.stop)
    (hmem : (l.kind.unterminated, ⟨start, l.stop⟩) ∈ l.errors) (hflag : l.flags.unterminated) :
    l.EndsOnLine src start where
  breaks := hbreaks
  closed h := absurd (h.symm.trans hflag) Bool.false_ne_true
  unterminated _ := ⟨hline, hmem⟩

end Lexeme.EndsOnLine

namespace CharLiteral

variable {isByte : Bool} {quote : Quote}

/-- A letter and a quote break no line. -/
lemma escapesBreaks_front (hfirst : src.byteAt start = some b) (hline : Byte.isLineBreak b = false)
    (hquote : src.byteAt (start + 1) = some quote.byte) :
    src.EscapesBreaks start (start + 2) errors := by
  have hbyte : Byte.isLineBreak quote.byte = false := by cases quote <;> rfl
  exact .trans (.byte hfirst hline) (.byte hquote hbyte) (Nat.le_succ start)

lemma endsOnLine_read (hfirst : src.byteAt start = some b) (hline : Byte.isLineBreak b = false)
    (hquote : src.byteAt (start + 1) = some quote.byte) :
    (read src isByte quote start).EndsOnLine src start := by
  have hfront {errors : LexErrors} : src.EscapesBreaks start (start + 2) errors :=
    escapesBreaks_front hfirst hline hquote
  have hpos : src.isBoundary (start + 2) := Source.isBoundary_behind_ascii hquote quote.ascii_byte
  have hmem {stop : Nat} {errors : LexErrors}
      (h : (.unterminatedCharLiteral, ⟨start, stop⟩) ∈ errors) :
      ((if isByte then Kind.byteLiteral else .runeLiteral).unterminated, ⟨start, stop⟩) ∈ errors := by
    cases isByte <;> exact h
  unfold read
  dsimp only
  split
  case isTrue hend =>
    refine .openAt hfront ?_ (hmem (List.mem_singleton_self _)) rfl
    rw [Bool.or_eq_true, decide_eq_true_eq] at hend
    exact hend.elim .of_size_le .of_byteIs
  case isFalse hinside =>
    rw [Bool.or_eq_true, not_or, decide_eq_true_eq, Nat.not_le] at hinside
    split
    case isTrue hempty =>
      exact .closedBehind hfront (Nat.le_refl _) hquote (beq_iff_eq.1 hempty) rfl rfl
    case isFalse =>
      have hlt := (readBody_stop isByte hpos hinside.1).2
      have hbody := hfront.trans (escapesBreaks_readBody isByte hpos hinside.1 hinside.2)
        (Nat.le_add_right start 2)
      split
      case isTrue hclose =>
        exact .closedBehind hbody (Nat.le_of_lt hlt) hquote (beq_iff_eq.1 hclose) rfl rfl
      case isFalse =>
        have hrun := hbody.trans
          (Source.EscapesBreaks.run (p := fun b => !(b == quote.byte || Byte.isLineBreak b))
            (by cases quote <;> rfl) (by cases quote <;> rfl)) (by omega)
        have hle := src.le_skipWhile (fun b => !(b == quote.byte || Byte.isLineBreak b))
          (readBody src isByte (start + 2)).stop
        split
        case isTrue hfound =>
          exact .closedBehind (hrun.mono (List.subset_append_left _ _)) (by omega) hquote
            (beq_iff_eq.1 hfound) rfl rfl
        case isFalse hnone =>
          refine .openAt (hrun.mono (List.subset_append_left _ _)) (fun b hb => ?_)
            (hmem (List.mem_append_right _ (List.mem_singleton_self _))) rfl
          have hends := Source.byteAt_skipWhile hb
          rw [Bool.not_eq_false', Bool.or_eq_true, beq_iff_eq] at hends
          refine hends.resolve_left fun e => hnone ?_
          rw [e] at hb
          exact beq_iff_eq.2 hb

/-- A byte string ends behind its quote, or else with its line. -/
lemma readByteText_ends : ((readByteText src pos).closed → pos < (readByteText src pos).stop
      ∧ src.byteAt ((readByteText src pos).stop - 1) = some 0x22)
    ∧ ((readByteText src pos).closed = false → src.EndsLine (readByteText src pos).stop) := by
  fun_induction readByteText src pos with
  | case1 pos hle =>
    exact ⟨(absurd · Bool.false_ne_true), fun _ => .of_size_le hle⟩
  | case2 pos _ hline => exact ⟨(absurd · Bool.false_ne_true), fun _ => .of_byteIs hline⟩
  | case3 pos _ _ hclose =>
    exact ⟨fun _ => ⟨Nat.lt_succ_self pos, beq_iff_eq.1 hclose⟩, (absurd · Bool.false_ne_true.symm)⟩
  | case4 pos _ _ _ _ escape rest ih =>
    have hlt := Escape.lt_stop_read src .byte pos
    exact ⟨fun hclosed => (ih.1 hclosed).imp_left hlt.trans, ih.2⟩
  | case5 pos _ _ _ _ c stop rest _ ih | case6 pos _ _ _ _ c stop rest _ ih =>
    have hlt : pos < stop := Nat.lt_add_of_pos_right c.utf8Size_pos
    exact ⟨fun hclosed => (ih.1 hclosed).imp_left hlt.trans, ih.2⟩

lemma endsOnLine_readByteString (hfirst : src.byteAt start = some b)
    (hline : Byte.isLineBreak b = false) (hquote : src.byteAt (start + 1) = some 0x22) :
    (readByteString src start).EndsOnLine src start := by
  have hpos : src.isBoundary (start + 2) := Source.isBoundary_behind_ascii hquote (by decide)
  have hfront := @escapesBreaks_front src start b (readByteText src (start + 2)).errors .double
    hfirst hline hquote
  have hbreaks := hfront.trans (escapesBreaks_readByteText hpos) (Nat.le_add_right start 2)
  obtain ⟨hclosed, hopen⟩ := @readByteText_ends src (start + 2)
  unfold readByteString
  dsimp only
  cases hends : (readByteText src (start + 2)).closed with
  | true =>
    obtain ⟨hlt, hclose⟩ := hclosed hends
    exact ⟨hbreaks, fun _ => ⟨hlt, .double, hquote, hclose⟩, (absurd · Bool.false_ne_true)⟩
  | false =>
    exact .openAt (hbreaks.mono (List.subset_append_left _ _)) (hopen hends)
      (List.mem_append_right _ (List.mem_singleton_self _)) rfl

end CharLiteral

/-! ## Tokens -/

namespace Lexeme

variable {modes : List Mode} {first : UInt8} {quote : Quote}

/-- Runes, bytes and byte strings in code. -/
lemma endsOnLine_readCode (hfirst : src.byteAt pos = some first)
    (h : (readCode src modes pos first).kind.isChar) :
    (readCode src modes pos first).EndsOnLine src pos
      ∧ (readCode src modes pos first).change = .stay := by
  obtain ⟨hother, -⟩ | ⟨-, e⟩ | ⟨-, -, e⟩ | ⟨isByte, quote, hletter, hquote, e⟩
    | ⟨hletter, hquote, e⟩ := readCode_literal_cases src modes pos first
  · rw [hother] at h
    exact nomatch h
  · rw [e] at h
    exact absurd h (by rw [Numeral.read, Numeral.isChar_withSuffix]; exact Bool.false_ne_true)
  · rw [e, Numeral.isChar_withSuffix] at h
    exact nomatch h
  · have hline : Byte.isLineBreak first = false := by
      rw [hletter]
      cases isByte <;> rfl
    rw [e]
    exact ⟨CharLiteral.endsOnLine_read hfirst hline hquote, (plain_charLiteral isByte quote).change⟩
  · have hline : Byte.isLineBreak first = false := by
      rw [hletter]
      rfl
    rw [e]
    exact ⟨CharLiteral.endsOnLine_readByteString hfirst hline hquote, plain_byteString.change⟩

/-- Content is no token of code. -/
lemma readCode_ne_content (hfirst : src.byteAt pos = some first) :
    (readCode src modes pos first).kind ≠ .stringContent := by
  obtain ⟨-, e⟩ | ⟨-, e⟩ | ⟨quote, -, e⟩ | hplain := @readCode_cases src modes pos first hfirst
  · rw [e]
    exact Kind.noConfusion
  · rw [e, closeBrace]
    split <;> exact Kind.noConfusion
  · rw [e, StringText.readStart]
    split <;> exact Kind.noConfusion
  · intro hkind
    have hplain := hplain.kind
    rw [hkind] at hplain
    exact absurd hplain (by decide)

/-- A piece of content, as it is read. -/
lemma content_inv {multiLine : Bool}
    (h : (StringText.read src quote multiLine pos).kind = .stringContent) :
    (StringText.read src quote multiLine pos).stop
        = (StringText.readContent src quote multiLine pos).stop
      ∧ (StringText.read src quote multiLine pos).errors
        = (StringText.readContent src quote multiLine pos).errors
      ∧ (StringText.read src quote multiLine pos).change = .stay := by
  unfold StringText.read at h ⊢
  dsimp only at h ⊢
  split at h
  case isTrue => exact nomatch h
  case isFalse hsize =>
    split at h
    case isTrue => exact nomatch h
    case isFalse hcloses =>
      split at h
      case isTrue => exact nomatch h
      case isFalse hhole =>
        split at h
        case isTrue => exact nomatch h
        case isFalse hbreak =>
          rw [if_neg hsize, if_neg hcloses, if_neg hhole, if_neg hbreak]
          exact ⟨rfl, rfl, rfl⟩

/-- A string on one line ends at a line break. -/
lemma read_of_lineBreak (h : src.byteIs pos Byte.isLineBreak) :
    StringText.read src quote false pos = StringText.unterminated pos := by
  obtain ⟨b, hb, hline⟩ := Source.byteIs_iff.1 h
  have hquote : (some b == some quote.byte) = false := by
    rw [beq_eq_false_iff_ne]
    rintro ⟨⟩
    cases quote <;> exact nomatch hline
  have hdollar : (some b == some 0x24) = false := by
    rw [beq_eq_false_iff_ne]
    rintro ⟨⟩
    exact nomatch hline
  have hlt := Source.lt_size_of_byteAt hb
  simp [StringText.read, StringText.closes, StringText.opensHole, StringText.breaksOff, hb, hquote,
    hdollar, h, Nat.not_le.2 hlt]

end Lexeme

namespace Lexer

variable {l m last : Lexer} {states : List Lexer}

/-- Whether the current token belongs to a literal that should end on its line. -/
def IsOnLine (m : Lexer) : Prop :=
  m.kind.isChar ∨ m.kind = .stringContent ∧ ∃ quote, Mode.top m.modes = .text quote false

/-- How literals go with their lines, in the state behind a token. -/
structure EndsOnLine (src : Source) (m : Lexer) : Prop where
  /-- A line break in a literal is escaped, and reported. -/
  breaks : m.IsOnLine → ∀ i b, m.start ≤ i → i < m.pos → src.byteAt i = some b →
    Byte.isLineBreak b → ∃ k, i = k + 1 ∧ m.start ≤ k ∧ src.byteAt k = some 0x5C
      ∧ (LexError.invalidEscape (Char.ofNat b.toNat)).diagnostic ⟨k, 2⟩ ∈ m.log
  /-- A rune, a byte or a byte string ends behind its closing quote. -/
  closed : m.kind.isChar → m.flags.unterminated = false → m.start + 2 < m.pos
    ∧ ∃ quote : Quote, src.byteAt (m.start + 1) = some quote.byte
      ∧ src.byteAt (m.pos - 1) = some quote.byte
  /-- Without its quote it ends with the line, and is reported. -/
  unterminated : m.kind.isChar → m.flags.unterminated →
    src.EndsLine m.pos ∧ m.kind.unterminated.diagnostic m.span ∈ m.log
  /-- Code follows in either case. -/
  code : m.kind.isChar → (Mode.top m.modes).isCode
  /-- A string on one line ends in front of a line break, and is reported. Code follows. -/
  broken : ∀ quote, Mode.top m.modes = .text quote false → src.byteIs m.pos Byte.isLineBreak →
    m.scan src = m.accept m.pos (StringText.unterminated m.pos)
      ∧ (Mode.top (m.scan src).modes).isCode

lemma mem_log_accept {lexeme : Lexeme} {e : LexError × Bounds} (h : e ∈ lexeme.errors) :
    e.1.diagnostic e.2.span ∈ (l.accept start lexeme).log := by
  rw [accept, ← Array.mem_toList_iff, Array.toList_appendList]
  exact List.mem_append_right _ (List.mem_map_of_mem h)

/-- What is known of line breaks carries over to a log. -/
lemma breaks_of_escapesBreaks {log : Log} (h : src.EscapesBreaks start stop errors)
    (hlog : ∀ e ∈ errors, e.1.diagnostic e.2.span ∈ log) (i : Nat) (b : UInt8) (hle : start ≤ i)
    (hlt : i < stop) (hb : src.byteAt i = some b) (hline : Byte.isLineBreak b) :
    ∃ k, i = k + 1 ∧ start ≤ k ∧ src.byteAt k = some 0x5C
      ∧ (LexError.invalidEscape (Char.ofNat b.toNat)).diagnostic ⟨k, 2⟩ ∈ log := by
  obtain ⟨k, rfl, hk, hslash, hmem⟩ := h i b hle hlt hb hline
  have hspan : (Bounds.mk k (k + 2)).span = ⟨k, 2⟩ := by
    rw [Bounds.span, Span.ofBounds, Nat.add_sub_cancel_left]
  exact ⟨k, rfl, hk, hslash, hspan ▸ hlog _ hmem⟩

/-- A string on one line ends in front of a line break. -/
lemma Sound.broken (h : m.Sound src) (quote : Quote) (hmode : Mode.top m.modes = .text quote false)
    (hline : src.byteIs m.pos Byte.isLineBreak) :
    m.scan src = m.accept m.pos (StringText.unterminated m.pos)
      ∧ (Mode.top (m.scan src).modes).isCode := by
  have hscan : m.scan src = m.accept m.pos (StringText.unterminated m.pos) := by
    rw [scan_of_text hmode, Lexeme.read_of_lineBreak hline]
  refine ⟨hscan, ?_⟩
  rw [hscan]
  exact h.stacked.isCode_tail (by rw [hmode]; rfl)

/-- Of a token that is no rune and no byte, only its line breaks matter, and those behind it. -/
lemma Sound.endsOnLine_of_not_isChar (h : m.Sound src) (hchar : m.kind.isChar = false)
    (hbreaks : ∀ quote, m.kind = .stringContent → Mode.top m.modes = .text quote false →
      ∃ errors, src.EscapesBreaks m.start m.pos errors
        ∧ ∀ e ∈ errors, e.1.diagnostic e.2.span ∈ m.log) : m.EndsOnLine src := by
  have hnone : ¬m.kind.isChar := by
    rw [hchar]
    exact Bool.false_ne_true
  refine ⟨?_, fun h => absurd h hnone, fun h => absurd h hnone, fun h => absurd h hnone, h.broken⟩
  rintro (h | ⟨hcontent, quote, htop⟩)
  · exact absurd h hnone
  · obtain ⟨errors, hescapes, hlog⟩ := hbreaks quote hcontent htop
    exact breaks_of_escapesBreaks hescapes hlog

/-- A token of a string. -/
lemma endsOnLine_text {quote : Quote} {multiLine : Bool} (h : l.Sound src)
    (hpos : src.isBoundary l.pos) (hmode : Mode.top l.modes = .text quote multiLine) :
    (l.scan src).EndsOnLine src := by
  have hscan : l.scan src = _ := scan_of_text hmode
  refine h.advances.sound.endsOnLine_of_not_isChar ?_ fun quote' hcontent htop => ?_
  · rw [hscan]
    exact Lexeme.not_isChar_stringText quote multiLine
  · rw [hscan] at hcontent htop ⊢
    obtain ⟨hstop, herrors, hchange⟩ := Lexeme.content_inv hcontent
    change Mode.top ((StringText.read src quote multiLine l.pos).change.apply l.modes) = _ at htop
    rw [hchange] at htop
    obtain ⟨rfl, rfl⟩ := Mode.text.inj (hmode.symm.trans htop)
    have hescapes := StringText.escapesBreaks_readContent quote hpos
    rw [← hstop, ← herrors] at hescapes
    exact ⟨_, hescapes, fun _ => mem_log_accept⟩

/-- A token of code. -/
lemma endsOnLine_code (h : l.Sound src) (hcode : (Mode.top l.modes).isCode) :
    (l.scan src).EndsOnLine src := by
  have hsound := h.advances.sound
  obtain ⟨lexeme, e, ⟨-, rfl⟩ | ⟨first, hfirst, rfl⟩⟩ := scan_of_code src hcode
  · have hkind : (l.scan src).kind = .endOfFile := by
      rw [e]
      exact Lexeme.endOfFile_kind
    refine hsound.endsOnLine_of_not_isChar (by rw [hkind]; rfl) fun quote hcontent => ?_
    exact nomatch hkind.symm.trans hcontent
  · cases hchar : (l.scan src).kind.isChar with
    | false =>
      refine hsound.endsOnLine_of_not_isChar hchar fun quote hcontent => ?_
      rw [e] at hcontent
      exact absurd hcontent (Lexeme.readCode_ne_content hfirst)
    | true =>
      have hlog : ∀ e ∈ (Lexeme.readCode src l.modes (Gap.read src l.pos).stop first).errors,
          e.1.diagnostic e.2.span ∈ (l.scan src).log := by
        intro error herror
        rw [e]
        exact mem_log_accept (List.mem_append_right _ herror)
      rw [e] at hchar hlog hsound ⊢
      obtain ⟨hends, hstay⟩ := Lexeme.endsOnLine_readCode hfirst hchar
      refine ⟨fun _ => breaks_of_escapesBreaks hends.breaks hlog, fun _ => hends.closed,
        fun _ hopen => ?_, fun _ => ?_, hsound.broken⟩
      · obtain ⟨hline, hmem⟩ := hends.unterminated hopen
        exact ⟨hline, hlog _ hmem⟩
      · change (Mode.top ((Lexeme.readCode src l.modes _ first).change.apply l.modes)).isCode
        rw [hstay]
        exact hcode

/-- In every scan of a text the literals go with their lines: a line break in one is escaped and
reported, and otherwise the literal ends with its line, with a report, and code follows. -/
theorem Scans.endsOnLine (h : l.Sound src) (hpos : src.isBoundary l.pos)
    (hscans : Scans src l states last) : ∀ m ∈ states, m.EndsOnLine src := by
  have step {l : Lexer} (h : l.Sound src) (hpos : src.isBoundary l.pos) :
      (l.scan src).EndsOnLine src := by
    cases hmode : Mode.top l.modes with
    | text => exact endsOnLine_text h hpos hmode
    | code => exact endsOnLine_code h (by rw [hmode]; rfl)
  induction hscans with
  | last => exact List.forall_mem_singleton.2 (step h hpos)
  | next _ _ ih =>
    obtain ⟨hadvances, hfollows⟩ := advances_of_isBoundary h hpos
    exact List.forall_mem_cons.2 ⟨step h hpos, ih hadvances.sound hfollows.boundary⟩

end Lexer

-- A line break behind a backslash is part of a string, and the string goes on behind it.
example : ((Lexer.ofSource (.ofString "\"a\\\nb")).scanAll
      (.ofString "\"a\\\nb")).1.map (fun t => (t.1.kind, t.1.span))
    = [(.stringStart, ⟨0, 1⟩), (.stringContent, ⟨1, 4⟩), (.stringEnd, ⟨5, 0⟩),
      (.endOfFile, ⟨5, 0⟩)] := by
  decide +kernel

end CangjieSyntax
