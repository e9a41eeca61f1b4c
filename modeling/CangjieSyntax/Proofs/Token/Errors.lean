import CangjieSyntax.Proofs.Token.Scan

/-!
# The places of lexical errors

The bounds of a lexical error are found while its token is read: the start of the token or of an
escape, and whatever offset the reading has come to. In front of a token that starts between
characters they are in order, and they lie between characters as well.
-/

namespace CangjieSyntax

variable {src : Source} {modes : List Mode} {pos start stop i : Nat} {b first : UInt8}

/-- Bounds in order, both of them between characters of the text. -/
structure Bounds.Valid (src : Source) (b : Bounds) : Prop where
  start : src.isBoundary b.start
  stop : src.isBoundary b.stop
  ordered : b.start ≤ b.stop

/-- A span inside the text whose ends lie between characters. -/
structure Span.Valid (src : Source) (s : Span) : Prop where
  ordered : s.start ≤ s.stop
  inside : s.stop ≤ src.size
  start : src.isBoundary s.start
  stop : src.isBoundary s.stop

lemma Span.start_le_stop (s : Span) : s.start ≤ s.stop :=
  Nat.le_add_right _ _

namespace Span.Valid

lemma of_isBoundary {s : Span} (hstart : src.isBoundary s.start) (hstop : src.isBoundary s.stop) :
    s.Valid src :=
  ⟨s.start_le_stop, Source.le_size_of_isBoundary hstop, hstart, hstop⟩

lemma empty (h : src.isBoundary pos) : (Span.empty pos).Valid src :=
  of_isBoundary h h

/-- Even bounds in the wrong order give a valid span. -/
lemma ofBounds (hstart : src.isBoundary start) (hstop : src.isBoundary stop) :
    (Span.ofBounds start stop).Valid src := by
  refine of_isBoundary hstart ?_
  obtain h | h := Nat.le_total start stop
  · rw [Span.stop_ofBounds h]
    exact hstop
  · rw [Span.ofBounds, Span.stop, Nat.sub_eq_zero_of_le h]
    exact hstart

end Span.Valid

lemma Bounds.Valid.span {b : Bounds} (h : b.Valid src) : b.span.Valid src :=
  .ofBounds h.start h.stop

/-- All places that a report marks are valid. -/
def Diagnostic.Valid (src : Source) (d : Diagnostic) : Prop :=
  ∀ label ∈ d.labels, label.1.Valid src

/-- A report without related ones marks its own place only. -/
lemma Diagnostic.Valid.of_span {d : Diagnostic} (h : d.span.Valid src) (hrelated : d.related = []) :
    d.Valid src := by
  intro label hlabel
  rw [labels, hrelated] at hlabel
  rw [List.mem_singleton.1 hlabel]
  exact h

/-- All errors are at valid places. -/
def LexErrors.Valid (src : Source) (errors : LexErrors) : Prop :=
  ∀ e ∈ errors, e.2.Valid src

namespace LexErrors.Valid

variable {errors rest : LexErrors} {e : LexError}

lemma nil : Valid src [] :=
  fun _ h => nomatch h

lemma single {b : Bounds} (hb : b.Valid src) : Valid src [(e, b)] := by
  intro e' he'
  rw [List.mem_singleton.1 he']
  exact hb

lemma append (h : Valid src errors) (hrest : Valid src rest) : Valid src (errors ++ rest) :=
  fun e he => (List.mem_append.1 he).elim (h e) (hrest e)

lemma cons {b : Bounds} (hb : b.Valid src) (hrest : Valid src rest) : Valid src ((e, b) :: rest) :=
  append (single hb) hrest

/-- An error that is found on a condition. -/
lemma ite_single {c : Prop} [Decidable c] {b : Bounds} (hb : b.Valid src) :
    Valid src (if c then [] else [(e, b)]) := by
  split
  · exact nil
  · exact single hb

end LexErrors.Valid

/-! ## Words, marks and numbers -/

lemma Word.errors_readRaw (hfirst : src.byteAt pos = some 0x60) :
    (readRaw src pos).errors.Valid src := by
  have hpos := Source.isBoundary_of_ascii hfirst (by decide)
  have hbehind := Source.isBoundary_behind_ascii hfirst (by decide)
  have hstop : src.isBoundary (if startsAt src (pos + 1) then skip src (pos + 1) else pos + 1) := by
    split
    · exact isBoundary_skip hbehind
    · exact hbehind
  have hle : pos ≤ if startsAt src (pos + 1) then skip src (pos + 1) else pos + 1 := by
    have := le_skip src (pos + 1)
    split <;> omega
  unfold readRaw
  dsimp only
  generalize (if startsAt src (pos + 1) then skip src (pos + 1) else pos + 1) = stop at hstop hle
  split
  · exact .nil
  · exact .single ⟨hpos, hstop, hle⟩

lemma Word.errors_read : (read src pos).errors.Valid src := by
  unfold read
  dsimp only
  split
  · exact .nil
  · split <;> exact .nil

lemma Word.errors_readDollar : (readDollar src pos).errors.Valid src := by
  unfold readDollar
  split <;> exact .nil

lemma Lexeme.errors_readMark (hpos : src.isBoundary pos) : (readMark src pos).errors.Valid src := by
  unfold readMark
  split
  · exact .nil
  · split
    case h_1 c hc =>
      exact .single ⟨hpos, Source.isBoundary_behind hc, Nat.le_add_right _ _⟩
    case h_2 => exact .nil

namespace Numeral

lemma errors_readBased (base : Base) (hstart : src.isBoundary start)
    (h : src.isBoundary (start + 2)) : (readBased src start base).errors.Valid src := by
  have hwhole := isBoundary_skipDigits base.ascii_isDigit h
  have hle := le_skipDigits src base.isDigit (start + 2)
  have missing : Bounds.Valid src ⟨start, skipDigits src base.isDigit (start + 2)⟩ :=
    ⟨hstart, hwhole, by dsimp only; omega⟩
  unfold readBased
  dsimp only
  split
  · split
    · exact .nil
    · exact .ite_single missing
  · split
    · refine .append (.ite_single missing) (.single ⟨hwhole, ?_, ?_⟩)
      · exact isBoundary_skipDigits Byte.ascii_isDigit hwhole
      · exact le_skipDigits src Byte.isDigit _
    · exact .ite_single missing

lemma errors_readDecimal : (readDecimal src start).errors.Valid src := by
  unfold readDecimal
  dsimp only
  split
  · exact .nil
  · split <;> exact .nil

lemma errors_withSuffix {body : Body} (hbody : body.Stands src start)
    (h : body.errors.Valid src) : (withSuffix src start body).errors.Valid src := by
  unfold withSuffix
  dsimp only
  generalize (if body.isFloat then floatSuffixes else integerSuffixes) = suffixes
  split
  · split
    · exact h
    · refine h.append (.single ⟨hbody.boundary, ?_, ?_⟩)
      · exact Source.isBoundary_skipChars hbody.boundary
      · exact src.le_skipChars Unicode.isIdentifierPart body.stop
  · exact h

lemma errors_read (hfirst : src.byteAt start = some first) (hdigit : Byte.isDigit first) :
    (read src start).errors.Valid src := by
  refine errors_withSuffix (stands_body hfirst hdigit) ?_
  split
  case h_1 base hbase =>
    split at hbase
    · obtain ⟨b, hb, hbase⟩ := Option.bind_eq_some_iff.1 hbase
      exact errors_readBased base (Source.isBoundary_of_ascii hfirst (Byte.ascii_isDigit first hdigit))
        (Source.isBoundary_behind_ascii hb (Base.ascii_of_ofByte? hbase))
    · exact nomatch hbase
  case h_2 => exact errors_readDecimal

end Numeral

/-! ## Strings, runes and bytes -/

namespace Escape

variable {rule : EscapeRule}

/-- An error in an escape is reported from its backslash to its end. -/
lemma bounds_of_error {e : LexError × Bounds} (h : (read src rule start).error = some e) :
    e.2 = ⟨start, (read src rule start).stop⟩ := by
  unfold read at h ⊢
  split at h
  · exact absurd h.symm (Option.some_ne_none e)
  · split at h
    case isTrue hcode =>
      rw [if_pos hcode]
      unfold readCodePoint at h ⊢
      dsimp only at h ⊢
      split at h
      case isTrue hbrace =>
        rw [if_pos hbrace]
        split at h
        case isTrue hbad =>
          rw [if_pos hbad]
          cases h
          rfl
        case isFalse hgood =>
          rw [if_neg hgood]
          split at h
          · exact absurd h.symm (Option.some_ne_none e)
          case isFalse hinvalid =>
            rw [if_neg hinvalid]
            cases h
            rfl
      case isFalse hbrace =>
        rw [if_neg hbrace]
        cases h
        rfl
    case isFalse hcode =>
      rw [if_neg hcode]
      split at h
      · exact absurd h.symm (Option.some_ne_none e)
      · cases h
        rfl

lemma errors_read (rule : EscapeRule) (h : src.byteAt start = some 0x5C) :
    LexErrors.Valid src (read src rule start).error.toList := by
  intro e he
  rw [bounds_of_error (Option.mem_toList.1 he)]
  exact ⟨Source.isBoundary_of_ascii h (by decide), isBoundary_read rule h,
    Nat.le_of_lt (lt_stop_read src rule start)⟩

end Escape

namespace StringText

variable {quote : Quote} {multiLine : Bool}

lemma errors_readContent (h : src.isBoundary pos) :
    (readContent src quote multiLine pos).errors.Valid src := by
  fun_induction readContent src quote multiLine pos with
  | case1 | case2 => exact .nil
  | case3 pos _ _ hslash escape rest ih =>
    have hslash := beq_iff_eq.1 hslash
    exact (Escape.errors_read .text hslash).append (ih (Escape.isBoundary_read .text hslash))
  | case4 pos hlt _ _ c rest ih =>
    exact ih (Source.isBoundary_behind_charAtD h (Nat.lt_of_not_le hlt))

lemma errors_read (quote : Quote) (multiLine : Bool) (h : src.isBoundary pos) :
    (read src quote multiLine pos).errors.Valid src := by
  have broken : (unterminated pos).errors.Valid src := .single ⟨h, h, Nat.le_refl pos⟩
  unfold read
  split
  · exact broken
  split
  · exact .nil
  split
  · exact .nil
  split
  · exact broken
  · exact errors_readContent h

lemma errors_readStart : (readStart src quote pos).errors.Valid src := by
  unfold readStart
  split <;> exact .nil

end StringText

namespace CharLiteral

variable {isByte : Bool} {quote : Quote}

lemma errors_readBody (h : src.isBoundary pos) (hlt : pos < src.size) :
    (readBody src isByte pos).errors.Valid src := by
  unfold readBody
  split
  case isTrue hslash => exact Escape.errors_read _ (beq_iff_eq.1 hslash)
  case isFalse =>
    dsimp only
    split
    · exact .single ⟨h, Source.isBoundary_behind_charAtD h hlt, Nat.le_add_right _ _⟩
    · exact .nil

lemma errors_read (hstart : src.isBoundary start) (hquote : src.byteAt (start + 1) = some quote.byte) :
    (read src isByte quote start).errors.Valid src := by
  have hpos : src.isBoundary (start + 2) := Source.isBoundary_behind_ascii hquote quote.ascii_byte
  -- Each report is about the literal up to where it ends.
  have whole (hstands : (read src isByte quote start).Stands src [] start) :
      Bounds.Valid src ⟨start, (read src isByte quote start).stop⟩ :=
    ⟨hstart, hstands.boundary, hstands.moves.elim Nat.le_of_lt fun h => h.1.ge⟩
  have whole := whole (stands_read hquote)
  unfold read at whole ⊢
  dsimp only at whole ⊢
  split
  case isTrue hinside =>
    rw [if_pos hinside] at whole
    exact .single whole
  case isFalse hinside =>
    rw [if_neg hinside] at whole
    rw [Bool.or_eq_true, not_or, decide_eq_true_eq, Nat.not_le] at hinside
    have body : (readBody src isByte (start + 2)).errors.Valid src := errors_readBody hpos hinside.1
    split
    case isTrue hempty =>
      rw [if_pos hempty] at whole
      exact .single whole
    case isFalse hempty =>
      rw [if_neg hempty] at whole
      split
      · exact body
      case isFalse hclose =>
        rw [if_neg hclose] at whole
        split
        case isTrue hfound =>
          rw [if_pos hfound] at whole
          exact body.append (.single whole)
        case isFalse hfound =>
          rw [if_neg hfound] at whole
          exact body.append (.single whole)

lemma errors_readByteText (h : src.isBoundary pos) : (readByteText src pos).errors.Valid src := by
  fun_induction readByteText src pos with
  | case1 | case2 | case3 => exact .nil
  | case4 pos _ _ _ hslash escape rest ih =>
    have hslash := beq_iff_eq.1 hslash
    exact (Escape.errors_read .byte hslash).append (ih (Escape.isBoundary_read .byte hslash))
  | case5 pos hlt _ _ _ c stop rest _ ih =>
    exact ih (Source.isBoundary_behind_charAtD h (Nat.lt_of_not_le hlt))
  | case6 pos hlt _ _ _ c stop rest _ ih =>
    have hstop := Source.isBoundary_behind_charAtD h (Nat.lt_of_not_le hlt)
    exact .cons ⟨h, hstop, Nat.le_add_right _ _⟩ (ih hstop)

lemma errors_readByteString (hstart : src.isBoundary start)
    (hquote : src.byteAt (start + 1) = some 0x22) : (readByteString src start).errors.Valid src := by
  have hpos : src.isBoundary (start + 2) := Source.isBoundary_behind_ascii hquote (by decide)
  obtain ⟨hstop, hle⟩ := readByteText_stop hpos
  have body := errors_readByteText hpos
  unfold readByteString
  dsimp only
  split
  · exact body
  · exact body.append (.single ⟨hstart, hstop, by dsimp only; omega⟩)

end CharLiteral

lemma RawString.errors_readHash (hfirst : src.byteAt start = some 0x23) :
    (readHash src start).errors.Valid src := by
  have hstart := Source.isBoundary_of_ascii hfirst (by decide)
  unfold readHash
  dsimp only
  split
  case h_1 quote hquote =>
    obtain ⟨b, hb, hquote⟩ := Option.bind_eq_some_iff.1 hquote
    unfold read
    dsimp only
    split
    · exact .nil
    · refine .single ?_
      split
      case h_1 found hfound =>
        obtain ⟨-, hbyte, -⟩ := closer?_found hfound
        have hbehind := Source.isBoundary_behind_ascii hbyte quote.ascii_byte
        exact ⟨Source.isBoundary_of_ascii hbyte quote.ascii_byte,
          isBoundary_behind_hashes hbehind (Nat.le_refl _), by dsimp only; omega⟩
      case h_2 =>
        rw [Quote.byte_of_ofByte? hquote] at hb
        exact ⟨hstart, Source.isBoundary_behind_ascii hb quote.ascii_byte, by dsimp only; omega⟩
  case h_2 => exact .nil

/-! ## Any token -/

lemma Gap.errors_read (h : src.isBoundary pos) : (read src pos).errors.Valid src := by
  fun_induction read src pos with
  | case1 | case6 => exact .nil
  | case2 pos b hb hbreak rest ih =>
    exact ih (Source.isBoundary_behind_ascii hb (Byte.ascii_isLineBreak b hbreak))
  | case3 pos b hb _ hblank rest ih =>
    exact ih (Source.isBoundary_behind_ascii hb (Byte.ascii_isBlank b hblank))
  | case4 pos b hb _ _ hline rest ih =>
    rw [Bool.and_eq_true, beq_iff_eq, beq_iff_eq] at hline
    exact ih (isBoundary_lineComment (Source.lt_size_of_byteAt hline.2))
  | case5 pos b hb _ _ _ hopen comment rest ih =>
    rw [Bool.and_eq_true, beq_iff_eq, beq_iff_eq] at hopen
    have hsize := Source.lt_size_of_byteAt hopen.2
    have rest := ih (BlockComment.isBoundary_read src (pos + 2) 0 hsize)
    dsimp only
    split
    · exact rest
    · exact rest.cons ⟨h, Source.isBoundary_behind_ascii hopen.2 (by decide), Nat.le_add_right _ _⟩

namespace Lexeme

lemma errors_readCode (hpos : src.isBoundary pos) (hfirst : src.byteAt pos = some first) :
    (readCode src modes pos first).errors.Valid src := by
  have word :
      (if Word.startsAt src pos then Word.read src pos else readMark src pos).errors.Valid src := by
    split
    · exact Word.errors_read
    · exact errors_readMark hpos
  unfold readCode
  dsimp only
  split
  · exact .nil
  split
  · unfold closeBrace
    split <;> exact .nil
  split
  · exact Word.errors_readDollar
  split
  case isTrue h => exact RawString.errors_readHash (beq_iff_eq.1 h ▸ hfirst)
  split
  case isTrue h => exact Word.errors_readRaw (beq_iff_eq.1 h ▸ hfirst)
  split
  case isTrue h => exact Numeral.errors_read hfirst h
  split
  case isTrue h => exact Numeral.errors_withSuffix (Numeral.stands_readPointFirst h) .nil
  split
  case h_1 => exact StringText.errors_readStart
  case h_2 quote _ hbehind =>
    obtain ⟨b, hb, hquote⟩ := Option.bind_eq_some_iff.1 hbehind
    rw [Quote.byte_of_ofByte? hquote] at hb
    split
    · exact CharLiteral.errors_read hpos hb
    split
    · cases quote with
      | single => exact CharLiteral.errors_read hpos hb
      | double => exact CharLiteral.errors_readByteString hpos hb
    · exact word
  case h_3 => exact word

/-- Every error found on the way to the next token has its place between characters. -/
theorem errors_read (modes : List Mode) (h : src.isBoundary pos) :
    (read src modes pos).2.errors.Valid src := by
  unfold read
  split
  case h_1 quote multiLine _ => exact StringText.errors_read quote multiLine h
  case h_2 =>
    refine (Gap.errors_read h).append ?_
    split
    case h_1 =>
      unfold endOfFile
      split
      · exact .single ⟨Source.isBoundary_size, Source.isBoundary_size, Nat.le_refl _⟩
      · exact .nil
    case h_2 first hfirst => exact errors_readCode (Gap.stop_read h).1 hfirst

end Lexeme

/-- The log behind the next token. -/
lemma Lexer.mem_log_scan {l : Lexer} {d : Diagnostic} (h : d ∈ (l.scan src).log) :
    d ∈ l.log ∨ ∃ e ∈ (Lexeme.read src l.modes l.pos).2.errors, d = e.1.diagnostic e.2.span := by
  change d ∈ l.log ++ (Lexeme.read src l.modes l.pos).2.errors.map _ at h
  rw [← Array.mem_toList_iff, Array.toList_appendList, List.mem_append, Array.mem_toList_iff] at h
  obtain h | h := h
  · exact .inl h
  · obtain ⟨e, he, rfl⟩ := List.mem_map.1 h
    exact .inr ⟨e, he, rfl⟩

end CangjieSyntax
