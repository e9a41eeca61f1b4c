import CangjieSyntax.Proofs.Source.Boundary
import CangjieSyntax.Proofs.Token.Modes
import CangjieSyntax.Proofs.Token.Word
import CangjieSyntax.Token.Lexer

/-!
# Where tokens end

Every token that starts between characters ends between characters, behind its start. Only the end
of a string that is not closed is empty; that one ends the mode it stands in, in front of a line
break or of the end of the text.
-/

namespace CangjieSyntax

variable {src : Source} {modes : List Mode} {pos start stop i : Nat} {b first : UInt8}

/-- Whether a line ends at an offset, with a line break or with the text. -/
def Source.EndsLine (src : Source) (pos : Nat) : Prop :=
  ∀ b, src.byteAt pos = some b → Byte.isLineBreak b

/-- The last line ends with the text. -/
lemma Source.EndsLine.of_size_le (h : src.size ≤ pos) : src.EndsLine pos :=
  fun _ hb => absurd (Source.lt_size_of_byteAt hb) (Nat.not_lt.2 h)

lemma Source.EndsLine.of_byteIs (h : src.byteIs pos Byte.isLineBreak) : src.EndsLine pos := by
  intro b hb
  rwa [Source.byteIs, hb, Option.any_some] at h

/-- What is known of a token that starts at an offset between characters. -/
structure Lexeme.Stands (src : Source) (modes : List Mode) (start : Nat) (l : Lexeme) : Prop where
  boundary : src.isBoundary l.stop
  moves : start < l.stop ∨ l.stop = start ∧ l.change = .leave ∧ src.EndsLine start
  change : l.change.Fits modes
  /-- Only the gap in front of a token sets these flags. -/
  bare : l.flags.lineBreak = false ∧ l.flags.trivia = false
  kind : l.kind ≠ .endOfFile

/-! ## Classes of bytes -/

/-- A class of bytes without those from 0x80 on is one of ASCII bytes. -/
lemma Byte.ascii {p : UInt8 → Bool} (h : ∀ n < 128, p (UInt8.ofNat (n + 128)) = false)
    (b : UInt8) (hb : p b) : b < 0x80 := by
  by_contra hlt
  have hle : 128 ≤ b.toNat := UInt8.le_iff_toNat_le.1 (UInt8.not_lt.1 hlt)
  have hfalse := h (b.toNat - 128) (by have := b.toNat_lt; omega)
  rw [Nat.sub_add_cancel hle, UInt8.ofNat_toNat, hb] at hfalse
  exact nomatch hfalse

lemma Byte.ascii_isDigit : ∀ b, Byte.isDigit b → b < 0x80 :=
  Byte.ascii (by decide)

lemma Byte.ascii_isHexDigit : ∀ b, Byte.isHexDigit b → b < 0x80 :=
  Byte.ascii (by decide)

lemma Byte.ascii_isLineBreak : ∀ b, Byte.isLineBreak b → b < 0x80 :=
  Byte.ascii (by decide)

lemma Byte.ascii_isBlank : ∀ b, Byte.isBlank b → b < 0x80 :=
  Byte.ascii (by decide)

lemma Quote.ascii_byte (quote : Quote) : quote.byte < 0x80 := by
  cases quote <;> decide

lemma Quote.byte_of_ofByte? {quote : Quote} (h : Quote.ofByte? b = some quote) :
    b = quote.byte := by
  unfold Quote.ofByte? at h
  split at h
  case isTrue hb =>
    cases h
    exact beq_iff_eq.1 hb
  case isFalse =>
    split at h
    case isTrue hb =>
      cases h
      exact beq_iff_eq.1 hb
    case isFalse => exact nomatch h

/-! ## Words and marks -/

namespace Word

lemma isBoundary_of_startsAt (h : startsAt src pos) : src.isBoundary pos := by
  obtain ⟨c, hc, -⟩ := (Option.any_eq_true _ _).1 h
  simp [Source.isBoundary, hc]

lemma isBoundary_skip (h : src.isBoundary pos) : src.isBoundary (skip src pos) :=
  Source.isBoundary_skipChars h

lemma le_skip (src : Source) (pos : Nat) : pos ≤ skip src pos :=
  src.le_skipChars _ pos

lemma lt_skip (h : startsAt src pos) : pos < skip src pos := by
  obtain ⟨c, hc, hstart⟩ := (Option.any_eq_true _ _).1 h
  rw [skip, Source.skipChars]
  split
  case h_1 c' hc' =>
    obtain rfl : c = c' := Option.some.inj (hc.symm.trans hc')
    rw [if_pos (Unicode.isIdentifierPart_of_isIdentifierStart hstart)]
    have := src.le_skipChars Unicode.isIdentifierPart (pos + c.utf8Size)
    have := c.utf8Size_pos
    omega
  case h_2 hnone => simp [hc] at hnone

lemma stands_read (h : startsAt src pos) : (read src pos).Stands src modes pos := by
  have hstop := isBoundary_skip (isBoundary_of_startsAt h)
  unfold read
  dsimp only
  split
  · exact ⟨hstop, .inl (lt_skip h), trivial, ⟨rfl, rfl⟩, nofun⟩
  · split <;> exact ⟨hstop, .inl (lt_skip h), trivial, ⟨rfl, rfl⟩, nofun⟩

lemma stands_readRaw (hfirst : src.byteAt pos = some 0x60) :
    (readRaw src pos).Stands src modes pos := by
  have hbehind := Source.isBoundary_behind_ascii hfirst (by decide)
  have hstop : src.isBoundary (if startsAt src (pos + 1) then skip src (pos + 1) else pos + 1) := by
    split
    · exact isBoundary_skip hbehind
    · exact hbehind
  have hle : pos + 1 ≤ if startsAt src (pos + 1) then skip src (pos + 1) else pos + 1 := by
    split
    · exact le_skip src (pos + 1)
    · exact Nat.le_refl _
  unfold readRaw
  dsimp only
  generalize (if startsAt src (pos + 1) then skip src (pos + 1) else pos + 1) = stop at hstop hle ⊢
  split
  case isTrue hclosed =>
    rw [Bool.and_eq_true, beq_iff_eq] at hclosed
    have := Source.isBoundary_behind_ascii hclosed.2 (by decide)
    exact ⟨this, .inl (by dsimp only; omega), trivial, ⟨rfl, rfl⟩, nofun⟩
  case isFalse => exact ⟨hstop, .inl hle, trivial, ⟨rfl, rfl⟩, nofun⟩

lemma stands_readDollar (hfirst : src.byteAt pos = some 0x24) :
    (readDollar src pos).Stands src modes pos := by
  have hbehind := Source.isBoundary_behind_ascii hfirst (by decide)
  unfold readDollar
  split
  · have hle := le_skip src (pos + 1)
    exact ⟨isBoundary_skip hbehind, .inl (by dsimp only; omega), trivial, ⟨rfl, rfl⟩, nofun⟩
  · exact ⟨hbehind, .inl (Nat.lt_succ_self pos), trivial, ⟨rfl, rfl⟩, nofun⟩

end Word

namespace Punctuation

lemma munchTable_ascii : ∀ entry ∈ munchTable, entry.1 ≠ [] ∧ ∀ b ∈ entry.1, b < 0x80 := by
  decide +kernel

lemma munch?_stop {p : Punctuation} (h : munch? src pos = some (p, stop)) :
    src.isBoundary stop ∧ pos < stop := by
  obtain ⟨entry, hentry, e⟩ := Option.map_eq_some_iff.1 h
  obtain ⟨hne, hascii⟩ := munchTable_ascii entry (List.mem_of_find?_eq_some hentry)
  have hstarts := List.find?_some hentry
  cases e
  refine ⟨Source.isBoundary_behind_word hstarts hne hascii, ?_⟩
  have := List.length_pos_iff.2 hne
  omega

end Punctuation

lemma Lexeme.stands_readMark (hpos : src.isBoundary pos) (hlt : pos < src.size) :
    (readMark src pos).Stands src modes pos := by
  unfold readMark
  split
  case h_1 p stop hmunch =>
    obtain ⟨hstop, hlt⟩ := Punctuation.munch?_stop hmunch
    exact ⟨hstop, .inl hlt, trivial, ⟨rfl, rfl⟩, nofun⟩
  case h_2 =>
    obtain ⟨c, hc⟩ := Source.charAt_of_isBoundary hpos hlt
    rw [hc]
    have hbehind := Source.isBoundary_behind hc
    have := c.utf8Size_pos
    exact ⟨hbehind, .inl (by dsimp only; omega), trivial, ⟨rfl, rfl⟩, nofun⟩

/-! ## Numbers -/

namespace Numeral

variable {digit mark : UInt8 → Bool}

lemma le_skipDigits (src : Source) (digit : UInt8 → Bool) (pos : Nat) :
    pos ≤ skipDigits src digit pos :=
  src.le_skipWhile _ pos

lemma isBoundary_skipDigits (hdigit : ∀ b, digit b → b < 0x80) (h : src.isBoundary pos) :
    src.isBoundary (skipDigits src digit pos) := by
  refine Source.isBoundary_skipWhile (fun b hb => ?_) h
  rw [Bool.or_eq_true] at hb
  obtain hb | hb := hb
  · exact hdigit b hb
  · exact Byte.ascii (p := isSeparator) (by decide) b hb

lemma isBoundary_of_byteIs_isDigit (h : src.byteIs pos Byte.isDigit) : src.isBoundary pos := by
  obtain ⟨b, hb, hdigit⟩ := Source.byteIs_iff.1 h
  exact Source.isBoundary_of_ascii hb (Byte.ascii_isDigit b hdigit)

lemma exponent?_stop (h : exponent? src mark pos = some stop) :
    src.isBoundary stop ∧ pos < stop := by
  unfold exponent? at h
  split at h
  · dsimp only at h
    have hlt : pos < if src.byteIs (pos + 1) isSign then pos + 2 else pos + 1 := by
      split <;> omega
    generalize (if src.byteIs (pos + 1) isSign then pos + 2 else pos + 1) = digits at h hlt
    split at h
    case isTrue hdigit =>
      cases h
      have hle := le_skipDigits src Byte.isDigit digits
      refine ⟨?_, Nat.lt_of_lt_of_le hlt hle⟩
      exact isBoundary_skipDigits Byte.ascii_isDigit (isBoundary_of_byteIs_isDigit hdigit)
    case isFalse => exact nomatch h
  · exact nomatch h

lemma fraction?_stop (hdigit : ∀ b, digit b → b < 0x80) (h : fraction? src digit pos = some stop) :
    src.isBoundary stop ∧ pos < stop := by
  unfold fraction? at h
  split at h
  case isTrue hpoint =>
    cases h
    rw [Bool.and_eq_true, beq_iff_eq] at hpoint
    have hbehind := Source.isBoundary_behind_ascii hpoint.1 (by decide)
    exact ⟨isBoundary_skipDigits hdigit hbehind, le_skipDigits src digit (pos + 1)⟩
  case isFalse => exact nomatch h

lemma hexFloat?_stop (h : hexFloat? src pos = some stop) : src.isBoundary stop ∧ pos < stop := by
  obtain ⟨hstop, hlt⟩ := exponent?_stop h
  refine ⟨hstop, Nat.lt_of_le_of_lt ?_ hlt⟩
  cases hfraction : fraction? src Byte.isHexDigit pos with
  | none => exact Nat.le_refl pos
  | some middle => exact Nat.le_of_lt (fraction?_stop Byte.ascii_isHexDigit hfraction).2

/-- An exponent behind digits, or the end of the digits. -/
lemma exponent?_getD (mark : UInt8 → Bool) (h : src.isBoundary pos) :
    src.isBoundary ((exponent? src mark pos).getD pos)
      ∧ pos ≤ (exponent? src mark pos).getD pos := by
  cases hexponent : exponent? src mark pos with
  | none => exact ⟨h, Nat.le_refl pos⟩
  | some stop => exact ⟨(exponent?_stop hexponent).1, Nat.le_of_lt (exponent?_stop hexponent).2⟩

lemma Base.ascii_isDigit (base : Base) : ∀ b, base.isDigit b → b < 0x80 := by
  cases base with
  | hexadecimal => exact Byte.ascii_isHexDigit
  | binary => exact Byte.ascii (p := Byte.isBinaryDigit) (by decide)
  | octal => exact Byte.ascii (p := Byte.isOctalDigit) (by decide)

lemma Base.ascii_of_ofByte? {base : Base} (h : Base.ofByte? b = some base) : b < 0x80 :=
  Byte.ascii (p := fun b => (Base.ofByte? b).isSome) (by decide) b (Option.isSome_of_eq_some h)

lemma Base.bare_flags (base : Base) : base.flags.lineBreak = false ∧ base.flags.trivia = false := by
  cases base <;> exact ⟨rfl, rfl⟩

/-- What is known of a number without its width. -/
structure Body.Stands (src : Source) (start : Nat) (body : Body) : Prop where
  boundary : src.isBoundary body.stop
  moves : start < body.stop
  bare : body.flags.lineBreak = false ∧ body.flags.trivia = false

lemma stands_readBased (base : Base) (h : src.isBoundary (start + 2)) :
    (readBased src start base).Stands src start := by
  have hwhole := isBoundary_skipDigits base.ascii_isDigit h
  have hle := le_skipDigits src base.isDigit (start + 2)
  have hlt : start < skipDigits src base.isDigit (start + 2) := by omega
  unfold readBased
  dsimp only
  split
  · split
    case h_1 stop hfloat =>
      obtain ⟨hstop, hlt'⟩ := hexFloat?_stop hfloat
      exact ⟨hstop, Nat.lt_trans hlt hlt', base.bare_flags⟩
    case h_2 => exact ⟨hwhole, hlt, base.bare_flags⟩
  · split
    case isTrue hdigit =>
      have hstop := isBoundary_skipDigits Byte.ascii_isDigit hwhole
      have hle' := le_skipDigits src Byte.isDigit (skipDigits src base.isDigit (start + 2))
      exact ⟨hstop, Nat.lt_of_lt_of_le hlt hle', base.bare_flags⟩
    case isFalse => exact ⟨hwhole, hlt, base.bare_flags⟩

lemma stands_readDecimal (hfirst : src.byteAt start = some first) (hdigit : Byte.isDigit first) :
    (readDecimal src start).Stands src start := by
  have hstart := Source.isBoundary_of_ascii hfirst (Byte.ascii_isDigit first hdigit)
  have hwhole := isBoundary_skipDigits Byte.ascii_isDigit hstart
  have hlt : start < skipDigits src Byte.isDigit start :=
    Source.lt_skipWhile hfirst (by rw [hdigit, Bool.true_or])
  unfold readDecimal
  dsimp only
  split
  case h_1 stop hfraction =>
    obtain ⟨hstop, hlt'⟩ := fraction?_stop Byte.ascii_isDigit hfraction
    obtain ⟨hend, hle⟩ := exponent?_getD isDecimalExponent hstop
    exact ⟨hend, by dsimp only; omega, ⟨rfl, rfl⟩⟩
  case h_2 =>
    split
    case h_1 stop hexponent =>
      obtain ⟨hstop, hlt'⟩ := exponent?_stop hexponent
      exact ⟨hstop, Nat.lt_trans hlt hlt', ⟨rfl, rfl⟩⟩
    case h_2 => exact ⟨hwhole, hlt, ⟨rfl, rfl⟩⟩

lemma stands_readPointFirst (h : startsWithPoint src start) :
    (readPointFirst src start).Stands src start := by
  unfold startsWithPoint at h
  rw [Bool.and_eq_true, Bool.and_eq_true] at h
  have hstop := isBoundary_skipDigits Byte.ascii_isDigit (isBoundary_of_byteIs_isDigit h.1.2)
  have hle := le_skipDigits src Byte.isDigit (start + 1)
  obtain ⟨hend, hle'⟩ := exponent?_getD isDecimalExponent hstop
  exact ⟨hend, by unfold readPointFirst; dsimp only; omega, ⟨rfl, rfl⟩⟩

lemma stands_withSuffix {body : Body} (h : body.Stands src start) :
    (withSuffix src start body).Stands src modes start := by
  have hkind : (if body.isFloat then Kind.floatLiteral else .integerLiteral) ≠ .endOfFile := by
    split <;> exact nofun
  have hstop := Source.isBoundary_skipChars (p := Unicode.isIdentifierPart) h.boundary
  have hlt := Nat.lt_of_lt_of_le h.moves (src.le_skipChars Unicode.isIdentifierPart body.stop)
  unfold withSuffix
  dsimp only
  generalize (if body.isFloat then floatSuffixes else integerSuffixes) = suffixes
  split
  · split
    · exact ⟨hstop, .inl hlt, trivial, h.bare, hkind⟩
    · exact ⟨hstop, .inl hlt, trivial, h.bare, hkind⟩
  · exact ⟨h.boundary, .inl h.moves, trivial, h.bare, hkind⟩

/-- A number in the base that its first two bytes announce. -/
lemma stands_body (hfirst : src.byteAt start = some first) (hdigit : Byte.isDigit first) :
    Body.Stands src start
      (match if src.byteAt start == some 0x30 then (src.byteAt (start + 1)).bind Base.ofByte?
          else none with
        | some base => readBased src start base
        | none => readDecimal src start) := by
  split
  case h_1 base hbase =>
    split at hbase
    · obtain ⟨b, hb, hbase⟩ := Option.bind_eq_some_iff.1 hbase
      exact stands_readBased base (Source.isBoundary_behind_ascii hb (Base.ascii_of_ofByte? hbase))
    · exact nomatch hbase
  case h_2 => exact stands_readDecimal hfirst hdigit

lemma stands_read (hfirst : src.byteAt start = some first) (hdigit : Byte.isDigit first) :
    (read src start).Stands src modes start :=
  stands_withSuffix (stands_body hfirst hdigit)

end Numeral

/-! ## Escapes -/

namespace Escape

variable {rule : EscapeRule}

lemma ascii_of_simple? {c : Char} (h : simple? rule b = some c) : b < 0x80 := by
  by_contra hlt
  have hb : ∀ d < 0x80, b ≠ d := fun d hd e => hlt (e ▸ hd)
  simp [simple?, hb] at h

lemma isBoundary_readCodePoint (h : src.byteAt (start + 1) = some 0x75) :
    src.isBoundary (readCodePoint src rule start).stop := by
  have hbehind := Source.isBoundary_behind_ascii h (by decide)
  unfold readCodePoint
  split
  case isTrue hopen =>
    have hdigits := Source.isBoundary_behind_ascii (beq_iff_eq.1 hopen) (by decide)
    have hstop := Source.isBoundary_skipWhile Byte.ascii_isHexDigit hdigits
    have hend : src.isBoundary (if src.byteAt (src.skipWhile Byte.isHexDigit (start + 3))
        == some 0x7D then src.skipWhile Byte.isHexDigit (start + 3) + 1
        else src.skipWhile Byte.isHexDigit (start + 3)) := by
      split
      case isTrue hclose => exact Source.isBoundary_behind_ascii (beq_iff_eq.1 hclose) (by decide)
      case isFalse => exact hstop
    dsimp only
    split
    · exact hend
    · split <;> exact hend
  case isFalse => exact hbehind

/-- An escape ends between characters. -/
lemma isBoundary_read (rule : EscapeRule) (h : src.byteAt start = some 0x5C) :
    src.isBoundary (read src rule start).stop := by
  have hbehind := Source.isBoundary_behind_ascii h (by decide)
  unfold read
  split
  case h_1 => exact hbehind
  case h_2 b hb =>
    split
    case isTrue hu =>
      rw [beq_iff_eq.1 hu] at hb
      exact isBoundary_readCodePoint hb
    case isFalse =>
      split
      case h_1 c hc => exact Source.isBoundary_behind_ascii hb (ascii_of_simple? hc)
      case h_2 =>
        exact Source.isBoundary_behind_charAtD hbehind (Source.lt_size_of_byteAt hb)

end Escape

/-! ## Strings -/

namespace StringText

variable {quote : Quote} {multiLine : Bool}

lemma readContent_stop (quote : Quote) (multiLine : Bool) (h : src.isBoundary pos) :
    src.isBoundary (readContent src quote multiLine pos).stop
      ∧ pos ≤ (readContent src quote multiLine pos).stop := by
  fun_induction readContent src quote multiLine pos with
  | case1 | case2 => exact ⟨h, Nat.le_refl _⟩
  | case3 pos _ _ hslash escape rest ih =>
    obtain ⟨hstop, hle⟩ := ih (Escape.isBoundary_read _ (beq_iff_eq.1 hslash))
    have := Escape.lt_stop_read src .text pos
    exact ⟨hstop, by dsimp only [escape, rest] at hle ⊢; omega⟩
  | case4 pos hlt _ _ c rest ih =>
    obtain ⟨hstop, hle⟩ := ih (Source.isBoundary_behind_charAtD h (Nat.lt_of_not_le hlt))
    exact ⟨hstop, by dsimp only [c, rest] at hle ⊢; omega⟩

/-- Content that does not end at once has a character. -/
lemma lt_readContent_stop (h : src.isBoundary pos) (hlt : pos < src.size)
    (hgoes : ¬(closes src quote multiLine pos || opensHole src pos
      || breaksOff src multiLine pos)) :
    pos < (readContent src quote multiLine pos).stop := by
  rw [readContent, dif_neg (Nat.not_le.2 hlt), if_neg hgoes]
  split
  case isTrue hslash =>
    obtain ⟨-, hle⟩ := readContent_stop quote multiLine
      (Escape.isBoundary_read .text (beq_iff_eq.1 hslash))
    have := Escape.lt_stop_read src .text pos
    dsimp only
    omega
  case isFalse =>
    obtain ⟨-, hle⟩ := readContent_stop quote multiLine
      (Source.isBoundary_behind_charAtD h hlt)
    have := (src.charAtD pos).utf8Size_pos
    dsimp only
    omega

lemma isBoundary_behind_closer (h : closes src quote multiLine pos) :
    src.isBoundary (pos + if multiLine then 3 else 1) := by
  unfold closes at h
  cases multiLine with
  | true =>
    refine Source.isBoundary_behind_word h (List.cons_ne_nil _ _) fun b hb => ?_
    simp only [List.mem_cons, List.not_mem_nil, or_false, or_self] at hb
    rw [hb]
    exact quote.ascii_byte
  | false => exact Source.isBoundary_behind_ascii (beq_iff_eq.1 h) quote.ascii_byte

/-- The next piece of a string. -/
lemma stands_read (quote : Quote) (multiLine : Bool) (h : src.isBoundary pos)
    (htext : (Mode.top modes).isCode = false) (hlen : 1 < modes.length) :
    (read src quote multiLine pos).Stands src modes pos := by
  have hbroken (hends : src.EndsLine pos) : (unterminated pos).Stands src modes pos :=
    ⟨h, .inr ⟨rfl, rfl, hends⟩, hlen, ⟨rfl, rfl⟩, nofun⟩
  unfold read
  split
  case isTrue hsize =>
    exact hbroken (.of_size_le hsize)
  case isFalse hsize =>
    split
    case isTrue hcloses =>
      have hlt : pos < pos + if multiLine then 3 else 1 := by split <;> omega
      exact ⟨isBoundary_behind_closer hcloses, .inl hlt, hlen, ⟨rfl, rfl⟩, nofun⟩
    case isFalse hcloses =>
      split
      case isTrue hhole =>
        unfold opensHole at hhole
        rw [Bool.and_eq_true, beq_iff_eq, beq_iff_eq] at hhole
        have hstop := Source.isBoundary_behind_ascii hhole.2 (by decide)
        exact ⟨hstop, .inl (by dsimp only; omega), .hole htext, ⟨rfl, rfl⟩, nofun⟩
      case isFalse hhole =>
        split
        case isTrue hbreak =>
          rw [breaksOff, Bool.and_eq_true] at hbreak
          exact hbroken (.of_byteIs hbreak.2)
        case isFalse hbreak =>
          have hgoes : ¬(closes src quote multiLine pos || opensHole src pos
              || breaksOff src multiLine pos) := by simp [hcloses, hhole, hbreak]
          have hlt := lt_readContent_stop h (Nat.lt_of_not_le hsize) hgoes
          exact ⟨(readContent_stop quote multiLine h).1, .inl hlt, trivial, ⟨rfl, rfl⟩, nofun⟩

/-- The quotes that open a string in code. -/
lemma stands_readStart (hfirst : src.byteAt pos = some quote.byte)
    (hcode : (Mode.top modes).isCode) : (readStart src quote pos).Stands src modes pos := by
  unfold readStart
  split
  case isTrue hthree =>
    have hstop := Source.isBoundary_behind_word hthree (List.cons_ne_nil _ _) fun b hb => by
      simp only [List.mem_cons, List.not_mem_nil, or_false, or_self] at hb
      rw [hb]
      exact quote.ascii_byte
    exact ⟨hstop, .inl (by dsimp only; omega), .string hcode, ⟨rfl, rfl⟩, nofun⟩
  case isFalse =>
    exact ⟨Source.isBoundary_behind_ascii hfirst quote.ascii_byte, .inl (Nat.lt_succ_self pos),
      .string hcode, ⟨rfl, rfl⟩, nofun⟩

end StringText

namespace CharLiteral

variable {isByte : Bool} {quote : Quote}

lemma readBody_stop (isByte : Bool) (h : src.isBoundary pos) (hlt : pos < src.size) :
    src.isBoundary (readBody src isByte pos).stop ∧ pos < (readBody src isByte pos).stop := by
  unfold readBody
  split
  case isTrue hslash =>
    exact ⟨Escape.isBoundary_read _ (beq_iff_eq.1 hslash), Escape.lt_stop_read src _ pos⟩
  case isFalse =>
    have := (src.charAtD pos).utf8Size_pos
    exact ⟨Source.isBoundary_behind_charAtD h hlt, by dsimp only; omega⟩

lemma stands_read (hquote : src.byteAt (start + 1) = some quote.byte) :
    (read src isByte quote start).Stands src modes start := by
  have hpos : src.isBoundary (start + 2) := Source.isBoundary_behind_ascii hquote quote.ascii_byte
  have hkind : (if isByte then Kind.byteLiteral else .runeLiteral) ≠ .endOfFile := by
    split <;> exact nofun
  unfold read
  dsimp only
  split
  · exact ⟨hpos, .inl (by dsimp only; omega), trivial, ⟨rfl, rfl⟩, hkind⟩
  case isFalse hinside =>
    split
    case isTrue hempty =>
      have hstop := Source.isBoundary_behind_ascii (beq_iff_eq.1 hempty) quote.ascii_byte
      exact ⟨hstop, .inl (by dsimp only; omega), trivial, ⟨rfl, rfl⟩, hkind⟩
    case isFalse =>
      rw [Bool.or_eq_true, not_or, decide_eq_true_eq, Nat.not_le] at hinside
      obtain ⟨hbody, hlt⟩ := readBody_stop isByte hpos hinside.1
      split
      case isTrue hclose =>
        have hstop := Source.isBoundary_behind_ascii (beq_iff_eq.1 hclose) quote.ascii_byte
        exact ⟨hstop, .inl (by dsimp only; omega), trivial, ⟨rfl, rfl⟩, hkind⟩
      case isFalse =>
        -- The search goes on to a quote or to the end of the line.
        have hle := src.le_skipWhile (fun b => !(b == quote.byte || Byte.isLineBreak b))
          (readBody src isByte (start + 2)).stop
        split
        case isTrue hfound =>
          have hstop := Source.isBoundary_behind_ascii (beq_iff_eq.1 hfound) quote.ascii_byte
          exact ⟨hstop, .inl (by dsimp only; omega), trivial, ⟨rfl, rfl⟩, hkind⟩
        case isFalse =>
          have hascii : ∀ b, (!(b == quote.byte || Byte.isLineBreak b)) = false → b < 0x80 := by
            intro b hb
            rw [Bool.not_eq_false', Bool.or_eq_true, beq_iff_eq] at hb
            obtain rfl | hb := hb
            · exact quote.ascii_byte
            · exact Byte.ascii_isLineBreak b hb
          have hstop := Source.isBoundary_skipWhile_not hascii (Source.le_size_of_isBoundary hbody)
          exact ⟨hstop, .inl (by dsimp only; omega), trivial, ⟨rfl, rfl⟩, hkind⟩

lemma readByteText_stop (h : src.isBoundary pos) :
    src.isBoundary (readByteText src pos).stop ∧ pos ≤ (readByteText src pos).stop := by
  fun_induction readByteText src pos with
  | case1 | case2 => exact ⟨h, Nat.le_refl _⟩
  | case3 pos _ _ hclose =>
    exact ⟨Source.isBoundary_behind_ascii (beq_iff_eq.1 hclose) (by decide), Nat.le_succ _⟩
  | case4 pos _ _ _ hslash escape rest ih =>
    obtain ⟨hstop, hle⟩ := ih (Escape.isBoundary_read _ (beq_iff_eq.1 hslash))
    have := Escape.lt_stop_read src .byte pos
    exact ⟨hstop, by dsimp only [escape, rest] at hle ⊢; omega⟩
  | case5 pos hlt _ _ _ c stop rest _ ih =>
    obtain ⟨hstop, hle⟩ := ih (Source.isBoundary_behind_charAtD h (Nat.lt_of_not_le hlt))
    exact ⟨hstop, by dsimp only [c, stop, rest] at hle ⊢; omega⟩
  | case6 pos hlt _ _ _ c stop rest _ ih =>
    obtain ⟨hstop, hle⟩ := ih (Source.isBoundary_behind_charAtD h (Nat.lt_of_not_le hlt))
    exact ⟨hstop, by dsimp only [c, stop, rest] at hle ⊢; omega⟩

lemma stands_readByteString (hquote : src.byteAt (start + 1) = some 0x22) :
    (readByteString src start).Stands src modes start := by
  have hpos : src.isBoundary (start + 2) := Source.isBoundary_behind_ascii hquote (by decide)
  obtain ⟨hstop, hle⟩ := readByteText_stop hpos
  exact ⟨hstop, .inl (by unfold readByteString; dsimp only; omega), trivial, ⟨rfl, rfl⟩, nofun⟩

end CharLiteral

namespace RawString

variable {quote : Quote} {fence found : Nat}

lemma closer?_found (h : closer? src quote fence pos = some found) :
    pos ≤ found ∧ src.byteAt found = some quote.byte ∧ fence ≤ hashes src (found + 1) := by
  fun_induction closer? src quote fence pos with
  | case1 => exact nomatch h
  | case2 pos i hi hfence =>
    cases h
    obtain ⟨b, hb, hquote⟩ := Source.byteAt_of_find? hi
    rw [beq_iff_eq.1 hquote] at hb
    exact ⟨(Source.find?_bounds hi).1, hb, hfence⟩
  | case3 pos i hi _ ih =>
    obtain ⟨hle, hrest⟩ := ih h
    have := (Source.find?_bounds hi).1
    exact ⟨by omega, hrest⟩

/-- The hash signs behind an offset between characters. -/
lemma isBoundary_behind_hashes (h : src.isBoundary pos) (hle : i ≤ hashes src pos) :
    src.isBoundary (pos + i) := by
  have hascii : ∀ b : UInt8, (b == 0x23) = true → b < 0x80 := by
    intro b hb
    rw [beq_iff_eq.1 hb]
    decide
  have := src.le_skipWhile (· == 0x23) pos
  unfold hashes at hle
  exact Source.isBoundary_in_run hascii h (Nat.le_add_right _ _) (by omega)

lemma stands_readHash (hfirst : src.byteAt start = some 0x23) :
    (readHash src start).Stands src modes start := by
  unfold readHash
  dsimp only
  split
  case h_1 quote hquote =>
    obtain ⟨b, hb, hquote⟩ := Option.bind_eq_some_iff.1 hquote
    unfold read
    dsimp only
    split
    case h_1 found hfound =>
      obtain ⟨hle, hbyte, hfence⟩ := closer?_found hfound
      have hbehind := Source.isBoundary_behind_ascii hbyte quote.ascii_byte
      exact ⟨isBoundary_behind_hashes hbehind hfence, .inl (by dsimp only; omega), trivial,
        ⟨rfl, rfl⟩, nofun⟩
    case h_2 =>
      have := Source.lt_size_of_byteAt hfirst
      exact ⟨Source.isBoundary_size, .inl this, trivial, ⟨rfl, rfl⟩, nofun⟩
  case h_2 =>
    exact ⟨Source.isBoundary_behind_ascii hfirst (by decide), .inl (Nat.lt_succ_self start),
      trivial, ⟨rfl, rfl⟩, nofun⟩

end RawString

/-! ## Any token -/

namespace Lexeme

lemma stands_closeBrace (hfirst : src.byteAt pos = some 0x7D) :
    (closeBrace modes pos).Stands src modes pos := by
  have hstop := Source.isBoundary_behind_ascii hfirst (by decide)
  unfold closeBrace
  split
  case isTrue hhole => exact ⟨hstop, .inl (Nat.lt_succ_self pos), hhole.2, ⟨rfl, rfl⟩, nofun⟩
  case isFalse => exact ⟨hstop, .inl (Nat.lt_succ_self pos), trivial, ⟨rfl, rfl⟩, nofun⟩

/-- Every token of code. -/
theorem stands_readCode (hpos : src.isBoundary pos) (hfirst : src.byteAt pos = some first)
    (hcode : (Mode.top modes).isCode) : (readCode src modes pos first).Stands src modes pos := by
  have hlt := Source.lt_size_of_byteAt hfirst
  have word :
      (if Word.startsAt src pos then Word.read src pos else readMark src pos).Stands src modes pos := by
    split
    case isTrue h => exact Word.stands_read h
    case isFalse => exact stands_readMark hpos hlt
  unfold readCode
  dsimp only
  split
  case isTrue h =>
    rw [beq_iff_eq.1 h] at hfirst
    exact ⟨Source.isBoundary_behind_ascii hfirst (by decide), .inl (Nat.lt_succ_self pos), trivial,
      ⟨rfl, rfl⟩, nofun⟩
  split
  case isTrue h => exact stands_closeBrace (beq_iff_eq.1 h ▸ hfirst)
  split
  case isTrue h => exact Word.stands_readDollar (beq_iff_eq.1 h ▸ hfirst)
  split
  case isTrue h => exact RawString.stands_readHash (beq_iff_eq.1 h ▸ hfirst)
  split
  case isTrue h => exact Word.stands_readRaw (beq_iff_eq.1 h ▸ hfirst)
  split
  case isTrue h => exact Numeral.stands_read hfirst h
  split
  case isTrue h => exact Numeral.stands_withSuffix (Numeral.stands_readPointFirst h)
  split
  case h_1 quote _ hquote =>
    rw [Quote.byte_of_ofByte? hquote] at hfirst
    exact StringText.stands_readStart hfirst hcode
  case h_2 quote _ hbehind =>
    obtain ⟨b, hb, hquote⟩ := Option.bind_eq_some_iff.1 hbehind
    rw [Quote.byte_of_ofByte? hquote] at hb
    split
    · exact CharLiteral.stands_read hb
    split
    · cases quote with
      | single => exact CharLiteral.stands_read hb
      | double => exact CharLiteral.stands_readByteString hb
    · exact word
  case h_3 => exact word

end Lexeme

end CangjieSyntax
