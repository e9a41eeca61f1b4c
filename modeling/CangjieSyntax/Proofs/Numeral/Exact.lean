import Mathlib.Data.List.TakeWhile
import CangjieSyntax.Proofs.Numeral.Read
import CangjieSyntax.Proofs.Token.Balance
import CangjieSyntax.Proofs.Token.Change
import CangjieSyntax.Proofs.Token.Row

/-!
# Texts that are numbers

A text is read as one number, without a report, just if it is a word of the grammar of numerals, and
then the language that it belongs to says of which kind the number is.
-/

namespace CangjieSyntax

variable {src : Source} {start : Nat} {cs word rest : List Char} {t : Token}

namespace Numeral

/-- Numbers of one sort, perhaps with a width. -/
def numerals (isFloat : Bool) : Language Char :=
  bodies isFloat * (1 + wordOf (widths isFloat))

/-- The digits of a text without the underscores between them. -/
def withoutSeparators (cs : List Char) : String :=
  String.ofList (cs.filter (· != '_'))

/-! ## Widths -/

lemma widths_eq (isFloat : Bool) :
    (if isFloat then floatSuffixes else integerSuffixes) = widths isFloat :=
  rfl

/-- A width is one word, without underscores. -/
lemma widths_word (isFloat : Bool) : ∀ w ∈ widths isFloat,
    (w.toList.head?).any Unicode.isIdentifierStart ∧ w.toList.all Unicode.isIdentifierPart
      ∧ w.toList.filter (· != '_') = w.toList := by
  cases isFloat <;> decide +kernel

section

variable {body : Body}

lemma errors_of_withSuffix (h : (withSuffix src start body).errors = []) : body.errors = [] := by
  unfold withSuffix at h
  dsimp only at h
  rw [widths_eq] at h
  split at h
  case isFalse => exact h
  case isTrue =>
    split at h
    · exact h
    · exact (List.append_eq_nil_iff.1 h).1

/-- Where no error is found, a width or nothing stands behind a number. -/
lemma withSuffix_inv (hcs : src.Ahead start (word ++ rest))
    (hstop : body.stop = start + word.utf8Encode.size)
    (herrors : (withSuffix src start body).errors = []) :
    ∃ width behind, rest = width ++ behind
      ∧ width ∈ 1 + wordOf (widths body.isFloat)
      ∧ (withSuffix src start body).stop = start + (word ++ width).utf8Encode.size
      ∧ (withSuffix src start body).value ++ (withSuffix src start body).suffix.getD ""
        = withoutSeparators (word ++ width) := by
  have hbehind := hcs.drop
  have hvalue := hcs.slice
  rw [← hstop] at hbehind hvalue
  unfold withSuffix at herrors ⊢
  dsimp only at herrors ⊢
  rw [widths_eq] at herrors ⊢
  rw [hvalue, String.toList_ofList]
  split at herrors
  case isFalse hnone =>
    rw [if_neg hnone]
    refine ⟨[], rest, rfl, mem_optional.2 (.inl rfl), ?_, ?_⟩
    · rw [List.append_nil]
      exact hstop
    · rw [List.append_nil]
      exact String.append_empty
  case isTrue hstart =>
    rw [if_pos hstart]
    -- The width is what the characters of identifiers ahead spell.
    have hsplit := List.takeWhile_append_dropWhile (p := Unicode.isIdentifierPart) (l := rest)
    have hskip := hbehind.skipChars (p := Unicode.isIdentifierPart)
    have hwidth : src.slice body.stop (src.skipChars Unicode.isIdentifierPart body.stop)
        = String.ofList (rest.takeWhile Unicode.isIdentifierPart) := by
      rw [hskip]
      rw [← hsplit] at hbehind
      exact hbehind.slice
    rw [hwidth] at herrors ⊢
    split at herrors
    case isFalse => exact absurd herrors (by simp)
    case isTrue hknown =>
      rw [if_pos hknown]
      have hmem : String.ofList (rest.takeWhile Unicode.isIdentifierPart) ∈ widths body.isFloat :=
        List.contains_iff_mem.1 hknown
      refine ⟨_, _, hsplit.symm, mem_optional.2 (.inr hmem), ?_, ?_⟩
      · rw [hskip, hstop, size_append]
      · obtain ⟨-, -, hplain⟩ := widths_word _ _ hmem
        rw [String.toList_ofList] at hplain
        rw [Option.getD_some, withoutSeparators, List.filter_append, hplain, String.ofList_append]

/-- A number with its width or nothing behind it is read up to the end of the text. -/
lemma withSuffix_eq (hcs : src.Ahead start (word ++ rest))
    (hstop : body.stop = start + word.utf8Encode.size) (hbody : body.errors = [])
    (hrest : rest ∈ 1 + wordOf (widths body.isFloat)) :
    (withSuffix src start body).errors = [] ∧ (withSuffix src start body).stop = src.size := by
  have hbehind := hcs.drop
  have hsize := hbehind.size_eq
  rw [← hstop] at hbehind hsize
  unfold withSuffix
  dsimp only
  rw [widths_eq]
  obtain rfl | hmem := mem_optional.1 hrest
  · rw [hbehind.charAt_nil, if_neg (by simp)]
    exact ⟨hbody, hsize.symm⟩
  · have hmem : String.ofList rest ∈ widths body.isFloat := hmem
    obtain ⟨hfirst, hall, -⟩ := widths_word _ _ hmem
    rw [String.toList_ofList] at hfirst hall
    have hskip : src.skipChars Unicode.isIdentifierPart body.stop
        = body.stop + rest.utf8Encode.size := by
      rw [hbehind.skipChars, List.takeWhile_eq_self_iff.2 (List.all_eq_true.1 hall)]
    have hwidth : src.slice body.stop (body.stop + rest.utf8Encode.size) = String.ofList rest := by
      have hword : src.Ahead body.stop (rest ++ []) := by rwa [List.append_nil]
      exact hword.slice
    have hchar : (src.charAt body.stop).any Unicode.isIdentifierStart := by
      cases rest with
      | nil => exact nomatch hfirst
      | cons c rest =>
        rw [hbehind.charAt]
        exact hfirst
    rw [if_pos hchar, hskip, hwidth, if_pos (List.contains_iff_mem.2 hmem)]
    exact ⟨hbody, hsize.symm⟩

end

/-! ## Numbers with their widths -/

/-- The number at an offset, with its width. -/
def lexemeAt (src : Source) (start : Nat) : Lexeme :=
  withSuffix src start (bodyAt src start)

lemma kind_lexemeAt : (lexemeAt src start).kind
    = if (bodyAt src start).isFloat then .floatLiteral else .integerLiteral :=
  kind_withSuffix _

/-- A number that is read without an error is a word of the grammar, and its digits and its width
are those of the word. -/
lemma numeral_inv (h : Starts src start) (hcs : src.Ahead start cs)
    (herrors : (lexemeAt src start).errors = []) :
    ∃ word rest, cs = word ++ rest ∧ word ∈ numerals (bodyAt src start).isFloat
      ∧ (lexemeAt src start).stop = start + word.utf8Encode.size
      ∧ (lexemeAt src start).value ++ (lexemeAt src start).suffix.getD ""
        = withoutSeparators word := by
  have hbody := holds_bodyAt h (errors_of_withSuffix herrors)
  obtain ⟨word, rest, rfl, hword, hstop, -⟩ := hbody.ahead hcs
  obtain ⟨width, behind, rfl, hwidth, hend, hvalue⟩ := withSuffix_inv hcs hstop herrors
  exact ⟨word ++ width, behind, (List.append_assoc ..).symm, Language.append_mem_mul hword hwidth,
    hend, hvalue⟩

/-- A word of the grammar up to the end of the text is read as one number. -/
lemma numeral_eq {isFloat : Bool} (hcs : src.Ahead start cs) (hword : cs ∈ numerals isFloat) :
    (lexemeAt src start).errors = []
      ∧ (lexemeAt src start).stop = src.size
      ∧ (bodyAt src start).isFloat = isFloat := by
  obtain ⟨word, hbody, width, hwidth, rfl⟩ := Language.mem_mul.1 hword
  obtain ⟨flags, e⟩ := bodyAt_eq hcs hbody hwidth
  obtain ⟨herrors, hstop⟩ := @withSuffix_eq _ _ _ _ (bodyAt src start) hcs
    (by rw [e]) (by rw [e]) (by rwa [e])
  exact ⟨herrors, hstop, by rw [e]⟩

/-- A number starts with a digit, or with its point and a digit. -/
lemma front_bodies {isFloat : Bool} (h : word ∈ bodies isFloat) :
    (∃ c cs, word = c :: cs ∧ c ∈ decimal.toList)
      ∨ ∃ c cs, word = '.' :: c :: cs ∧ c ∈ decimal.toList := by
  have number {front : List Char} (behind : List Char) (h : front ∈ number decimal) :
      ∃ c cs, front ++ behind = c :: cs ∧ c ∈ decimal.toList := by
    obtain ⟨c, cs, rfl, hc, -⟩ := mem_number.1 h
    exact ⟨c, cs ++ behind, rfl, hc⟩
  have hzero : '0' ∈ decimal.toList := by decide
  cases isFloat with
  | false =>
    obtain hnumber | ⟨base, hbased⟩ := mem_wholes.1 h
    · obtain ⟨c, cs, rfl, hc, -⟩ := mem_number.1 hnumber
      exact .inl ⟨c, cs, rfl, hc⟩
    · obtain ⟨m, -, cs, -, rfl⟩ := mem_based.1 hbased
      exact .inl ⟨'0', _, rfl, hzero⟩
  | true =>
    obtain ⟨whole, hwhole, power, -, rfl⟩ | ⟨whole, hwhole, part, -, power, -, rfl⟩
      | ⟨part, hpart, power, -, rfl⟩ | ⟨m, -, digits, -, part, -, power, -, rfl⟩ := mem_reals.1 h
    · exact .inl (number power hwhole)
    · rw [List.append_assoc]
      exact .inl (number (part ++ power) hwhole)
    · obtain ⟨cs, hcs, rfl⟩ := mem_fraction.1 hpart
      obtain ⟨c, cs, rfl, hc, -⟩ := mem_number.1 hcs
      exact .inr ⟨c, cs ++ power, rfl, hc⟩
    · exact .inl ⟨'0', _, rfl, hzero⟩

/-- A word of the grammar at the start of a text starts a number there. -/
lemma starts_zero {isFloat : Bool} (hcs : src.Ahead 0 (word ++ rest)) (h : word ∈ bodies isFloat) :
    Starts src 0 := by
  obtain ⟨c, cs, rfl, hc⟩ | ⟨c, cs, rfl, hc⟩ := front_bodies h
  · exact .inl ((isClass_digit.byteIs_iff hcs).2 ⟨c, rfl, hc⟩)
  · right
    have htail : src.Ahead 1 (c :: cs ++ rest) := Source.Ahead.tail hcs
    have hpoint : src.byteAt 0 = some 0x2E := hcs.byteAt 0
    rw [startsWithPoint, hpoint, (isClass_digit.byteIs_iff htail).2 ⟨c, rfl, hc⟩]
    rfl

/-- No gap stands in front of a number, and no other token starts where it does. -/
lemma read_of_starts (modes : List Mode) (h : Starts src start) :
    ∃ first, src.byteAt start = some first ∧ Gap.read src start = { stop := start }
      ∧ Lexeme.readCode src modes start first = lexemeAt src start := by
  by_cases hdigit : src.byteIs start Byte.isDigit
  · obtain ⟨first, hfirst, hb⟩ := Source.byteIs_iff.1 hdigit
    have hne {b : UInt8} (hother : Byte.isDigit b = false) : (first == b) = false := by
      rw [beq_eq_false_iff_ne]
      rintro rfl
      exact Bool.false_ne_true (hother.symm.trans hb)
    refine ⟨first, hfirst, gapRead_of_byte hfirst ?_ ?_ ?_, ?_⟩
    · rw [Byte.isLineBreak, hne rfl, hne rfl, Bool.or_false]
    · rw [Byte.isBlank, hne rfl, hne rfl, hne rfl, Bool.or_false, Bool.or_false]
    · exact beq_eq_false_iff_ne.1 (hne rfl)
    · unfold Lexeme.readCode
      rw [hne rfl, hne rfl, hne rfl, hne rfl, hne rfl, hb, lexemeAt, bodyAt, if_pos hdigit]
      rfl
  · have hpoint := h.resolve_left hdigit
    have hbytes := hpoint
    rw [startsWithPoint, Bool.and_eq_true, Bool.and_eq_true, beq_iff_eq] at hbytes
    refine ⟨0x2E, hbytes.1.1, gapRead_of_byte hbytes.1.1 rfl rfl (by decide), ?_⟩
    have hread : Lexeme.readCode src modes start 0x2E
        = withSuffix src start (readPointFirst src start) := by
      simp [Lexeme.readCode, Byte.isDigit, hpoint]
    rw [hread, lexemeAt, bodyAt, if_neg hdigit]

/-- What is read as a number starts as one. -/
lemma readCode_number {modes : List Mode} {first : UInt8} (hfirst : src.byteAt start = some first)
    (h : (Lexeme.readCode src modes start first).kind.isNumber) : Starts src start := by
  obtain ⟨-, hother⟩ | ⟨hdigit, -⟩ | ⟨-, hpoint, -⟩ | ⟨isByte, quote, -, -, e⟩ | ⟨-, -, e⟩ :=
    Lexeme.readCode_literal_cases src modes start first
  · exact absurd h (by rw [hother]; exact Bool.false_ne_true)
  · exact .inl (Source.byteIs_iff.2 ⟨first, hfirst, hdigit⟩)
  · exact .inr hpoint
  · rw [e, CharLiteral.isNumber_read] at h
    exact nomatch h
  · rw [e] at h
    exact nomatch h

end Numeral

/-! ## Texts -/

/-- A text is read as one number, and nothing is reported. -/
structure Source.IsNumeral (src : Source) (t : Token) : Prop where
  kind : t.kind = .integerLiteral ∨ t.kind = .floatLiteral
  span : t.span = ⟨0, src.size⟩
  tokens : ∃ e : Token, e.kind = .endOfFile
    ∧ ((Lexer.ofSource src).scanAll src).1.map Prod.fst = [t, e]
  log : ((Lexer.ofSource src).scanAll src).2.log = #[]

namespace Lexer

/-- A step over a number is a step over a text with no gap in front of it. -/
lemma scan_of_starts {l : Lexer} (hcode : (Mode.top l.modes).isCode)
    (h : Numeral.Starts src l.pos) : l.scan src
      = l.accept l.pos (Numeral.lexemeAt src l.pos) := by
  obtain ⟨first, hfirst, hgap, hread⟩ := Numeral.read_of_starts l.modes h
  obtain ⟨lexeme, e, ⟨hnone, -⟩ | ⟨first', hfirst', rfl⟩⟩ := scan_of_code src hcode
  · rw [hgap, hfirst] at hnone
    exact nomatch hnone
  · rw [hgap] at hfirst' e
    obtain rfl : first = first' := Option.some.inj (hfirst.symm.trans hfirst')
    rw [e, hread]
    rfl

/-- A number among the tokens of code starts as a number does. -/
lemma starts_of_scan {l : Lexer} (hcode : (Mode.top l.modes).isCode)
    (h : (l.scan src).kind.isNumber) : Numeral.Starts src (l.scan src).start := by
  obtain ⟨lexeme, e, ⟨-, rfl⟩ | ⟨first, hfirst, rfl⟩⟩ := scan_of_code src hcode
  · rw [e] at h
    change (Lexeme.endOfFile ..).kind.isNumber at h
    rw [Lexeme.endOfFile_kind] at h
    exact nomatch h
  · rw [e] at h ⊢
    exact Numeral.readCode_number hfirst h

lemma head?_scanAll (src : Source) (l : Lexer) :
    ((l.scanAll src).1.map Prod.fst).head? = some (l.scan src).token := by
  unfold scanAll scanAll.go
  dsimp only
  split <;> rfl

/-- No byte-order mark stands in front of a number at the start of a text. -/
lemma pos_ofSource (h : Numeral.Starts src 0) : (ofSource src).pos = 0 := by
  refine if_neg fun hmark => ?_
  rw [Source.byteOrderMark, Source.startsWith, Bool.and_eq_true, beq_iff_eq] at hmark
  obtain hdigit | hpoint := h
  · rw [Source.byteIs, hmark.1] at hdigit
    exact absurd hdigit Bool.false_ne_true
  · rw [Numeral.startsWithPoint, hmark.1] at hpoint
    exact absurd hpoint Bool.false_ne_true

/-- The first token of a text that starts with a number. -/
lemma scan_ofSource (h : Numeral.Starts src 0) : (ofSource src).scan src
    = (ofSource src).accept 0 (Numeral.lexemeAt src 0) := by
  have hpos := pos_ofSource h
  rw [← hpos] at h
  rw [scan_of_starts rfl h, hpos]

/-- A number up to the end of the text is the only token in front of the end. -/
lemma scanAll_of_starts (hstarts : Numeral.Starts src 0)
    (hstop : (Numeral.lexemeAt src 0).stop = src.size) :
    (∃ e : Token, e.kind = .endOfFile ∧ ((ofSource src).scanAll src).1.map Prod.fst
        = [((ofSource src).accept 0 (Numeral.lexemeAt src 0)).token, e])
      ∧ ((ofSource src).scanAll src).2.log
        = ((ofSource src).accept 0 (Numeral.lexemeAt src 0)).log := by
  have hscan := scan_ofSource hstarts
  have hkind : ((ofSource src).scan src).kind ≠ .endOfFile := by
    rw [hscan]
    change (Numeral.lexemeAt src 0).kind ≠ .endOfFile
    rw [Numeral.kind_lexemeAt]
    split <;> exact nofun
  have hpos : ((ofSource src).scan src).pos = src.size := by
    rw [hscan]
    exact hstop
  have hmodes : ((ofSource src).scan src).modes = [.code 0] := by
    rw [hscan]
    change (Numeral.lexemeAt src 0).change.apply [.code 0] = [.code 0]
    rw [Numeral.lexemeAt, (Lexeme.plain_withSuffix _).change]
    rfl
  obtain ⟨hended, hlog⟩ := scan_of_end hpos hmodes
  have hscans : Scans src (ofSource src) _ _ := .next hkind (.last hended.kind)
  have e : (ofSource src).scanAll src = _ := hscans.scanAll_go (Nat.le_add_left _ _)
  rw [e, ← hscan]
  exact ⟨⟨_, hended.kind, rfl⟩, hlog⟩

end Lexer

namespace Source

/-- A text that is one number starts with it. -/
lemma IsNumeral.starts (h : src.IsNumeral t) :
    t = ((Lexer.ofSource src).scan src).token ∧ Numeral.Starts src 0 := by
  obtain ⟨e, -, htokens⟩ := h.tokens
  have hfirst := Lexer.head?_scanAll src (.ofSource src)
  rw [htokens] at hfirst
  have ht : t = ((Lexer.ofSource src).scan src).token := Option.some.inj hfirst
  have hnumber : ((Lexer.ofSource src).scan src).kind.isNumber := by
    have hkind := h.kind
    rw [ht] at hkind
    obtain hkind | hkind := hkind
    · exact congrArg Kind.isNumber hkind
    · exact congrArg Kind.isNumber hkind
  have hstart : ((Lexer.ofSource src).scan src).start = 0 := by
    have hspan := congrArg Span.start h.span
    rwa [ht] at hspan
  have hstarts := Lexer.starts_of_scan (l := .ofSource src) rfl hnumber
  rw [hstart] at hstarts
  exact ⟨ht, hstarts⟩

/-- A number that is read is the one at the start of the text, up to the end and without a
report. -/
lemma isNumeral_iff : src.IsNumeral t
    ↔ Numeral.Starts src 0 ∧ (Numeral.lexemeAt src 0).errors = []
      ∧ (Numeral.lexemeAt src 0).stop = src.size
      ∧ t = ((Lexer.ofSource src).accept 0 (Numeral.lexemeAt src 0)).token := by
  constructor
  · intro h
    obtain ⟨ht, hstarts⟩ := h.starts
    rw [Lexer.scan_ofSource hstarts] at ht
    have hstop : (Numeral.lexemeAt src 0).stop = src.size := by
      have hlength := congrArg Span.length h.span
      rw [ht] at hlength
      exact hlength
    have hlog := h.log
    rw [(Lexer.scanAll_of_starts hstarts hstop).2] at hlog
    exact ⟨hstarts, Lexer.errors_of_log_accept hlog, hstop, ht⟩
  · rintro ⟨hstarts, herrors, hstop, rfl⟩
    obtain ⟨htokens, hlog⟩ := Lexer.scanAll_of_starts hstarts hstop
    refine ⟨?_, ?_, htokens, ?_⟩
    · change (Numeral.lexemeAt src 0).kind = _ ∨ (Numeral.lexemeAt src 0).kind = _
      rw [Numeral.kind_lexemeAt]
      cases (Numeral.bodyAt src 0).isFloat with
      | true => exact .inr rfl
      | false => exact .inl rfl
    · change Span.mk 0 ((Numeral.lexemeAt src 0).stop - 0) = _
      rw [hstop]
      rfl
    · rw [hlog]
      change #[] ++ (Numeral.lexemeAt src 0).errors.map _ = #[]
      rw [herrors]
      rfl

end Source

namespace Numeral

variable {text : String}

/-- A text that is read as a number is a word of the grammar. -/
lemma mem_of_isNumeral (h : (Source.ofString text).IsNumeral t) :
    ∃ isFloat, text.toList ∈ numerals isFloat
      ∧ t.kind = (if isFloat then .floatLiteral else .integerLiteral)
      ∧ t.value ++ t.suffix.getD "" = withoutSeparators text.toList := by
  obtain ⟨hstarts, herrors, hstop, rfl⟩ := Source.isNumeral_iff.1 h
  obtain ⟨word, rest, e, hword, hend, hvalue⟩ := numeral_inv hstarts Source.ahead_zero herrors
  have hahead : (Source.ofString text).Ahead 0 (word ++ rest) := e ▸ Source.ahead_zero
  have hrest : rest = [] := by
    have hsize := hahead.drop.size_eq
    rw [← hend, hstop] at hsize
    cases rest with
    | nil => rfl
    | cons c rest =>
      rw [Source.size_utf8Encode_cons] at hsize
      have := c.utf8Size_pos
      omega
  have htext : text.toList = word := by
    rw [← List.append_nil word, ← hrest]
    exact e
  rw [htext]
  exact ⟨_, hword, kind_lexemeAt, hvalue⟩

/-- A word of the grammar is read as a number of its kind. -/
lemma isNumeral_of_mem (isFloat : Bool) (h : text.toList ∈ numerals isFloat) :
    ∃ t, (Source.ofString text).IsNumeral t
      ∧ ∀ u, (Source.ofString text).IsNumeral u →
        u.kind = if isFloat then .floatLiteral else .integerLiteral := by
  obtain ⟨word, hword, width, -, e⟩ := Language.mem_mul.1 h
  have hcs : (Source.ofString text).Ahead 0 text.toList := Source.ahead_zero
  have hahead : (Source.ofString text).Ahead 0 (word ++ width) := e.symm ▸ hcs
  obtain ⟨herrors, hstop, hfloat⟩ := numeral_eq hcs h
  refine ⟨_, Source.isNumeral_iff.2 ⟨starts_zero hahead hword, herrors, hstop, rfl⟩, ?_⟩
  intro u hu
  obtain ⟨-, -, -, rfl⟩ := Source.isNumeral_iff.1 hu
  exact kind_lexemeAt.trans (by rw [hfloat])

end Numeral

/-- Numbers are read exactly as their grammar has them. A text is read as one number, up to its end
and without a report, just if it is an integer or a floating-point number of the grammar; it is of
the kind that the grammar says, and its digits and its width are all of it but the underscores. -/
theorem numerals_exact (text : String) :
    ((∃ t, (Source.ofString text).IsNumeral t)
        ↔ text.toList ∈ Numeral.integers + Numeral.floats)
      ∧ ∀ t, (Source.ofString text).IsNumeral t →
        (t.kind = .floatLiteral ↔ text.toList ∈ Numeral.floats)
          ∧ t.value ++ t.suffix.getD "" = String.ofList (text.toList.filter (· != '_')) := by
  refine ⟨⟨?_, ?_⟩, fun t ht => ?_⟩
  · rintro ⟨t, ht⟩
    obtain ⟨isFloat, hmem, -⟩ := Numeral.mem_of_isNumeral ht
    cases isFloat with
    | false => exact .inl hmem
    | true => exact .inr hmem
  · rintro (hmem | hmem)
    · obtain ⟨t, ht, -⟩ := Numeral.isNumeral_of_mem false hmem
      exact ⟨t, ht⟩
    · obtain ⟨t, ht, -⟩ := Numeral.isNumeral_of_mem true hmem
      exact ⟨t, ht⟩
  · obtain ⟨isFloat, hmem, hkind, hvalue⟩ := Numeral.mem_of_isNumeral ht
    refine ⟨⟨fun hfloat => ?_, fun hfloat => ?_⟩, hvalue⟩
    · cases isFloat with
      | false => exact nomatch hkind.symm.trans hfloat
      | true => exact hmem
    · obtain ⟨-, -, hall⟩ := Numeral.isNumeral_of_mem true hfloat
      exact hall t ht

/-- A hexadecimal number with underscores, a fraction, an exponent and a width. -/
def Numeral.sample : String :=
  "0xF_.8p-1_0f64"

def Numeral.sampleToken : Token where
  kind := .floatLiteral
  span := ⟨0, 14⟩
  value := "0xF.8p-10"
  suffix := some "f64"
  flags := { hexadecimal := true, suffixed := true }

/-- The sample is read as one number, and so it is a floating-point number of the grammar. -/
theorem numerals_exact_of_sample : (Source.ofString Numeral.sample).IsNumeral Numeral.sampleToken
    ∧ Numeral.sample.toList ∈ Numeral.floats
    ∧ Numeral.sampleToken.value ++ Numeral.sampleToken.suffix.getD "" = "0xF.8p-10f64" := by
  have tokens : ((Lexer.ofSource (.ofString Numeral.sample)).scanAll
      (.ofString Numeral.sample)).1.map Prod.fst
      = [Numeral.sampleToken, ⟨.endOfFile, ⟨14, 0⟩, "", none, {}⟩] := by decide +kernel
  have log : ((Lexer.ofSource (.ofString Numeral.sample)).scanAll
      (.ofString Numeral.sample)).2.log = #[] := by decide +kernel
  have h : (Source.ofString Numeral.sample).IsNumeral Numeral.sampleToken :=
    ⟨.inr rfl, by decide +kernel, ⟨_, rfl, tokens⟩, log⟩
  obtain ⟨hfloat, hvalue⟩ := (numerals_exact Numeral.sample).2 _ h
  exact ⟨h, hfloat.1 rfl, hvalue.trans (by decide +kernel)⟩

end CangjieSyntax
