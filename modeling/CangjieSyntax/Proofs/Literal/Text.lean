import CangjieSyntax.Proofs.Grammar.Operand

/-!
# Text as it is written in strings

A character of a string is written by itself, behind a backslash, or by its code point. However a
text is written, the lexer finds it again up to the next hole or to the end of the string.
-/

namespace CangjieSyntax

variable {src : Source} {quote : Quote} {multiLine : Bool} {pos : Nat} {c d : Char}
  {cs text word behind : List Char} {rule : EscapeRule}

/-- A hexadecimal digit, in either case. -/
structure HexDigit where
  value : Fin 16
  upper : Bool

namespace HexDigit

def char (d : HexDigit) : Char :=
  if d.upper then d.value.val.digitChar.toUpper else d.value.val.digitChar

/-- The number that digits write, the highest one first. -/
def number (digits : List HexDigit) : Nat :=
  digits.foldl (fun n d => 16 * n + d.value) 0

/-- The last digits of a number, so many of them. -/
def ofNat : Nat → Nat → List HexDigit
  | 0, _ => []
  | count + 1, n => ofNat count (n / 16) ++ [⟨Fin.ofNat 16 n, false⟩]

/-- The code point with the number that digits write. -/
def escape (digits : List HexDigit) : List Char :=
  '\\' :: 'u' :: '\x7b' :: (digits.map char ++ ['\x7d'])

end HexDigit

/-- A character on one line of a string, with a backslash in front of what must not stand there. -/
def Quote.escape (quote : Quote) (c : Char) : List Char :=
  if c = '\n' then ['\\', 'n']
  else if c = '\r' then ['\\', 'r']
  else if c ∈ ['\\', quote.char, '$'] then ['\\', c]
  else [c]

/-- A text as it may be written in a string: each character with a backslash where it needs one, or
by its code point. -/
inductive Quote.Writes (quote : Quote) : List Char → List Char → Prop
  | nil : Writes quote [] []
  | escaped (c : Char) {text cs : List Char} (tail : Writes quote text cs) :
    Writes quote (c :: text) (quote.escape c ++ cs)
  | codePoint (c : Char) (digits : List HexDigit) {text cs : List Char} (hne : digits ≠ [])
    (hcount : digits.length ≤ 8) (hvalue : HexDigit.number digits = c.toNat)
    (tail : Writes quote text cs) :
    Writes quote (c :: text) (HexDigit.escape digits ++ cs)

namespace HexDigit

/-- The byte of a digit. -/
def byte (d : HexDigit) : UInt8 :=
  d.char.val.toUInt8

lemma byte_spec (d : HexDigit) : String.utf8EncodeChar d.char = [d.byte]
    ∧ Byte.isHexDigit d.byte ∧ Escape.hexDigitValue d.byte = d.value := by
  have h : ∀ (value : Fin 16) (upper : Bool), String.utf8EncodeChar (char ⟨value, upper⟩)
      = [byte ⟨value, upper⟩] ∧ Byte.isHexDigit (byte ⟨value, upper⟩)
      ∧ Escape.hexDigitValue (byte ⟨value, upper⟩) = value := by decide +kernel
  exact h d.value d.upper

lemma encoded_digits (digits : List HexDigit) :
    Source.encoded (digits.map char) = digits.map byte := by
  induction digits with
  | nil => rfl
  | cons d digits ih =>
    rw [List.map_cons, List.map_cons, Source.encoded, List.flatMap_cons, ← Source.encoded, ih,
      d.byte_spec.1]
    rfl

lemma length_ofNat (count n : Nat) : (ofNat count n).length = count := by
  induction count generalizing n with
  | zero => rfl
  | succ count ih => rw [ofNat, List.length_append, ih, List.length_singleton]

lemma number_ofNat (count n : Nat) : number (ofNat count n) = n % 16 ^ count := by
  induction count generalizing n with
  | zero => rw [Nat.pow_zero, Nat.mod_one, ofNat, number, List.foldl_nil]
  | succ count ih =>
    have hlast : number (ofNat count (n / 16) ++ [⟨Fin.ofNat 16 n, false⟩])
        = 16 * number (ofNat count (n / 16)) + n % 16 := by
      rw [number, List.foldl_append]
      rfl
    rw [ofNat, hlast, ih, Nat.pow_succ, Nat.mul_comm (16 ^ count), Nat.mod_mul, Nat.add_comm]

lemma hexValue_digits (digits : List HexDigit) :
    Escape.hexValue (digits.map byte) = number digits := by
  rw [Escape.hexValue, number, List.foldl_map]
  congr
  funext n d
  rw [d.byte_spec.2.2]

end HexDigit

namespace Escape

/-- A backslash with one character behind it. -/
lemma read_simple {m : Char} {b : UInt8} (h : src.Ahead pos ('\\' :: m :: cs))
    (hm : String.utf8EncodeChar m = [b]) (hu : (b == 0x75) = false)
    (hsimple : simple? rule b = some c) :
    read src rule pos = { char := some c, stop := pos + 2 } := by
  have hencoded : Source.encoded ('\\' :: m :: cs) = 0x5C :: b :: Source.encoded cs := by
    rw [Source.encoded_cons, Source.encoded_cons, hm]
    rfl
  have hb := h.byteAt 1
  rw [hencoded] at hb
  rw [read, hb]
  dsimp only [List.getElem?_cons_succ, List.getElem?_cons_zero]
  rw [hu, if_neg Bool.false_ne_true, hsimple]

/-- The digits of a code point, up to the brace behind them. -/
lemma digits_ahead {digits : List HexDigit}
    (h : src.Ahead pos (digits.map HexDigit.char ++ '\x7d' :: cs)) :
    src.skipWhile Byte.isHexDigit pos = pos + digits.length
      ∧ src.byteAt (pos + digits.length) = some 0x7D
      ∧ (src.bytes.extract pos (pos + digits.length)).toList = digits.map HexDigit.byte := by
  have hlength : (Source.encoded (digits.map HexDigit.char)).length = digits.length := by
    rw [HexDigit.encoded_digits, List.length_map]
  have hbehind := h.drop
  rw [Source.size_utf8Encode, hlength] at hbehind
  refine ⟨?_, hbehind.byteAt 0, ?_⟩
  · rw [← hlength]
    refine h.skipWhile_eq ?_ ?_
    · rw [HexDigit.encoded_digits, List.forall_mem_map]
      exact fun d _ => d.byte_spec.2.1
    · rintro _ ⟨⟩
      rfl
  · rw [← hlength, ← Source.size_utf8Encode, h.extract, Source.toList_utf8Encode,
      HexDigit.encoded_digits]

/-- A code point between its braces. -/
lemma read_codePoint {digits : List HexDigit} (h : src.Ahead pos (HexDigit.escape digits ++ cs))
    (hne : digits ≠ []) (hcount : digits.length ≤ rule.maxDigits)
    (hvalue : HexDigit.number digits = c.toNat) :
    read src rule pos
      = { char := some c, stop := pos + (Source.encoded (HexDigit.escape digits)).length } := by
  have hlength : (Source.encoded (HexDigit.escape digits)).length = 3 + (digits.length + 1) := by
    have hopening : Source.encoded ['\\', 'u', '\x7b'] = [0x5C, 0x75, 0x7B] := rfl
    have hclosing : Source.encoded ['\x7d'] = [0x7D] := rfl
    change (Source.encoded (['\\', 'u', '\x7b'] ++ (digits.map HexDigit.char ++ ['\x7d']))).length
      = _
    rw [Source.encoded_append, Source.encoded_append, HexDigit.encoded_digits, hopening, hclosing,
      List.length_append, List.length_append, List.length_map]
    rfl
  have hescape : HexDigit.escape digits ++ cs
      = ['\\', 'u', '\x7b'] ++ (digits.map HexDigit.char ++ '\x7d' :: cs) :=
    congrArg (['\\', 'u', '\x7b'] ++ ·) (List.append_assoc ..)
  rw [hescape] at h
  obtain ⟨hstop, hclosed, hdigits⟩ := digits_ahead h.drop
  have hletter : src.byteAt (pos + 1) = some 0x75 := h.byteAt 1
  have hbrace : src.byteAt (pos + 2) = some 0x7B := h.byteAt 2
  have hvalid : c.toNat.isValidChar := c.valid
  have hthree : pos + ['\\', 'u', '\x7b'].utf8Encode.size = pos + 3 := rfl
  rw [hthree] at hstop hclosed hdigits
  rw [read, hletter]
  dsimp only
  rw [beq_self_eq_true, if_pos rfl, readCodePoint, if_pos (beq_iff_eq.2 hbrace)]
  dsimp only
  rw [hstop, hclosed, Nat.add_sub_cancel_left, hdigits, HexDigit.hexValue_digits, hvalue,
    if_pos hvalid, Char.ofNat_toNat]
  simp [hne, hcount, hlength, Nat.add_assoc]

end Escape

/-! ## Written text -/

namespace Quote

/-- The characters that never stand by themselves in a text. -/
def reserved (quote : Quote) : List Char :=
  [quote.char, '$', '\n', '\r']

lemma slash_not_reserved (quote : Quote) : '\\' ∉ quote.reserved := by
  cases quote <;> decide

/-- An escaped character stands by itself, or behind a backslash in front of some byte. -/
lemma escape_cases (quote : Quote) (c : Char) :
    (quote.escape c = [c] ∧ c ≠ '\\' ∧ c ∉ quote.reserved)
      ∨ ∃ m b, quote.escape c = ['\\', m] ∧ String.utf8EncodeChar m = [b] ∧ (b == 0x75) = false
        ∧ Escape.simple? .text b = some c := by
  rw [escape]
  split_ifs with hfeed hreturn hmark
  · exact .inr ⟨'n', 0x6E, rfl, rfl, rfl, hfeed ▸ rfl⟩
  · exact .inr ⟨'r', 0x72, rfl, rfl, rfl, hreturn ▸ rfl⟩
  · rw [List.mem_cons, List.mem_pair] at hmark
    obtain rfl | rfl | rfl := hmark
    · exact .inr ⟨'\\', 0x5C, rfl, rfl, rfl, rfl⟩
    · exact .inr ⟨quote.char, quote.byte, rfl, quote.utf8EncodeChar_char, by cases quote <;> rfl,
        by cases quote <;> rfl⟩
    · exact .inr ⟨'$', 0x24, rfl, rfl, rfl, rfl⟩
  · rw [List.mem_cons, List.mem_pair, not_or, not_or] at hmark
    exact .inl ⟨rfl, hmark.1, by simp [reserved, hmark.2, hfeed, hreturn]⟩

lemma Writes.head (h : quote.Writes text cs) (hne : text ≠ []) :
    ∃ d ds, cs = d :: ds ∧ d ∉ quote.reserved := by
  cases h with
  | nil => exact absurd rfl hne
  | escaped c =>
    obtain ⟨e, -, hc⟩ | ⟨m, b, e, -⟩ := quote.escape_cases c
    · exact ⟨c, _, by rw [e]; rfl, hc⟩
    · exact ⟨'\\', _, by rw [e]; rfl, quote.slash_not_reserved⟩
  | codePoint => exact ⟨'\\', _, rfl, quote.slash_not_reserved⟩

/-- Every text can be written with backslashes. -/
lemma writes_escape (quote : Quote) (text : List Char) :
    quote.Writes text (text.flatMap quote.escape) := by
  induction text with
  | nil => exact .nil
  | cons c text ih => exact .escaped c ih

/-- Every text can be written by code points. -/
lemma writes_codePoints (quote : Quote) (text : List Char) :
    quote.Writes text (text.flatMap fun c => HexDigit.escape (HexDigit.ofNat 8 c.toNat)) := by
  induction text with
  | nil => exact .nil
  | cons c text ih =>
    have hlt : c.toNat < 16 ^ 8 := Nat.lt_of_lt_of_le c.val.toNat_lt (by decide)
    have hcount := HexDigit.length_ofNat 8 c.toNat
    refine .codePoint c _ (fun e => ?_) (Nat.le_of_eq hcount) ?_ ih
    · rw [e] at hcount
      exact absurd hcount (by decide)
    · rw [HexDigit.number_ofNat, Nat.mod_eq_of_lt hlt]

end Quote

namespace StringText

/-- Where another character stands than the quote, the string does not close. -/
lemma closes_of_ne (h : src.Ahead pos (d :: cs)) (hd : d ≠ quote.char) :
    closes src quote multiLine pos = false := by
  have hquote : (src.byteAt pos == some quote.byte) = false :=
    h.byteAt_ne quote.utf8EncodeChar_char hd
  rw [closes]
  split
  · rw [Source.startsWith, hquote, Bool.false_and]
  · exact hquote

/-- Where another character stands than a reserved one, the text goes on. -/
lemma goes_on (h : src.Ahead pos (d :: cs)) (hd : d ∉ quote.reserved) (multiLine : Bool) :
    pos < src.size ∧ closes src quote multiLine pos = false ∧ opensHole src pos = false
      ∧ breaksOff src multiLine pos = false := by
  have apart {m : Char} (hm : m ∈ quote.reserved) {b : UInt8} (hb : String.utf8EncodeChar m = [b]) :
      (src.byteAt pos == some b) = false := by
    apply h.byteAt_ne hb
    rintro rfl
    exact hd hm
  have hdollar : (src.byteAt pos == some 0x24) = false :=
    apart (m := '$') (by simp [Quote.reserved]) rfl
  have hfeed : (src.byteAt pos == some 0x0A) = false :=
    apart (m := '\n') (by simp [Quote.reserved]) rfl
  have hreturn : (src.byteAt pos == some 0x0D) = false :=
    apart (m := '\r') (by simp [Quote.reserved]) rfl
  refine ⟨Source.lt_size_of_charAt h.charAt, closes_of_ne h ?_, ?_, ?_⟩
  · rintro rfl
    exact hd List.mem_cons_self
  · rw [opensHole, hdollar, Bool.false_and]
  · rw [breaksOff, Source.byteIs]
    cases hb : src.byteAt pos with
    | none => exact Bool.and_false _
    | some b =>
      rw [hb, Option.some_beq_some] at hfeed hreturn
      rw [Option.any_some, Byte.isLineBreak, hfeed, hreturn]
      exact Bool.and_false _

/-- A character and what it is written with are the first of the content. -/
def Takes (src : Source) (quote : Quote) (multiLine : Bool) (pos : Nat) (c : Char)
    (cs : List Char) : Prop :=
  readContent src quote multiLine pos
    = { readContent src quote multiLine (pos + (Source.encoded cs).length) with
        text := c :: (readContent src quote multiLine (pos + (Source.encoded cs).length)).text }

/-- One character by itself. -/
lemma takes_plain (h : src.Ahead pos (c :: cs)) (hslash : c ≠ '\\') (hc : c ∉ quote.reserved) :
    Takes src quote multiLine pos c [c] := by
  obtain ⟨hlt, hcloses, hhole, hbreaks⟩ := goes_on h hc multiLine
  have hplain : (src.byteAt pos == some 0x5C) = false := h.byteAt_ne (c := '\\') rfl hslash
  have hchar : src.charAtD pos = c := by
    rw [Source.charAtD, h.charAt]
    rfl
  have hlength : (Source.encoded [c]).length = c.utf8Size := by
    rw [Source.encoded, List.flatMap_singleton, String.length_utf8EncodeChar]
  rw [Takes, hlength, readContent, dif_neg (Nat.not_le.2 hlt), hcloses, hhole, hbreaks, hplain,
    hchar]
  rfl

/-- One character behind a backslash. -/
lemma takes_escape {behind : List Char} (h : src.Ahead pos ('\\' :: behind))
    (hread : Escape.read src .text pos
      = { char := some c, stop := pos + (Source.encoded cs).length }) :
    Takes src quote multiLine pos c cs := by
  obtain ⟨hlt, hcloses, hhole, hbreaks⟩ := goes_on h quote.slash_not_reserved multiLine
  have hslash : src.byteAt pos = some 0x5C := h.byteAt 0
  rw [Takes, readContent, dif_neg (Nat.not_le.2 hlt), hcloses, hhole, hbreaks, hslash, hread]
  rfl

/-- Where the string or its piece ends, no content is left. -/
lemma readContent_end (h : closes src quote multiLine pos ∨ opensHole src pos) :
    readContent src quote multiLine pos = { stop := pos } := by
  rw [readContent]
  split
  case isTrue => rfl
  case isFalse =>
    rw [if_pos]
    obtain e | e := h <;> rw [e]
    · rfl
    · rw [Bool.or_true, Bool.true_or]

lemma Takes.cons (h : Takes src quote multiLine pos c word)
    (hahead : src.Ahead pos (word ++ (cs ++ behind)))
    (hends : closes src quote multiLine (pos + (Source.encoded (word ++ cs)).length)
      ∨ opensHole src (pos + (Source.encoded (word ++ cs)).length))
    (hrest : ∀ {pos}, src.Ahead pos (cs ++ behind) →
      closes src quote multiLine (pos + (Source.encoded cs).length)
        ∨ opensHole src (pos + (Source.encoded cs).length) →
      readContent src quote multiLine pos
        = { stop := pos + (Source.encoded cs).length, text := text }) :
    readContent src quote multiLine pos
      = { stop := pos + (Source.encoded (word ++ cs)).length, text := c :: text } := by
  have hdrop := hahead.drop
  rw [Source.size_utf8Encode] at hdrop
  rw [Source.encoded_append, List.length_append, ← Nat.add_assoc] at hends ⊢
  rw [h, hrest hdrop hends]

/-- A text is found again, however it is written. -/
lemma readContent_writes (h : quote.Writes text cs) (hahead : src.Ahead pos (cs ++ behind))
    (hends : closes src quote multiLine (pos + (Source.encoded cs).length)
      ∨ opensHole src (pos + (Source.encoded cs).length)) :
    readContent src quote multiLine pos
      = { stop := pos + (Source.encoded cs).length, text := text } := by
  induction h generalizing pos with
  | nil => exact readContent_end hends
  | @escaped c text cs tail ih =>
    rw [List.append_assoc] at hahead
    have takes : Takes src quote multiLine pos c (quote.escape c) := by
      obtain ⟨e, hslash, hc⟩ | ⟨m, b, e, hm, hu, hsimple⟩ := quote.escape_cases c
      · rw [e] at hahead ⊢
        exact takes_plain hahead hslash hc
      · have hlength : (Source.encoded ['\\', m]).length = 2 := by
          rw [Source.encoded_cons, Source.encoded_cons, hm]
          rfl
        rw [e] at hahead ⊢
        apply takes_escape hahead
        rw [hlength]
        exact Escape.read_simple hahead hm hu hsimple
    exact takes.cons hahead hends ih
  | @codePoint c digits text cs hne hcount hvalue tail ih =>
    rw [List.append_assoc] at hahead
    have takes : Takes src quote multiLine pos c (HexDigit.escape digits) :=
      takes_escape hahead (Escape.read_codePoint hahead hne hcount hvalue)
    exact takes.cons hahead hends ih

end StringText

end CangjieSyntax
