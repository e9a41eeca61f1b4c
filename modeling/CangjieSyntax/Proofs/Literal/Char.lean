import CangjieSyntax.Proofs.Comment.Parse
import CangjieSyntax.Proofs.Grammar.Lexing
import CangjieSyntax.Proofs.Lexical
import CangjieSyntax.Proofs.Literal.RawString
import CangjieSyntax.Proofs.Literal.Text
import CangjieSyntax.Proofs.Token.Balance
import CangjieSyntax.Proofs.Token.Change

/-!
# Runes, bytes and byte strings

A character is written by itself, by its mark behind a backslash, or by its code point. A rune or a
byte is one character between quotes, and a byte string is one character for each of its bytes.
However they are written, a parse finds the character or the bytes again.
-/

namespace CangjieSyntax

/-- The marks that stand for other characters, or for themselves, behind a backslash. -/
def Escape.marks (isByte : Bool) : List (Char × Char) :=
  [('t', '\t'), ('b', '\x08'), ('r', '\r'), ('n', '\n'), ('\'', '\''), ('"', '"'), ('\\', '\\'),
    ('f', '\x0c'), ('v', '\x0b'), ('0', '\x00')] ++ if isByte then [] else [('$', '$')]

/-- The escapes of bytes and of runes. -/
def EscapeRule.ofChar (isByte : Bool) : EscapeRule :=
  if isByte then .byte else .text

/-- The character with the code of a byte. -/
def Literal.charOfByte (b : UInt8) : Char :=
  Char.ofNat b.toNat

namespace CharLiteral

variable {src : Source} {modes : List Mode} {isByte : Bool} {quote : Quote} {pos : Nat} {c d : Char}
  {b : UInt8} {bytes : List UInt8} {cs ds word behind : List Char}

/-! ## What is written -/

/-- The characters that never stand by themselves in a literal. -/
def reserved (quote : Quote) : List Char :=
  [quote.char, '\n', '\r']

/-- A character as it may be written in a rune, a byte or a byte string. -/
inductive Writes (isByte : Bool) (quote : Quote) (c : Char) : List Char → Prop
  | plain (hslash : c ≠ '\\') (hc : c ∉ reserved quote) (hascii : isByte → c.val < 0x80) :
    Writes isByte quote c [c]
  | mark (m : Char) (h : (m, c) ∈ Escape.marks isByte) : Writes isByte quote c ['\\', m]
  | codePoint (digits : List HexDigit) (hne : digits ≠ [])
    (hcount : digits.length ≤ (EscapeRule.ofChar isByte).maxDigits)
    (hvalue : HexDigit.number digits = c.toNat) : Writes isByte quote c (HexDigit.escape digits)

/-- Bytes as they may be written in a byte string, one by one. -/
inductive WritesBytes : List UInt8 → List Char → Prop
  | nil : WritesBytes [] []
  | cons {b : UInt8} {bytes : List UInt8} {word cs : List Char}
    (head : Writes true .double (Literal.charOfByte b) word) (tail : WritesBytes bytes cs) :
    WritesBytes (b :: bytes) (word ++ cs)

/-- A literal with its letter and its quotes. -/
def chars (isByte : Bool) (quote : Quote) (cs : List Char) : List Char :=
  (if isByte then 'b' else 'r') :: quote.char :: (cs ++ [quote.char])

/-- A character can be written by its code point, if that has no more digits than allowed. -/
lemma writes_codePoint (isByte : Bool) (quote : Quote)
    (h : c.toNat < 16 ^ (EscapeRule.ofChar isByte).maxDigits) :
    Writes isByte quote c
      (HexDigit.escape (HexDigit.ofNat (EscapeRule.ofChar isByte).maxDigits c.toNat)) := by
  have hcount := HexDigit.length_ofNat (EscapeRule.ofChar isByte).maxDigits c.toNat
  refine .codePoint _ (fun e => ?_) (Nat.le_of_eq hcount) ?_
  · rw [e] at hcount
    cases isByte <;> exact absurd hcount (by decide)
  · rw [HexDigit.number_ofNat, Nat.mod_eq_of_lt h]

/-- Every character can be written as a rune. -/
lemma writes_rune (quote : Quote) (c : Char) :
    Writes false quote c (HexDigit.escape (HexDigit.ofNat 8 c.toNat)) :=
  writes_codePoint false quote (Nat.lt_of_lt_of_le c.val.toNat_lt (by decide))

lemma toNat_charOfByte (b : UInt8) : (Literal.charOfByte b).toNat = b.toNat := by
  have hvalid : b.toNat.isValidChar := .inl (Nat.lt_trans b.toNat_lt (by decide))
  rw [Literal.charOfByte, Char.ofNat, dif_pos hvalid]
  rfl

/-- Every byte can be written by two digits. -/
lemma writes_byte (quote : Quote) (b : UInt8) :
    Writes true quote (Literal.charOfByte b) (HexDigit.escape (HexDigit.ofNat 2 b.toNat)) := by
  rw [← toNat_charOfByte]
  exact writes_codePoint true quote ((toNat_charOfByte b).symm ▸ b.toNat_lt)

lemma byteOfChar_charOfByte (b : UInt8) : Literal.byteOfChar (Literal.charOfByte b) = b := by
  have key : ∀ n < 256,
      Literal.byteOfChar (Literal.charOfByte (UInt8.ofNat n)) = UInt8.ofNat n := by decide +kernel
  have := key b.toNat b.toNat_lt
  rwa [UInt8.ofNat_toNat] at this

lemma slash_not_reserved (quote : Quote) : '\\' ∉ reserved quote := by
  cases quote <;> decide

/-- A character is written by itself or behind a backslash, never with a reserved one in front. -/
lemma Writes.head (h : Writes isByte quote c word) :
    ∃ d ds, word = d :: ds ∧ d ∉ reserved quote := by
  cases h with
  | plain _ hc => exact ⟨c, [], rfl, hc⟩
  | mark m => exact ⟨'\\', [m], rfl, slash_not_reserved quote⟩
  | codePoint => exact ⟨'\\', _, rfl, slash_not_reserved quote⟩

/-! ## What is read -/

lemma simple?_of_marks {m : Char} (h : (m, c) ∈ Escape.marks isByte) :
    ∃ b, String.utf8EncodeChar m = [b] ∧ (b == 0x75) = false
      ∧ Escape.simple? (.ofChar isByte) b = some c := by
  have table : ∀ isByte, ∀ e ∈ Escape.marks isByte, String.utf8EncodeChar e.1 = [e.1.val.toUInt8]
      ∧ (e.1.val.toUInt8 == 0x75) = false
      ∧ Escape.simple? (.ofChar isByte) e.1.val.toUInt8 = some e.2 := by
    decide +kernel
  exact ⟨_, table isByte _ h⟩

/-- What is found where a character is written: the character by itself, or an escape for it. -/
lemma Writes.found (h : Writes isByte quote c word) (hahead : src.Ahead pos (word ++ behind)) :
    ((src.byteAt pos == some 0x5C) = false ∧ src.charAtD pos = c
        ∧ pos + c.utf8Size = pos + (Source.encoded word).length ∧ (isByte → c.val < 0x80))
      ∨ src.byteAt pos = some 0x5C ∧ Escape.read src (.ofChar isByte) pos
        = { char := some c, stop := pos + (Source.encoded word).length } := by
  cases h with
  | plain hslash hc hascii =>
    have hlength : (Source.encoded [c]).length = c.utf8Size := by
      rw [Source.encoded, List.flatMap_singleton, String.length_utf8EncodeChar]
    refine .inl ⟨hahead.byteAt_ne (c := '\\') rfl hslash, ?_, by rw [hlength], hascii⟩
    rw [Source.charAtD, Source.Ahead.charAt hahead]
    rfl
  | mark m hm =>
    obtain ⟨b, hb, hu, hsimple⟩ := simple?_of_marks hm
    have hlength : (Source.encoded ['\\', m]).length = 2 := by
      rw [Source.encoded_cons, Source.encoded_cons, hb]
      rfl
    refine .inr ⟨hahead.byteAt 0, ?_⟩
    rw [hlength]
    exact Escape.read_simple hahead hb hu hsimple
  | codePoint digits hne hcount hvalue =>
    exact .inr ⟨hahead.byteAt 0, Escape.read_codePoint hahead hne hcount hvalue⟩

/-- Neither the quote nor the end of the line or of the text is where a character is written. -/
lemma Writes.goes_on (h : Writes isByte quote c word) (hahead : src.Ahead pos (word ++ behind)) :
    pos < src.size ∧ src.byteIs pos Byte.isLineBreak = false
      ∧ (src.byteAt pos == some quote.byte) = false := by
  obtain ⟨d, ds, rfl, hd⟩ := h.head
  have apart {m : Char} (hm : m ∈ reserved quote) {b : UInt8} (hb : String.utf8EncodeChar m = [b]) :
      (src.byteAt pos == some b) = false := by
    apply hahead.byteAt_ne hb
    rintro rfl
    exact hd hm
  have hfeed : (src.byteAt pos == some 0x0A) = false :=
    apart (m := '\n') (by simp [reserved]) rfl
  have hreturn : (src.byteAt pos == some 0x0D) = false :=
    apart (m := '\r') (by simp [reserved]) rfl
  refine ⟨Source.lt_size_of_charAt hahead.charAt, ?_,
    apart (m := quote.char) (by simp [reserved]) quote.utf8EncodeChar_char⟩
  rw [Source.byteIs]
  cases hb : src.byteAt pos with
  | none => rfl
  | some b =>
    rw [hb, Option.some_beq_some] at hfeed hreturn
    rw [Option.any_some, Byte.isLineBreak, hfeed, hreturn]
    rfl

lemma readBody_writes (h : Writes isByte quote c word) (hahead : src.Ahead pos (word ++ behind)) :
    readBody src isByte pos
      = { char := some c, stop := pos + (Source.encoded word).length } := by
  obtain ⟨hplain, hchar, hstop, hascii⟩ | ⟨hslash, hread⟩ := h.found hahead
  · have herror : (isByte && decide (0x80 ≤ c.val)) = false := by
      rw [Bool.and_eq_false_iff, decide_eq_false_iff_not, UInt32.not_le]
      cases isByte with
      | false => exact .inl rfl
      | true => exact .inr (hascii rfl)
    rw [readBody, if_neg (Bool.eq_false_iff.1 hplain)]
    dsimp only
    rw [hchar, herror, hstop]
    rfl
  · have hbyte : (src.byteAt pos == some 0x5C) = true := beq_iff_eq.2 hslash
    rw [readBody, if_pos hbyte]
    dsimp only
    rw [EscapeRule.ofChar] at hread
    rw [hread]
    rfl

/-- The first byte of a literal, and what stands behind its quote. -/
lemma literal_ahead (h : src.Ahead pos (chars isByte quote cs ++ behind)) :
    src.byteAt pos = some (if isByte then 0x62 else 0x72)
      ∧ src.byteAt (pos + 1) = some quote.byte
      ∧ src.Ahead (pos + 2) (cs ++ quote.char :: behind)
      ∧ pos + (Source.encoded (chars isByte quote cs)).length
        = pos + 2 + (Source.encoded cs).length + 1 := by
  have hsize : quote.char.utf8Size = 1 := by
    cases quote <;> rfl
  have hletter : (if isByte then 'b' else 'r').utf8Size = 1 := by
    cases isByte <;> rfl
  rw [chars, List.cons_append, List.cons_append, List.append_assoc] at h
  have htail := h.tail
  rw [hletter] at htail
  have hinside := htail.tail
  rw [hsize] at hinside
  refine ⟨?_, htail.byteAt_quote, hinside, ?_⟩
  · have hfirst := h.byteAt 0
    cases isByte <;> exact hfirst
  · rw [chars, Source.encoded_cons, Source.encoded_cons, Source.encoded_append, Source.encoded_cons,
      quote.utf8EncodeChar_char, List.length_append, List.length_append, List.length_append,
      String.length_utf8EncodeChar, hletter]
    change pos + (1 + (1 + (_ + 1))) = _
    omega

/-- A rune or a byte has the character that is written in it. -/
lemma read_writes (h : Writes isByte quote c word)
    (hahead : src.Ahead pos (chars isByte quote word ++ behind)) :
    read src isByte quote pos
      = { kind := if isByte then .byteLiteral else .runeLiteral
          stop := pos + (Source.encoded (chars isByte quote word)).length
          value := String.ofList [c] } := by
  obtain ⟨-, -, hinside, hstop⟩ := literal_ahead hahead
  obtain ⟨hlt, hbreak, hquote⟩ := h.goes_on hinside
  have hclose := hinside.drop
  rw [Source.size_utf8Encode] at hclose
  have hend : (decide (src.size ≤ pos + 2) || src.byteIs (pos + 2) Byte.isLineBreak) = false := by
    rw [hbreak, Bool.or_false, decide_eq_false_iff_not]
    exact Nat.not_le.2 hlt
  rw [read]
  dsimp only
  rw [hend, hquote, readBody_writes h hinside, hclose.byteAt_quote, hstop]
  simp

/-- A byte string has the bytes that are written in it. -/
lemma readByteText_writes (h : WritesBytes bytes cs)
    (hahead : src.Ahead pos (cs ++ '"' :: behind)) :
    readByteText src pos
      = { stop := pos + (Source.encoded cs).length + 1, text := bytes.map Literal.charOfByte
          closed := true } := by
  induction h generalizing pos with
  | nil =>
    have hquote : src.byteAt pos = some 0x22 := hahead.byteAt 0
    have hlt : pos < src.size := Source.lt_size_of_byteAt hquote
    rw [readByteText, dif_neg (Nat.not_le.2 hlt), Source.byteIs, hquote]
    rfl
  | @cons b bytes word cs head tail ih =>
    rw [List.append_assoc] at hahead
    obtain ⟨hlt, hbreak, hquote⟩ := head.goes_on hahead
    have hrest := ih (Source.size_utf8Encode word ▸ hahead.drop)
    have hlength : pos + (Source.encoded (word ++ cs)).length + 1
        = pos + (Source.encoded word).length + (Source.encoded cs).length + 1 := by
      rw [Source.encoded_append, List.length_append, ← Nat.add_assoc]
    have hquote : (src.byteAt pos == some 0x22) = false := hquote
    rw [readByteText, dif_neg (Nat.not_le.2 hlt), hbreak, hquote, hlength]
    obtain ⟨hplain, hchar, hstop, hascii⟩ | ⟨hslash, hread⟩ := head.found hahead
    · dsimp only
      rw [hplain, hchar, hstop, hrest, if_pos (hascii rfl)]
      rfl
    · have hread : Escape.read src .byte pos = _ := hread
      have hbyte : (src.byteAt pos == some 0x5C) = true := beq_iff_eq.2 hslash
      dsimp only
      rw [hbyte, hread, hrest]
      rfl

lemma readByteString_writes (h : WritesBytes bytes cs)
    (hahead : src.Ahead pos (chars true .double cs ++ behind)) :
    readByteString src pos
      = { kind := .byteStringLiteral
          stop := pos + (Source.encoded (chars true .double cs)).length
          value := String.ofList (bytes.map Literal.charOfByte) } := by
  obtain ⟨-, -, hinside, hstop⟩ := literal_ahead hahead
  rw [readByteString, readByteText_writes h hinside, hstop]
  rfl

/-- The letter with a quote behind it decides how a literal is read. -/
lemma readCode_literal (modes : List Mode)
    (hahead : src.Ahead pos (chars isByte quote cs ++ behind)) :
    Lexeme.readCode src modes pos (if isByte then 0x62 else 0x72)
      = if isByte ∧ quote = .double then readByteString src pos
        else read src isByte quote pos := by
  obtain ⟨hfirst, hquote, -⟩ := literal_ahead hahead
  have hpoint : Numeral.startsWithPoint src pos = false := by
    rw [Numeral.startsWithPoint, hfirst]
    cases isByte <;> rfl
  have hbehind : (src.byteAt (pos + 1)).bind Quote.ofByte? = some quote := by
    rw [hquote]
    cases quote <;> rfl
  unfold Lexeme.readCode
  rw [hpoint, hbehind]
  cases isByte <;> cases quote <;> rfl

end CharLiteral

/-! ## Literals read back -/

namespace Shape.Spelled

variable {modes : List Mode} {isByte : Bool} {quote : Quote} {c : Char} {bytes : List UInt8}
  {cs behind : List Char}

lemma of_charLiteral {p : Shape} (hcode : (Mode.top modes).isCode) (hknown : p.kind ≠ .unknown)
    (hread : ∀ {src : Source} {pos : Nat},
      src.Ahead pos (CharLiteral.chars isByte quote cs ++ behind) →
      Lexeme.readCode src modes pos (if isByte then 0x62 else 0x72)
        = { kind := p.kind
            stop := pos + (Source.encoded (CharLiteral.chars isByte quote cs)).length
            value := p.value }) :
    Spelled modes modes [p] (CharLiteral.chars isByte quote cs) behind := by
  have hgap : ∀ c ∈ [], c ∈ Tile.blanks ∧ c ∉ Tile.lineBreaks := List.forall_mem_nil _
  apply of_standsAt .stay hcode (List.cons_ne_nil _ _) hgap hknown
  intro src pos hahead
  have hfirst := (CharLiteral.literal_ahead hahead).1
  refine ⟨_, hfirst, ?_, ?_, ?_, hread hahead⟩ <;> cases isByte <;> decide

/-- A rune or a byte, but for bytes only between single quotes. -/
lemma charLiteral (hcode : (Mode.top modes).isCode) (hquote : isByte → quote = .single)
    (h : CharLiteral.Writes isByte quote c cs) :
    Spelled modes modes
      [⟨if isByte then .byteLiteral else .runeLiteral, String.ofList [c]⟩]
      (CharLiteral.chars isByte quote cs) behind := by
  apply of_charLiteral hcode
  · cases isByte <;> rintro ⟨⟩
  · intro src pos hahead
    rw [CharLiteral.readCode_literal modes hahead, if_neg, CharLiteral.read_writes h hahead]
    rintro ⟨hbyte, rfl⟩
    exact nomatch hquote hbyte

lemma byteString (hcode : (Mode.top modes).isCode) (h : CharLiteral.WritesBytes bytes cs) :
    Spelled modes modes [⟨.byteStringLiteral, String.ofList (bytes.map Literal.charOfByte)⟩]
      (CharLiteral.chars true .double cs) behind := by
  apply of_charLiteral hcode
  · rintro ⟨⟩
  · intro src pos hahead
    rw [CharLiteral.readCode_literal modes hahead, if_pos ⟨rfl, rfl⟩,
      CharLiteral.readByteString_writes h hahead]

end Shape.Spelled

/-- A text is parsed as one literal, with nothing behind it and nothing to report. -/
def Literal.ReadsBack (settings : Settings) (cs : List Char) (l : Literal) : Prop :=
  ∃ p, parseExpression (String.ofList cs).toUTF8 0 settings = some p ∧ p.diagnostics = #[]
    ∧ p.next = (String.ofList cs).toUTF8.size
    ∧ ∃ span, p.nodes.exprs.get? p.expr = some ⟨.literal l, span⟩

namespace Literal

variable {settings : Settings} {quote : Quote} {c : Char} {b : UInt8} {bytes : List UInt8}
  {cs : List Char}

/-- What is spelled as one token is parsed as the literal of the token. -/
lemma readsBack_of_spelled {p : Shape} {l : Literal} (hdepth : 0 < settings.maxDepth)
    (hkind : p.kind ∈ [.runeLiteral, .byteLiteral, .byteStringLiteral, .rawStringLiteral])
    (h : Shape.Spelled [.code 0] [.code 0] [p] cs [])
    (hl : ∀ (src : Source) (t : Token), t.kind = p.kind → t.value = p.value →
      ofToken src t = l) : ReadsBack settings cs l := by
  have hne : p.kind ≠ .interpolationEnd ∧ Rule.unaryOp? p.kind = none := by
    simp only [List.mem_cons, List.not_mem_nil, or_false] at hkind
    obtain e | e | e | e := hkind <;> rw [e] <;> exact ⟨nofun, rfl⟩
  have htext : (Source.ofString (String.ofList cs)).text.toList = cs := String.toList_ofList
  refine parseExpression_crosses
    (fun id nodes => ∃ span, nodes.exprs.get? id = some ⟨.literal l, span⟩)
    (Shape.Spelled.offers (htext.symm ▸ h)) (.inl (List.forall_mem_singleton.2 hne.1)) hdepth hne.2
    fun s hs _ _ _ => ?_
  have hliteral := hl (.ofString (String.ofList cs)) s.lexer.token ?_ hs.value_eq
  · exact hliteral ▸ Rule.crosses_chainLiteral hs hkind List.mem_cons_self
  · have hk := hs.kind_eq
    rw [ParseState.kind, hs.tentative] at hk
    exact hk

lemma readsBack_rune (hdepth : 0 < settings.maxDepth) (h : CharLiteral.Writes false quote c cs) :
    ReadsBack settings (CharLiteral.chars false quote cs) (.rune c) := by
  refine readsBack_of_spelled hdepth List.mem_cons_self (.charLiteral rfl nofun h)
    fun src t hkind hvalue => ?_
  rw [ofToken, hkind, hvalue, if_neg Bool.false_ne_true]
  dsimp only
  rw [String.toList_ofList]
  rfl

lemma readsBack_byte (hdepth : 0 < settings.maxDepth)
    (h : CharLiteral.Writes true .single (Literal.charOfByte b) cs) :
    ReadsBack settings (CharLiteral.chars true .single cs) (.byte b) := by
  refine readsBack_of_spelled hdepth (by simp) (.charLiteral rfl (fun _ => rfl) h)
    fun src t hkind hvalue => ?_
  rw [ofToken, hkind, hvalue, if_pos rfl]
  dsimp only
  rw [String.toList_ofList]
  exact congrArg Literal.byte (CharLiteral.byteOfChar_charOfByte b)

lemma readsBack_byteString (hdepth : 0 < settings.maxDepth) (h : CharLiteral.WritesBytes bytes cs) :
    ReadsBack settings (CharLiteral.chars true .double cs) (.byteString bytes) := by
  refine readsBack_of_spelled hdepth (by simp) (.byteString rfl h) fun src t hkind hvalue => ?_
  have hbytes : (bytes.map charOfByte).map byteOfChar = bytes := by
    rw [List.map_map]
    exact (List.map_congr_left fun b _ => CharLiteral.byteOfChar_charOfByte b).trans (List.map_id _)
  rw [ofToken, hkind, hvalue]
  dsimp only
  rw [String.toList_ofList, hbytes]

end Literal

end CangjieSyntax

/-!
## What runes and bytes hold

Where no lexical error is found, a rune or a byte holds exactly one character, and the characters of
bytes are codes of bytes. So no literal of a parse without lexical errors has a character or a byte
of its own that stands for a missing one.
-/

namespace CangjieSyntax

variable {src : Source} {modes : List Mode} {pos start : Nat} {b first : UInt8} {c : Char}
  {rule : EscapeRule} {isByte : Bool} {quote : Quote} {l m last : Lexer} {states : List Lexer}

/-- A rune or a byte has one character, and bytes have codes of bytes. -/
structure Kind.Fits (k : Kind) (value : String) : Prop where
  single : k = .runeLiteral ∨ k = .byteLiteral → ∃ c, value.toList = [c]
  codes : k = .byteLiteral ∨ k = .byteStringLiteral → ∀ c ∈ value.toList, c.val < 0x100

/-- The characters of a rune, a byte or a byte string, and no others, make up the literal. -/
def Literal.IsMadeOf (cs : List Char) : Literal → Prop
  | .rune c => cs = [c]
  | .byte b => cs = [charOfByte b]
  | .byteString bytes => cs = bytes.map charOfByte
  | _ => True

lemma Kind.Fits.of_other {k : Kind} {value : String} (h : k.isChar = false) : k.Fits value := by
  constructor <;> rintro (rfl | rfl) <;> exact nomatch h

/-! ## Escapes -/

namespace Source

/-- The bytes that are taken out of a text stand in it. -/
lemma byteAt_of_mem_extract {i j : Nat} (h : b ∈ (src.bytes.extract i j).toList) :
    ∃ k, i ≤ k ∧ k < j ∧ src.byteAt k = some b := by
  rw [toList_eq_data] at h
  obtain ⟨n, hn, e⟩ := List.getElem_of_mem h
  have hn : n < (src.bytes.extract i j).size := hn
  have hget : (src.bytes.extract i j)[n] = b := e
  rw [ByteArray.getElem_extract] at hget
  have hsize := hn
  rw [ByteArray.size_extract] at hsize
  refine ⟨i + n, Nat.le_add_right _ _, by omega, ?_⟩
  rw [byteAt, getElem?_pos src.bytes (i + n) (by omega), hget]

end Source

namespace Escape

lemma hexDigitValue_lt (h : Byte.isHexDigit b) : hexDigitValue b < 16 := by
  have key : ∀ n < 256, Byte.isHexDigit (UInt8.ofNat n) → hexDigitValue (UInt8.ofNat n) < 16 := by
    decide +kernel
  have := key b.toNat b.toNat_lt
  rw [UInt8.ofNat_toNat] at this
  exact this h

/-- A number has no more digits than it is written with. -/
lemma hexValue_lt {digits : List UInt8} (h : ∀ b ∈ digits, Byte.isHexDigit b) :
    hexValue digits < 16 ^ digits.length := by
  induction digits using List.reverseRecOn with
  | nil => decide
  | append_singleton digits b ih =>
    rw [List.forall_mem_append, List.forall_mem_singleton] at h
    have hlast := hexDigitValue_lt h.2
    have hrest := ih h.1
    have hvalue : hexValue (digits ++ [b]) = 16 * hexValue digits + hexDigitValue b := by
      rw [hexValue, List.foldl_append]
      rfl
    rw [hvalue, List.length_append, List.length_singleton, Nat.pow_succ]
    omega

lemma val_lt_of_simple? (h : simple? rule b = some c) : c.val < 0x100 := by
  have key : ∀ n < 256, ∀ dollar, (simple? ⟨dollar, 0⟩ (UInt8.ofNat n)).all (·.val < 0x100) := by
    decide +kernel
  have hall := key b.toNat b.toNat_lt rule.dollar
  rw [UInt8.ofNat_toNat] at hall
  exact of_decide_eq_true ((Option.all_eq_true ..).1 hall c h)

/-- A code point stands for nothing and is reported, or it has no more digits than allowed and
stands for the character with their number. -/
lemma readCodePoint_cases (src : Source) (rule : EscapeRule) (start : Nat) :
    (readCodePoint src rule start).char = none ∧ (readCodePoint src rule start).error ≠ none
      ∨ ∃ digits, (∀ b ∈ digits, Byte.isHexDigit b) ∧ digits.length ≤ rule.maxDigits
        ∧ (hexValue digits).isValidChar
        ∧ (readCodePoint src rule start).char = some (Char.ofNat (hexValue digits)) := by
  unfold readCodePoint
  dsimp only
  split
  case isFalse => exact .inl ⟨rfl, Option.some_ne_none _⟩
  case isTrue =>
    split
    case isTrue => exact .inl ⟨rfl, Option.some_ne_none _⟩
    case isFalse hgood =>
      split
      case isFalse => exact .inl ⟨rfl, Option.some_ne_none _⟩
      case isTrue hvalid =>
        refine .inr ⟨_, fun b hb => ?_, ?_, hvalid, rfl⟩
        · obtain ⟨k, hle, hlt, hk⟩ := Source.byteAt_of_mem_extract hb
          obtain ⟨b', hb', hdigit⟩ := Source.byteAt_in_run hle hlt
          rwa [Option.some.inj (hk.symm.trans hb')]
        · simp only [Bool.or_eq_true, decide_eq_true_eq, not_or, Nat.not_lt] at hgood
          rw [Source.toList_eq_data]
          change ByteArray.size _ ≤ rule.maxDigits
          rw [ByteArray.size_extract]
          omega

/-- A code point of two digits is one of a byte. -/
lemma val_lt_of_readCodePoint (hrule : rule.maxDigits = 2)
    (h : (readCodePoint src rule start).char = some c) : c.val < 0x100 := by
  obtain ⟨hnone, -⟩ | ⟨digits, hdigits, hlength, hvalid, hchar⟩ :=
    readCodePoint_cases src rule start
  · cases hnone.symm.trans h
  · cases hchar.symm.trans h
    have hpow := Nat.pow_le_pow_right (n := 16) (by decide) (hrule ▸ hlength)
    rw [UInt32.lt_iff_toNat_lt]
    change Char.toNat _ < 256
    rw [Char.ofNat, dif_pos hvalid]
    exact Nat.lt_of_lt_of_le (hexValue_lt hdigits) hpow

lemma char_of_readCodePoint (h : (readCodePoint src rule start).error = none) :
    ∃ c, (readCodePoint src rule start).char = some c := by
  obtain ⟨-, herror⟩ | ⟨digits, -, -, -, hchar⟩ := readCodePoint_cases src rule start
  · exact absurd h herror
  · exact ⟨_, hchar⟩

/-- An escape without an error stands for a character, unless the text ends behind its backslash. -/
lemma char_of_read (h : (read src rule start).error = none) :
    (∃ c, (read src rule start).char = some c) ∨ src.byteAt (read src rule start).stop = none := by
  cases hb : src.byteAt (start + 1) with
  | none =>
    have hread : read src rule start = { char := none, stop := start + 1 } := by
      rw [read, hb]
    rw [hread]
    exact .inr hb
  | some b =>
    left
    rw [read, hb] at h ⊢
    dsimp only at h ⊢
    split at h
    case isTrue hcode =>
      rw [if_pos hcode]
      exact char_of_readCodePoint h
    case isFalse hsimple =>
      rw [if_neg hsimple]
      split at h
      · exact ⟨_, rfl⟩
      · exact nomatch h

lemma val_lt_of_read_byte (h : (read src .byte start).char = some c) : c.val < 0x100 := by
  unfold read at h
  split at h
  · cases h
  · split at h
    · exact val_lt_of_readCodePoint rfl h
    · split at h
      case h_1 c' hsimple =>
        cases h
        exact val_lt_of_simple? hsimple
      case h_2 => cases h

end Escape

/-! ## Literals -/

namespace CharLiteral

/-- Where a body has no error, it has a character, or the text ends behind it. -/
lemma char_of_readBody (h : (readBody src isByte pos).errors = []) :
    (∃ c, (readBody src isByte pos).char = some c ∧ (isByte → c.val < 0x100))
      ∨ src.byteAt (readBody src isByte pos).stop = none := by
  unfold readBody at h ⊢
  split at h
  case isTrue hslash =>
    rw [if_pos hslash]
    have herror := Option.toList_eq_nil_iff.1 h
    refine (Escape.char_of_read herror).imp_left ?_
    rintro ⟨c, hc⟩
    refine ⟨c, hc, ?_⟩
    rintro rfl
    exact Escape.val_lt_of_read_byte hc
  case isFalse hslash =>
    rw [if_neg hslash]
    refine .inl ⟨_, rfl, ?_⟩
    rintro rfl
    by_contra hle
    have hlarge : 0x80 ≤ (src.charAtD pos).val :=
      UInt32.le_trans (by decide) (UInt32.not_lt.1 hle)
    simp [hlarge] at h

lemma fits_read (h : (read src isByte quote start).errors = []) :
    (read src isByte quote start).kind.Fits (read src isByte quote start).value := by
  unfold read at h ⊢
  dsimp only at h ⊢
  split at h
  case isTrue => exact nomatch h
  case isFalse hinside =>
    rw [if_neg hinside]
    split at h
    case isTrue => exact nomatch h
    case isFalse hempty =>
      rw [if_neg hempty]
      split at h
      case isTrue hclose =>
        rw [if_pos hclose]
        obtain ⟨c, hc, hbyte⟩ | hend := char_of_readBody h
        · have hvalue :
              (String.ofList (readBody src isByte (start + 2)).char.toList).toList = [c] := by
            rw [hc, String.toList_ofList]
            rfl
          refine ⟨fun _ => ⟨c, hvalue⟩, fun hkind => ?_⟩
          rw [hvalue, List.forall_mem_singleton]
          refine hbyte ?_
          cases isByte with
          | true => rfl
          | false => exact hkind.elim nofun nofun
        · rw [hend] at hclose
          exact nomatch hclose
      case isFalse =>
        split at h <;> exact absurd h (by simp)

/-- What a byte string holds are codes of bytes, whatever else is reported. -/
lemma val_lt_of_mem_readByteText : ∀ c ∈ (readByteText src pos).text, c.val < 0x100 := by
  fun_induction readByteText src pos with
  | case1 | case2 | case3 => exact List.forall_mem_nil _
  | case6 _ _ _ _ _ c stop rest _ ih => exact ih
  | case4 pos _ _ _ _ escape rest ih =>
    refine List.forall_mem_append.2 ⟨fun c hc => ?_, ih⟩
    exact Escape.val_lt_of_read_byte (Option.mem_toList.1 hc)
  | case5 pos _ _ _ _ c stop rest hascii ih =>
    exact List.forall_mem_cons.2 ⟨UInt32.lt_trans hascii (by decide), ih⟩

lemma fits_readByteString :
    (readByteString src start).kind.Fits (readByteString src start).value := by
  refine ⟨fun h => h.elim nofun nofun, fun _ => ?_⟩
  change ∀ c ∈ (String.ofList (readByteText src (start + 2)).text).toList, _
  rw [String.toList_ofList]
  exact val_lt_of_mem_readByteText

end CharLiteral

namespace Lexeme

lemma fits_readCode (h : (readCode src modes pos first).errors = []) :
    (readCode src modes pos first).kind.Fits (readCode src modes pos first).value := by
  obtain ⟨hother, -⟩ | ⟨-, e⟩ | ⟨-, -, e⟩ | ⟨isByte, quote, -, -, e⟩ | ⟨-, -, e⟩ :=
    readCode_literal_cases src modes pos first
  · exact .of_other hother
  · rw [e]
    exact .of_other (Numeral.isChar_withSuffix _)
  · rw [e]
    exact .of_other (Numeral.isChar_withSuffix _)
  · rw [e] at h ⊢
    exact CharLiteral.fits_read h
  · rw [e]
    exact CharLiteral.fits_readByteString

end Lexeme

/-! ## Tokens -/

namespace Lexer

/-- A token that is read without a report fits its kind. -/
lemma fits_scan (h : (l.scan src).log = #[]) : (l.scan src).kind.Fits (l.scan src).value := by
  cases hmode : Mode.top l.modes with
  | text quote multiLine =>
    rw [scan_of_text hmode]
    exact .of_other (Lexeme.not_isChar_stringText quote multiLine)
  | code braces =>
    have hcode : (Mode.top l.modes).isCode := by rw [hmode]; rfl
    obtain ⟨lexeme, e, hread⟩ := scan_of_code src hcode
    rw [e] at h ⊢
    have herrors : lexeme.errors = [] := (List.append_eq_nil_iff.1 (errors_of_log_accept h)).2
    obtain ⟨-, rfl⟩ | ⟨first, -, rfl⟩ := hread
    · refine .of_other ?_
      change (Lexeme.endOfFile ..).kind.isChar = false
      rw [Lexeme.endOfFile_kind]
      rfl
    · exact Lexeme.fits_readCode herrors

/-- Up to the first report all tokens of a scan fit their kinds. -/
lemma Scans.fits (h : Scans src l states last) :
    ∀ m ∈ states, m.log = #[] → m.kind.Fits m.value := by
  have first {l m : Lexer} (h : (l.scan src).log.toList <+: m.log.toList) (hm : m.log = #[]) :
      (l.scan src).log = #[] := by
    rw [hm] at h
    exact Array.toList_eq_nil_iff.1 (List.prefix_nil.1 h)
  induction h with
  | last => exact List.forall_mem_singleton.2 fits_scan
  | next _ _ ih => exact List.forall_mem_cons.2 ⟨fits_scan, ih⟩

end Lexer

/-- A token whose literal has its characters, as many as there should be, and no others. -/
structure Token.Exact (src : Source) (t : Token) : Prop extends t.kind.Fits t.value where
  literal : (Literal.ofToken src t).IsMadeOf t.value.toList

lemma Literal.charOfByte_byteOfChar (h : c.val < 0x100) : charOfByte (byteOfChar c) = c := by
  have hsmall : c.val.toNat < 256 := h
  rw [charOfByte, byteOfChar, if_pos h, UInt32.toNat_toUInt8, Nat.mod_eq_of_lt hsmall]
  exact c.ofNat_toNat

/-- What fits its kind is made up of its own characters. -/
lemma Token.Exact.of_fits {t : Token} (h : t.kind.Fits t.value) : t.Exact src := by
  refine ⟨h, ?_⟩
  unfold Literal.ofToken
  split
  case h_3 hkind =>
    obtain ⟨c, hc⟩ := h.single (.inl hkind)
    rw [hc]
    rfl
  case h_4 hkind =>
    obtain ⟨c, hc⟩ := h.single (.inr hkind)
    have hcode := h.codes (.inl hkind) c (by rw [hc]; exact List.mem_singleton_self c)
    rw [hc]
    exact congrArg (fun c => [c]) (Literal.charOfByte_byteOfChar hcode).symm
  case h_5 hkind =>
    have hcodes := h.codes (.inr hkind)
    change _ = (t.value.toList.map Literal.byteOfChar).map Literal.charOfByte
    rw [List.map_map]
    exact ((List.map_congr_left fun c hc => Literal.charOfByte_byteOfChar (hcodes c hc)).trans
      (List.map_id _)).symm
  all_goals trivial

/-! ## Parses -/

lemma Log.eq_empty_of_sorted {log : Log} (h : log.sorted = #[]) : log = #[] := by
  have hsize := congrArg Array.size h
  simpa [sorted] using hsize

lemma Settings.eq_empty_of_locate {settings : Settings} {log : Log}
    (h : settings.locate log = #[]) : log = #[] := by
  unfold locate at h
  split at h
  · exact Array.map_eq_empty_iff.1 h
  · exact h

section

variable {env : Env} {s t : ParseState} {settings : Settings} {bytes : ByteArray}

/-- In a file without lexical errors all tokens fit their kinds. -/
lemma Source.fits_parseFile {names names' : NameTable} {p : FileParse}
    (h : src.parseFile settings names = some (p, names'))
    (hclean : p.diagnostics.filter (·.fault == .lexical) = #[])
    (hscans : Lexer.Scans src (.ofSource src) states last)
    (hlast : ((Lexer.ofSource src).scanAll src).2 = last) : ∀ m ∈ states, m.kind.Fits m.value := by
  obtain ⟨⟨tree, t⟩, hrun, e⟩ := Option.map_eq_some_iff.1 h
  cases e
  rw [settings.filter_locate] at hclean
  have hlog := @Rule.filter_runFrom_file { src, settings } _ _ _ hrun
  rw [Settings.eq_empty_of_locate hclean, hlast] at hlog
  have hempty := Log.eq_empty_of_sorted hlog.symm
  intro m hm
  refine hscans.fits m hm ?_
  have hprefix := hscans.log_isPrefix_of_mem m hm
  rw [hempty] at hprefix
  exact Array.toList_eq_nil_iff.1 (List.prefix_nil.1 hprefix)

/-- Behind the start of an expression without lexical errors and in front of its end, all tokens fit
their kinds. -/
lemma Source.fits_parseExpression {offset : Nat} {p : ExprParse} (hoffset : src.isBoundary offset)
    (h : src.parseExpression offset settings = some p)
    (hclean : p.diagnostics.filter (·.fault == .lexical) = #[])
    (hscans : Lexer.Scans src ((Lexer.ofSource src).seek src offset) states last) :
    ∀ m ∈ states, m.start < p.next → m.kind.Fits m.value := by
  obtain ⟨⟨expr, t⟩, hrun, rfl⟩ := Option.map_eq_some_iff.1 h
  have hfresh : ParseState.Fresh src { ParseState.ofSource src with
      lexer := (Lexer.ofSource src).seek src offset, prevStop := offset } := .expression offset
  have hsound : ((Lexer.ofSource src).seek src offset).Sound src := .seek offset _
  have hkept := (Lexer.kept_lexical src).and (Lexer.kept_along src states)
  have hJ := @Lexer.Kept.settled_region _ { src, settings } hkept
  have hstart := (Lexer.Along.of_scans hsound hscans).behindRun
  have hnone : ∀ d ∈ ((Lexer.ofSource src).seek src offset).log, d.fault = .lexical :=
    fun d hd => nomatch hd
  obtain ⟨⟨-, -, hlexical, halong⟩, -⟩ := Rule.runFrom_keeps hJ
    (fun _ => Rule.yields_statement hJ) ⟨hfresh.reachable, .seek _ _, And.intro hnone hstart⟩ hrun
  have hscanning := @Region.settled_scanning (fun _ => True) { src, settings } last.log
    fun _ => trivial
  obtain ⟨⟨-, hstate⟩, -⟩ := Rule.runFrom_keeps hscanning
    (fun _ => Rule.yields_statement hscanning) ⟨hfresh.reachable, .seek _ _,
      ⟨states, last, hscans, fun _ _ => trivial, rfl⟩, fun d hd => nomatch hd⟩ hrun
  obtain ⟨⟨-, hfooted⟩, -⟩ := hfresh.laidOut_runFrom hoffset
    (Rule.places_statement (Ground.settled_reachable _)) hrun
  rw [settings.filter_locate] at hclean
  have hsorted := t.filter_diagnostics hlexical hstate.grammatical
  have hlog := Log.eq_empty_of_sorted (hsorted.symm.trans (Settings.eq_empty_of_locate hclean))
  intro m hm hlt
  obtain hprefix | hle := halong.mem_states hm
  · refine hscans.fits m hm ?_
    rw [hlog] at hprefix
    exact Array.toList_eq_nil_iff.1 (List.prefix_nil.1 hprefix)
  · have hprev := hfooted.prevStop_le
    have hwidth := hfooted.lexer.start_le
    have hnext : m.start < t.prevStop := hlt
    omega

/-- Runes, bytes and byte strings are found again, however they are written. Where no lexical error
is reported, a rune or a byte has exactly one character, what bytes have are codes of bytes, and the
literal has nothing else in it: in a whole file, and from the start of an expression to its end. -/
theorem charLiterals_exact (settings : Settings) :
    (0 < settings.maxDepth →
      (∀ bytes cs, CharLiteral.WritesBytes bytes cs →
        Literal.ReadsBack settings (CharLiteral.chars true .double cs) (.byteString bytes))
      ∧ (∀ b cs, CharLiteral.Writes true .single (Literal.charOfByte b) cs →
        Literal.ReadsBack settings (CharLiteral.chars true .single cs) (.byte b))
      ∧ ∀ quote c cs, CharLiteral.Writes false quote c cs →
        Literal.ReadsBack settings (CharLiteral.chars false quote cs) (.rune c))
    ∧ (∀ bytes src p, Source.ofBytes bytes = .ok src → parseFile bytes settings = some p →
      p.diagnostics.filter (·.fault == .lexical) = #[] →
      ∀ t ∈ ((Lexer.ofSource src).scanAll src).1, t.1.Exact src)
    ∧ ∀ bytes offset src p, Source.ofBytes bytes = .ok src →
      parseExpression bytes offset settings = some p →
      p.diagnostics.filter (·.fault == .lexical) = #[] →
      ∀ t ∈ (((Lexer.ofSource src).seek src offset).scanAll src).1, t.1.span.start < p.next →
        t.1.Exact src := by
  refine ⟨fun hdepth => ⟨fun bytes cs => Literal.readsBack_byteString hdepth,
    fun b cs => Literal.readsBack_byte hdepth, fun quote c cs => Literal.readsBack_rune hdepth⟩,
    fun bytes src p hsrc hp hclean t ht => ?_, fun bytes offset src p hsrc hp hclean t ht hlt => ?_⟩
  · obtain ⟨states, last, hscans, e⟩ := (Lexer.sound_ofSource src).scanAll_eq
    rw [parseFile_of_ofBytes hsrc] at hp
    obtain ⟨⟨_, names⟩, hparse, rfl⟩ := Option.map_eq_some_iff.1 hp
    rw [e] at ht
    obtain ⟨m, hm, rfl⟩ := List.mem_map.1 ht
    exact .of_fits (Source.fits_parseFile hparse hclean hscans (congrArg Prod.snd e) m hm)
  · have hsound : ((Lexer.ofSource src).seek src offset).Sound src := .seek offset _
    obtain ⟨states, last, hscans, e⟩ := hsound.scanAll_eq
    rw [e] at ht
    obtain ⟨m, hm, rfl⟩ := List.mem_map.1 ht
    have hlt : m.start < p.next := hlt
    rw [← Lexer.seek_min, Source.size_of_ofBytes hsrc] at hscans
    unfold parseExpression at hp
    dsimp only at hp
    split at hp
    case h_1 src' hdecoded =>
      obtain ⟨hsrc', hoffset⟩ := Source.ofBytes_of_decoded hdecoded
      cases hsrc.symm.trans hsrc'
      exact .of_fits (Source.fits_parseExpression hoffset hp hclean hscans m hm hlt)
    case h_2 =>
      -- An offset inside a character is where the expression ends as well.
      cases hp
      have hle := hscans.le_start (.seek _ _) m hm
      change min (min offset bytes.size) src.size ≤ m.start at hle
      change m.start < min offset bytes.size at hlt
      rw [Source.size_of_ofBytes hsrc] at hle
      omega

/-- A rune of two bytes, and a byte by its code. -/
def CharLiteral.sample : String :=
  "let a = r'é'\nlet b = b'\\u\x7bE9\x7d'"

/-- Three bytes in three ways, a byte by its code, a quote between other quotes, a file with a rune
and a byte, and the byte in it as an expression. -/
theorem charLiterals_exact_of_sample :
    0 < 1
      ∧ (∃ cs, CharLiteral.WritesBytes [0x61, 0xFF, 0x0A] cs
        ∧ CharLiteral.chars true .double cs = "b\"a\\u\x7bfF\x7d\\n\"".toList
        ∧ Literal.ReadsBack { maxDepth := 1 } (CharLiteral.chars true .double cs)
          (.byteString [0x61, 0xFF, 0x0A]))
      ∧ (∃ cs, CharLiteral.Writes true .single (Literal.charOfByte 0xE9) cs
        ∧ CharLiteral.chars true .single cs = "b'\\u\x7be9\x7d'".toList
        ∧ Literal.ReadsBack { maxDepth := 1 } (CharLiteral.chars true .single cs) (.byte 0xE9))
      ∧ (∃ cs, CharLiteral.Writes false .single '"' cs
        ∧ CharLiteral.chars false .single cs = "r'\"'".toList
        ∧ Literal.ReadsBack { maxDepth := 1 } (CharLiteral.chars false .single cs) (.rune '"'))
      ∧ (∃ src p, Source.ofBytes CharLiteral.sample.toUTF8 = .ok src
        ∧ parseFile CharLiteral.sample.toUTF8 {} = some p
        ∧ p.diagnostics.filter (·.fault == .lexical) = #[]
        ∧ ∀ t ∈ ((Lexer.ofSource src).scanAll src).1, t.1.Exact src)
      ∧ ∃ src p, Source.ofBytes CharLiteral.sample.toUTF8 = .ok src
        ∧ parseExpression CharLiteral.sample.toUTF8 22 {} = some p ∧ p.next = 31
        ∧ p.diagnostics.filter (·.fault == .lexical) = #[]
        ∧ ∀ t ∈ (((Lexer.ofSource src).seek src 22).scanAll src).1, t.1.span.start < p.next →
          t.1.Exact src := by
  have hdepth : 0 < 1 := Nat.one_pos
  obtain ⟨byteStrings, bytes, runes⟩ := (charLiterals_exact { maxDepth := 1 }).1 hdepth
  obtain ⟨-, files, expressions⟩ := charLiterals_exact {}
  have hsrc := Source.ofBytes_toUTF8 CharLiteral.sample
  have ff : CharLiteral.Writes true .double (Literal.charOfByte 0xFF)
      (HexDigit.escape [⟨15, false⟩, ⟨15, true⟩]) :=
    .codePoint _ (List.cons_ne_nil _ _) (Nat.le_refl 2) (by decide)
  have three : CharLiteral.WritesBytes [0x61, 0xFF, 0x0A] _ :=
    .cons (.plain (by decide) (by decide) (by decide)) (.cons ff (.cons (.mark 'n' (by decide)) .nil))
  have quote : CharLiteral.Writes false .single '"' ['"'] :=
    .plain (by decide) (by decide) (by decide)
  have file : (parseFile CharLiteral.sample.toUTF8 {}).map
      (fun p => (p.diagnostics.filter (·.fault == .lexical)).size) = some 0 := by decide +kernel
  have expression : (parseExpression CharLiteral.sample.toUTF8 22 {}).map
      (fun p => (p.next, (p.diagnostics.filter (·.fault == .lexical)).size)) = some (31, 0) := by
    decide +kernel
  obtain ⟨p, hp, size⟩ := Option.map_eq_some_iff.1 file
  obtain ⟨q, hq, e⟩ := Option.map_eq_some_iff.1 expression
  obtain ⟨hnext, size'⟩ := Prod.mk.inj e
  have hclean := Array.eq_empty_of_size_eq_zero size
  have hclean' := Array.eq_empty_of_size_eq_zero size'
  exact ⟨hdepth, ⟨_, three, by decide +kernel, byteStrings _ _ three⟩,
    ⟨_, CharLiteral.writes_byte .single 0xE9, by decide +kernel,
      bytes _ _ (CharLiteral.writes_byte .single 0xE9)⟩,
    ⟨_, quote, by decide +kernel, runes _ _ _ quote⟩,
    ⟨_, p, hsrc, hp, hclean, files _ _ p hsrc hp hclean⟩,
    _, q, hsrc, hq, hnext, hclean', expressions _ 22 _ q hsrc hq hclean'⟩

end

end CangjieSyntax
