import Mathlib.Data.List.Find
import CangjieSyntax.Operator.Basic
import CangjieSyntax.Proofs.Source.Boundary
import CangjieSyntax.Proofs.Token.Word
import CangjieSyntax.Token.Lexer

/-!
# Signs

A sign is a token that can be written by itself: a name of one letter or one of the marks that
expressions are made of. Where a sign stands with a space or the end of the text behind it, its bytes
lead to the rule for words or the one for marks, and that takes the sign and no more. Only a mark
that starts with `>` is taken in part.
-/

namespace CangjieSyntax

/-- A character that is a name by itself. -/
structure Letter where
  char : Char
  starts : Unicode.isIdentifierStart char
  ne_underscore : char ≠ '_'
  deriving DecidableEq

/-- A token of an expression. -/
inductive Sign where
  | letter (c : Letter)
  | mark (p : Punctuation)
  deriving DecidableEq

namespace Sign

/-- The marks that expressions are made of. -/
def marks : List Punctuation :=
  BinaryOp.all.map BinaryOp.mark
    ++ [.bang, .openParen, .closeParen, .openBracket, .closeBracket, .comma]

/-- Whether a sign is a letter or one of the marks that expressions are made of. -/
def Plain : Sign → Prop
  | letter _ => True
  | mark p => p ∈ marks

instance : DecidablePred Plain
  | letter _ => inferInstanceAs (Decidable True)
  | mark p => inferInstanceAs (Decidable (p ∈ marks))

def text : Sign → String
  | letter c => String.singleton c.char
  | mark p => p.text

def kind : Sign → Kind
  | letter _ => .identifier
  | mark p => .mark p

/-- The kind that the lexer finds first. -/
def scanned : Sign → Kind
  | letter _ => .identifier
  | mark p => .mark (if p.isJoined then .greater else p)

def value : Sign → String
  | letter c => String.singleton c.char
  | mark _ => ""

/-- The characters that the lexer takes first. -/
def taken : Sign → List Char
  | letter c => [c.char]
  | mark p => if p.isJoined then ['>'] else p.text.toList

/-- The characters that are left for joining. -/
def left : Sign → List Char
  | letter _ => []
  | mark p => if p.isJoined then p.text.toList.drop 1 else []

/-- The characters of some signs, each behind a space. -/
def spaced (signs : List Sign) : List Char :=
  signs.flatMap fun t => ' ' :: t.text.toList

end Sign

/-- The bytes at which a word or an ordinary mark may start. -/
def Byte.isPlain (b : UInt8) : Bool :=
  !([0x7B, 0x7D, 0x24, 0x23, 0x60, 0x2E, 0x22, 0x27].contains b || Byte.isDigit b
    || Byte.isLineBreak b || Byte.isBlank b)

/-- What makes some bytes a token by themselves: they are plain, and a slash stands alone. -/
structure Spells (bytes : List UInt8) : Prop where
  nonempty : bytes ≠ []
  plain : ∀ b ∈ bytes, Byte.isPlain b
  slash : bytes.head? = some 0x2F → bytes = [0x2F]

/-- A word without spaces is not longer in the text than up to the next space. -/
lemma isPrefixOf_append {word bytes behind : List UInt8} (hword : (0x20 : UInt8) ∉ word)
    (hbehind : ∀ b ∈ behind.head?, b = 0x20) :
    word.isPrefixOf (bytes ++ behind) = word.isPrefixOf bytes := by
  induction word generalizing bytes with
  | nil => rw [List.isPrefixOf_nil_left, List.isPrefixOf_nil_left]
  | cons b word ih =>
    rw [List.mem_cons, not_or] at hword
    cases bytes with
    | cons d bytes => rw [List.cons_append, List.isPrefixOf, List.isPrefixOf, ih hword.2]
    | nil =>
      cases behind with
      | nil => rfl
      | cons d behind =>
        obtain rfl : d = 0x20 := hbehind d rfl
        rw [List.nil_append, List.isPrefixOf, List.isPrefixOf,
          beq_eq_false_iff_ne.2 (Ne.symm hword.1), Bool.false_and]
        exact fun e => nomatch e

/-! ## Bytes of signs -/

section Bytes

variable {c : Char} {b : UInt8} {t : Sign} {signs : List Sign}

lemma isPlain_of_not_ascii (h : 0x80 ≤ b) : Byte.isPlain b ∧ b ≠ 0x2F := by
  have key : ∀ n < 256, 0x80 ≤ n → Byte.isPlain (UInt8.ofNat n) ∧ UInt8.ofNat n ≠ 0x2F := by
    decide +kernel
  have := key b.toNat b.toNat_lt (UInt8.le_iff_toNat_le.1 h)
  rwa [UInt8.ofNat_toNat] at this

lemma isPlain_of_isIdentifierStart :
    ∀ n < 128, Unicode.isIdentifierStart (Char.ofNat n) →
      Byte.isPlain n.toUInt8 ∧ n.toUInt8 ≠ 0x2F := by
  decide +kernel

lemma spells_letter (h : Unicode.isIdentifierStart c) : Spells (String.utf8EncodeChar c) := by
  have key : ∀ b ∈ String.utf8EncodeChar c, Byte.isPlain b ∧ b ≠ 0x2F := by
    intro b hb
    by_cases hc : c.utf8Size = 1
    · rw [String.utf8EncodeChar_eq_singleton hc, List.mem_singleton] at hb
      have hascii : c.toNat < 128 := by
        rw [Char.utf8Size_eq_one_iff, UInt32.le_iff_toNat_le] at hc
        exact Nat.lt_succ_of_le hc
      have := isPlain_of_isIdentifierStart c.toNat hascii (by rwa [Char.ofNat_toNat])
      rw [hb]
      exact this
    · exact isPlain_of_not_ascii (not_ascii_of_mem_utf8EncodeChar hc hb)
  refine ⟨?_, fun b hb => (key b hb).1, fun e => ?_⟩
  · rw [← List.length_pos_iff, String.length_utf8EncodeChar]
    exact c.utf8Size_pos
  · exact absurd rfl (key _ (List.mem_of_mem_head? e)).2

lemma spells_mark : ∀ p ∈ Sign.marks, Spells (Source.encoded p.text.toList) := by
  have key : ∀ p ∈ Sign.marks, Source.encoded p.text.toList ≠ []
      ∧ (∀ b ∈ Source.encoded p.text.toList, Byte.isPlain b)
      ∧ ((Source.encoded p.text.toList).head? = some 0x2F
        → Source.encoded p.text.toList = [0x2F]) := by
    decide +kernel
  intro p hp
  obtain ⟨nonempty, plain, slash⟩ := key p hp
  exact ⟨nonempty, plain, slash⟩

lemma Sign.Plain.spells (h : t.Plain) : Spells (Source.encoded t.text.toList) := by
  cases t with
  | letter c =>
    have e : Source.encoded (Sign.letter c).text.toList = String.utf8EncodeChar c.char := by
      simp [Source.encoded, Sign.text]
    rw [e]
    exact spells_letter c.starts
  | mark p => exact spells_mark p h

/-- Behind a sign comes a space or the end of the text. -/
lemma head?_encoded_spaced (signs : List Sign) :
    ∀ b ∈ (Source.encoded (Sign.spaced signs)).head?, b = 0x20 := by
  cases signs with
  | nil => exact fun b hb => nomatch hb
  | cons t rest =>
    intro b hb
    exact (Option.some.inj hb).symm

end Bytes

/-! ## Reading one sign -/

section Reading

variable {src : Source} {pos : Nat} {t : Sign} {rest : List Sign}

/-- The bytes at a sign. -/
lemma byteAt_sign (h : src.Ahead pos (t.text.toList ++ Sign.spaced rest)) (i : Nat) :
    src.byteAt (pos + i)
      = (Source.encoded t.text.toList ++ Source.encoded (Sign.spaced rest))[i]? := by
  rw [h.byteAt, Source.encoded_append]

/-- The first byte of a sign, and the one behind it. -/
lemma first_sign (ht : t.Plain) (h : src.Ahead pos (t.text.toList ++ Sign.spaced rest)) :
    ∃ first, src.byteAt pos = some first ∧ Byte.isPlain first
      ∧ (∀ b ∈ src.byteAt (pos + 1), Byte.isPlain b ∨ b = 0x20)
      ∧ (first = 0x2F → ∀ b ∈ src.byteAt (pos + 1), b = 0x20) := by
  -- Only what `Spells` says of the bytes is needed, so that they are any bytes from here on.
  obtain ⟨nonempty, plain, slash⟩ := ht.spells
  have hat := byteAt_sign h
  have hspace := head?_encoded_spaced rest
  revert nonempty plain slash hat hspace
  generalize Source.encoded t.text.toList = bytes
  generalize Source.encoded (Sign.spaced rest) = behind
  intro nonempty plain slash hat hspace
  obtain _ | ⟨first, bytes⟩ := bytes
  · exact absurd rfl nonempty
  refine ⟨first, hat 0, plain first List.mem_cons_self, ?_, ?_⟩
  · intro b hb
    rw [hat 1] at hb
    obtain _ | ⟨second, bytes⟩ := bytes
    · right
      apply hspace
      rw [List.head?_eq_getElem?]
      exact hb
    · left
      obtain rfl : second = b := Option.some.inj hb
      exact plain _ (by simp)
  · rintro rfl b hb
    obtain rfl : bytes = [] := by simpa using slash rfl
    rw [hat 1] at hb
    apply hspace
    rw [List.head?_eq_getElem?]
    exact hb

lemma beq_of_isPlain {b d : UInt8} (hb : Byte.isPlain b) (hd : Byte.isPlain d = false) :
    (b == d) = false := by
  rw [beq_eq_false_iff_ne]
  rintro rfl
  exact Bool.false_ne_true (hd.symm.trans hb)

lemma quote_of_isPlain {b : UInt8} (hb : Byte.isPlain b) : Quote.ofByte? b = none := by
  rw [Quote.ofByte?, beq_of_isPlain hb rfl, beq_of_isPlain hb rfl]
  rfl

/-- Where a plain byte stands with no quote behind it, a word or a mark is read. -/
lemma readCode_plain {modes : List Mode} {first : UInt8} (hfirst : src.byteAt pos = some first)
    (hplain : Byte.isPlain first) (hbehind : (src.byteAt (pos + 1)).bind Quote.ofByte? = none) :
    Lexeme.readCode src modes pos first
      = if Word.startsAt src pos then Word.read src pos else Lexeme.readMark src pos := by
  have hne (b : UInt8) (hb : Byte.isPlain b = false) : (first == b) = false :=
    beq_of_isPlain hplain hb
  have hdigit : Byte.isDigit first = false := by
    simp only [Byte.isPlain, Bool.not_eq_true', Bool.or_eq_false_iff] at hplain
    exact hplain.1.1.2
  have hpoint : Numeral.startsWithPoint src pos = false := by
    rw [Numeral.startsWithPoint, hfirst, Option.some_beq_some, hne 0x2E rfl]
    rfl
  unfold Lexeme.readCode
  simp only [hne 0x7B rfl, hne 0x7D rfl, hne 0x24 rfl, hne 0x23 rfl, hne 0x60 rfl, hdigit, hpoint,
    quote_of_isPlain hplain, hbehind, Bool.false_eq_true, if_false]

lemma gapRead_space {cs : List Char} (h : src.Ahead pos (' ' :: cs)) :
    Gap.read src pos = { Gap.read src (pos + 1) with trivia := true } := by
  have hat : src.byteAt pos = some 0x20 := h.byteAt 0
  conv => lhs; rw [Gap.read]
  split
  case h_1 e => simp [hat] at e
  case h_2 b e =>
    obtain rfl : 0x20 = b := Option.some.inj (hat.symm.trans e)
    rfl

lemma gapRead_sign (ht : t.Plain) (h : src.Ahead pos (t.text.toList ++ Sign.spaced rest)) :
    Gap.read src pos = { stop := pos } := by
  obtain ⟨first, hfirst, hplain, -, hslash⟩ := first_sign ht h
  simp only [Byte.isPlain, Bool.not_eq_true', Bool.or_eq_false_iff] at hplain
  obtain ⟨⟨⟨-, -⟩, hbreak⟩, hblank⟩ := hplain
  -- A comment starts with a slash and a star or another slash.
  have hopens (d : UInt8) (hd : d ≠ 0x20) :
      (first == 0x2F && src.byteAt (pos + 1) == some d) = false := by
    rw [Bool.and_eq_false_iff, beq_eq_false_iff_ne, beq_eq_false_iff_ne]
    by_cases e : first = 0x2F
    · exact .inr fun e' => hd (hslash e d e')
    · exact .inl e
  rw [Gap.read]
  split
  case h_1 e => simp [hfirst] at e
  case h_2 b e =>
    obtain rfl : first = b := Option.some.inj (hfirst.symm.trans e)
    rw [if_neg (by simp [hbreak]), if_neg (by simp [hblank]),
      if_neg (by simp [hopens 0x2F (by decide)]), dif_neg (by simp [hopens 0x2A (by decide)])]

lemma gapRead_end (h : src.Ahead pos []) : Gap.read src pos = { stop := pos } := by
  have hat : src.byteAt pos = none := h.byteAt 0
  rw [Gap.read]
  split
  case h_1 => rfl
  case h_2 b e => simp [hat] at e

lemma startsAt_letter {c : Char} {cs : List Char} (hc : Unicode.isIdentifierStart c)
    (h : src.Ahead pos (c :: cs)) : Word.startsAt src pos := by
  rw [Word.startsAt, h.charAt]
  exact hc

lemma startsAt_mark {p : Punctuation} (hp : p ∈ Sign.marks)
    (h : src.Ahead pos (p.text.toList ++ Sign.spaced rest)) : Word.startsAt src pos = false := by
  have key : ∀ p ∈ Sign.marks, p.text.toList ≠ []
      ∧ p.text.toList.head?.any Unicode.isIdentifierStart = false := by
    decide +kernel
  obtain ⟨nonempty, hno⟩ := key p hp
  revert nonempty hno h
  generalize p.text.toList = cs
  intro h nonempty hno
  obtain _ | ⟨c, cs⟩ := cs
  · exact absurd rfl nonempty
  rw [Word.startsAt, Source.Ahead.charAt h]
  exact hno

lemma ofText?_singleton (c : Char) : Keyword.ofText? (String.singleton c) = none := by
  have hlength (k : Keyword) : 1 < k.text.length := by
    cases k <;> decide
  cases e : Keyword.ofText? (String.singleton c) with
  | none => rfl
  | some k =>
    have := hlength k
    rw [Keyword.text_of_ofText? e, String.length_singleton] at this
    exact absurd this (Nat.lt_irrefl 1)

lemma wordRead_letter {c : Letter} (h : src.Ahead pos (c.char :: Sign.spaced rest)) :
    Word.read src pos
      = { kind := .identifier
          stop := pos + c.char.utf8Size
          value := String.singleton c.char } := by
  have hspace : (Sign.spaced rest).takeWhile Unicode.isIdentifierPart = [] := by
    cases rest with
    | nil => rfl
    | cons t rest => exact List.takeWhile_cons_of_neg (by decide +kernel)
  have hword : (c.char :: Sign.spaced rest).takeWhile Unicode.isIdentifierPart = [c.char] := by
    rw [List.takeWhile_cons_of_pos (Unicode.isIdentifierPart_of_isIdentifierStart c.starts), hspace]
  have hsize : [c.char].utf8Encode.size = c.char.utf8Size := by
    rw [Source.size_utf8Encode_cons]
    simp
  have hstop : Word.skip src pos = pos + c.char.utf8Size := by
    rw [Word.skip, h.skipChars, hword, hsize]
  have hslice : src.slice pos (pos + c.char.utf8Size) = String.singleton c.char := by
    have := @Source.Ahead.slice src pos (Sign.spaced rest) [c.char] h
    rwa [hsize] at this
  have hmark : (String.singleton c.char == "_") = false := by
    rw [beq_eq_false_iff_ne]
    intro e
    exact c.ne_underscore (by simpa using congrArg String.toList e)
  unfold Word.read
  simp only [hstop, hslice, hmark, Bool.false_eq_true, if_false, ofText?_singleton]

lemma find?_munchTable : ∀ p ∈ Sign.marks,
    Punctuation.munchTable.find? (fun entry => entry.1.isPrefixOf (Source.encoded p.text.toList))
      = some (Source.encoded (Sign.mark p).taken, if p.isJoined then .greater else p) := by
  decide +kernel

lemma space_not_mem_munchTable : ∀ entry ∈ Punctuation.munchTable, (0x20 : UInt8) ∉ entry.1 := by
  decide +kernel

lemma readMark_mark {p : Punctuation} (hp : p ∈ Sign.marks)
    (h : src.Ahead pos (p.text.toList ++ Sign.spaced rest)) :
    Lexeme.readMark src pos
      = { kind := (Sign.mark p).scanned
          stop := pos + (Source.encoded (Sign.mark p).taken).length } := by
  have hstarts (word : List UInt8) (hword : (0x20 : UInt8) ∉ word) :
      src.startsWith pos word = word.isPrefixOf (Source.encoded p.text.toList) := by
    rw [Source.startsWith_eq (@byteAt_sign src pos (.mark p) rest h)]
    exact isPrefixOf_append hword (head?_encoded_spaced rest)
  have hfind : Punctuation.munchTable.find? (fun entry => src.startsWith pos entry.1)
      = some (Source.encoded (Sign.mark p).taken, if p.isJoined then .greater else p) := by
    rw [← find?_munchTable p hp]
    exact List.find?_congr fun entry hentry =>
      hstarts entry.1 (space_not_mem_munchTable entry hentry)
  rw [Lexeme.readMark, Punctuation.munch?, hfind, Option.map_some]
  rfl

/-- The lexeme of a sign that stands at `pos`. -/
def Sign.lexeme (t : Sign) (pos : Nat) : Lexeme where
  kind := t.scanned
  stop := pos + (Source.encoded t.taken).length
  value := t.value

lemma readCode_sign {modes : List Mode} (ht : t.Plain)
    (h : src.Ahead pos (t.text.toList ++ Sign.spaced rest)) :
    ∃ first, src.byteAt pos = some first ∧ Lexeme.readCode src modes pos first = t.lexeme pos := by
  obtain ⟨first, hfirst, hplain, hbehind, -⟩ := first_sign ht h
  refine ⟨first, hfirst, ?_⟩
  have hquote : (src.byteAt (pos + 1)).bind Quote.ofByte? = none := by
    rw [Option.bind_eq_none_iff]
    intro b hb
    obtain hb | rfl := hbehind b hb
    · exact quote_of_isPlain hb
    · rfl
  rw [readCode_plain hfirst hplain hquote]
  cases t with
  | letter c =>
    have h' : src.Ahead pos (c.char :: Sign.spaced rest) := by simpa [Sign.text] using h
    have hsize : (Source.encoded [c.char]).length = c.char.utf8Size := by
      simp [Source.encoded]
    rw [if_pos (startsAt_letter c.starts h'), wordRead_letter h', Sign.lexeme, Sign.taken, hsize]
    rfl
  | mark p =>
    rw [if_neg (by simp [startsAt_mark ht h]), readMark_mark ht h]
    rfl

lemma read_sign (ht : t.Plain) (h : src.Ahead pos (t.text.toList ++ Sign.spaced rest)) :
    Lexeme.read src [.code 0] pos = (pos, t.lexeme pos) := by
  obtain ⟨first, hfirst, hread⟩ := @readCode_sign src pos t rest [.code 0] ht h
  unfold Lexeme.read
  simp only [Mode.top, gapRead_sign ht h, hfirst, hread]
  rfl

lemma read_spaced_sign (ht : t.Plain)
    (h : src.Ahead pos (' ' :: (t.text.toList ++ Sign.spaced rest))) :
    Lexeme.read src [.code 0] pos
      = (pos + 1, { t.lexeme (pos + 1) with flags := { trivia := true } }) := by
  have h' : src.Ahead (pos + 1) (t.text.toList ++ Sign.spaced rest) := h.tail
  obtain ⟨first, hfirst, hread⟩ := @readCode_sign src (pos + 1) t rest [.code 0] ht h'
  unfold Lexeme.read
  simp only [Mode.top, gapRead_space h, gapRead_sign ht h', hfirst, hread]
  rfl

lemma read_end (h : src.Ahead pos []) :
    Lexeme.read src [.code 0] pos = (pos, { kind := .endOfFile, stop := pos }) := by
  have hat : src.byteAt pos = none := h.byteAt 0
  unfold Lexeme.read
  simp only [Mode.top, gapRead_end h, hat]
  rfl

end Reading

end CangjieSyntax
