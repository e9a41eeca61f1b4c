import Mathlib.Data.Bool.AllAny
import Mathlib.Data.List.Basic
import CangjieSyntax.Proofs.Token.Sign

/-!
# Tiles

A tile is a token of a type as it is written: a name, a keyword, or one of the marks that types are
made of. Tiles may touch. A tile ends where the character behind it does not go on with it, and
there it is read as a whole.
-/

namespace CangjieSyntax

/-- A name as it is written: a word that is no keyword, or any word between backquotes. -/
structure Ident where
  text : String
  raw : Bool := false
  starts : text.toList.head?.any Unicode.isIdentifierStart
  parts : text.toList.all Unicode.isIdentifierPart
  free : raw = false → Keyword.ofText? text = none ∧ text ≠ "_"
  deriving DecidableEq

/-- A token of a type as it is written. -/
inductive Tile where
  | name (x : Ident)
  | keyword (k : Keyword)
  | mark (p : Punctuation)
  deriving DecidableEq

namespace Tile

/-- The marks that types are made of. -/
def marks : List Punctuation :=
  [.openParen, .closeParen, .comma, .dot, .less, .greater, .question, .questionQuestion, .thinArrow,
   .colon]

def chars : Tile → List Char
  | name x => if x.raw then '`' :: x.text.toList ++ ['`'] else x.text.toList
  | keyword k => k.text.toList
  | mark p => p.text.toList

def kind : Tile → Kind
  | name x => if x.raw then .rawIdentifier else .identifier
  | keyword k => .keyword k
  | mark p => .mark p

def value : Tile → String
  | name x => x.text
  | _ => ""

/-- The lexeme of a tile that stands at `pos`. -/
def lexeme (t : Tile) (pos : Nat) : Lexeme where
  kind := t.kind
  stop := pos + (Source.encoded t.chars).length
  value := t.value

/-- The characters that would go on with a mark. -/
def extensions : Punctuation → List Char
  | .dot => ['.', '0', '1', '2', '3', '4', '5', '6', '7', '8', '9']
  | .question => ['?']
  | .less => ['-', ':', '=', '<']
  | .star => ['*', '=']
  | _ => []

/-- A tile ends in front of a character. -/
def EndsAt (c : Char) : Tile → Prop
  | name x => x.raw = false → Unicode.isIdentifierPart c = false
  | keyword _ => Unicode.isIdentifierPart c = false
  | mark p => c ∉ extensions p

/-- Names, keywords and the marks of types. -/
def Plain : Tile → Prop
  | mark p => p ∈ marks
  | _ => True

end Tile

variable {src : Source} {pos : Nat} {t : Tile} {cs : List Char}

/-! ## Bytes of tiles -/

lemma utf8EncodeChar_eq_cons (c : Char) : ∃ b bytes, String.utf8EncodeChar c = b :: bytes := by
  refine List.exists_cons_of_ne_nil ?_
  rw [← List.length_pos_iff, String.length_utf8EncodeChar]
  exact c.utf8Size_pos

/-- An ASCII character is the only one with its byte. -/
lemma eq_of_mem_utf8EncodeChar {c d : Char} {b : UInt8} (hd : d.utf8Size = 1)
    (hb : b ∈ String.utf8EncodeChar c) (hb' : b ∈ String.utf8EncodeChar d) : c = d := by
  have hascii : d.val.toNat < 128 := by
    rw [Char.utf8Size_eq_one_iff, UInt32.le_iff_toNat_le] at hd
    exact Nat.lt_succ_of_le hd
  have hsmall {e : Char} (he : e.val.toNat < 128) : e.val.toUInt8.toNat = e.val.toNat := by
    rw [UInt32.toNat_toUInt8]
    exact Nat.mod_eq_of_lt (by omega)
  rw [String.utf8EncodeChar_eq_singleton hd, List.mem_singleton] at hb'
  by_cases hc : c.utf8Size = 1
  · rw [String.utf8EncodeChar_eq_singleton hc, List.mem_singleton] at hb
    rw [Char.utf8Size_eq_one_iff, UInt32.le_iff_toNat_le] at hc
    have e : c.val.toUInt8.toNat = d.val.toUInt8.toNat := by rw [← hb, ← hb']
    rw [hsmall (Nat.lt_succ_of_le hc), hsmall hascii] at e
    exact Char.ext (UInt32.toNat_inj.1 e)
  · have hlarge := UInt8.le_iff_toNat_le.1 (not_ascii_of_mem_utf8EncodeChar hc hb)
    rw [hb', hsmall hascii] at hlarge
    exact absurd hascii (Nat.not_lt.2 hlarge)

lemma Source.encoded_cons {c : Char} : encoded (c :: cs) = String.utf8EncodeChar c ++ encoded cs :=
  List.flatMap_cons

/-- An ASCII byte ahead is the first character ahead. -/
lemma Source.Ahead.eq_cons {c : Char} {b : UInt8} (h : src.Ahead pos cs)
    (hb : src.byteAt pos = some b) (hc : String.utf8EncodeChar c = [b]) :
    ∃ rest, cs = c :: rest := by
  have hsize : c.utf8Size = 1 := by
    rw [← String.length_utf8EncodeChar, hc]
    rfl
  have hfirst : src.byteAt pos = (encoded cs)[0]? := h.byteAt 0
  cases cs with
  | nil => exact nomatch hb.symm.trans hfirst
  | cons d rest =>
    refine ⟨rest, ?_⟩
    obtain ⟨d', bytes, e⟩ := utf8EncodeChar_eq_cons d
    rw [hb, encoded_cons, e] at hfirst
    obtain rfl : b = d' := Option.some.inj hfirst
    have hmem : b ∈ String.utf8EncodeChar d := e ▸ List.mem_cons_self
    rw [eq_of_mem_utf8EncodeChar hsize hmem (hc ▸ List.mem_cons_self)]

/-- The byte of another character than the first one ahead. -/
lemma Source.Ahead.byteAt_ne {c d : Char} {b : UInt8} (h : src.Ahead pos (d :: cs))
    (hc : String.utf8EncodeChar c = [b]) (hne : d ≠ c) : (src.byteAt pos == some b) = false := by
  rw [beq_eq_false_iff_ne]
  intro hb
  obtain ⟨rest, e⟩ := h.eq_cons hb hc
  exact hne (List.cons.inj e).1

lemma Quote.utf8EncodeChar_char (quote : Quote) :
    String.utf8EncodeChar quote.char = [quote.byte] := by
  cases quote <;> rfl

/-- A quote ahead is one byte. -/
lemma Source.Ahead.byteAt_quote {quote : Quote} (h : src.Ahead pos (quote.char :: cs)) :
    src.byteAt pos = some quote.byte := by
  have := h.byteAt 0
  rwa [encoded_cons, quote.utf8EncodeChar_char] at this

lemma quote_of_mem_utf8EncodeChar {c : Char} {b : UInt8} (hc : c ≠ '"' ∧ c ≠ '\'')
    (hb : b ∈ String.utf8EncodeChar c) : Quote.ofByte? b = none := by
  have hne (q : Char) (hq : c ≠ q) (hsize : q.utf8Size = 1) (d : UInt8)
      (hd : String.utf8EncodeChar q = [d]) : (b == d) = false := by
    rw [beq_eq_false_iff_ne]
    rintro rfl
    exact hq (eq_of_mem_utf8EncodeChar hsize hb (by simp [hd]))
  rw [Quote.ofByte?, hne '"' hc.1 rfl 0x22 rfl, hne '\'' hc.2 rfl 0x27 rfl]
  rfl

lemma isIdentifierPart_ne {c d : Char} (hc : Unicode.isIdentifierPart c)
    (hd : Unicode.isIdentifierPart d = false) : c ≠ d := by
  rintro rfl
  exact Bool.false_ne_true (hd.symm.trans hc)

namespace Keyword

lemma spelled (k : Keyword) : k.text.toList.head?.any Unicode.isIdentifierStart
    ∧ k.text.toList.all Unicode.isIdentifierPart ∧ ofText? k.text = some k ∧ k.text ≠ "_" := by
  have key : ∀ k ∈ all, k.text.toList.head?.any Unicode.isIdentifierStart
      ∧ k.text.toList.all Unicode.isIdentifierPart ∧ ofText? k.text = some k ∧ k.text ≠ "_" := by
    decide +kernel
  exact key k (mem_all k)

end Keyword

/-! ## Words and marks -/

/-- A word that ends where what is behind it starts. -/
lemma word_ahead {word : List Char} (h : src.Ahead pos (word ++ cs))
    (hstart : word.head?.any Unicode.isIdentifierStart)
    (hparts : word.all Unicode.isIdentifierPart)
    (hends : ∀ c ∈ cs.head?, Unicode.isIdentifierPart c = false) :
    Word.startsAt src pos ∧ Word.skip src pos = pos + word.utf8Encode.size
      ∧ src.slice pos (pos + word.utf8Encode.size) = String.ofList word := by
  refine ⟨?_, ?_, h.slice⟩
  · cases word with
    | nil => exact nomatch hstart
    | cons c word =>
      rw [Word.startsAt, Source.Ahead.charAt h]
      exact hstart
  · have hbehind : cs.takeWhile Unicode.isIdentifierPart = [] := by
      cases cs with
      | nil => rfl
      | cons c cs => exact List.takeWhile_cons_of_neg (by simp [hends c rfl])
    rw [Word.skip, h.skipChars, List.takeWhile_append_of_pos (List.all_eq_true.1 hparts), hbehind,
      List.append_nil]

/-- The first byte of a word. -/
lemma first_word {word : List Char} (h : src.Ahead pos (word ++ cs))
    (hstart : word.head?.any Unicode.isIdentifierStart) :
    ∃ b, src.byteAt pos = some b ∧ Byte.isPlain b ∧ b ≠ 0x2F := by
  cases word with
  | nil => exact nomatch hstart
  | cons c word =>
    have hplain : ∀ b ∈ String.utf8EncodeChar c, Byte.isPlain b ∧ b ≠ 0x2F := by
      intro b hb
      by_cases hc : c.utf8Size = 1
      · rw [String.utf8EncodeChar_eq_singleton hc, List.mem_singleton] at hb
        rw [Char.utf8Size_eq_one_iff, UInt32.le_iff_toNat_le] at hc
        have := isPlain_of_isIdentifierStart c.toNat (Nat.lt_succ_of_le hc)
          (by rwa [Char.ofNat_toNat])
        rw [hb]
        exact this
      · exact isPlain_of_not_ascii (not_ascii_of_mem_utf8EncodeChar hc hb)
    have hat := h.byteAt 0
    rw [List.cons_append, Source.encoded, List.flatMap_cons, ← List.head?_eq_getElem?] at hat
    obtain ⟨b, bytes, e⟩ := utf8EncodeChar_eq_cons c
    rw [e] at hat hplain
    exact ⟨b, hat, hplain b List.mem_cons_self⟩

/-- Some bytes are no longer in a text than by themselves if what is behind does not go on. -/
lemma isPrefixOf_append_of_ends {word bytes behind : List UInt8}
    (h : ∀ b ∈ behind.head?, (bytes ++ [b]).isPrefixOf word = false) :
    word.isPrefixOf (bytes ++ behind) = word.isPrefixOf bytes := by
  induction bytes generalizing word with
  | nil =>
    obtain _ | ⟨d, behind⟩ := behind
    · rfl
    · obtain _ | ⟨w, word⟩ := word
      · rw [List.isPrefixOf_nil_left, List.isPrefixOf_nil_left]
      · have := h d rfl
        simp only [List.nil_append, List.isPrefixOf, Bool.and_true] at this ⊢
        rw [beq_eq_false_iff_ne] at this
        rw [beq_eq_false_iff_ne.2 (Ne.symm this), Bool.false_and]
  | cons d bytes ih =>
    obtain _ | ⟨w, word⟩ := word
    · rw [List.isPrefixOf_nil_left, List.isPrefixOf_nil_left]
    · rw [List.cons_append, List.isPrefixOf, List.isPrefixOf]
      by_cases hw : w = d
      · subst hw
        rw [ih fun b hb => by simpa [List.isPrefixOf] using h b hb]
      · rw [beq_eq_false_iff_ne.2 hw, Bool.false_and, Bool.false_and]

/-- The marks of types, and those of other code in which a mark is told by its own characters and
its extensions. -/
def Punctuation.separable : List Punctuation :=
  Tile.marks ++ [.openBracket, .closeBracket, .fatArrow, .star]

/-- The table has the mark itself first among those that a mark starts with, and the others go on
with one of its extensions. -/
lemma munchTable_mark : ∀ p ∈ Punctuation.separable,
    Punctuation.munchTable.find? (fun entry => entry.1.isPrefixOf (Source.encoded p.text.toList))
      = some (Source.encoded p.text.toList, p)
    ∧ ∀ entry ∈ Punctuation.munchTable, (Source.encoded p.text.toList).isPrefixOf entry.1 →
      ∀ b ∈ entry.1[(Source.encoded p.text.toList).length]?,
        b ∈ Source.encoded (Tile.extensions p) := by
  decide +kernel

lemma getElem?_of_isPrefixOf {word bytes : List UInt8} {b : UInt8}
    (h : (bytes ++ [b]).isPrefixOf word) :
    bytes.isPrefixOf word ∧ word[bytes.length]? = some b := by
  obtain ⟨rest, rfl⟩ := List.isPrefixOf_iff_prefix.1 h
  refine ⟨List.isPrefixOf_iff_prefix.2 ⟨[b] ++ rest, by rw [List.append_assoc]⟩, ?_⟩
  rw [List.append_assoc, List.getElem?_append_right le_rfl, Nat.sub_self]
  rfl

/-- The byte behind a mark is none of those that would go on with it. -/
lemma not_mem_extensions {p : Punctuation} (hends : ∀ c ∈ cs.head?, c ∉ Tile.extensions p) :
    ∀ b ∈ (Source.encoded cs).head?, b ∉ Source.encoded (Tile.extensions p) := by
  have hsize (p : Punctuation) : ∀ c ∈ Tile.extensions p, c.utf8Size = 1 := by
    refine List.all_iff_forall_prop.1 ?_
    cases p <;> rfl
  cases cs with
  | nil => exact fun b hb => nomatch hb
  | cons c cs =>
    intro b hb hmem
    obtain ⟨d, hd, hbd⟩ := List.mem_flatMap.1 hmem
    have hbc : b ∈ String.utf8EncodeChar c := by
      obtain ⟨b', bytes, e⟩ := utf8EncodeChar_eq_cons c
      rw [Source.encoded, List.flatMap_cons, e] at hb
      obtain rfl : b' = b := Option.some.inj hb
      rw [e]
      exact List.mem_cons_self
    obtain rfl := eq_of_mem_utf8EncodeChar (hsize p d hd) hbc hbd
    exact hends c rfl hd

lemma readMark_tile {p : Punctuation} (hp : p ∈ Punctuation.separable)
    (h : src.Ahead pos (p.text.toList ++ cs)) (hends : ∀ c ∈ cs.head?, c ∉ Tile.extensions p) :
    Lexeme.readMark src pos
      = (Tile.mark p).lexeme pos := by
  obtain ⟨hfind, hothers⟩ := munchTable_mark p hp
  have hat (i : Nat) : src.byteAt (pos + i)
      = (Source.encoded p.text.toList ++ Source.encoded cs)[i]? := by
    rw [h.byteAt, Source.encoded_append]
  have hstarts : ∀ entry ∈ Punctuation.munchTable, src.startsWith pos entry.1
      = entry.1.isPrefixOf (Source.encoded p.text.toList) := by
    intro entry hentry
    rw [Source.startsWith_eq hat]
    refine isPrefixOf_append_of_ends fun b hb => ?_
    rw [← Bool.not_eq_true]
    intro hlonger
    obtain ⟨hshort, hb'⟩ := getElem?_of_isPrefixOf hlonger
    exact not_mem_extensions hends b hb (hothers entry hentry hshort b hb')
  rw [Lexeme.readMark, Punctuation.munch?, List.find?_congr hstarts, hfind, Option.map_some]
  rfl

/-! ## Reading one tile -/

/-- No gap lies at an offset, and a lexeme is read there. -/
def Lexeme.StandsAt (src : Source) (modes : List Mode) (pos : Nat) (lexeme : Lexeme) : Prop :=
  ∃ b, src.byteAt pos = some b ∧ Byte.isLineBreak b = false ∧ Byte.isBlank b = false ∧ b ≠ 0x2F
    ∧ Lexeme.readCode src modes pos b = lexeme

section Reading

variable {modes : List Mode} {word : List Char} {p : Punctuation} {x : Ident}

lemma standsAt_of_plain (modes : List Mode) {b : UInt8} (hb : src.byteAt pos = some b)
    (hplain : Byte.isPlain b) (hslash : b ≠ 0x2F)
    (hquote : (src.byteAt (pos + 1)).bind Quote.ofByte? = none) :
    Lexeme.StandsAt src modes pos
      (if Word.startsAt src pos then Word.read src pos else Lexeme.readMark src pos) := by
  have hgap := hplain
  simp only [Byte.isPlain, Bool.not_eq_true', Bool.or_eq_false_iff] at hgap
  exact ⟨b, hb, hgap.1.2, hgap.2, hslash, readCode_plain hb hplain hquote⟩

/-- A word that is not between backquotes. -/
lemma standsAt_word (modes : List Mode) (h : src.Ahead pos (word ++ cs))
    (hquote : (src.byteAt (pos + 1)).bind Quote.ofByte? = none)
    (hstart : word.head?.any Unicode.isIdentifierStart)
    (hparts : word.all Unicode.isIdentifierPart)
    (hends : ∀ c ∈ cs.head?, Unicode.isIdentifierPart c = false)
    (hmark : String.ofList word ≠ "_") :
    Lexeme.StandsAt src modes pos (match Keyword.ofText? (String.ofList word) with
      | some k => { kind := .keyword k, stop := pos + word.utf8Encode.size }
      | none =>
        { kind := .identifier, stop := pos + word.utf8Encode.size
          value := String.ofList word }) := by
  obtain ⟨b, hb, hplain, hslash⟩ := first_word h hstart
  obtain ⟨hstarts, hskip, hslice⟩ := word_ahead h hstart hparts hends
  have hread := standsAt_of_plain modes hb hplain hslash hquote
  rw [if_pos hstarts, Word.read] at hread
  simp only [hskip, hslice, beq_eq_false_iff_ne.2 hmark, Bool.false_eq_true, if_false] at hread
  exact hread

/-- A word between backquotes. -/
lemma standsAt_raw (hraw : x.raw) (h : src.Ahead pos ((Tile.name x).chars ++ cs)) :
    Lexeme.StandsAt src modes pos ((Tile.name x).lexeme pos) := by
  have hchars : (Tile.name x).chars = '`' :: (x.text.toList ++ ['`']) := by simp [Tile.chars, hraw]
  rw [hchars, List.cons_append, List.append_assoc] at h
  have hinside : src.Ahead (pos + 1) (x.text.toList ++ '`' :: cs) := h.tail
  have hends : ∀ c ∈ ('`' :: cs).head?, Unicode.isIdentifierPart c = false := by
    rintro c ⟨⟩
    decide +kernel
  obtain ⟨hstarts, hskip, hslice⟩ := word_ahead hinside x.starts x.parts hends
  have hclose : src.byteAt (pos + 1 + x.text.toList.utf8Encode.size) = some 0x60 :=
    hinside.drop.byteAt 0
  have hne : (pos + 1 + x.text.toList.utf8Encode.size != pos + 1) = true := by
    have hstart := x.starts
    cases e : x.text.toList with
    | nil => simp [e] at hstart
    | cons c cs =>
      have := c.utf8Size_pos
      rw [bne_iff_ne, Source.size_utf8Encode_cons]
      omega
  have hstop : pos + (Source.encoded (Tile.name x).chars).length
      = pos + 1 + x.text.toList.utf8Encode.size + 1 := by
    rw [hchars, Source.size_utf8Encode, Source.encoded, List.flatMap_cons, List.flatMap_append,
      List.length_append, List.length_append, ← Source.encoded, ← Nat.add_assoc, ← Nat.add_assoc]
    rfl
  refine ⟨0x60, h.byteAt 0, rfl, rfl, by decide, ?_⟩
  have hread : Lexeme.readCode src modes pos 0x60 = Word.readRaw src pos := rfl
  rw [hread, Word.readRaw]
  simp only [if_pos hstarts, hskip, hne, hclose, hslice, String.ofList_toList, beq_self_eq_true,
    Bool.and_self, if_true]
  rw [Tile.lexeme, hstop, Tile.kind, if_pos hraw, Tile.value]

/-- A dot behind which there is no digit. -/
lemma readCode_dot (h : src.Ahead pos ('.' :: cs))
    (hends : ∀ c ∈ cs.head?, c ∉ Tile.extensions .dot)
    (hquote : (src.byteAt (pos + 1)).bind Quote.ofByte? = none) :
    Lexeme.readCode src modes pos 0x2E = Lexeme.readMark src pos := by
  have hdigit : src.byteIs (pos + 1) Byte.isDigit = false := by
    have htail : src.Ahead (pos + 1) cs := h.tail
    have hat : src.byteAt (pos + 1) = (Source.encoded cs).head? := by
      rw [List.head?_eq_getElem?]
      exact htail.byteAt 0
    have key : ∀ n < 256, Byte.isDigit (UInt8.ofNat n) →
        UInt8.ofNat n ∈ Source.encoded (Tile.extensions .dot) := by
      decide +kernel
    rw [Source.byteIs, hat, Option.any_eq_false]
    intro b hb
    rw [← Bool.not_eq_true]
    intro hdigit
    have := key b.toNat b.toNat_lt
    rw [UInt8.ofNat_toNat] at this
    exact not_mem_extensions hends b hb (this hdigit)
  have hpoint : Numeral.startsWithPoint src pos = false := by
    rw [Numeral.startsWithPoint, hdigit, Bool.and_false, Bool.false_and]
  have hword : Word.startsAt src pos = false := by
    rw [Word.startsAt, h.charAt]
    decide +kernel
  unfold Lexeme.readCode
  have hquote' : Quote.ofByte? 0x2E = none := rfl
  simp only [hpoint, hword, hquote, hquote', Bool.false_eq_true, if_false]
  rfl

lemma standsAt_mark (hp : p ∈ Punctuation.separable) (h : src.Ahead pos (p.text.toList ++ cs))
    (hends : ∀ c ∈ cs.head?, c ∉ Tile.extensions p)
    (hquote : (src.byteAt (pos + 1)).bind Quote.ofByte? = none) :
    Lexeme.StandsAt src modes pos ((Tile.mark p).lexeme pos) := by
  have hmark := readMark_tile hp h hends
  by_cases hdot : p = .dot
  case pos =>
    subst hdot
    exact ⟨0x2E, h.byteAt 0, rfl, rfl, by decide, (readCode_dot h hends hquote).trans hmark⟩
  case neg =>
    have key : ∀ p ∈ Punctuation.separable, p ≠ .dot → p.text.toList.head?.any fun c =>
        !Unicode.isIdentifierStart c && (String.utf8EncodeChar c).head?.any fun b =>
          Byte.isPlain b && b != 0x2F := by
      decide +kernel
    obtain ⟨c, hc, hkey⟩ := (Option.any_eq_true ..).1 (key p hp hdot)
    rw [Bool.and_eq_true, Bool.not_eq_true'] at hkey
    obtain ⟨hword, hkey⟩ := hkey
    obtain ⟨b, hb, hkey⟩ := (Option.any_eq_true ..).1 hkey
    rw [Bool.and_eq_true, bne_iff_ne] at hkey
    obtain ⟨hplain, hslash⟩ := hkey
    obtain ⟨rest, e⟩ := List.head?_eq_some_iff.1 hc
    have hstarts : Word.startsAt src pos = false := by
      rw [e] at h
      rw [Word.startsAt, Source.Ahead.charAt h]
      exact hword
    have hat : src.byteAt pos = some b := by
      have := h.byteAt 0
      obtain ⟨bytes, e'⟩ := List.head?_eq_some_iff.1 hb
      rwa [e, List.cons_append, Source.encoded, List.flatMap_cons, e'] at this
    have hread := standsAt_of_plain modes hat hplain hslash hquote
    rw [hstarts, if_neg Bool.false_ne_true, hmark] at hread
    exact hread

/-- Where a tile stands, it is read as a whole. -/
lemma standsAt_tile (plain : t.Plain) (ends : ∀ c ∈ cs.head?, t.EndsAt c)
    (hquote : (src.byteAt (pos + 1)).bind Quote.ofByte? = none)
    (h : src.Ahead pos (t.chars ++ cs)) : Lexeme.StandsAt src modes pos (t.lexeme pos) := by
  cases t with
  | name x =>
    cases hraw : x.raw with
    | true => exact standsAt_raw hraw h
    | false =>
      have hchars : (Tile.name x).chars = x.text.toList := by simp [Tile.chars, hraw]
      obtain ⟨hkeyword, hmark⟩ := x.free hraw
      rw [hchars] at h
      have hread := standsAt_word modes h hquote x.starts x.parts fun c hc =>
        ends c hc hraw
      rw [String.ofList_toList, hkeyword] at hread
      rw [Tile.lexeme, hchars, Tile.kind, if_neg (by simp [hraw]), ← Source.size_utf8Encode]
      exact hread hmark
  | keyword k =>
    obtain ⟨hstart, hparts, hkeyword, hmark⟩ := k.spelled
    have h : src.Ahead pos (k.text.toList ++ cs) := h
    have hread := standsAt_word modes h hquote hstart hparts ends
    rw [String.ofList_toList, hkeyword, Source.size_utf8Encode] at hread
    exact hread hmark
  | mark p => exact standsAt_mark (List.mem_append_left _ plain) h ends hquote

end Reading

end CangjieSyntax
