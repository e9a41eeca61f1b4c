import CangjieSyntax.Proofs.Token.Extent
import CangjieSyntax.Proofs.Token.Lexer

/-!
# Tokens that change the modes, and literals

Only braces and the quotes of strings change the stack of modes. Any other token of code leaves it
as it is.
-/

namespace CangjieSyntax

/-- Whether a token of this kind neither opens nor closes anything, in code and before its end. -/
def Kind.isPlain : Kind → Bool
  | endOfFile | stringStart | multiLineStringStart | stringContent | interpolationStart
  | interpolationEnd | stringEnd | mark .openBrace | mark .closeBrace => false
  | _ => true

namespace Lexeme

variable {src : Source} {modes : List Mode} {pos : Nat} {first : UInt8}

/-- Reading the token leaves the modes as they are. -/
structure Plain (l : Lexeme) : Prop where
  kind : l.kind.isPlain
  change : l.change = .stay

lemma plain_word : (Word.read src pos).Plain := by
  unfold Word.read
  dsimp only
  split
  · exact ⟨rfl, rfl⟩
  · split <;> exact ⟨rfl, rfl⟩

lemma plain_raw : (Word.readRaw src pos).Plain := by
  unfold Word.readRaw
  dsimp only
  exact ⟨by rw [apply_ite Lexeme.kind, ite_self]; rfl, by rw [apply_ite Lexeme.change, ite_self]⟩

lemma plain_dollar : (Word.readDollar src pos).Plain := by
  unfold Word.readDollar
  split <;> exact ⟨rfl, rfl⟩

lemma plain_hash : (RawString.readHash src pos).Plain := by
  unfold RawString.readHash
  dsimp only
  split
  · unfold RawString.read
    dsimp only
    split <;> exact ⟨rfl, rfl⟩
  · exact ⟨rfl, rfl⟩

lemma plain_withSuffix (body : Numeral.Body) : (Numeral.withSuffix src pos body).Plain := by
  unfold Numeral.withSuffix
  dsimp only
  constructor
  · rw [apply_ite Lexeme.kind, apply_ite Lexeme.kind, ite_self, ite_self]
    split <;> rfl
  · rw [apply_ite Lexeme.change, apply_ite Lexeme.change, ite_self, ite_self]

lemma plain_charLiteral (isByte : Bool) (quote : Quote) :
    (CharLiteral.read src isByte quote pos).Plain := by
  have hkind : (if isByte then Kind.byteLiteral else .runeLiteral).isPlain := by
    split <;> rfl
  unfold CharLiteral.read
  dsimp only
  split
  · exact ⟨hkind, rfl⟩
  split
  · exact ⟨hkind, rfl⟩
  split
  · exact ⟨hkind, rfl⟩
  split <;> exact ⟨hkind, rfl⟩

lemma plain_byteString : (CharLiteral.readByteString src pos).Plain :=
  ⟨rfl, rfl⟩

/-- The spelling of a brace starts with it. -/
lemma Punctuation.munchTable_braces : ∀ entry ∈ Punctuation.munchTable,
    (entry.2 = .openBrace → entry.1.head? = some 0x7B)
      ∧ (entry.2 = .closeBrace → entry.1.head? = some 0x7D) := by
  decide +kernel

lemma plain_readMark (hfirst : src.byteAt pos = some first) (hopen : first ≠ 0x7B)
    (hclose : first ≠ 0x7D) : (readMark src pos).Plain := by
  unfold readMark
  split
  case h_1 p stop hmunch =>
    refine ⟨?_, rfl⟩
    obtain ⟨entry, hentry, e⟩ := Option.map_eq_some_iff.1 hmunch
    obtain ⟨rfl, -⟩ := Prod.mk.inj e
    have hmem := List.mem_of_find?_eq_some hentry
    obtain ⟨hfirstOpen, hfirstClose⟩ := Punctuation.munchTable_braces entry hmem
    have hstarts {b : UInt8} (hb : entry.1.head? = some b) : first = b := by
      obtain ⟨word, hword⟩ := List.head?_eq_some_iff.1 hb
      have hstarts := List.find?_some hentry
      rw [hword, Source.startsWith, Bool.and_eq_true, beq_iff_eq, hfirst] at hstarts
      exact Option.some.inj hstarts.1
    change (Kind.mark entry.2).isPlain
    cases hp : entry.2 with
    | openBrace => exact absurd (hstarts (hfirstOpen hp)) hopen
    | closeBrace => exact absurd (hstarts (hfirstClose hp)) hclose
    | _ => rfl
  case h_2 => split <;> exact ⟨rfl, rfl⟩

/-- The tokens of code: braces, the quotes in front of strings, and those that leave the modes as
they are. -/
theorem readCode_cases (hfirst : src.byteAt pos = some first) :
    (first = 0x7B ∧ readCode src modes pos first
        = { kind := .mark .openBrace, stop := pos + 1, change := .openBrace })
      ∨ (first = 0x7D ∧ readCode src modes pos first = closeBrace modes pos)
      ∨ (∃ quote : Quote, first = quote.byte
        ∧ readCode src modes pos first = StringText.readStart src quote pos)
      ∨ (readCode src modes pos first).Plain := by
  by_cases hopen : first = 0x7B
  · subst hopen
    exact .inl ⟨rfl, rfl⟩
  by_cases hclose : first = 0x7D
  · subst hclose
    exact .inr (.inl ⟨rfl, rfl⟩)
  have word : (if Word.startsAt src pos then Word.read src pos else readMark src pos).Plain := by
    split
    · exact plain_word
    · exact plain_readMark hfirst hopen hclose
  refine .inr (.inr ?_)
  unfold readCode
  dsimp only
  rw [if_neg (by simpa using hopen), if_neg (by simpa using hclose)]
  split
  · exact .inr plain_dollar
  split
  · exact .inr plain_hash
  split
  · exact .inr plain_raw
  split
  · exact .inr (plain_withSuffix _)
  split
  · exact .inr (plain_withSuffix _)
  split
  case h_1 quote hquote => exact .inl ⟨quote, Quote.byte_of_ofByte? hquote, rfl⟩
  · right
    split
    · exact plain_charLiteral false _
    split
    · split
      · exact plain_charLiteral true _
      · exact plain_byteString
    · exact word
  · exact .inr word

end Lexeme

end CangjieSyntax

/-!
## The literals of code

Numbers start with a digit, or with a point where no operand ends. Runes, bytes and byte strings
start with a letter in front of a quote. No other rule of code reads a token of their kinds.
-/

namespace CangjieSyntax

namespace Kind

/-- Runes, bytes and byte strings. -/
def isChar : Kind → Bool
  | runeLiteral | byteLiteral | byteStringLiteral => true
  | _ => false

/-- Integers and floating-point numbers. -/
def isNumber : Kind → Bool
  | integerLiteral | floatLiteral => true
  | _ => false

end Kind

variable {src : Source} {start : Nat}

lemma Numeral.kind_withSuffix (body : Body) : (withSuffix src start body).kind
    = if body.isFloat then .floatLiteral else .integerLiteral := by
  unfold withSuffix
  dsimp only
  rw [apply_ite Lexeme.kind, apply_ite Lexeme.kind, ite_self, ite_self]

lemma Numeral.isChar_withSuffix (body : Body) :
    (withSuffix src start body).kind.isChar = false := by
  rw [kind_withSuffix]
  split <;> rfl

lemma CharLiteral.kind_read (isByte : Bool) (quote : Quote) :
    (read src isByte quote start).kind = if isByte then .byteLiteral else .runeLiteral := by
  unfold read
  dsimp only
  rw [apply_ite Lexeme.kind, apply_ite Lexeme.kind, apply_ite Lexeme.kind, apply_ite Lexeme.kind,
    ite_self, ite_self, ite_self, ite_self]

lemma CharLiteral.isNumber_read (isByte : Bool) (quote : Quote) :
    (read src isByte quote start).kind.isNumber = false := by
  rw [kind_read]
  split <;> rfl

namespace Lexeme

/-- A token that is no rune, no byte, no byte string and no number. -/
def IsOther (l : Lexeme) : Prop :=
  l.kind.isChar = false ∧ l.kind.isNumber = false

lemma isOther_closeBrace (modes : List Mode) : (closeBrace modes start).IsOther := by
  unfold closeBrace
  split <;> exact ⟨rfl, rfl⟩

lemma isOther_readDollar : (Word.readDollar src start).IsOther := by
  unfold Word.readDollar
  split <;> exact ⟨rfl, rfl⟩

lemma isOther_readHash : (RawString.readHash src start).IsOther := by
  unfold RawString.readHash RawString.read IsOther
  grind [Kind.isChar, Kind.isNumber]

lemma isOther_readRaw : (Word.readRaw src start).IsOther := by
  unfold Word.readRaw IsOther
  grind [Kind.isChar, Kind.isNumber]

lemma isOther_readStart (quote : Quote) : (StringText.readStart src quote start).IsOther := by
  unfold StringText.readStart
  split <;> exact ⟨rfl, rfl⟩

lemma isOther_word :
    (if Word.startsAt src start then Word.read src start else readMark src start).IsOther := by
  unfold Word.read readMark IsOther
  grind [Kind.isChar, Kind.isNumber]

/-- What reads the numbers, the runes and the bytes of code. -/
lemma readCode_literal_cases (src : Source) (modes : List Mode) (pos : Nat) (first : UInt8) :
    (readCode src modes pos first).IsOther
      ∨ (Byte.isDigit first ∧ readCode src modes pos first = Numeral.read src pos)
      ∨ (Byte.isDigit first = false ∧ Numeral.startsWithPoint src pos
        ∧ readCode src modes pos first
          = Numeral.withSuffix src pos (Numeral.readPointFirst src pos))
      ∨ (∃ isByte quote, (first = if isByte then 0x62 else 0x72)
        ∧ src.byteAt (pos + 1) = some (Quote.byte quote)
        ∧ readCode src modes pos first = CharLiteral.read src isByte quote pos)
      ∨ first = 0x62 ∧ src.byteAt (pos + 1) = some 0x22
        ∧ readCode src modes pos first = CharLiteral.readByteString src pos := by
  by_cases hopen : first = 0x7B
  · subst hopen
    exact .inl ⟨rfl, rfl⟩
  by_cases hclose : first = 0x7D
  · subst hclose
    exact .inl (isOther_closeBrace modes)
  unfold readCode
  dsimp only
  rw [if_neg (by simpa using hopen), if_neg (by simpa using hclose)]
  split
  · exact .inl isOther_readDollar
  split
  · exact .inl isOther_readHash
  split
  · exact .inl isOther_readRaw
  split
  case isTrue hdigit => exact .inr (.inl ⟨hdigit, rfl⟩)
  case isFalse hdigit =>
    split
    case isTrue hpoint => exact .inr (.inr (.inl ⟨Bool.eq_false_iff.2 hdigit, hpoint, rfl⟩))
    case isFalse =>
      split
      case h_1 quote hquote => exact .inl (isOther_readStart quote)
      case h_2 quote _ hquote =>
        obtain ⟨b, hb, hbyte⟩ := Option.bind_eq_some_iff.1 hquote
        obtain rfl := Quote.byte_of_ofByte? hbyte
        split
        case isTrue hr =>
          exact .inr (.inr (.inr (.inl ⟨false, quote, beq_iff_eq.1 hr, hb, rfl⟩)))
        split
        case isTrue hmark =>
          cases quote with
          | single =>
            exact .inr (.inr (.inr (.inl ⟨true, .single, beq_iff_eq.1 hmark, hb, rfl⟩)))
          | double => exact .inr (.inr (.inr (.inr ⟨beq_iff_eq.1 hmark, hb, rfl⟩)))
        case isFalse => exact .inl isOther_word
      case h_3 => exact .inl isOther_word

lemma not_isChar_stringText (quote : Quote) (multiLine : Bool) :
    (StringText.read src quote multiLine start).kind.isChar = false := by
  unfold StringText.read StringText.unterminated
  grind [Kind.isChar]

end Lexeme

end CangjieSyntax
