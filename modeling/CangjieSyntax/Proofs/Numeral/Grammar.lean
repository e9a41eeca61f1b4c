import Mathlib.Computability.Language
import CangjieSyntax.Proofs.Token.Access
import CangjieSyntax.Proofs.Token.Tile

/-!
# The grammar of numerals

Numerals as words of languages: numbers in four bases, fractions, exponents and widths. A word of a
language stands in a text between two offsets; words that stand one behind the other are one word.
-/

namespace CangjieSyntax

namespace Numeral

/-- The digits 0 to 9. -/
def decimal : String :=
  "0123456789"

namespace Base

/-- The letters that announce a base. -/
def letters : Base → String
  | hexadecimal => "xX"
  | binary => "bB"
  | octal => "oO"

/-- The digits of a base. -/
def digits : Base → String
  | hexadecimal => "0123456789abcdefABCDEF"
  | binary => "01"
  | octal => "01234567"

end Base

/-- One of some characters. -/
def oneOf (chars : String) : Language Char :=
  {w | ∃ c ∈ chars.toList, w = [c]}

/-- One of some words. -/
def wordOf (words : List String) : Language Char :=
  {w | String.ofList w ∈ words}

/-- Digits and underscores. -/
def run (digits : String) : Language Char :=
  KStar.kstar (oneOf (digits ++ "_"))

/-- Digits and underscores behind a digit. -/
def number (digits : String) : Language Char :=
  oneOf digits * run digits

/-- A point and a number. -/
def fraction (digits : String) : Language Char :=
  oneOf "." * number digits

/-- A mark, a sign or none, and a number. -/
def exponent (marks : String) : Language Char :=
  oneOf marks * (1 + oneOf "+-") * number decimal

/-- Digits and underscores with at least one digit among them. -/
def runWithDigit (digits : String) : Language Char :=
  {w | w ∈ run digits ∧ ∃ c ∈ w, c ∈ digits.toList}

/-- A zero, a letter for a base, and digits of the base. -/
def based (base : Base) : Language Char :=
  oneOf "0" * oneOf base.letters * runWithDigit base.digits

/-- Whole numbers. -/
def wholes : Language Char :=
  number decimal + (based .hexadecimal + based .binary + based .octal)

/-- Decimal numbers with a fraction, an exponent or both, and hexadecimal numbers with an
exponent. -/
def reals : Language Char :=
  number decimal * exponent "eE" + number decimal * fraction decimal * (1 + exponent "eE")
    + fraction decimal * (1 + exponent "eE")
    + oneOf "0" * oneOf Base.hexadecimal.letters * run Base.hexadecimal.digits
      * (1 + fraction Base.hexadecimal.digits) * exponent "pP"

/-- Integers, perhaps with a width. -/
def integers : Language Char :=
  wholes * (1 + wordOf integerSuffixes)

/-- Floating-point numbers, perhaps with a width. -/
def floats : Language Char :=
  reals * (1 + wordOf floatSuffixes)

/-! ## Words -/

section

variable {digits marks : String} {base : Base} {w : List Char}

lemma mem_optional {L : Language Char} : w ∈ 1 + L ↔ w = [] ∨ w ∈ L :=
  Iff.rfl

lemma mem_run : w ∈ run digits ↔ ∀ c ∈ w, c ∈ (digits ++ "_").toList := by
  rw [run, Language.mem_kstar]
  constructor
  · rintro ⟨words, rfl, hwords⟩ c hc
    obtain ⟨word, hword, hc⟩ := List.mem_flatten.1 hc
    obtain ⟨d, hd, rfl⟩ := hwords word hword
    rwa [List.mem_singleton.1 hc]
  · intro h
    refine ⟨w.map fun c => [c], (List.flatMap_singleton' w).symm, ?_⟩
    rw [List.forall_mem_map]
    exact fun c hc => ⟨c, h c hc, rfl⟩

lemma mem_number : w ∈ number digits
    ↔ ∃ c cs, w = c :: cs ∧ c ∈ digits.toList ∧ ∀ d ∈ cs, d ∈ (digits ++ "_").toList := by
  rw [number, Language.mem_mul]
  constructor
  · rintro ⟨_, ⟨c, hc, rfl⟩, cs, hcs, rfl⟩
    exact ⟨c, cs, rfl, hc, mem_run.1 hcs⟩
  · rintro ⟨c, cs, rfl, hc, hcs⟩
    exact ⟨[c], ⟨c, hc, rfl⟩, cs, mem_run.2 hcs, rfl⟩

lemma mem_fraction : w ∈ fraction digits ↔ ∃ cs ∈ number digits, w = '.' :: cs := by
  rw [fraction, Language.mem_mul]
  constructor
  · rintro ⟨_, ⟨c, hc, rfl⟩, cs, hcs, rfl⟩
    obtain rfl : c = '.' := List.mem_singleton.1 hc
    exact ⟨cs, hcs, rfl⟩
  · rintro ⟨cs, hcs, rfl⟩
    exact ⟨['.'], ⟨'.', List.mem_singleton_self _, rfl⟩, cs, hcs, rfl⟩

lemma mem_exponent : w ∈ exponent marks ↔ ∃ c sign, c ∈ marks.toList
    ∧ (sign = [] ∨ ∃ d ∈ "+-".toList, sign = [d])
    ∧ ∃ cs ∈ number decimal, w = c :: (sign ++ cs) := by
  rw [exponent, Language.mem_mul]
  constructor
  · rintro ⟨_, hfront, cs, hcs, rfl⟩
    obtain ⟨_, ⟨c, hc, rfl⟩, sign, hsign, rfl⟩ := Language.mem_mul.1 hfront
    exact ⟨c, sign, hc, hsign, cs, hcs, rfl⟩
  · rintro ⟨c, sign, hc, hsign, cs, hcs, rfl⟩
    exact ⟨[c] ++ sign, Language.append_mem_mul ⟨c, hc, rfl⟩ hsign, cs, hcs, rfl⟩

lemma mem_based : w ∈ based base
    ↔ ∃ m ∈ base.letters.toList, ∃ cs ∈ runWithDigit base.digits, w = '0' :: m :: cs := by
  rw [based, Language.mem_mul]
  constructor
  · rintro ⟨_, hfront, cs, hcs, rfl⟩
    obtain ⟨_, ⟨z, hz, rfl⟩, _, ⟨m, hm, rfl⟩, rfl⟩ := Language.mem_mul.1 hfront
    obtain rfl : z = '0' := List.mem_singleton.1 hz
    exact ⟨m, hm, cs, hcs, rfl⟩
  · rintro ⟨m, hm, cs, hcs, rfl⟩
    have hfront : ['0', m] ∈ oneOf "0" * oneOf base.letters :=
      Language.append_mem_mul (a := ['0']) (b := [m]) ⟨'0', by decide, rfl⟩ ⟨m, hm, rfl⟩
    exact ⟨['0', m], hfront, cs, hcs, rfl⟩

lemma mem_wholes : w ∈ wholes ↔ w ∈ number decimal ∨ ∃ base, w ∈ based base := by
  refine or_congr Iff.rfl ⟨?_, ?_⟩
  · rintro ((h | h) | h)
    · exact ⟨_, h⟩
    · exact ⟨_, h⟩
    · exact ⟨_, h⟩
  · rintro ⟨base, h⟩
    cases base with
    | hexadecimal => exact .inl (.inl h)
    | binary => exact .inl (.inr h)
    | octal => exact .inr h

/-- The four forms of floating-point numbers. -/
lemma mem_reals : w ∈ reals
    ↔ (∃ whole ∈ number decimal, ∃ power ∈ exponent "eE", w = whole ++ power)
      ∨ (∃ whole ∈ number decimal, ∃ part ∈ fraction decimal, ∃ power ∈ 1 + exponent "eE",
        w = whole ++ part ++ power)
      ∨ (∃ part ∈ fraction decimal, ∃ power ∈ 1 + exponent "eE", w = part ++ power)
      ∨ ∃ m ∈ Base.hexadecimal.letters.toList, ∃ digits ∈ run Base.hexadecimal.digits,
        ∃ part ∈ 1 + fraction Base.hexadecimal.digits, ∃ power ∈ exponent "pP",
        w = '0' :: m :: (digits ++ part ++ power) := by
  constructor
  · rintro (((h | h) | h) | h)
    · obtain ⟨whole, hwhole, power, hpower, rfl⟩ := Language.mem_mul.1 h
      exact .inl ⟨whole, hwhole, power, hpower, rfl⟩
    · obtain ⟨_, hfront, power, hpower, rfl⟩ := Language.mem_mul.1 h
      obtain ⟨whole, hwhole, part, hpart, rfl⟩ := Language.mem_mul.1 hfront
      exact .inr (.inl ⟨whole, hwhole, part, hpart, power, hpower, rfl⟩)
    · obtain ⟨part, hpart, power, hpower, rfl⟩ := Language.mem_mul.1 h
      exact .inr (.inr (.inl ⟨part, hpart, power, hpower, rfl⟩))
    · obtain ⟨_, hfront, power, hpower, rfl⟩ := Language.mem_mul.1 h
      obtain ⟨_, hwhole, part, hpart, rfl⟩ := Language.mem_mul.1 hfront
      obtain ⟨_, hbase, digits, hdigits, rfl⟩ := Language.mem_mul.1 hwhole
      obtain ⟨_, ⟨z, hz, rfl⟩, _, ⟨m, hm, rfl⟩, rfl⟩ := Language.mem_mul.1 hbase
      obtain rfl : z = '0' := List.mem_singleton.1 hz
      exact .inr (.inr (.inr ⟨m, hm, digits, hdigits, part, hpart, power, hpower, rfl⟩))
  · rintro (⟨whole, hwhole, power, hpower, rfl⟩ | ⟨whole, hwhole, part, hpart, power, hpower, rfl⟩
      | ⟨part, hpart, power, hpower, rfl⟩
      | ⟨m, hm, digits, hdigits, part, hpart, power, hpower, rfl⟩)
    · exact .inl (.inl (.inl (Language.append_mem_mul hwhole hpower)))
    · have hfront := Language.append_mem_mul hwhole hpart
      exact .inl (.inl (.inr (Language.append_mem_mul hfront hpower)))
    · exact .inl (.inr (Language.append_mem_mul hpart hpower))
    · have hbase : ['0', m] ∈ oneOf "0" * oneOf Base.hexadecimal.letters :=
        Language.append_mem_mul (a := ['0']) (b := [m]) ⟨'0', by decide, rfl⟩ ⟨m, hm, rfl⟩
      have hwhole := Language.append_mem_mul (Language.append_mem_mul hbase hdigits) hpart
      exact .inr (Language.append_mem_mul hwhole hpower)

end

end Numeral

/-! ## Words in a text -/

section

variable {src : Source} {L M : Language Char} {pos mid stop : Nat} {cs ds : List Char}

/-- A word of a language stands between two offsets. -/
def Source.Holds (src : Source) (L : Language Char) (pos stop : Nat) : Prop :=
  ∃ word rest, src.Ahead pos (word ++ rest) ∧ word ∈ L ∧ stop = pos + word.utf8Encode.size

lemma Source.Ahead.unique (h : src.Ahead pos cs) (h' : src.Ahead pos ds) : cs = ds := by
  obtain ⟨word, rfl, hstop⟩ := h.split h' (Nat.le_refl pos)
  cases word with
  | nil => rfl
  | cons c word =>
    have := c.utf8Size_pos
    rw [size_utf8Encode_cons] at hstop
    omega

namespace Source.Holds

/-- Behind a word that is given by the characters ahead. -/
lemma ahead (h : src.Holds L pos stop) (hcs : src.Ahead pos cs) :
    ∃ word rest, cs = word ++ rest ∧ word ∈ L ∧ stop = pos + word.utf8Encode.size
      ∧ src.Ahead stop rest := by
  obtain ⟨word, rest, hahead, hword, rfl⟩ := h
  exact ⟨word, rest, hcs.unique hahead, hword, rfl, hahead.drop⟩

lemma isBoundary_stop (h : src.Holds L pos stop) : src.isBoundary stop := by
  obtain ⟨word, rest, hahead, -, rfl⟩ := h
  exact hahead.drop.isBoundary

/-- Words that stand one behind the other. -/
lemma mul (h : src.Holds L pos mid) (h' : src.Holds M mid stop) : src.Holds (L * M) pos stop := by
  obtain ⟨word, rest, hahead, hword, rfl⟩ := h
  obtain ⟨word', rest', rfl, hword', rfl, -⟩ := h'.ahead hahead.drop
  refine ⟨word ++ word', rest', ?_, Language.append_mem_mul hword hword', ?_⟩
  · rwa [List.append_assoc]
  · rw [List.utf8Encode_append, ByteArray.size_append, Nat.add_assoc]

lemma mono (h : src.Holds L pos stop) (hle : ∀ w ∈ L, w ∈ M) : src.Holds M pos stop := by
  obtain ⟨word, rest, hahead, hword, hstop⟩ := h
  exact ⟨word, rest, hahead, hle word hword, hstop⟩

lemma one (h : src.isBoundary pos) : src.Holds 1 pos pos := by
  obtain ⟨cs, hcs⟩ := isBoundary_iff.1 h
  exact ⟨[], cs, hcs, Language.nil_mem_one, rfl⟩

end Source.Holds

end

end CangjieSyntax
