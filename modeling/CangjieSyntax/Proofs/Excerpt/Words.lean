import Mathlib.Data.List.Find
import CangjieSyntax.Proofs.Excerpt.Basic
import CangjieSyntax.Proofs.Token.Extent

/-!
# Words, marks and numbers in an excerpt

Words, marks and numbers that start in an excerpt end in it, and they are the same in both texts.
-/

namespace CangjieSyntax

/-! ## Moved lexemes -/

instance : Moves LexError := ⟨fun _ e => e, fun _ => rfl⟩

instance : Moves Bounds where
  move m b := ⟨m.pos b.start, m.pos b.stop⟩
  move_refl _ := rfl

instance : Moves Lexeme where
  move m l := { l with stop := m.pos l.stop, errors := move m l.errors }
  move_refl l := by
    change { l with errors := move .refl l.errors } = l
    rw [move_refl]

instance : Moves Numeral.Body where
  move m b := { b with stop := m.pos b.stop, errors := move m b.errors }
  move_refl b := by
    change { b with errors := move .refl b.errors } = b
    rw [move_refl]

namespace Source.Excerpt

variable {src src' : Source} {m : Move} {lo hi p q : Nat} {b : UInt8}
  (w : src.Excerpt src' m lo hi)

include w

/-! ## Words -/

lemma startsAt (hlo : lo ≤ p) (hhi : p ≤ hi) : Word.startsAt src' (m.pos p) = Word.startsAt src p :=
  w.charAt_any (by decide) hlo hhi

lemma skip (hlo : lo ≤ p) (hhi : p ≤ hi) :
    Word.skip src' (m.pos p) = m.pos (Word.skip src p) ∧ Word.skip src p ≤ hi :=
  w.skipChars (by decide) hlo hhi

lemma word (hlo : lo ≤ p) (hhi : p ≤ hi) :
    Word.read src' (m.pos p) = move m (Word.read src p) := by
  obtain ⟨hskip, hle⟩ := w.skip hlo hhi
  unfold Word.read
  dsimp only
  rw [hskip, w.slice hlo (Word.le_skip src p) hle]
  split
  · rfl
  · split <;> rfl

lemma rawWord (hlo : lo ≤ p) (hhi : p < hi) :
    Word.readRaw src' (m.pos p) = move m (Word.readRaw src p) := by
  have hlo' : lo ≤ p + 1 := Nat.le_succ_of_le hlo
  obtain ⟨hskip, hle⟩ := w.skip hlo' hhi
  have hskips := Word.le_skip src (p + 1)
  unfold Word.readRaw
  dsimp only
  rw [w.add_one hlo hhi, w.startsAt hlo' hhi, hskip, ← apply_ite m.pos]
  have hstop : p + 1 ≤ (if Word.startsAt src (p + 1) then Word.skip src (p + 1) else p + 1)
      ∧ (if Word.startsAt src (p + 1) then Word.skip src (p + 1) else p + 1) ≤ hi := by
    split
    · exact ⟨hskips, hle⟩
    · exact ⟨Nat.le_refl _, hhi⟩
  generalize (if Word.startsAt src (p + 1) then Word.skip src (p + 1) else p + 1) = stop at hstop ⊢
  have hne : (m.pos stop != m.pos (p + 1)) = (stop != p + 1) := by
    rw [bne, bne, Bool.eq_iff_iff]
    simp [m.pos_inj]
  rw [w.slice hlo' hstop.1 hstop.2, hne,
    w.byteAt_eq (b := 0x60) (by decide) (Nat.le_trans hlo' hstop.1) hstop.2]
  split
  case isTrue hclosed =>
    rw [Bool.and_eq_true, beq_iff_eq] at hclosed
    have hlt := w.lt_of_byteAt (by decide) hstop.2 hclosed.2
    rw [w.add_one (Nat.le_trans hlo' hstop.1) hlt]
    rfl
  case isFalse => rfl

lemma dollarWord (hlo : lo ≤ p) (hhi : p < hi) :
    Word.readDollar src' (m.pos p) = move m (Word.readDollar src p) := by
  have hlo' : lo ≤ p + 1 := Nat.le_succ_of_le hlo
  obtain ⟨hskip, hle⟩ := w.skip hlo' hhi
  unfold Word.readDollar
  dsimp only
  rw [w.add_one hlo hhi, w.startsAt hlo' hhi]
  split
  · rw [hskip, w.slice hlo' (Word.le_skip src (p + 1)) hle]
    rfl
  · rfl

/-! ## Marks -/

end Source.Excerpt

/-- No mark but the slash has a byte in it that may stand behind an excerpt. -/
lemma Punctuation.munchTable_closing : ∀ entry ∈ munchTable,
    entry.1 ≠ [] ∧ ∀ b ∈ entry.1.tail, b ∉ Byte.closing := by
  decide +kernel

lemma Byte.closing_isDigit : ∀ b ∈ closing, isDigit b = false := by decide

lemma Byte.closing_isHexDigit : ∀ b ∈ closing, isHexDigit b = false := by decide

namespace Numeral

lemma closing_isDecimalExponent : ∀ b ∈ Byte.closing, isDecimalExponent b = false := by decide

lemma closing_isBinaryExponent : ∀ b ∈ Byte.closing, isBinaryExponent b = false := by decide

lemma Base.closing_isDigit (base : Base) : ∀ b ∈ Byte.closing, base.isDigit b = false := by
  cases base <;> decide

end Numeral

namespace Source.Excerpt

variable {src src' : Source} {m : Move} {lo hi p q : Nat} {b : UInt8}
  (w : src.Excerpt src' m lo hi)

include w

/-- A mark that starts in the excerpt. -/
lemma startsWith_mark {word : List UInt8} (hne : word ≠ [])
    (hword : ∀ b ∈ word.tail, b ∉ Byte.closing) (hlo : lo ≤ p) (hhi : p < hi) :
    src'.startsWith (m.pos p) word = src.startsWith p word := by
  obtain ⟨b, word, rfl⟩ := List.exists_cons_of_ne_nil hne
  rw [List.tail_cons] at hword
  rw [Source.startsWith, Source.startsWith, w.byteAt hlo hhi, w.add_one hlo hhi,
    w.startsWith hword (Nat.le_succ_of_le hlo) hhi]

lemma munch? (hlo : lo ≤ p) (hhi : p < hi) :
    Punctuation.munch? src' (m.pos p)
        = (Punctuation.munch? src p).map (fun found => (found.1, m.pos found.2))
      ∧ ∀ found ∈ Punctuation.munch? src p, found.2 ≤ hi := by
  have same : Punctuation.munchTable.find? (fun entry => src'.startsWith (m.pos p) entry.1)
      = Punctuation.munchTable.find? fun entry => src.startsWith p entry.1 := by
    refine List.find?_congr fun entry hentry => ?_
    obtain ⟨hne, htail⟩ := Punctuation.munchTable_closing entry hentry
    exact w.startsWith_mark hne htail hlo hhi
  unfold Punctuation.munch?
  rw [same]
  cases hfound : Punctuation.munchTable.find? fun entry => src.startsWith p entry.1 with
  | none => exact ⟨rfl, nofun⟩
  | some entry =>
    obtain ⟨hne, htail⟩ :=
      Punctuation.munchTable_closing entry (List.mem_of_find?_eq_some hfound)
    have hstarts := List.find?_some hfound
    have hle : p + entry.1.length ≤ hi := by
      obtain ⟨b, word, hcons⟩ := List.exists_cons_of_ne_nil hne
      rw [hcons] at hstarts ⊢
      rw [hcons, List.tail_cons] at htail
      rw [Source.startsWith, Bool.and_eq_true] at hstarts
      have := w.behind_word_le htail hhi hstarts.2
      rw [List.length_cons]
      omega
    refine ⟨?_, ?_⟩
    · simp only [Option.map_some, w.add hlo hle]
    · rintro _ ⟨⟩
      exact hle

/-- What a `>` is joined with. -/
lemma joinGreater? (hlo : lo ≤ p) (hhi : p ≤ hi) :
    Punctuation.joinGreater? src' (m.pos p)
        = (Punctuation.joinGreater? src p).map (fun found => (found.1, m.pos found.2))
      ∧ ∀ found ∈ Punctuation.joinGreater? src p, found.2 ≤ hi := by
  unfold Punctuation.joinGreater?
  rw [w.byteAt_eq (b := 0x3E) (by decide) hlo hhi, w.byteAt_eq (b := 0x3D) (by decide) hlo hhi]
  have next {b c : UInt8} (hb : b ∉ Byte.closing) (hc : c ∉ Byte.closing)
      (h : src.byteAt p = some b) :
      p < hi ∧ (src'.byteAt (m.pos p + 1) == some c) = (src.byteAt (p + 1) == some c) := by
    have hlt := w.lt_of_byteAt hb hhi h
    rw [w.add_one hlo hlt]
    exact ⟨hlt, w.byteAt_eq hc (Nat.le_succ_of_le hlo) hlt⟩
  split
  case isTrue hgreater =>
    obtain ⟨hlt, hequals⟩ := next (c := 0x3D) (by decide) (by decide) (beq_iff_eq.1 hgreater)
    rw [hequals]
    split
    case isTrue hequals =>
      have hle : p + 2 ≤ hi := w.lt_of_byteAt (p := p + 1) (by decide) hlt (beq_iff_eq.1 hequals)
      rw [w.add hlo hle]
      exact ⟨rfl, fun found hfound => by cases hfound; exact hle⟩
    case isFalse =>
      rw [w.add_one hlo hlt]
      exact ⟨rfl, fun found hfound => by cases hfound; exact hlt⟩
  case isFalse =>
    cases hequals : src.byteAt p == some 0x3D with
    | false => exact ⟨rfl, nofun⟩
    | true =>
      obtain ⟨hlt, hdouble⟩ := next (c := 0x3D) (by decide) (by decide) (beq_iff_eq.1 hequals)
      obtain ⟨-, harrow⟩ := next (c := 0x3E) (by decide) (by decide) (beq_iff_eq.1 hequals)
      rw [bne, bne, bne, bne, hdouble, harrow, w.add_one hlo hlt]
      split
      · exact ⟨rfl, fun found hfound => by cases hfound; exact hlt⟩
      · exact ⟨rfl, nofun⟩

lemma readMark (hlo : lo ≤ p) (hhi : p < hi) :
    Lexeme.readMark src' (m.pos p) = move m (Lexeme.readMark src p) := by
  obtain ⟨hmunch, -⟩ := w.munch? hlo hhi
  unfold Lexeme.readMark
  rw [hmunch, w.charAt hlo hhi]
  cases Punctuation.munch? src p with
  | some found => rfl
  | none =>
    cases hc : src.charAt p with
    | none =>
      dsimp only [Option.map_none]
      rw [w.add_one hlo hhi]
      rfl
    | some c =>
      dsimp only [Option.map_none]
      rw [w.add hlo (w.behind_char_le_hi hhi hc)]
      rfl

/-! ## Numbers -/

variable {digit mark : UInt8 → Bool}

lemma skipDigits (hdigit : ∀ b ∈ Byte.closing, digit b = false) (hlo : lo ≤ p) (hhi : p ≤ hi) :
    Numeral.skipDigits src' digit (m.pos p) = m.pos (Numeral.skipDigits src digit p)
      ∧ Numeral.skipDigits src digit p ≤ hi := by
  refine w.skipWhile_inside (fun b hb => ?_) hlo hhi
  rw [hdigit b hb, Bool.false_or]
  revert b
  decide

lemma exponent? (hmark : ∀ b ∈ Byte.closing, mark b = false) (hlo : lo ≤ p) (hhi : p ≤ hi) :
    Numeral.exponent? src' mark (m.pos p) = (Numeral.exponent? src mark p).map m.pos
      ∧ ∀ stop ∈ Numeral.exponent? src mark p, p ≤ stop ∧ stop ≤ hi := by
  unfold Numeral.exponent?
  rw [w.byteIs hmark hlo hhi]
  split
  case isFalse => exact ⟨rfl, nofun⟩
  case isTrue hmarked =>
    have hlt := w.lt_of_byteIs hmark hhi hmarked
    have hlo' : lo ≤ p + 1 := Nat.le_succ_of_le hlo
    dsimp only
    rw [w.add_one hlo hlt, w.byteIs (by decide) hlo' hlt]
    -- The sign, if there is one, stands in the excerpt.
    have hdigits : m.pos p + 2 = m.pos (p + 2) ∨ src.byteIs (p + 1) Numeral.isSign = false := by
      by_cases hsign : src.byteIs (p + 1) Numeral.isSign
      · exact .inl (w.add hlo (w.lt_of_byteIs (by decide) hlt hsign))
      · exact .inr (Bool.eq_false_iff.2 hsign)
    have moved : (if src.byteIs (p + 1) Numeral.isSign then m.pos p + 2 else m.pos (p + 1))
        = m.pos (if src.byteIs (p + 1) Numeral.isSign then p + 2 else p + 1) := by
      obtain h | h := hdigits
      · rw [h, apply_ite m.pos]
      · simp [h]
    have hle : p + 1 ≤ (if src.byteIs (p + 1) Numeral.isSign then p + 2 else p + 1)
        ∧ (if src.byteIs (p + 1) Numeral.isSign then p + 2 else p + 1) ≤ hi := by
      split
      case isTrue hsign => exact ⟨Nat.le_succ _, w.lt_of_byteIs (by decide) hlt hsign⟩
      case isFalse => exact ⟨Nat.le_refl _, hlt⟩
    rw [moved]
    generalize (if src.byteIs (p + 1) Numeral.isSign then p + 2 else p + 1) = digits at hle ⊢
    have hlo'' : lo ≤ digits := Nat.le_trans hlo' hle.1
    obtain ⟨hskip, hstop⟩ := w.skipDigits Byte.closing_isDigit hlo'' hle.2
    rw [w.byteIs (by decide) hlo'' hle.2, hskip]
    split
    · refine ⟨rfl, ?_⟩
      rintro _ ⟨⟩
      have := Numeral.le_skipDigits src Byte.isDigit digits
      omega
    · exact ⟨rfl, nofun⟩

/-- An exponent behind digits, or the end of the digits. -/
lemma exponent?_getD (hmark : ∀ b ∈ Byte.closing, mark b = false) (hlo : lo ≤ p) (hhi : p ≤ hi) :
    (Numeral.exponent? src' mark (m.pos p)).getD (m.pos p)
        = m.pos ((Numeral.exponent? src mark p).getD p)
      ∧ p ≤ (Numeral.exponent? src mark p).getD p
      ∧ (Numeral.exponent? src mark p).getD p ≤ hi := by
  obtain ⟨hmoved, hstop⟩ := w.exponent? hmark hlo hhi
  rw [hmoved]
  cases e : Numeral.exponent? src mark p with
  | none => exact ⟨rfl, Nat.le_refl p, hhi⟩
  | some stop => exact ⟨rfl, hstop stop e⟩

lemma fraction? (hdigit : ∀ b ∈ Byte.closing, digit b = false) (hlo : lo ≤ p) (hhi : p ≤ hi) :
    Numeral.fraction? src' digit (m.pos p) = (Numeral.fraction? src digit p).map m.pos
      ∧ ∀ stop ∈ Numeral.fraction? src digit p, p ≤ stop ∧ stop ≤ hi := by
  unfold Numeral.fraction?
  rw [w.byteAt_eq (by decide) hlo hhi]
  cases hpoint : src.byteAt p == some 0x2E with
  | false => exact ⟨rfl, nofun⟩
  | true =>
    have hlt := w.lt_of_byteAt (by decide) hhi (beq_iff_eq.1 hpoint)
    have hlo' : lo ≤ p + 1 := Nat.le_succ_of_le hlo
    obtain ⟨hskip, hstop⟩ := w.skipDigits hdigit hlo' hlt
    rw [w.add_one hlo hlt, w.byteIs hdigit hlo' hlt, hskip]
    split
    · refine ⟨rfl, ?_⟩
      rintro _ ⟨⟩
      have := Numeral.le_skipDigits src digit (p + 1)
      omega
    · exact ⟨rfl, nofun⟩

lemma hexFloat? (hlo : lo ≤ p) (hhi : p ≤ hi) :
    Numeral.hexFloat? src' (m.pos p) = (Numeral.hexFloat? src p).map m.pos
      ∧ ∀ stop ∈ Numeral.hexFloat? src p, p ≤ stop ∧ stop ≤ hi := by
  obtain ⟨hmoved, hstop⟩ := w.fraction? Byte.closing_isHexDigit hlo hhi
  unfold Numeral.hexFloat?
  rw [hmoved]
  cases e : Numeral.fraction? src Byte.isHexDigit p with
  | none => exact w.exponent? Numeral.closing_isBinaryExponent hlo hhi
  | some middle =>
    obtain ⟨hle, hhi'⟩ := hstop middle e
    obtain ⟨hmoved', hstop'⟩ :=
      w.exponent? Numeral.closing_isBinaryExponent (Nat.le_trans hlo hle) hhi'
    exact ⟨hmoved', fun stop hmem => ⟨Nat.le_trans hle (hstop' stop hmem).1, (hstop' stop hmem).2⟩⟩

lemma readBased (base : Numeral.Base) (hlo : lo ≤ p) (hhi : p + 2 ≤ hi) :
    Numeral.readBased src' (m.pos p) base = move m (Numeral.readBased src p base)
      ∧ p ≤ (Numeral.readBased src p base).stop ∧ (Numeral.readBased src p base).stop ≤ hi := by
  have hlo' : lo ≤ p + 2 := Nat.le_add_right_of_le hlo
  obtain ⟨hwhole, hle⟩ := w.skipDigits base.closing_isDigit hlo' hhi
  obtain ⟨hsep, -⟩ := w.skipWhile_inside (f := Numeral.isSeparator) (by decide) hlo' hhi
  have hfrom := Numeral.le_skipDigits src base.isDigit (p + 2)
  unfold Numeral.readBased
  dsimp only
  rw [w.add hlo hhi, hwhole, hsep]
  generalize Numeral.skipDigits src base.isDigit (p + 2) = whole at hle hfrom ⊢
  have hlo'' : lo ≤ whole := by omega
  have hne : (m.pos (src.skipWhile Numeral.isSeparator (p + 2)) != m.pos whole)
      = (src.skipWhile Numeral.isSeparator (p + 2) != whole) := by
    rw [bne, bne, Bool.eq_iff_iff]
    simp [m.pos_inj]
  rw [hne]
  generalize (src.skipWhile Numeral.isSeparator (p + 2) != whole) = hasDigit
  split
  · obtain ⟨hfloat, hstop⟩ := w.hexFloat? hlo'' hle
    rw [hfloat]
    cases e : Numeral.hexFloat? src whole with
    | some stop =>
      have := hstop stop e
      exact ⟨rfl, by dsimp only; omega, this.2⟩
    | none =>
      refine ⟨?_, by dsimp only; omega, hle⟩
      cases hasDigit <;> rfl
  · obtain ⟨hskip, hstop⟩ := w.skipDigits Byte.closing_isDigit hlo'' hle
    have := Numeral.le_skipDigits src Byte.isDigit whole
    rw [w.byteIs (by decide) hlo'' hle, hskip]
    split
    · refine ⟨?_, by dsimp only; omega, hstop⟩
      cases hasDigit <;> rfl
    · refine ⟨?_, by dsimp only; omega, hle⟩
      cases hasDigit <;> rfl

lemma readDecimal (hlo : lo ≤ p) (hhi : p ≤ hi) :
    Numeral.readDecimal src' (m.pos p) = move m (Numeral.readDecimal src p)
      ∧ p ≤ (Numeral.readDecimal src p).stop ∧ (Numeral.readDecimal src p).stop ≤ hi := by
  obtain ⟨hwhole, hle⟩ := w.skipDigits Byte.closing_isDigit hlo hhi
  have hfrom := Numeral.le_skipDigits src Byte.isDigit p
  unfold Numeral.readDecimal
  dsimp only
  rw [hwhole]
  generalize Numeral.skipDigits src Byte.isDigit p = whole at hle hfrom ⊢
  have hlo' : lo ≤ whole := Nat.le_trans hlo hfrom
  obtain ⟨hfraction, hmiddle⟩ := w.fraction? Byte.closing_isDigit hlo' hle
  rw [hfraction]
  cases e : Numeral.fraction? src Byte.isDigit whole with
  | some middle =>
    have := hmiddle middle e
    obtain ⟨hmoved, hge, hstop⟩ :=
      w.exponent?_getD Numeral.closing_isDecimalExponent
        (Nat.le_trans hlo' this.1) this.2
    dsimp only [Option.map_some]
    rw [hmoved]
    exact ⟨rfl, by omega, hstop⟩
  | none =>
    obtain ⟨hmoved, hstop⟩ := w.exponent? Numeral.closing_isDecimalExponent hlo' hle
    dsimp only [Option.map_none]
    rw [hmoved]
    cases e : Numeral.exponent? src Numeral.isDecimalExponent whole with
    | some stop =>
      have := hstop stop e
      exact ⟨rfl, by dsimp only; omega, this.2⟩
    | none => exact ⟨rfl, hfrom, hle⟩

lemma readPointFirst (hlo : lo ≤ p) (hhi : p < hi) :
    Numeral.readPointFirst src' (m.pos p) = move m (Numeral.readPointFirst src p)
      ∧ p ≤ (Numeral.readPointFirst src p).stop ∧ (Numeral.readPointFirst src p).stop ≤ hi := by
  obtain ⟨hskip, hle⟩ :=
    w.skipDigits Byte.closing_isDigit (Nat.le_succ_of_le hlo) hhi
  have hfrom := Numeral.le_skipDigits src Byte.isDigit (p + 1)
  obtain ⟨hmoved, hge, hstop⟩ :=
    w.exponent?_getD Numeral.closing_isDecimalExponent
      (Nat.le_trans (Nat.le_succ_of_le hlo) hfrom) hle
  unfold Numeral.readPointFirst
  dsimp only
  rw [w.add_one hlo hhi, hskip, hmoved]
  exact ⟨rfl, by omega, hstop⟩

/-- A number that ends in the excerpt, with the word that touches it. -/
lemma withSuffix {body : Numeral.Body} (hlo : lo ≤ p) (hle : p ≤ body.stop) (hhi : body.stop ≤ hi) :
    Numeral.withSuffix src' (m.pos p) (move m body)
      = move m (Numeral.withSuffix src p body) := by
  have hlo' : lo ≤ body.stop := Nat.le_trans hlo hle
  obtain ⟨hskip, hstop⟩ := w.skip hlo' hhi
  have hstarts := w.startsAt hlo' hhi
  have hfrom := Word.le_skip src body.stop
  unfold Word.startsAt at hstarts
  unfold Word.skip at hskip hstop hfrom
  have stop : (move m body).stop = m.pos body.stop := rfl
  have float : (move m body).isFloat = body.isFloat := rfl
  have flags : (move m body).flags = body.flags := rfl
  have errors : (move m body).errors = move m body.errors := rfl
  unfold Numeral.withSuffix
  dsimp only
  rw [stop, float, flags, errors, hstarts, hskip, w.slice hlo hle hhi, w.slice hlo' hfrom hstop]
  generalize (if body.isFloat then Numeral.floatSuffixes else Numeral.integerSuffixes) = suffixes
  split
  · split
    · rfl
    · simp only [Moves.move, List.map_append, List.map_cons, List.map_nil]
  · rfl

lemma number (hlo : lo ≤ p) (hhi : p < hi) :
    Numeral.read src' (m.pos p) = move m (Numeral.read src p) := by
  have hlo' : lo ≤ p + 1 := Nat.le_succ_of_le hlo
  unfold Numeral.read
  dsimp only
  rw [w.byteAt_eq (by decide) hlo (Nat.le_of_lt hhi), w.add_one hlo hhi,
    w.byteAt_bind (f := Numeral.Base.ofByte?) (by decide) hlo' hhi]
  generalize hbase : (if src.byteAt p == some 0x30 then
    (src.byteAt (p + 1)).bind Numeral.Base.ofByte? else none) = base
  cases base with
  | none =>
    obtain ⟨hmoved, hle, hstop⟩ := w.readDecimal hlo (Nat.le_of_lt hhi)
    dsimp only
    rw [hmoved]
    exact w.withSuffix hlo hle hstop
  | some base =>
    -- The byte that names the base stands in the excerpt.
    have hlt : p + 1 < hi := by
      refine Nat.lt_of_le_of_ne hhi fun e => ?_
      split at hbase
      · obtain ⟨b, hb, hbase⟩ := Option.bind_eq_some_iff.1 hbase
        have hnone : ∀ b ∈ Byte.closing, Numeral.Base.ofByte? b = none := by decide
        have := hnone b (w.closing.1 b (e ▸ hb))
        simp [hbase] at this
      · exact nomatch hbase
    obtain ⟨hmoved, hle, hstop⟩ := w.readBased base hlo hlt
    dsimp only
    rw [hmoved]
    exact w.withSuffix hlo hle hstop

/-- Whether a number starts with its point. -/
lemma startsWithPoint (hlo : lo ≤ p) (hhi : p ≤ hi) :
    Numeral.startsWithPoint src' (m.pos p) = Numeral.startsWithPoint src p := by
  unfold Numeral.startsWithPoint
  rw [w.byteAt_eq (by decide) hlo hhi]
  cases hpoint : src.byteAt p == some 0x2E with
  | false => rfl
  | true =>
    have hpoint := beq_iff_eq.1 hpoint
    have hlt := w.lt_of_byteAt (by decide) hhi hpoint
    have hdigit : src'.byteIs (m.pos p + 1) Byte.isDigit = src.byteIs (p + 1) Byte.isDigit := by
      rw [w.add_one hlo hlt]
      exact w.byteIs (by decide) (Nat.le_succ_of_le hlo) hlt
    -- Only at the start of the excerpt may the byte in front of the point be another one.
    have hfront : (m.pos p != 0 && src'.byteIs (m.pos p - 1) Numeral.endsOperand)
        = (p != 0 && src.byteIs (p - 1) Numeral.endsOperand) := by
      obtain rfl | hlo := Nat.eq_or_lt_of_le hlo
      · exact w.point hpoint
      · obtain ⟨p, rfl⟩ : ∃ k, p = k + 1 := Nat.exists_eq_add_one.2 (Nat.zero_lt_of_lt hlo)
        have hlo := Nat.le_of_lt_succ hlo
        rw [← w.add_one hlo (Nat.lt_of_succ_le hhi), Nat.add_sub_cancel, Nat.add_sub_cancel,
          w.byteIs (by decide) hlo (Nat.le_of_succ_le hhi)]
        rfl
    rw [hdigit, hfront]

end Source.Excerpt

end CangjieSyntax
