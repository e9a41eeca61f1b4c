import CangjieSyntax.Proofs.Source.Boundary
import CangjieSyntax.Proofs.Tree.Move
import CangjieSyntax.Token.Numeral

/-!
# Excerpts

A stretch of one text may stand in another text as well. Behind it either both texts end, or the one
goes on with a blank or a line feed where the other goes on with a comment. Reading that starts in
the excerpt and does not get past its end finds the same in both texts, up to its place.
-/

namespace CangjieSyntax

/-- The second value is the first one moved if it has a property. -/
def MovedIf {α : Type} [Moves α] (m : Move) (c : α → Prop) (a a' : α) : Prop :=
  c a' → a' = move m a

lemma MovedIf.ite {α : Type} [Moves α] {m : Move} {c : α → Prop} {a a' b b' : α} {p : Prop}
    [Decidable p] (htrue : p → MovedIf m c a a') (hfalse : ¬p → MovedIf m c b b') :
    MovedIf m c (if p then a else b) (if p then a' else b') := by
  split
  · exact htrue ‹_›
  · exact hfalse ‹_›

/-- The bytes that may stand behind an excerpt. No word, number or mark goes on with them. -/
def Byte.closing : List UInt8 :=
  [0x2F, 0x20, 0x0A]

/-- A property of the bytes of a list is decided along the list, not by way of all bytes there
are. -/
instance Byte.decidableForallMem (bytes : List UInt8) (f : UInt8 → Prop) [DecidablePred f] :
    Decidable (∀ b ∈ bytes, f b) :=
  bytes.decidableBAll f

namespace Source

/-- How two texts go on behind an excerpt. -/
inductive Border (src src' : Source) (stop stop' : Nat) : Prop
  | ended (h : src.size = stop) (h' : src'.size = stop')
  | comment {b : UInt8} (h : src.byteAt stop = some b) (hb : b = 0x20 ∨ b = 0x0A)
    (h' : src'.byteAt stop' = some 0x2F)

/-- The text `src` from `lo` up to `hi` stands in `src'`, too, where `m` takes it. -/
structure Excerpt (src src' : Source) (m : Move) (lo hi : Nat) : Prop where
  add : ∀ {p k}, lo ≤ p → p + k ≤ hi → m.pos p + k = m.pos (p + k)
  byteAt : ∀ {p}, lo ≤ p → p < hi → src'.byteAt (m.pos p) = src.byteAt p
  charAt : ∀ {p}, lo ≤ p → p < hi → src'.charAt (m.pos p) = src.charAt p
  extract : ∀ {p q}, lo ≤ p → p ≤ q → q ≤ hi →
    src'.bytes.extract (m.pos p) (m.pos q) = src.bytes.extract p q
  border : Border src src' hi (m.pos hi)
  /-- What stands in front makes no difference to a point at the start. -/
  point : src.byteAt lo = some 0x2E →
    (m.pos lo != 0 && src'.byteIs (m.pos lo - 1) Numeral.endsOperand)
      = (lo != 0 && src.byteIs (lo - 1) Numeral.endsOperand)

variable {src src' : Source} {m : Move} {lo hi p q : Nat} {b : UInt8} {c : Char}

/-- A character ends in front of an ASCII byte behind its start. -/
lemma behind_char_le (hc : src.charAt p = some c) (hb : src.byteAt q = some b) (hascii : b < 0x80)
    (hpq : p < q) : p + c.utf8Size ≤ q := by
  by_contra hlt
  obtain ⟨cs, hcs⟩ := ahead_of_charAt hc
  have hbyte := hcs.byteAt (q - p)
  rw [Nat.add_sub_cancel' (Nat.le_of_lt hpq), hb, encoded, List.flatMap_cons,
    List.getElem?_append_left (by rw [String.length_utf8EncodeChar]; omega)] at hbyte
  have hlong : c.utf8Size ≠ 1 := by omega
  have := not_ascii_of_mem_utf8EncodeChar hlong (List.mem_of_getElem? hbyte.symm)
  exact absurd hascii (UInt8.not_lt.2 this)

/-- Two offsets between characters, with the characters between them. -/
lemma Ahead.between {cs ds : List Char} (h : src.Ahead p cs) (h' : src.Ahead q ds) (hle : p ≤ q) :
    ∃ word, cs = word ++ ds ∧ q = p + word.utf8Encode.size := by
  obtain ⟨before, e, rfl⟩ := h
  obtain ⟨before', e', rfl⟩ := h'
  obtain ⟨word, hbefore, hcs⟩ | ⟨word, hbefore, hds⟩ := List.append_eq_append_iff.1 (e.symm.trans e')
  · refine ⟨word, hcs, ?_⟩
    rw [hbefore, List.utf8Encode_append, ByteArray.size_append]
  · rw [hbefore, List.utf8Encode_append, ByteArray.size_append] at hle
    obtain rfl : word = [] := by
      cases word with
      | nil => rfl
      | cons c word =>
        have := c.utf8Size_pos
        rw [size_utf8Encode_cons] at hle
        omega
    refine ⟨[], hds.symm, ?_⟩
    rw [hbefore, List.append_nil]
    rfl

/-- A word that lies ahead in both texts is an excerpt. -/
lemma excerpt_of_ahead {word rest rest' : List Char} (h : src.Ahead lo (word ++ rest))
    (h' : src'.Ahead (m.pos lo) (word ++ rest')) (hhi : hi = lo + word.utf8Encode.size)
    (add : ∀ {p k}, lo ≤ p → p + k ≤ hi → m.pos p + k = m.pos (p + k))
    (border : Border src src' hi (m.pos hi))
    (point : src.byteAt lo = some 0x2E →
      (m.pos lo != 0 && src'.byteIs (m.pos lo - 1) Numeral.endsOperand)
        = (lo != 0 && src.byteIs (lo - 1) Numeral.endsOperand)) :
    src.Excerpt src' m lo hi := by
  have offset {p : Nat} (hlo : lo ≤ p) (hhi : p ≤ hi) : m.pos p = m.pos lo + (p - lo) := by
    have := add (p := lo) (k := p - lo) le_rfl (by omega)
    rwa [Nat.add_sub_cancel' hlo, eq_comm] at this
  -- A character that starts in the word lies ahead in any text with the word.
  have char {s s' : Source} {i : Nat} {rest rest' : List Char} {o o' : Nat} {c : Char}
      (h : s.Ahead o (word ++ rest)) (h' : s'.Ahead o' (word ++ rest'))
      (hi : i < word.utf8Encode.size) (hc : s.charAt (o + i) = some c) :
      s'.charAt (o' + i) = some c := by
    obtain ⟨cs, hcs⟩ := ahead_of_charAt hc
    obtain ⟨front, e, hfront⟩ := h.between hcs (Nat.le_add_right o i)
    obtain rfl : i = front.utf8Encode.size := Nat.add_left_cancel hfront
    obtain ⟨tail, hword, -⟩ | ⟨tail, hword, htail⟩ := List.append_eq_append_iff.1 e
    · rw [hword, List.utf8Encode_append, ByteArray.size_append] at hi
      omega
    · cases tail with
      | nil =>
        rw [hword, List.append_nil] at hi
        exact absurd hi (Nat.lt_irrefl _)
      | cons d tail =>
        obtain ⟨rfl, -⟩ := List.cons.inj htail
        rw [hword, List.append_assoc] at h'
        exact h'.drop.charAt
  refine ⟨add, fun {p} hlo hp => ?_, fun {p} hlo hp => ?_, fun {p q} hlo hpq hq => ?_, border, point⟩
  · have hlt : p - lo < (encoded word).length := by
      rw [← size_utf8Encode]
      omega
    have hleft := h.byteAt (p - lo)
    rw [Nat.add_sub_cancel' hlo] at hleft
    rw [offset hlo (Nat.le_of_lt hp), hleft, h'.byteAt, encoded_append, encoded_append,
      List.getElem?_append_left hlt, List.getElem?_append_left hlt]
  · have hlt : p - lo < word.utf8Encode.size := by omega
    rw [offset hlo (Nat.le_of_lt hp)]
    have hp' : lo + (p - lo) = p := Nat.add_sub_cancel' hlo
    refine Option.ext fun c => ⟨fun hc => ?_, fun hc => ?_⟩
    · exact hp' ▸ char h' h hlt hc
    · exact char h h' hlt (hp'.symm ▸ hc)
  · have stretch {s : Source} {o i j : Nat} {rest : List Char} (h : s.Ahead o (word ++ rest))
        (hj : j ≤ word.utf8Encode.size) :
        s.bytes.extract (o + i) (o + j) = word.utf8Encode.extract i j := by
      rw [← h.extract, ByteArray.extract_extract, Nat.min_eq_left (Nat.add_le_add_left hj o)]
    have hleft := stretch (i := p - lo) (j := q - lo) h (by omega)
    rw [Nat.add_sub_cancel' hlo, Nat.add_sub_cancel' (Nat.le_trans hlo hpq)] at hleft
    rw [offset hlo (Nat.le_trans hpq hq), offset (Nat.le_trans hlo hpq) hq, hleft,
      stretch h' (by omega)]

/-- What lies ahead in both texts up to their ends is an excerpt. -/
lemma excerpt_to_end {cs : List Char} (h : src.Ahead lo cs) (h' : src'.Ahead (m.pos lo) cs)
    (add : ∀ {p k}, lo ≤ p → m.pos p + k = m.pos (p + k))
    (point : src.byteAt lo = some 0x2E →
      (m.pos lo != 0 && src'.byteIs (m.pos lo - 1) Numeral.endsOperand)
        = (lo != 0 && src.byteIs (lo - 1) Numeral.endsOperand)) :
    src.Excerpt src' m lo src.size := by
  have hall : src.Ahead lo (cs ++ []) := by rwa [List.append_nil]
  have hall' : src'.Ahead (m.pos lo) (cs ++ []) := by rwa [List.append_nil]
  refine excerpt_of_ahead hall hall' h.size_eq (fun hp _ => add hp) (.ended rfl ?_) point
  rw [h'.size_eq, h.size_eq, add le_rfl]

namespace Excerpt

variable (w : src.Excerpt src' m lo hi)

include w

lemma add_one (hlo : lo ≤ p) (hhi : p < hi) : m.pos p + 1 = m.pos (p + 1) :=
  w.add hlo hhi

lemma le_size : hi ≤ src.size ∧ m.pos hi ≤ src'.size := by
  cases w.border with
  | ended h h' => exact ⟨h.ge, h'.ge⟩
  | comment h _ h' => exact ⟨Nat.le_of_lt (lt_size_of_byteAt h), Nat.le_of_lt (lt_size_of_byteAt h')⟩

omit w in
lemma pos_le : m.pos p ≤ m.pos q ↔ p ≤ q :=
  m.strict.le_iff_le

/-- An offset lies in the excerpt, at the end of both texts, or at a comment in the second one. -/
lemma inside_or_end (hhi : p ≤ hi) :
    p < hi ∨ src.byteAt p = none ∧ src'.byteAt (m.pos p) = none
      ∨ p = hi ∧ src'.byteAt (m.pos p) = some 0x2F := by
  obtain rfl | hlt := Nat.eq_or_lt_of_le hhi
  · cases w.border with
    | ended h h' => exact .inr (.inl ⟨h ▸ src.byteAt_size, h' ▸ src'.byteAt_size⟩)
    | comment _ _ h' => exact .inr (.inr ⟨rfl, h'⟩)
  · exact .inl hlt

/-- The texts end behind the same offsets. -/
lemma size_le (hhi : p ≤ hi) : src'.size ≤ m.pos p ↔ src.size ≤ p := by
  have hpos : m.pos p ≤ m.pos hi := pos_le.2 hhi
  cases w.border with
  | ended h h' =>
    rw [h, h']
    exact pos_le
  | comment h _ h' =>
    have := lt_size_of_byteAt h
    have := lt_size_of_byteAt h'
    omega

/-- A byte behind the excerpt is one of those that may stand there. -/
lemma closing : (∀ b, src.byteAt hi = some b → b ∈ Byte.closing)
    ∧ ∀ b, src'.byteAt (m.pos hi) = some b → b ∈ Byte.closing := by
  cases w.border with
  | ended h h' =>
    rw [← h', ← h, byteAt_size, byteAt_size]
    exact ⟨nofun, nofun⟩
  | comment h hb h' =>
    rw [h', h]
    refine ⟨fun b e => ?_, fun b e => ?_⟩
    · cases e
      obtain rfl | rfl := hb <;> decide
    · cases e
      decide

lemma byteAt_bind {α : Type} {f : UInt8 → Option α} (hf : ∀ b ∈ Byte.closing, f b = none)
    (hlo : lo ≤ p) (hhi : p ≤ hi) : (src'.byteAt (m.pos p)).bind f = (src.byteAt p).bind f := by
  have closed {o : Option UInt8} (ho : ∀ b, o = some b → b ∈ Byte.closing) : o.bind f = none := by
    cases o with
    | none => rfl
    | some b => exact hf b (ho b rfl)
  obtain rfl | hlt := Nat.eq_or_lt_of_le hhi
  · rw [closed w.closing.1, closed w.closing.2]
  · rw [w.byteAt hlo hlt]

/-- A class without the bytes that may stand behind the excerpt. -/
lemma byteIs {f : UInt8 → Bool} (hf : ∀ b ∈ Byte.closing, f b = false) (hlo : lo ≤ p)
    (hhi : p ≤ hi) : src'.byteIs (m.pos p) f = src.byteIs p f := by
  have closed {o : Option UInt8} (ho : ∀ b, o = some b → b ∈ Byte.closing) : o.any f = false := by
    cases o with
    | none => rfl
    | some b => exact hf b (ho b rfl)
  unfold Source.byteIs
  obtain rfl | hlt := Nat.eq_or_lt_of_le hhi
  · rw [closed w.closing.1, closed w.closing.2]
  · rw [w.byteAt hlo hlt]

lemma byteAt_eq (hb : b ∉ Byte.closing) (hlo : lo ≤ p) (hhi : p ≤ hi) :
    (src'.byteAt (m.pos p) == some b) = (src.byteAt p == some b) := by
  have key (o : Option UInt8) : (o == some b) = o.any (· == b) := by
    cases o with
    | none => rfl
    | some d => rfl
  rw [key, key]
  refine w.byteIs (fun d hd => ?_) hlo hhi
  rw [beq_eq_false_iff_ne]
  exact fun e => hb (e ▸ hd)

/-- A byte that cannot stand behind the excerpt stands in it. -/
lemma lt_of_byteAt (hb : b ∉ Byte.closing) (hhi : p ≤ hi) (h : src.byteAt p = some b) : p < hi :=
  Nat.lt_of_le_of_ne hhi fun e => hb (w.closing.1 b (e ▸ h))

lemma lt_of_byteIs {f : UInt8 → Bool} (hf : ∀ b ∈ Byte.closing, f b = false) (hhi : p ≤ hi)
    (h : src.byteIs p f) : p < hi := by
  obtain ⟨b, hb, hfb⟩ := byteIs_iff.1 h
  exact w.lt_of_byteAt (fun hmem => by simp [hf b hmem] at hfb) hhi hb

lemma startsWith {word : List UInt8} (hword : ∀ b ∈ word, b ∉ Byte.closing) (hlo : lo ≤ p)
    (hhi : p ≤ hi) : src'.startsWith (m.pos p) word = src.startsWith p word := by
  induction word generalizing p with
  | nil => rfl
  | cons b word ih =>
    have hb := hword b List.mem_cons_self
    rw [Source.startsWith, Source.startsWith, w.byteAt_eq hb hlo hhi]
    cases e : src.byteAt p == some b with
    | false => rfl
    | true =>
      have hlt := w.lt_of_byteAt hb hhi (beq_iff_eq.1 e)
      rw [w.add_one hlo hlt, ih (fun d hd => hword d (List.mem_cons_of_mem _ hd)) (by omega) hlt]

/-- A word of bytes that cannot stand behind the excerpt ends in it. -/
lemma behind_word_le {word : List UInt8} (hword : ∀ b ∈ word, b ∉ Byte.closing) (hhi : p ≤ hi)
    (h : src.startsWith p word) : p + word.length ≤ hi := by
  induction word generalizing p with
  | nil => exact hhi
  | cons b word ih =>
    rw [Source.startsWith, Bool.and_eq_true, beq_iff_eq] at h
    have hlt := w.lt_of_byteAt (hword b List.mem_cons_self) hhi h.1
    have := ih (fun d hd => hword d (List.mem_cons_of_mem _ hd)) hlt h.2
    rw [List.length_cons]
    omega

/-- A run that does not get past the excerpt. If it gets to a comment behind the excerpt, the bytes
that may stand there in the first text must not belong to it. -/
lemma skipWhile {f : UInt8 → Bool} (hlo : lo ≤ p) (hhi : p ≤ hi)
    (h : src'.skipWhile f (m.pos p) ≤ m.pos hi)
    (hf : (f 0x2F = false → f 0x20 = false ∧ f 0x0A = false)
      ∨ src'.skipWhile f (m.pos p) < m.pos hi ∨ src'.size ≤ m.pos hi) :
    src'.skipWhile f (m.pos p) = m.pos (src.skipWhile f p) ∧ src.skipWhile f p ≤ hi := by
  induction hn : hi - p generalizing p with
  | zero =>
    obtain rfl : p = hi := by omega
    cases w.border with
    | ended hsize hsize' =>
      have hend : src.byteAt p = none := hsize ▸ byteAt_size src
      have hend' : src'.byteAt (m.pos p) = none := hsize' ▸ byteAt_size src'
      rw [skipWhile_none hend, skipWhile_none hend']
      exact ⟨rfl, Nat.le_refl _⟩
    | @comment b hb hblank hb' =>
      -- A run that takes the slash of the comment with it leaves the excerpt.
      by_cases hslash : f 0x2F = true
      · have := lt_skipWhile hb' hslash
        omega
      · rw [Bool.not_eq_true] at hslash
        have hfb : f b = false := by
          obtain hf | hlt | hsize := hf
          · obtain rfl | rfl := hblank
            · exact (hf hslash).1
            · exact (hf hslash).2
          · rw [skipWhile_neg hb' hslash] at hlt
            exact absurd hlt (Nat.lt_irrefl _)
          · exact absurd (lt_size_of_byteAt hb') (Nat.not_lt.2 hsize)
        rw [skipWhile_neg hb hfb, skipWhile_neg hb' hslash]
        exact ⟨rfl, Nat.le_refl _⟩
  | succ n ih =>
    have hlt : p < hi := by omega
    have hbyte := w.byteAt hlo hlt
    cases e : src.byteAt p with
    | none =>
      rw [skipWhile_none e, skipWhile_none (hbyte.trans e)]
      exact ⟨rfl, hhi⟩
    | some b =>
      cases hfb : f b with
      | true =>
        rw [skipWhile_pos (hbyte.trans e) hfb, w.add_one hlo hlt] at h hf ⊢
        rw [skipWhile_pos e hfb]
        exact ih (by omega) hlt h hf (by omega)
      | false =>
        rw [skipWhile_neg e hfb, skipWhile_neg (hbyte.trans e) hfb]
        exact ⟨rfl, hhi⟩

/-- A run of bytes that do not stand behind the excerpt. -/
lemma skipWhile_inside {f : UInt8 → Bool} (hf : ∀ b ∈ Byte.closing, f b = false) (hlo : lo ≤ p)
    (hhi : p ≤ hi) :
    src'.skipWhile f (m.pos p) = m.pos (src.skipWhile f p) ∧ src.skipWhile f p ≤ hi := by
  refine w.skipWhile hlo hhi ?_ (.inl fun _ => ⟨hf _ (by decide), hf _ (by decide)⟩)
  cases w.border with
  | ended _ h' =>
    rw [← h']
    exact skipWhile_le_size (h' ▸ pos_le.2 hhi)
  | comment _ _ h' =>
    by_contra hlt
    obtain ⟨b, hb, hfb⟩ := byteAt_in_run (pos_le.2 hhi) (Nat.lt_of_not_le hlt)
    obtain rfl := Option.some.inj (hb.symm.trans h')
    simp [hf 0x2F (by decide)] at hfb

/-! ## Characters -/

lemma behind_char_le_hi (hhi : p < hi) (h : src.charAt p = some c) : p + c.utf8Size ≤ hi := by
  cases w.border with
  | ended hsize =>
    obtain ⟨cs, hcs⟩ := ahead_of_charAt h
    rw [← hsize, hcs.tail.size_eq]
    exact Nat.le_add_right _ _
  | comment hb hblank =>
    refine behind_char_le h hb ?_ hhi
    obtain rfl | rfl := hblank <;> decide

lemma charAtD (hlo : lo ≤ p) (hhi : p < hi) : src'.charAtD (m.pos p) = src.charAtD p := by
  rw [Source.charAtD, Source.charAtD, w.charAt hlo hhi]

/-- The next character in the excerpt. -/
lemma nextChar (hlo : lo ≤ p) (hhi : p < hi) (hpos : src.isBoundary p) :
    src'.charAtD (m.pos p) = src.charAtD p
      ∧ m.pos p + (src.charAtD p).utf8Size = m.pos (p + (src.charAtD p).utf8Size)
      ∧ p < p + (src.charAtD p).utf8Size ∧ p + (src.charAtD p).utf8Size ≤ hi
      ∧ src.isBoundary (p + (src.charAtD p).utf8Size) := by
  obtain ⟨c, hc⟩ := charAt_of_isBoundary hpos (Nat.lt_of_lt_of_le hhi w.le_size.1)
  have hle := w.behind_char_le_hi hhi hc
  have hchar : src.charAtD p = c := by rw [Source.charAtD, hc, Option.getD_some]
  rw [w.charAtD hlo hhi, hchar]
  exact ⟨rfl, w.add hlo hle, Nat.lt_add_of_pos_right c.utf8Size_pos, hle, isBoundary_behind hc⟩

lemma isBoundary (hlo : lo ≤ p) (hhi : p ≤ hi) : src'.isBoundary (m.pos p) = src.isBoundary p := by
  obtain rfl | hlt := Nat.eq_or_lt_of_le hhi
  · cases w.border with
    | ended h h' => rw [← h', ← h, isBoundary_size, isBoundary_size]
    | comment hb hblank hb' =>
      rw [isBoundary_of_ascii hb' (by decide), isBoundary_of_ascii hb]
      obtain rfl | rfl := hblank <;> decide
  · have inside : p ≠ src.size := Nat.ne_of_lt (Nat.lt_of_lt_of_le hlt w.le_size.1)
    have inside' : m.pos p ≠ src'.size :=
      Nat.ne_of_lt (Nat.lt_of_lt_of_le (m.strict hlt) w.le_size.2)
    rw [Source.isBoundary, Source.isBoundary, w.charAt hlo hlt, beq_false_of_ne inside,
      beq_false_of_ne inside']

lemma slice? (hlo : lo ≤ p) (hpq : p ≤ q) (hhi : q ≤ hi) :
    src'.slice? (m.pos p) (m.pos q) = src.slice? p q := by
  have hsize := w.le_size
  have fits : q ≤ src.size := Nat.le_trans hhi hsize.1
  have fits' : m.pos q ≤ src'.size := Nat.le_trans (pos_le.2 hhi) hsize.2
  unfold Source.slice?
  rw [w.isBoundary hlo (Nat.le_trans hpq hhi), w.extract hlo hpq hhi]
  simp only [hpq, fits, fits', pos_le.2 hpq]

lemma slice (hlo : lo ≤ p) (hpq : p ≤ q) (hhi : q ≤ hi) :
    src'.slice (m.pos p) (m.pos q) = src.slice p q := by
  rw [Source.slice, Source.slice, w.slice? hlo hpq hhi]

/-- The character behind the excerpt belongs to no word. -/
lemma charAt_closing {f : Char → Bool} (hf : f '/' = false ∧ f ' ' = false ∧ f '\n' = false) :
    (src.charAt hi).any f = false ∧ (src'.charAt (m.pos hi)).any f = false := by
  cases w.border with
  | ended h h' =>
    have none_size (src : Source) : src.charAt src.size = none := by
      cases e : src.charAt src.size with
      | none => rfl
      | some c => exact absurd (lt_size_of_charAt e) (Nat.lt_irrefl _)
    rw [← h', ← h, none_size, none_size]
    exact ⟨rfl, rfl⟩
  | comment hb hblank hb' =>
    have hslash : src'.charAt (m.pos hi) = some '/' := (charAt_of_ascii hb' (by decide)).1
    rw [hslash]
    refine ⟨?_, hf.1⟩
    obtain rfl | rfl := hblank
    · have hspace : src.charAt hi = some ' ' := (charAt_of_ascii hb (by decide)).1
      rw [hspace]
      exact hf.2.1
    · have hfeed : src.charAt hi = some '\n' := (charAt_of_ascii hb (by decide)).1
      rw [hfeed]
      exact hf.2.2

lemma charAt_any {f : Char → Bool} (hf : f '/' = false ∧ f ' ' = false ∧ f '\n' = false)
    (hlo : lo ≤ p) (hhi : p ≤ hi) : (src'.charAt (m.pos p)).any f = (src.charAt p).any f := by
  obtain rfl | hlt := Nat.eq_or_lt_of_le hhi
  · rw [(w.charAt_closing hf).1, (w.charAt_closing hf).2]
  · rw [w.charAt hlo hlt]

lemma skipChars {f : Char → Bool} (hf : f '/' = false ∧ f ' ' = false ∧ f '\n' = false)
    (hlo : lo ≤ p) (hhi : p ≤ hi) :
    src'.skipChars f (m.pos p) = m.pos (src.skipChars f p) ∧ src.skipChars f p ≤ hi := by
  induction hn : hi - p using Nat.strongRecOn generalizing p with
  | ind n ih =>
    have hany := w.charAt_any hf hlo hhi
    cases e : (src.charAt p).any f with
    | false =>
      rw [skipChars_neg e, skipChars_neg (hany.trans e)]
      exact ⟨rfl, hhi⟩
    | true =>
      have hlt : p < hi := by
        refine Nat.lt_of_le_of_ne hhi fun h => ?_
        rw [h, (w.charAt_closing hf).1] at e
        exact nomatch e
      obtain ⟨c, hc, hfc⟩ := (Option.any_eq_true _ _).1 e
      have hle := w.behind_char_le_hi hlt hc
      have := c.utf8Size_pos
      rw [skipChars_pos hc hfc, skipChars_pos ((w.charAt hlo hlt).trans hc) hfc, w.add hlo hle]
      exact ih _ (by omega) (by omega) hle rfl

end Excerpt

end Source

end CangjieSyntax
