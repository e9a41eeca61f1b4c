import Mathlib.Tactic.ByContra
import CangjieSyntax.Proofs.Source.Chars
import CangjieSyntax.Token.Lexeme

/-!
# Places between characters

Reading starts between characters and stops between characters. An offset that holds an ASCII byte
lies between characters, and so does the offset behind it. A run of characters, a run of ASCII bytes
and a search for an ASCII byte therefore all end between characters.
-/

namespace CangjieSyntax

variable {c : Char} {b : UInt8} {cs : List Char}

/-- The bytes of a character that has several are no ASCII bytes. -/
lemma not_ascii_of_mem_utf8EncodeChar (hc : c.utf8Size ≠ 1) (hb : b ∈ String.utf8EncodeChar c) :
    0x80 ≤ b := by
  have bound (x mark : UInt8) (hmark : 0x80 ≤ mark) : 0x80 ≤ x ||| mark := by
    rw [UInt8.le_iff_toNat_le] at hmark ⊢
    rw [UInt8.toNat_or]
    exact Nat.le_trans hmark Nat.right_le_or
  -- Each byte of a longer character has its highest bit set by a mark.
  obtain h | h | h | h := c.utf8Size_eq
  · exact absurd h hc
  · rw [String.utf8EncodeChar_eq_cons_cons h] at hb
    simp only [List.mem_cons, List.not_mem_nil, or_false] at hb
    rcases hb with rfl | rfl <;> exact bound _ _ (by decide)
  · rw [String.utf8EncodeChar_eq_cons_cons_cons h] at hb
    simp only [List.mem_cons, List.not_mem_nil, or_false] at hb
    rcases hb with rfl | rfl | rfl <;> exact bound _ _ (by decide)
  · rw [String.utf8EncodeChar_eq_cons_cons_cons_cons h] at hb
    simp only [List.mem_cons, List.not_mem_nil, or_false] at hb
    rcases hb with rfl | rfl | rfl | rfl <;> exact bound _ _ (by decide)

namespace Source

variable {src : Source} {pos i : Nat} {p : UInt8 → Bool}

/-- An ASCII byte among those of some characters is one of the characters. -/
lemma split_of_ascii (h : (encoded cs)[i]? = some b) (hb : b < 0x80) :
    ∃ before c after, cs = before ++ c :: after ∧ i = (encoded before).length ∧ c.utf8Size = 1 := by
  induction cs generalizing i with
  | nil => simp [encoded] at h
  | cons c cs ih =>
    have e : encoded (c :: cs) = String.utf8EncodeChar c ++ encoded cs := rfl
    rw [e] at h
    by_cases hi : i < (String.utf8EncodeChar c).length
    · rw [List.getElem?_append_left hi] at h
      have hc : c.utf8Size = 1 := by
        by_contra hc
        have := not_ascii_of_mem_utf8EncodeChar hc (List.mem_of_getElem? h)
        exact absurd hb (UInt8.not_lt.2 this)
      rw [String.length_utf8EncodeChar, hc] at hi
      exact ⟨[], c, cs, rfl, by simpa [encoded] using hi, hc⟩
    · rw [List.getElem?_append_right (Nat.le_of_not_lt hi)] at h
      obtain ⟨before, d, after, rfl, hlen, hd⟩ := ih h
      refine ⟨c :: before, d, after, rfl, ?_, hd⟩
      have e : encoded (c :: before) = String.utf8EncodeChar c ++ encoded before := rfl
      rw [e, List.length_append, ← hlen]
      omega

lemma isBoundary_iff : src.isBoundary pos ↔ ∃ cs, src.Ahead pos cs := by
  constructor
  · intro h
    rw [isBoundary, Bool.or_eq_true, beq_iff_eq] at h
    obtain rfl | h := h
    · refine ⟨[], src.text.toList, by simp, ?_⟩
      rw [size, bytes_eq_utf8Encode]
    · obtain ⟨c, hc⟩ := Option.isSome_iff_exists.1 h
      obtain ⟨cs, hcs⟩ := ahead_of_charAt hc
      exact ⟨c :: cs, hcs⟩
  · rintro ⟨cs, hcs⟩
    exact hcs.isBoundary

lemma isBoundary_zero : src.isBoundary 0 :=
  ahead_zero.isBoundary

lemma isBoundary_size : src.isBoundary src.size := by
  simp [isBoundary]

lemma le_size_of_isBoundary (h : src.isBoundary pos) : pos ≤ src.size := by
  obtain ⟨cs, hcs⟩ := isBoundary_iff.1 h
  rw [hcs.size_eq]
  exact Nat.le_add_right _ _

/-- Behind a character another one may start. -/
lemma isBoundary_behind (h : src.charAt pos = some c) : src.isBoundary (pos + c.utf8Size) := by
  obtain ⟨cs, hcs⟩ := ahead_of_charAt h
  exact hcs.tail.isBoundary

/-- Between characters there is one, unless the text ends. -/
lemma charAt_of_isBoundary (h : src.isBoundary pos) (hpos : pos < src.size) :
    ∃ c, src.charAt pos = some c := by
  rw [isBoundary, Bool.or_eq_true, beq_iff_eq] at h
  exact Option.isSome_iff_exists.1 (h.resolve_left (Nat.ne_of_lt hpos))

lemma isBoundary_behind_charAtD (h : src.isBoundary pos) (hpos : pos < src.size) :
    src.isBoundary (pos + (src.charAtD pos).utf8Size) := by
  obtain ⟨c, hc⟩ := charAt_of_isBoundary h hpos
  rw [charAtD, hc]
  exact isBoundary_behind hc

/-- An ASCII byte is a character by itself. -/
lemma charAt_of_ascii (h : src.byteAt pos = some b) (hb : b < 0x80) :
    src.charAt pos = some (Char.ofNat b.toNat) ∧ (Char.ofNat b.toNat).utf8Size = 1 := by
  have hget : (encoded src.text.toList)[pos]? = some b := by
    rw [← ahead_zero.byteAt, Nat.zero_add]
    exact h
  obtain ⟨before, c, after, e, hlen, hc⟩ := split_of_ascii hget hb
  have hcs : src.Ahead pos (c :: after) := ⟨before, e, by rw [hlen, size_utf8Encode]⟩
  have hbyte : c.val.toUInt8 = b := by
    have hfirst := hcs.byteAt 0
    rw [Nat.add_zero, h, encoded, List.flatMap_cons, String.utf8EncodeChar_eq_singleton hc] at hfirst
    simpa using hfirst.symm
  have hsmall := UInt32.le_iff_toNat_le.1 (Char.utf8Size_eq_one_iff.1 hc)
  have hchar : Char.ofNat b.toNat = c := by
    rw [← hbyte, UInt32.toNat_toUInt8, Nat.mod_eq_of_lt (Nat.lt_of_le_of_lt hsmall (by decide))]
    exact c.ofNat_toNat
  rw [hchar]
  exact ⟨hcs.charAt, hc⟩

lemma isBoundary_of_ascii (h : src.byteAt pos = some b) (hb : b < 0x80) : src.isBoundary pos := by
  simp [isBoundary, (charAt_of_ascii h hb).1]

lemma isBoundary_behind_ascii (h : src.byteAt pos = some b) (hb : b < 0x80) :
    src.isBoundary (pos + 1) := by
  obtain ⟨hc, hsize⟩ := charAt_of_ascii h hb
  rw [← hsize]
  exact isBoundary_behind hc

/-- There is a byte at every offset in front of the end. -/
lemma byteAt_of_lt (h : pos < src.size) : ∃ b, src.byteAt pos = some b :=
  ⟨src.bytes[pos], getElem?_pos src.bytes pos h⟩

lemma byteAt_size (src : Source) : src.byteAt src.size = none :=
  getElem?_neg src.bytes src.size (Nat.lt_irrefl _)

lemma byteAt_eq_none (h : src.byteAt pos = none) : src.size ≤ pos := by
  by_contra hlt
  obtain ⟨b, hb⟩ := byteAt_of_lt (Nat.lt_of_not_le hlt)
  simp [h] at hb

lemma byteIs_iff : src.byteIs pos p ↔ ∃ b, src.byteAt pos = some b ∧ p b :=
  Option.any_eq_true _ _

/-! ## Runs -/

lemma skipWhile_none (h : src.byteAt pos = none) : src.skipWhile p pos = pos := by
  rw [skipWhile]
  split
  case h_1 b hb => simp [h] at hb
  case h_2 => rfl

lemma skipWhile_neg (h : src.byteAt pos = some b) (hb : p b = false) :
    src.skipWhile p pos = pos := by
  rw [skipWhile]
  split
  case h_1 b' hb' =>
    obtain rfl : b = b' := Option.some.inj (h.symm.trans hb')
    rw [if_neg (by simp [hb])]
  case h_2 => rfl

lemma skipWhile_pos (h : src.byteAt pos = some b) (hb : p b) :
    src.skipWhile p pos = src.skipWhile p (pos + 1) := by
  rw [skipWhile]
  split
  case h_1 b' hb' =>
    obtain rfl : b = b' := Option.some.inj (h.symm.trans hb')
    rw [if_pos hb]
  case h_2 hnone => simp [h] at hnone

lemma skipChars_neg {f : Char → Bool} (h : (src.charAt pos).any f = false) :
    src.skipChars f pos = pos := by
  rw [skipChars]
  split
  case h_1 c hc =>
    rw [hc, Option.any_some] at h
    rw [if_neg (by simp [h])]
  case h_2 => rfl

lemma skipChars_pos {f : Char → Bool} (h : src.charAt pos = some c) (hc : f c) :
    src.skipChars f pos = src.skipChars f (pos + c.utf8Size) := by
  rw [skipChars]
  split
  case h_1 c' hc' =>
    obtain rfl : c = c' := Option.some.inj (h.symm.trans hc')
    rw [if_pos hc]
  case h_2 hnone => simp [h] at hnone

lemma lt_skipWhile (h : src.byteAt pos = some b) (hb : p b) : pos < src.skipWhile p pos := by
  rw [skipWhile]
  split
  case h_1 b' hb' =>
    obtain rfl : b = b' := Option.some.inj (h.symm.trans hb')
    rw [if_pos hb]
    exact src.le_skipWhile p (pos + 1)
  case h_2 hnone => simp [h] at hnone

/-- The bytes of a run. -/
lemma byteAt_in_run (hpos : pos ≤ i) (hi : i < src.skipWhile p pos) :
    ∃ b, src.byteAt i = some b ∧ p b := by
  fun_induction skipWhile src p pos with
  | case1 pos b hb hpb ih =>
    obtain rfl | hlt := Nat.eq_or_lt_of_le hpos
    · exact ⟨b, hb, hpb⟩
    · exact ih hlt hi
  | case2 | case3 => omega

/-- A run ends at the same place from every offset in it. -/
lemma skipWhile_in_run (hpos : pos ≤ i) (hi : i ≤ src.skipWhile p pos) :
    src.skipWhile p i = src.skipWhile p pos := by
  fun_induction skipWhile src p pos with
  | case1 pos b hb hpb ih =>
    obtain rfl | hlt := Nat.eq_or_lt_of_le hpos
    · rw [skipWhile]
      split
      case h_1 b' hb' =>
        obtain rfl : b = b' := Option.some.inj (hb.symm.trans hb')
        rw [if_pos hpb]
      case h_2 hnone => simp [hb] at hnone
    · exact ih hlt hi
  | case2 pos b hb hpb =>
    obtain rfl := Nat.le_antisymm hi hpos
    rw [skipWhile]
    split
    case h_1 b' hb' =>
      obtain rfl : b = b' := Option.some.inj (hb.symm.trans hb')
      rw [if_neg hpb]
    case h_2 => rfl
  | case3 pos hnone =>
    obtain rfl := Nat.le_antisymm hi hpos
    rw [skipWhile]
    split
    case h_1 b hb => simp [hnone] at hb
    case h_2 => rfl

/-- A word belongs to a run if its bytes do. -/
lemma le_skipWhile_of_startsWith {word : List UInt8} (h : src.startsWith pos word) (hword : ∀ b ∈ word, p b) :
    pos + word.length ≤ src.skipWhile p pos := by
  induction word generalizing pos with
  | nil => exact src.le_skipWhile p pos
  | cons b word ih =>
    rw [startsWith, Bool.and_eq_true, beq_iff_eq] at h
    have hrest := ih h.2 fun b hb => hword b (List.mem_cons_of_mem _ hb)
    have hrun := lt_skipWhile h.1 (hword b List.mem_cons_self)
    rw [skipWhile_in_run (Nat.le_succ pos) hrun] at hrest
    rw [List.length_cons]
    omega

/-- A run of ASCII bytes ends between characters. -/
lemma isBoundary_skipWhile (hp : ∀ b, p b → b < 0x80) (h : src.isBoundary pos) :
    src.isBoundary (src.skipWhile p pos) := by
  fun_induction skipWhile src p pos with
  | case1 pos b hb hpb ih => exact ih (isBoundary_behind_ascii hb (hp b hpb))
  | case2 => exact h
  | case3 => exact h

/-- Every offset in a run of ASCII bytes lies between characters. -/
lemma isBoundary_in_run (hp : ∀ b, p b → b < 0x80) (h : src.isBoundary pos) (hpos : pos ≤ i)
    (hi : i ≤ src.skipWhile p pos) : src.isBoundary i := by
  fun_induction skipWhile src p pos with
  | case1 pos b hb hpb ih =>
    obtain rfl | hlt := Nat.eq_or_lt_of_le hpos
    · exact h
    · exact ih (isBoundary_behind_ascii hb (hp b hpb)) hlt hi
  | case2 | case3 =>
    rw [Nat.le_antisymm hi hpos]
    exact h

/-- A run ends at a byte that does not belong to it, or at the end of the text. -/
lemma byteAt_skipWhile (h : src.byteAt (src.skipWhile p pos) = some b) : p b = false := by
  fun_induction skipWhile src p pos with
  | case1 pos b' hb' hpb ih => exact ih h
  | case2 pos b' hb' hpb =>
    rw [hb', Option.some.injEq] at h
    rw [← h]
    simpa using hpb
  | case3 pos hnone => simp [hnone] at h

/-- A search for an ASCII byte ends between characters. -/
lemma isBoundary_skipWhile_not (hp : ∀ b, p b = false → b < 0x80) (hpos : pos ≤ src.size) :
    src.isBoundary (src.skipWhile p pos) := by
  cases hstop : src.byteAt (src.skipWhile p pos) with
  | some b => exact isBoundary_of_ascii hstop (hp b (byteAt_skipWhile hstop))
  | none =>
    have hle := skipWhile_le_size (p := p) hpos
    rw [Nat.le_antisymm hle (byteAt_eq_none hstop)]
    exact isBoundary_size

lemma isBoundary_skipChars {p : Char → Bool} (h : src.isBoundary pos) :
    src.isBoundary (src.skipChars p pos) := by
  fun_induction skipChars src p pos with
  | case1 pos c hc hpc ih => exact ih (isBoundary_behind hc)
  | case2 => exact h
  | case3 => exact h

/-- A byte that is found is one that was looked for. -/
lemma byteAt_of_find? (h : src.find? p pos = some i) : ∃ b, src.byteAt i = some b ∧ p b := by
  have hlt := (find?_bounds h).2
  obtain ⟨b, hb⟩ := byteAt_of_lt hlt
  refine ⟨b, hb, ?_⟩
  simp only [find?] at h
  split at h
  · injection h with h
    rw [← h] at hb
    simpa using byteAt_skipWhile hb
  · contradiction

/-- Behind a word of ASCII bytes that stands at an offset. -/
lemma isBoundary_behind_word {word : List UInt8} (h : src.startsWith pos word) (hne : word ≠ [])
    (hascii : ∀ b ∈ word, b < 0x80) : src.isBoundary (pos + word.length) := by
  induction word generalizing pos with
  | nil => exact absurd rfl hne
  | cons b word ih =>
    rw [startsWith, Bool.and_eq_true, beq_iff_eq] at h
    have hbehind := isBoundary_behind_ascii h.1 (hascii b List.mem_cons_self)
    cases word with
    | nil => exact hbehind
    | cons d word =>
      have := ih h.2 (List.cons_ne_nil _ _) fun x hx => hascii x (List.mem_cons_of_mem _ hx)
      rw [List.length_cons, Nat.add_comm _ 1, ← Nat.add_assoc]
      exact this

/-- Bytes ahead that belong to a run, up to one that does not. -/
lemma Ahead.skipWhile_eq {p : UInt8 → Bool} {word : List Char} (h : src.Ahead pos (word ++ cs))
    (hword : ∀ b ∈ encoded word, p b) (hends : ∀ b ∈ (encoded cs).head?, p b = false) :
    src.skipWhile p pos = pos + (encoded word).length := by
  have hstarts : src.startsWith pos (encoded word) := by
    rw [startsWith_eq (h.byteAt), encoded_append]
    exact List.isPrefixOf_iff_prefix.2 (List.prefix_append ..)
  have hbehind := h.drop
  rw [size_utf8Encode] at hbehind
  have hfirst := hbehind.byteAt 0
  have hrun := skipWhile_in_run (Nat.le_add_right _ _) (le_skipWhile_of_startsWith hstarts hword)
  rw [← hrun]
  cases hb : (encoded cs).head? with
  | none =>
    rw [List.head?_eq_getElem?] at hb
    exact skipWhile_none (hfirst.trans hb)
  | some b =>
    rw [List.head?_eq_getElem?] at hb
    exact skipWhile_neg (hfirst.trans hb) (hends b (List.head?_eq_getElem? ▸ hb))

end Source

end CangjieSyntax
