import Mathlib.Tactic.Lemma
import CangjieSyntax.Source.Utf8

/-!
# Characters ahead

`src.Ahead pos cs` says that the text from the offset `pos` on consists of the characters `cs`. What
the functions on offsets find at `pos` is then read off `cs`.
-/

namespace CangjieSyntax.Source

/-- The text from an offset on consists of the given characters. -/
def Ahead (src : Source) (pos : Nat) (cs : List Char) : Prop :=
  ∃ before : List Char, src.text.toList = before ++ cs ∧ pos = before.utf8Encode.size

variable {src : Source} {pos : Nat} {c : Char} {cs word : List Char}

lemma size_utf8Encode_cons : (c :: cs).utf8Encode.size = c.utf8Size + cs.utf8Encode.size := by
  rw [List.utf8Encode_cons, ByteArray.size_append, List.utf8Encode_singleton]
  simp

lemma bytes_eq_utf8Encode : src.bytes = src.text.toList.utf8Encode := by
  rw [src.bytes_eq, String.toUTF8_eq_toByteArray, String.utf8Encode_toList]

/-- Bytes that come from a text are the bytes of that text. -/
lemma ofBytes_toUTF8 (text : String) : ofBytes text.toUTF8 = .ok (ofString text) := by
  have hvalid : text.toUTF8.IsValidUTF8 := text.isValidUTF8
  have htext : String.fromUTF8? text.toUTF8 = some text := by
    rw [String.fromUTF8?, dif_pos hvalid]
    rfl
  rw [ofBytes, htext]

lemma ahead_zero : src.Ahead 0 src.text.toList :=
  ⟨[], rfl, rfl⟩

namespace Ahead

lemma drop (h : src.Ahead pos (word ++ cs)) : src.Ahead (pos + word.utf8Encode.size) cs := by
  obtain ⟨before, e, rfl⟩ := h
  refine ⟨before ++ word, ?_, ?_⟩
  · rw [e, List.append_assoc]
  · rw [List.utf8Encode_append, ByteArray.size_append]

lemma tail (h : src.Ahead pos (c :: cs)) : src.Ahead (pos + c.utf8Size) cs := by
  have h' : src.Ahead pos ([c] ++ cs) := h
  have e : [c].utf8Encode.size = c.utf8Size := by
    rw [size_utf8Encode_cons]
    simp
  have := h'.drop
  rwa [e] at this

lemma size_eq (h : src.Ahead pos cs) : src.size = pos + cs.utf8Encode.size := by
  obtain ⟨before, e, rfl⟩ := h
  rw [size, bytes_eq_utf8Encode, e, List.utf8Encode_append, ByteArray.size_append]

/-- The bytes of a word that lies ahead. -/
lemma extract (h : src.Ahead pos (word ++ cs)) :
    src.bytes.extract pos (pos + word.utf8Encode.size) = word.utf8Encode := by
  obtain ⟨before, e, rfl⟩ := h
  rw [bytes_eq_utf8Encode, e, List.utf8Encode_append, List.utf8Encode_append]
  have := @ByteArray.extract_append_size_add before.utf8Encode
    (word.utf8Encode ++ cs.utf8Encode) 0 word.utf8Encode.size
  rw [Nat.add_zero] at this
  rw [this, ByteArray.extract_append_eq_left rfl]

lemma charAt (h : src.Ahead pos (c :: cs)) : src.charAt pos = some c := by
  have h' : src.Ahead pos ((c :: cs) ++ []) := by rwa [List.append_nil]
  have e := h'.extract
  rw [← h.size_eq, size] at e
  rw [Source.charAt, ByteArray.utf8DecodeChar?_eq_utf8DecodeChar?_extract, e,
    List.utf8DecodeChar?_utf8Encode_cons]

lemma charAt_nil (h : src.Ahead pos []) : src.charAt pos = none := by
  have e := h.size_eq
  cases hc : src.charAt pos with
  | none => rfl
  | some c =>
    have := lt_size_of_charAt hc
    simp at e
    omega

lemma isBoundary (h : src.Ahead pos cs) : src.isBoundary pos := by
  cases cs with
  | nil =>
    have e := h.size_eq
    simp at e
    simp [Source.isBoundary, e]
  | cons c cs => simp [Source.isBoundary, h.charAt]

/-- A word that lies ahead, taken out of the text. -/
lemma slice (h : src.Ahead pos (word ++ cs)) :
    src.slice pos (pos + word.utf8Encode.size) = String.ofList word := by
  have hsize := h.drop.size_eq
  have hle : pos + word.utf8Encode.size ≤ src.size := by omega
  have hvalid : word.utf8Encode.IsValidUTF8 := ByteArray.isValidUTF8_utf8Encode
  rw [Source.slice, slice?, if_pos ⟨h.isBoundary, Nat.le_add_right _ _, hle⟩, h.extract,
    String.fromUTF8?, dif_pos hvalid, Option.getD_some, ← String.toByteArray_inj,
    String.toByteArray_ofList]
  rfl

lemma skipChars {p : Char → Bool} (h : src.Ahead pos cs) :
    src.skipChars p pos = pos + (cs.takeWhile p).utf8Encode.size := by
  induction cs generalizing pos with
  | nil =>
    rw [Source.skipChars]
    split
    case h_1 c hc => simp [h.charAt_nil] at hc
    case h_2 => simp
  | cons c cs ih =>
    rw [Source.skipChars]
    split
    case h_2 hc => simp [h.charAt] at hc
    case h_1 c' hc =>
      obtain rfl : c = c' := Option.some.inj (h.charAt.symm.trans hc)
      by_cases hp : p c
      · rw [if_pos hp, ih h.tail, List.takeWhile_cons_of_pos hp, size_utf8Encode_cons,
          Nat.add_assoc]
      · rw [if_neg hp, List.takeWhile_cons_of_neg hp]
        simp

end Ahead

/-- Where a character starts, it is the first of those ahead. -/
lemma ahead_of_charAt (h : src.charAt pos = some c) : ∃ cs, src.Ahead pos (c :: cs) := by
  have hvalid : String.Pos.Raw.IsValid src.text ⟨pos⟩ := by
    rw [String.Pos.Raw.isValid_iff_isSome_utf8DecodeChar?]
    right
    rw [charAt, src.bytes_eq] at h
    exact Option.isSome_of_eq_some h
  obtain ⟨before, after, e, epos⟩ := String.Pos.Raw.isValid_iff_exists_append.1 hvalid
  have hahead : src.Ahead pos after.toList := by
    refine ⟨before.toList, ?_, ?_⟩
    · rw [e, String.toList_append]
    · rw [String.utf8Encode_toList]
      exact congrArg String.Pos.Raw.byteIdx epos
  cases hcs : after.toList with
  | nil =>
    rw [hcs] at hahead
    simp [hahead.charAt_nil] at h
  | cons c' cs =>
    rw [hcs] at hahead
    obtain rfl : c' = c := Option.some.inj (hahead.charAt.symm.trans h)
    exact ⟨cs, hahead⟩

/-! ## Bytes ahead -/

/-- The bytes of some characters. -/
def encoded (cs : List Char) : List UInt8 :=
  cs.flatMap String.utf8EncodeChar

lemma size_utf8Encode (cs : List Char) : cs.utf8Encode.size = (encoded cs).length := by
  simp [List.utf8Encode, encoded]

/-- The bytes of an array as a list. -/
lemma toList_eq_data (bytes : ByteArray) : bytes.toList = bytes.data.toList := by
  have loop (bytes : ByteArray) (i : Nat) (before : List UInt8) (hi : i ≤ bytes.size) :
      ByteArray.toList.loop bytes i before = before.reverse ++ bytes.data.toList.drop i := by
    fun_induction ByteArray.toList.loop bytes i before with
    | case1 i before hlt ih =>
      have hlt' : i < bytes.data.toList.length := hlt
      have hget : bytes.data.toList[i] = bytes.get! i := (getElem!_pos bytes.data i hlt).symm
      rw [ih hlt, List.reverse_cons, List.append_assoc, List.drop_eq_getElem_cons hlt', hget]
      rfl
    | case2 i before hle =>
      rw [List.drop_eq_nil_of_le, List.append_nil]
      exact Nat.le_of_not_lt hle
  exact loop _ 0 [] (Nat.zero_le _)

lemma toList_utf8Encode (cs : List Char) : cs.utf8Encode.toList = encoded cs :=
  (toList_eq_data _).trans List.toList_data_toByteArray

lemma encoded_append (cs ds : List Char) : encoded (cs ++ ds) = encoded cs ++ encoded ds :=
  List.flatMap_append

lemma Ahead.byteAt (h : src.Ahead pos cs) (i : Nat) : src.byteAt (pos + i) = (encoded cs)[i]? := by
  obtain ⟨before, e, rfl⟩ := h
  have hbytes : src.bytes.data.toList = encoded before ++ encoded cs := by
    rw [bytes_eq_utf8Encode, e]
    simp [List.utf8Encode, encoded]
  have hget (p : Nat) : src.byteAt p = src.bytes.data.toList[p]? := by
    rw [Source.byteAt, Array.getElem?_toList]
    by_cases hlt : p < src.bytes.size
    · rw [getElem?_pos src.bytes p hlt, Array.getElem?_eq_getElem hlt]
      rfl
    · rw [getElem?_neg src.bytes p hlt, Array.getElem?_eq_none (Nat.le_of_not_lt hlt)]
  rw [hget, hbytes, size_utf8Encode, List.getElem?_append_right (Nat.le_add_right _ _),
    Nat.add_sub_cancel_left]

/-- Whether a text starts with some bytes is seen in the bytes ahead. -/
lemma startsWith_eq {bytes : List UInt8} (h : ∀ i, src.byteAt (pos + i) = bytes[i]?)
    (word : List UInt8) : src.startsWith pos word = word.isPrefixOf bytes := by
  induction word generalizing pos bytes with
  | nil => rw [startsWith, List.isPrefixOf_nil_left]
  | cons b word ih =>
    have hhead := h 0
    rw [Nat.add_zero] at hhead
    cases bytes with
    | nil => simp [startsWith, hhead]
    | cons b' bytes =>
      have htail (i : Nat) : src.byteAt (pos + 1 + i) = bytes[i]? := by
        rw [Nat.add_assoc, Nat.add_comm 1, h]
        rfl
      rw [startsWith, ih htail, hhead, List.isPrefixOf]
      congr 1
      rw [Bool.eq_iff_iff, beq_iff_eq, beq_iff_eq, List.getElem?_cons_zero, Option.some.injEq,
        eq_comm]

end CangjieSyntax.Source
