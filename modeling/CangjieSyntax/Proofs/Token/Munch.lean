import CangjieSyntax.Proofs.Token.Session

/-!
# Maximal munch

A mark is the longest spelling of the table that stands at its place, and a word goes on as far as
there are characters of identifiers. Both are spelled as the tables say, in whatever mode and behind
whatever text they are read. Only `>` is taken by itself; joined with what touches it, it is spelled as
the table says, too.
-/

namespace CangjieSyntax

variable {src : Source} {modes : List Mode} {pos start stop : Nat} {first b : UInt8}

namespace Source

/-- Bytes that stand at an offset are found there again. -/
lemma extract_of_startsWith {word : List UInt8} (h : src.startsWith pos word) :
    (src.bytes.extract pos (pos + word.length)).data.toList = word := by
  have hbytes (i : Nat) : src.byteAt (pos + i) = (src.bytes.data.toList.drop pos)[i]? := by
    rw [List.getElem?_drop, Array.getElem?_toList]
    rfl
  rw [startsWith_eq hbytes, List.isPrefixOf_iff_prefix, List.prefix_iff_eq_take] at h
  rw [ByteArray.data_extract, Array.toList_extract, List.extract_eq_take_drop,
    Nat.add_sub_cancel_left]
  exact h.symm

/-- The text of a stretch is the one whose bytes stand there. -/
lemma slice?_of_startsWith {text : String} (h : src.startsWith pos text.toUTF8.toList)
    (hne : text.toUTF8.toList ≠ []) (hascii : ∀ b ∈ text.toUTF8.toList, b < 0x80) :
    src.slice? pos (pos + text.toUTF8.toList.length) = some text := by
  have hstop := isBoundary_behind_word h hne hascii
  obtain ⟨b, rest, hword⟩ := List.exists_cons_of_ne_nil hne
  have hstart : src.isBoundary pos := by
    rw [hword, startsWith, Bool.and_eq_true, beq_iff_eq] at h
    exact isBoundary_of_ascii h.1 (hascii b (hword ▸ List.mem_cons_self))
  have hbytes : src.bytes.extract pos (pos + text.toUTF8.toList.length) = text.toUTF8 := by
    have := (extract_of_startsWith h).trans (toList_eq_data _)
    exact ByteArray.ext (Array.toList_inj.1 this)
  have hvalid : text.toUTF8.IsValidUTF8 := text.isValidUTF8
  rw [slice?, if_pos ⟨hstart, Nat.le_add_right _ _, le_size_of_isBoundary hstop⟩, hbytes,
    String.fromUTF8?, dif_pos hvalid]
  rfl

/-- A run of characters ends in front of one that does not belong to it. -/
lemma charAt_skipChars (src : Source) (f : Char → Bool) (pos : Nat) :
    (src.charAt (src.skipChars f pos)).any f = false := by
  fun_induction skipChars src f pos with
  | case1 pos c hc hf ih => exact ih
  | case2 pos c hc hf => simp [hc, hf]
  | case3 pos hc => simp [hc]

end Source

namespace Punctuation

/-- The bytes of the spelling of a mark. -/
def bytes (p : Punctuation) : List UInt8 :=
  p.text.toUTF8.toList

variable {p q : Punctuation}

lemma ascii_bytes (p : Punctuation) : p.bytes ≠ [] ∧ ∀ b ∈ p.bytes, b < 0x80 := by
  have : ∀ p ∈ all, p.bytes ≠ [] ∧ ∀ b ∈ p.bytes, b < 0x80 := by decide +kernel
  exact this p p.mem_all

/-- A spelling has as many characters as bytes. -/
lemma length_bytes (p : Punctuation) : p.bytes.length = p.text.length := by
  have : ∀ p ∈ all, p.bytes.length = p.text.length := by decide +kernel
  exact this p p.mem_all

/-- In the table longer spellings come first. -/
lemma munchTable_sorted : munchTable.Pairwise fun a b => b.1.length ≤ a.1.length := by
  decide +kernel

lemma bytes_of_mem_munchTable : ∀ entry ∈ munchTable,
    entry.1 = entry.2.bytes ∧ entry.2.isJoined = false := by
  decide +kernel

/-- The table has every mark with its spelling but those that are joined. -/
lemma mem_munchTable (h : p.isJoined = false) : (p.bytes, p) ∈ munchTable := by
  have : ∀ p ∈ all, p.isJoined = false → (p.bytes, p) ∈ munchTable := by decide +kernel
  exact this p p.mem_all h

/-- Only `>` and what is made of it start with its byte. -/
lemma head_bytes_of_isJoined (h : p.isJoined) : p.bytes.head? = some 0x3E := by
  have : ∀ p ∈ all, p.isJoined → p.bytes.head? = some 0x3E := by decide +kernel
  exact this p p.mem_all h

lemma eq_greater_of_head (h : p.bytes.head? = some 0x3E) (hp : p.isJoined = false) :
    p = greater := by
  have : ∀ p ∈ all, p.bytes.head? = some 0x3E → p.isJoined = false → p = greater := by
    decide +kernel
  exact this p p.mem_all h hp

/-- The marks that are read by their first byte alone: no other spelling starts with it. -/
lemma length_le_one_of_head {p : Punctuation}
    (hp : p ∈ [openBrace, closeBrace, hash, dollar, underscore])
    (h : q.bytes.head? = p.bytes.head?) : q.bytes.length ≤ 1 := by
  have : ∀ q ∈ all, ∀ p ∈ [openBrace, closeBrace, hash, dollar, underscore],
      q.bytes.head? = p.bytes.head? → q.bytes.length ≤ 1 := by
    decide +kernel
  exact this q q.mem_all p hp h

/-- A mark that stands at an offset starts with the byte there. -/
lemma head_of_startsWith (h : src.startsWith pos p.bytes) : src.byteAt pos = p.bytes.head? := by
  obtain ⟨b, rest, hword⟩ := List.exists_cons_of_ne_nil p.ascii_bytes.1
  rw [hword, Source.startsWith, Bool.and_eq_true, beq_iff_eq] at h
  rw [h.1, hword, List.head?_cons]

/-- A mark stands at an offset, and unless it is a `>` no longer spelling does. -/
structure Munched (src : Source) (pos : Nat) (p : Punctuation) : Prop where
  stands : src.startsWith pos p.bytes
  longest : p ≠ greater → ∀ q : Punctuation, p.bytes.length < q.bytes.length →
    src.startsWith pos q.bytes = false

/-- The mark that is found in the table is the longest one. -/
lemma munched_of_munch? (h : munch? src pos = some (p, stop)) :
    Munched src pos p ∧ stop = pos + p.bytes.length := by
  obtain ⟨entry, hentry, e⟩ := Option.map_eq_some_iff.1 h
  obtain ⟨rfl, rfl⟩ := Prod.mk.inj e
  obtain ⟨hbytes, hplain⟩ := bytes_of_mem_munchTable entry (List.mem_of_find?_eq_some hentry)
  obtain ⟨hstarts, before, behind, htable, hbefore⟩ := List.find?_eq_some_iff_append.1 hentry
  rw [hbytes] at hstarts
  refine ⟨⟨hstarts, fun hne q hlen => ?_⟩, by rw [hbytes]⟩
  by_contra hq
  rw [Bool.not_eq_false] at hq
  cases hjoined : q.isJoined with
  | true =>
    have hhead : entry.2.bytes.head? = some 0x3E := by
      rw [← head_of_startsWith hstarts, head_of_startsWith hq, head_bytes_of_isJoined hjoined]
    exact hne (eq_greater_of_head hhead hplain)
  | false =>
    -- A longer spelling comes earlier in the table, where none stands at the offset.
    have hmem := mem_munchTable hjoined
    rw [htable, List.mem_append] at hmem
    obtain hmem | hmem := hmem
    · simpa [hq] using hbefore _ hmem
    · have hsorted := (List.pairwise_append.1 (htable ▸ munchTable_sorted)).2.1
      obtain heq | hmem := List.mem_cons.1 hmem
      · rw [← heq] at hlen
        exact absurd hlen (Nat.lt_irrefl _)
      · have := (List.pairwise_cons.1 hsorted).1 _ hmem
        rw [hbytes] at this
        exact absurd hlen (Nat.not_lt.2 this)

/-- A mark that is read by its first byte alone. -/
lemma munched_of_first (hp : p ∈ [openBrace, closeBrace, hash, dollar, underscore])
    (hb : p.bytes = [b]) (hfirst : src.byteAt pos = some b) : Munched src pos p := by
  refine ⟨by simp [hb, Source.startsWith, hfirst], fun _ q hlen => ?_⟩
  by_contra hq
  rw [Bool.not_eq_false] at hq
  have hhead : q.bytes.head? = p.bytes.head? := by
    rw [← head_of_startsWith hq, hfirst, hb, List.head?_cons]
  have := length_le_one_of_head hp hhead
  rw [hb, List.length_singleton] at hlen
  omega

/-- What is joined to a `>` spells the mark that it becomes. -/
lemma startsWith_of_joinGreater? (hfirst : src.byteAt pos = some 0x3E)
    (h : joinGreater? src (pos + 1) = some (p, stop)) :
    src.startsWith pos p.bytes ∧ stop = pos + p.bytes.length := by
  have three : greaterGreaterEquals.bytes = [0x3E, 0x3E, 0x3D] := by decide +kernel
  have twice : greaterGreater.bytes = [0x3E, 0x3E] := by decide +kernel
  have equal : greaterEquals.bytes = [0x3E, 0x3D] := by decide +kernel
  unfold joinGreater? at h
  split at h
  case isTrue hgreater =>
    rw [beq_iff_eq] at hgreater
    split at h
    case isTrue hequals =>
      cases h
      rw [beq_iff_eq] at hequals
      simp [three, Source.startsWith, hfirst, hgreater, hequals]
    case isFalse =>
      cases h
      simp [twice, Source.startsWith, hfirst, hgreater]
  case isFalse =>
    split at h
    case isTrue hequals =>
      cases h
      simp only [Bool.and_eq_true, beq_iff_eq] at hequals
      simp [equal, Source.startsWith, hfirst, hequals.1.1]
    case isFalse => cases h

end Punctuation

/-- Whether a token of this kind is a word without quotes around it. -/
def Kind.isWord : Kind → Bool
  | keyword _ | identifier | dollarIdentifier => true
  | _ => false

/-- A token that starts at an offset is spelled as the tables say, and as long as it can be. -/
structure Lexeme.Munched (src : Source) (start : Nat) (l : Lexeme) : Prop where
  mark : ∀ p, l.kind = .mark p → p.Munched src start ∧ l.stop = start + p.bytes.length
  keyword : ∀ k, l.kind = .keyword k → start ≤ l.stop ∧ src.slice? start l.stop = some k.text
  word : l.kind.isWord → (src.charAt l.stop).any Unicode.isIdentifierPart = false

namespace Lexeme

/-- A token that is neither mark nor word. -/
lemma Munched.of_other {l : Lexeme} (hmark : l.kind.isPunctuation = false)
    (hword : l.kind.isWord = false) : l.Munched src start := by
  refine ⟨fun p hp => ?_, fun k hk => ?_, fun h => absurd h (by simp [hword])⟩
  · simp [hp, Kind.isPunctuation] at hmark
  · simp [hk, Kind.isWord] at hword

lemma Munched.of_mark {l : Lexeme} {p : Punctuation} (hkind : l.kind = .mark p)
    (h : p.Munched src start) (hstop : l.stop = start + p.bytes.length) : l.Munched src start := by
  refine ⟨fun q hq => ?_, fun k hk => ?_, fun hword => ?_⟩
  · obtain rfl : p = q := Kind.mark.inj (hkind.symm.trans hq)
    exact ⟨h, hstop⟩
  · exact nomatch hkind.symm.trans hk
  · rw [hkind] at hword
    exact nomatch hword

end Lexeme

/-! ## Words -/

namespace Word

/-- The only word that is spelled as a mark is the underscore. -/
lemma munched_underscore (hstart : startsAt src pos) (h : src.slice pos (skip src pos) = "_") :
    Punctuation.underscore.Munched src pos
      ∧ skip src pos = pos + Punctuation.underscore.bytes.length := by
  have hbytes : Punctuation.underscore.bytes = [0x5F] := by decide +kernel
  obtain ⟨c, hc, -⟩ := (Option.any_eq_true _ _).1 hstart
  obtain ⟨cs, hcs⟩ := Source.ahead_of_charAt hc
  have hrun : src.Ahead pos ((c :: cs).takeWhile Unicode.isIdentifierPart
      ++ (c :: cs).dropWhile Unicode.isIdentifierPart) := by
    rw [List.takeWhile_append_dropWhile]
    exact hcs
  rw [skip, hcs.skipChars] at h ⊢
  rw [hrun.slice] at h
  generalize (c :: cs).takeWhile Unicode.isIdentifierPart = word at h hrun ⊢
  obtain rfl : word = ['_'] := by simpa using congrArg String.toList h
  have hsize : (['_'] : List Char).utf8Encode.size = 1 := by decide +kernel
  have hfirst : src.byteAt pos = some 0x5F := hrun.byteAt 0
  exact ⟨Punctuation.munched_of_first (by decide) hbytes hfirst, by rw [hsize, hbytes]; rfl⟩

/-- A word ends where there is no more character of one. -/
lemma charAt_skip (src : Source) (pos : Nat) :
    (src.charAt (skip src pos)).any Unicode.isIdentifierPart = false :=
  src.charAt_skipChars _ pos

lemma munched_read (hstart : startsAt src pos) : (read src pos).Munched src pos := by
  unfold read
  dsimp only
  split
  case isTrue h =>
    obtain ⟨hmark, hstop⟩ := munched_underscore hstart (beq_iff_eq.1 h)
    exact .of_mark rfl hmark hstop
  case isFalse =>
    split
    case h_1 k hk =>
      refine ⟨nofun, fun k' hk' => ?_, fun _ => charAt_skip src pos⟩
      obtain rfl : k = k' := Kind.keyword.inj hk'
      rw [slice?_skip (isBoundary_of_startsAt hstart), Keyword.text_of_ofText? hk]
      exact ⟨le_skip src pos, rfl⟩
    case h_2 =>
      exact ⟨nofun, nofun, fun _ => charAt_skip src pos⟩

lemma munched_readRaw : (readRaw src pos).Munched src start := by
  unfold readRaw
  dsimp only
  generalize (if startsAt src (pos + 1) then skip src (pos + 1) else pos + 1) = stop
  split <;> exact .of_other rfl rfl

lemma munched_readDollar (hfirst : src.byteAt pos = some 0x24) :
    (readDollar src pos).Munched src pos := by
  have hbytes : Punctuation.dollar.bytes = [0x24] := by decide +kernel
  unfold readDollar
  split
  case isTrue =>
    exact ⟨nofun, nofun, fun _ => charAt_skip src (pos + 1)⟩
  case isFalse =>
    exact .of_mark rfl (Punctuation.munched_of_first (by decide) hbytes hfirst) (by rw [hbytes]; rfl)

end Word

/-! ## Any token -/

lemma RawString.munched_readHash (hfirst : src.byteAt pos = some 0x23) :
    (readHash src pos).Munched src pos := by
  have hbytes : Punctuation.hash.bytes = [0x23] := by decide +kernel
  unfold readHash read
  dsimp only
  split
  · split <;> exact .of_other rfl rfl
  · exact .of_mark rfl (Punctuation.munched_of_first (by decide) hbytes hfirst) (by rw [hbytes]; rfl)

lemma Numeral.munched_withSuffix (body : Body) : (withSuffix src pos body).Munched src start := by
  have hkind : (withSuffix src pos body).kind = _ := kind_withSuffix body
  refine .of_other ?_ ?_
  all_goals
    rw [hkind]
    split <;> rfl

lemma CharLiteral.munched_read (isByte : Bool) (quote : Quote) :
    (read src isByte quote pos).Munched src start := by
  have hkind : (read src isByte quote pos).kind = _ := kind_read isByte quote
  refine .of_other ?_ ?_
  all_goals
    rw [hkind]
    split <;> rfl

lemma StringText.munched_readStart (quote : Quote) :
    (readStart src quote pos).Munched src start := by
  unfold readStart
  split <;> exact .of_other rfl rfl

lemma StringText.munched_read (quote : Quote) (multiLine : Bool) :
    (read src quote multiLine pos).Munched src start := by
  unfold read unterminated
  split
  · exact .of_other rfl rfl
  split
  · exact .of_other rfl rfl
  split
  · exact .of_other rfl rfl
  split <;> exact .of_other rfl rfl

namespace Lexeme

lemma munched_closeBrace (hfirst : src.byteAt pos = some 0x7D) :
    (closeBrace modes pos).Munched src pos := by
  have hbytes : Punctuation.closeBrace.bytes = [0x7D] := by decide +kernel
  unfold closeBrace
  split
  · exact .of_other rfl rfl
  · exact .of_mark rfl (Punctuation.munched_of_first (by decide) hbytes hfirst) (by rw [hbytes]; rfl)

lemma munched_readMark : (readMark src pos).Munched src pos := by
  unfold readMark
  split
  case h_1 p stop hmunch =>
    obtain ⟨hmark, hstop⟩ := Punctuation.munched_of_munch? hmunch
    exact .of_mark rfl hmark hstop
  case h_2 => split <;> exact .of_other rfl rfl

lemma munched_readCode (hfirst : src.byteAt pos = some first) :
    (readCode src modes pos first).Munched src pos := by
  have word : (if Word.startsAt src pos then Word.read src pos else readMark src pos).Munched
      src pos := by
    split
    case isTrue h => exact Word.munched_read h
    case isFalse => exact munched_readMark
  unfold readCode
  dsimp only
  split
  case isTrue h =>
    have hbytes : Punctuation.openBrace.bytes = [0x7B] := by decide +kernel
    rw [beq_iff_eq.1 h] at hfirst
    exact .of_mark rfl (Punctuation.munched_of_first (by decide) hbytes hfirst) (by rw [hbytes]; rfl)
  split
  case isTrue h => exact munched_closeBrace (beq_iff_eq.1 h ▸ hfirst)
  split
  case isTrue h => exact Word.munched_readDollar (beq_iff_eq.1 h ▸ hfirst)
  split
  case isTrue h => exact RawString.munched_readHash (beq_iff_eq.1 h ▸ hfirst)
  split
  · exact Word.munched_readRaw
  split
  · exact Numeral.munched_withSuffix _
  split
  · exact Numeral.munched_withSuffix _
  split
  · exact StringText.munched_readStart _
  · split
    · exact CharLiteral.munched_read _ _
    split
    · split
      · exact CharLiteral.munched_read _ _
      · exact .of_other rfl rfl
    · exact word
  · exact word

/-- The next token is spelled as the tables say, and as long as it can be. -/
theorem munched_read (src : Source) (modes : List Mode) (pos : Nat) :
    (read src modes pos).2.Munched src (read src modes pos).1 := by
  unfold read
  split
  · exact StringText.munched_read _ _
  · dsimp only
    split
    · have hother : (endOfFile src modes (Gap.read src pos).stop).Munched src
          (Gap.read src pos).stop := by
        unfold endOfFile
        split <;> exact .of_other rfl rfl
      exact ⟨hother.mark, hother.keyword, hother.word⟩
    case h_2 first hfirst =>
      have hcode : (readCode src modes _ first).Munched src _ := munched_readCode hfirst
      exact ⟨hcode.mark, hcode.keyword, hcode.word⟩

end Lexeme

namespace Lexer

variable {l : Lexer} {text : String}

/-- A current mark or keyword is the text of its span. -/
def Spelled (src : Source) (l : Lexer) : Prop :=
  ∀ text, l.kind.punctuationText? = some text ∨ l.kind.keywordText? = some text →
    l.span.text? src = some text

lemma Spelled.of_mark {p : Punctuation} (hkind : l.kind = .mark p)
    (h : src.startsWith l.start p.bytes) (hpos : l.pos = l.start + p.bytes.length) :
    l.Spelled src := by
  intro text htext
  rw [hkind] at htext
  obtain htext | htext := htext
  · obtain rfl : p.text = text := Option.some.inj htext
    have hle : l.start ≤ l.pos := by omega
    rw [Span.text?, span, Span.stop_ofBounds hle, Span.start_ofBounds, hpos]
    exact Source.slice?_of_startsWith h p.ascii_bytes.1 p.ascii_bytes.2
  · cases htext

lemma spelled_scan (src : Source) (l : Lexer) : (l.scan src).Spelled src := by
  have hread := Lexeme.munched_read src l.modes l.pos
  intro text htext
  obtain htext | htext := id htext
  · cases hkind : (l.scan src).kind with
    | mark p =>
      obtain ⟨hmark, hstop⟩ := hread.mark p hkind
      exact Spelled.of_mark hkind hmark.stands hstop text (.inl htext)
    | _ => simp [hkind, Kind.punctuationText?] at htext
  · cases hkind : (l.scan src).kind with
    | keyword k =>
      obtain ⟨hle, hslice⟩ := hread.keyword k hkind
      rw [hkind] at htext
      obtain rfl : k.text = text := Option.some.inj htext
      have hspan : (l.scan src).span.stop = (l.scan src).pos := Span.stop_ofBounds hle
      rw [Span.text?, hspan]
      exact hslice
    | _ => simp [hkind, Kind.keywordText?] at htext

lemma spelled_joinGreater (src : Source) (l : Lexer) :
    ((l.scan src).joinGreater src).Spelled src := by
  have hspelled := spelled_scan src l
  unfold joinGreater
  split
  case isTrue hkind =>
    obtain ⟨hmark, hstop⟩ := (Lexeme.munched_read src l.modes l.pos).mark _ hkind
    have hbytes : Punctuation.greater.bytes = [0x3E] := by decide +kernel
    have hfirst : src.byteAt (l.scan src).start = some 0x3E := by
      rw [show (l.scan src).start = (Lexeme.read src l.modes l.pos).1 from rfl,
        Punctuation.head_of_startsWith hmark.stands, hbytes]
      rfl
    have hpos : (l.scan src).pos = (l.scan src).start + 1 := by
      rw [hbytes] at hstop
      exact hstop
    split
    case h_1 p stop hjoin =>
      rw [hpos] at hjoin
      obtain ⟨hstarts, hstop⟩ := Punctuation.startsWith_of_joinGreater? hfirst hjoin
      exact Spelled.of_mark rfl hstarts hstop
    case h_2 => exact hspelled
  case isFalse => exact hspelled

end Lexer

end CangjieSyntax
