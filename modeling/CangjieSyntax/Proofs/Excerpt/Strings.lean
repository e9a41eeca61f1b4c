import CangjieSyntax.Proofs.Excerpt.Words

/-!
# Strings, runes and raw strings in an excerpt

Literals with a closing mark may go on behind the excerpt that they start in. One that ends in the
excerpt of the second text is the same in both texts.
-/

namespace CangjieSyntax

instance : Moves Escape where
  move m e := { e with stop := m.pos e.stop, error := move m e.error }
  move_refl e := by
    change { e with error := move .refl e.error } = e
    rw [move_refl]

instance : Moves StringText.Content where
  move m c := { c with stop := m.pos c.stop, errors := move m c.errors }
  move_refl c := by
    change { c with errors := move .refl c.errors } = c
    rw [move_refl]

instance : Moves CharLiteral.Body where
  move m b := { b with stop := m.pos b.stop, errors := move m b.errors }
  move_refl b := by
    change { b with errors := move .refl b.errors } = b
    rw [move_refl]

instance : Moves CharLiteral.ByteText where
  move m t := { t with stop := m.pos t.stop, errors := move m t.errors }
  move_refl t := by
    change { t with errors := move .refl t.errors } = t
    rw [move_refl]

lemma Quote.byte_not_mem_closing (quote : Quote) : quote.byte ∉ Byte.closing := by
  cases quote <;> decide

namespace CharLiteral

/-- A rune or a byte from what stands behind its character on. -/
def finish (src : Source) (isByte : Bool) (quote : Quote) (start : Nat) (body : Body) : Lexeme :=
  let lexeme : Lexeme :=
    { kind := if isByte then .byteLiteral else .runeLiteral, stop := body.stop
      value := String.ofList body.char.toList, flags := { invalidEscape := body.invalidEscape }
      errors := body.errors }
  if src.byteAt body.stop == some quote.byte then
    { lexeme with stop := body.stop + 1 }
  else
    let stop := src.skipWhile (fun b => !(b == quote.byte || Byte.isLineBreak b)) body.stop
    if src.byteAt stop == some quote.byte then
      { lexeme with
        stop := stop + 1
        errors := body.errors ++ [(.charLiteralLength, ⟨start, stop + 1⟩)] }
    else
      { lexeme with
        stop
        flags := { lexeme.flags with unterminated := true }
        errors := body.errors ++ [(.unterminatedCharLiteral, ⟨start, stop⟩)] }

variable (src : Source) (isByte : Bool) (quote : Quote) (start : Nat)

lemma read_eq :
    read src isByte quote start
      = if src.size ≤ start + 2 || src.byteIs (start + 2) Byte.isLineBreak then
          { kind := if isByte then .byteLiteral else .runeLiteral, stop := start + 2
            flags := { unterminated := true }
            errors := [(.unterminatedCharLiteral, ⟨start, start + 2⟩)] }
        else if src.byteAt (start + 2) == some quote.byte then
          { kind := if isByte then .byteLiteral else .runeLiteral, stop := start + 2 + 1
            errors := [(.charLiteralLength, ⟨start, start + 2 + 1⟩)] }
        else finish src isByte quote start (readBody src isByte (start + 2)) := rfl

lemma le_stop_finish (body : Body) : body.stop ≤ (finish src isByte quote start body).stop := by
  have hbeyond := src.le_skipWhile (fun b => !(b == quote.byte || Byte.isLineBreak b)) body.stop
  unfold finish
  dsimp only
  split
  · exact Nat.le_succ _
  · split
    · exact Nat.le_succ_of_le hbeyond
    · exact hbeyond

end CharLiteral

namespace RawString

variable {src : Source} {quote : Quote} {fence pos found : Nat}

lemma closer?_none (h : src.find? (· == quote.byte) pos = none) :
    closer? src quote fence pos = none := by
  rw [closer?]
  split
  · rfl
  · exact absurd (h.symm.trans ‹_›) (by simp)

lemma closer?_some (h : src.find? (· == quote.byte) pos = some found) :
    closer? src quote fence pos
      = if fence ≤ hashes src (found + 1) then some found
        else closer? src quote fence (found + 1) := by
  rw [closer?]
  split
  · exact absurd (h.symm.trans ‹_›) (by simp)
  · next found' h' =>
    obtain rfl : found = found' := Option.some.inj (h.symm.trans h')
    rfl

end RawString

namespace Source.Excerpt

variable {src src' : Source} {m : Move} {lo hi p q : Nat} {b : UInt8} {modes : List Mode}
  {quote : Quote} {multiLine : Bool} (w : src.Excerpt src' m lo hi)

include w

/-! ## Escapes -/

lemma codePoint (rule : EscapeRule) (hlo : lo ≤ p) (hhi : p + 2 ≤ hi) :
    Escape.readCodePoint src' rule (m.pos p) = move m (Escape.readCodePoint src rule p) := by
  unfold Escape.readCodePoint
  rw [w.add hlo hhi, w.byteAt_eq (by decide) (Nat.le_add_right_of_le hlo) hhi]
  split
  case isFalse => rfl
  case isTrue hopen =>
    have hlt : p + 3 ≤ hi := w.lt_of_byteAt (by decide) hhi (beq_iff_eq.1 hopen)
    have hlo' : lo ≤ p + 3 := Nat.le_add_right_of_le hlo
    obtain ⟨hskip, hle⟩ := w.skipWhile_inside (f := Byte.isHexDigit) (by decide) hlo' hlt
    have hfrom := src.le_skipWhile Byte.isHexDigit (p + 3)
    dsimp only
    rw [w.add hlo hlt, hskip]
    generalize src.skipWhile Byte.isHexDigit (p + 3) = stop at hle hfrom ⊢
    have hlo'' : lo ≤ stop := Nat.le_trans hlo' hfrom
    have hcount : m.pos stop - m.pos (p + 3) = stop - (p + 3) := by
      have := w.add (k := stop - (p + 3)) hlo' (by omega)
      rw [Nat.add_sub_cancel' hfrom] at this
      omega
    have hbehind : (if src.byteAt stop == some 0x7D then m.pos stop + 1 else m.pos stop)
        = m.pos (if src.byteAt stop == some 0x7D then stop + 1 else stop) := by
      split
      case isTrue hclosed =>
        exact w.add_one hlo'' (w.lt_of_byteAt (by decide) hle (beq_iff_eq.1 hclosed))
      case isFalse => rfl
    rw [hcount, w.byteAt_eq (by decide) hlo'' hle, hbehind, w.extract hlo' hfrom hle]
    split
    · rfl
    · split <;> rfl

/-- An escape. Behind a backslash at the very end the second text goes on with a comment. -/
lemma escape (rule : EscapeRule) (hlo : lo ≤ p) (hhi : p < hi) (hslash : src.byteAt p = some 0x5C)
    (h : (Escape.read src' rule (m.pos p)).stop ≤ m.pos hi) :
    Escape.read src' rule (m.pos p) = move m (Escape.read src rule p)
      ∧ (Escape.read src rule p).stop ≤ hi := by
  have hlo' : lo ≤ p + 1 := Nat.le_succ_of_le hlo
  have hnext := w.add_one hlo hhi
  have hends (e : Escape.read src' rule (m.pos p) = move m (Escape.read src rule p)) :
      Escape.read src' rule (m.pos p) = move m (Escape.read src rule p)
        ∧ (Escape.read src rule p).stop ≤ hi := by
    rw [e] at h
    exact ⟨e, pos_le.1 h⟩
  obtain hlt | ⟨hnone, hnone'⟩ | ⟨hend, hbyte⟩ := w.inside_or_end (p := p + 1) hhi
  · refine hends ?_
    unfold Escape.read
    rw [hnext, w.byteAt hlo' hlt]
    cases src.byteAt (p + 1) with
    | none => rfl
    | some b =>
      dsimp only
      split
      · exact w.codePoint rule hlo hlt
      · split
        · rw [w.add hlo hlt]
          rfl
        · obtain ⟨hchar, hadd, -⟩ :=
            w.nextChar hlo' hlt (isBoundary_behind_ascii hslash (by decide))
          rw [hchar, hadd]
          rfl
  · refine hends ?_
    unfold Escape.read
    rw [hnext, hnone, hnone']
    rfl
  -- The slash of the comment spells no escape, so that the escape would end behind it.
  · have hsimple : Escape.simple? rule 0x2F = none := by
      simp [Escape.simple?]
    unfold Escape.read at h
    rw [hnext, hbyte] at h
    dsimp only at h
    rw [if_neg (by decide), hsimple, hend] at h
    have := (src'.charAtD (m.pos hi)).utf8Size_pos
    dsimp only at h
    omega

/-! ## Strings -/

lemma closes (hlo : lo ≤ p) (hhi : p ≤ hi) :
    StringText.closes src' quote multiLine (m.pos p) = StringText.closes src quote multiLine p := by
  have hquote := quote.byte_not_mem_closing
  have hfence : ∀ b ∈ [quote.byte, quote.byte, quote.byte], b ∉ Byte.closing := by simp [hquote]
  unfold StringText.closes
  rw [w.byteAt_eq hquote hlo hhi, w.startsWith hfence hlo hhi]

lemma opensHole (hlo : lo ≤ p) (hhi : p ≤ hi) :
    StringText.opensHole src' (m.pos p) = StringText.opensHole src p := by
  have both (src : Source) (p : Nat) :
      StringText.opensHole src p = src.startsWith p [0x24, 0x7B] := by
    simp [StringText.opensHole, Source.startsWith]
  rw [both, both, w.startsWith (by decide) hlo hhi]

lemma breaksOff (hlo : lo ≤ p) (hhi : p < hi) :
    StringText.breaksOff src' multiLine (m.pos p) = StringText.breaksOff src multiLine p := by
  unfold StringText.breaksOff Source.byteIs
  rw [w.byteAt hlo hhi]

omit w in
/-- At a comment the text of a string goes on. -/
lemma goes_on_of_slash (quote : Quote) (multiLine : Bool) (hb : src'.byteAt q = some 0x2F) :
    ¬(StringText.closes src' quote multiLine q || StringText.opensHole src' q
      || StringText.breaksOff src' multiLine q) := by
  have hquote : (0x2F == quote.byte) = false := by cases quote <;> rfl
  have hcloses : StringText.closes src' quote multiLine q = false := by
    cases multiLine <;> simp [StringText.closes, Source.startsWith, hb, hquote]
  simp [hcloses, StringText.opensHole, StringText.breaksOff, Source.byteIs, hb, Byte.isLineBreak]

omit w in
lemma lt_content_of_slash (quote : Quote) (multiLine : Bool) (hb : src'.byteAt q = some 0x2F) :
    q < (StringText.readContent src' quote multiLine q).stop :=
  StringText.lt_readContent_stop (isBoundary_of_ascii hb (by decide)) (lt_size_of_byteAt hb)
    (goes_on_of_slash quote multiLine hb)

lemma content (hlo : lo ≤ p) (hhi : p ≤ hi) (hpos : src.isBoundary p) :
    MovedIf m (·.stop ≤ m.pos hi) (StringText.readContent src quote multiLine p)
      (StringText.readContent src' quote multiLine (m.pos p)) := by
  induction hn : hi - p using Nat.strongRecOn generalizing p with
  | ind n ih =>
    obtain hlt | ⟨hnone, hnone'⟩ | ⟨rfl, hslash⟩ := w.inside_or_end hhi
    · have hsize : p < src.size := Nat.lt_of_lt_of_le hlt w.le_size.1
      have hsize' : m.pos p < src'.size := Nat.lt_of_lt_of_le (m.strict hlt) w.le_size.2
      rw [StringText.readContent, dif_neg (Nat.not_le.2 hsize), StringText.readContent,
        dif_neg (Nat.not_le.2 hsize'), w.closes hlo hhi, w.opensHole hlo hhi, w.breaksOff hlo hlt,
        w.byteAt hlo hlt]
      -- What is read here leaves less of the excerpt to what is read behind it.
      refine .ite (fun _ _ => rfl) fun _ => .ite (fun hslash => ?escape) fun _ => ?plain
      case escape =>
        intro h
        have hbyte := beq_iff_eq.1 hslash
        have hbehind' := (StringText.readContent_stop quote multiLine
          (Escape.isBoundary_read .text ((w.byteAt hlo hlt).trans hbyte))).2
        obtain ⟨hescape, hle⟩ := w.escape .text hlo hlt hbyte (Nat.le_trans hbehind' h)
        have hstop : (move m (Escape.read src .text p)).stop = m.pos (Escape.read src .text p).stop :=
          rfl
        have hmore := Escape.lt_stop_read src .text p
        have hrest := ih _ (by omega) (by omega) hle (Escape.isBoundary_read .text hbyte) rfl
        dsimp only at h ⊢
        rw [hescape, hstop] at h ⊢
        rw [hrest h]
        simp only [Moves.move, Option.isSome_map, Option.toList_map, List.map_append]
      case plain =>
        obtain ⟨hchar, hadd, hmore, hle, hbehind⟩ := w.nextChar hlo hlt hpos
        intro h
        dsimp only at h ⊢
        rw [hchar, hadd] at h ⊢
        rw [ih _ (by omega) (by omega) hle hbehind rfl h]
        rfl
    · rw [StringText.readContent, dif_pos (byteAt_eq_none hnone), StringText.readContent,
        dif_pos (byteAt_eq_none hnone')]
      exact fun _ => rfl
    · exact fun h => absurd h (Nat.not_le.2 (lt_content_of_slash quote multiLine hslash))

lemma behind_closer_le (hhi : p < hi) (h : StringText.closes src quote multiLine p) :
    p + (if multiLine then 3 else 1) ≤ hi := by
  unfold StringText.closes at h
  split at h
  case isTrue hmulti =>
    rw [if_pos hmulti]
    exact w.behind_word_le (by simp [quote.byte_not_mem_closing]) (Nat.le_of_lt hhi) h
  case isFalse hmulti =>
    rw [if_neg hmulti]
    exact hhi

lemma behind_hole_le (hhi : p < hi) (h : StringText.opensHole src p) : p + 2 ≤ hi := by
  rw [StringText.opensHole, Bool.and_eq_true, beq_iff_eq, beq_iff_eq] at h
  exact w.lt_of_byteAt (p := p + 1) (by decide) hhi h.2

/-- A piece of a string. -/
lemma string (hlo : lo ≤ p) (hhi : p ≤ hi) (hpos : src.isBoundary p) :
    MovedIf m (·.stop ≤ m.pos hi) (StringText.read src quote multiLine p)
      (StringText.read src' quote multiLine (m.pos p)) := by
  obtain hlt | ⟨hnone, hnone'⟩ | ⟨rfl, hslash⟩ := w.inside_or_end hhi
  · have hsize : p < src.size := Nat.lt_of_lt_of_le hlt w.le_size.1
    have hsize' : m.pos p < src'.size := Nat.lt_of_lt_of_le (m.strict hlt) w.le_size.2
    rw [StringText.read, if_neg (Nat.not_le.2 hsize), StringText.read,
      if_neg (Nat.not_le.2 hsize'), w.closes hlo hhi, w.opensHole hlo hhi, w.breaksOff hlo hlt]
    refine .ite (fun hcloses _ => ?_) fun _ => .ite (fun hopens _ => ?_) fun _ =>
      .ite (fun _ _ => rfl) fun _ h => ?_
    · rw [w.add hlo (w.behind_closer_le hlt hcloses)]
      rfl
    · rw [w.add hlo (w.behind_hole_le hlt hopens)]
      rfl
    · dsimp only at h ⊢
      rw [w.content hlo hhi hpos h]
      rfl
  · rw [StringText.read, if_pos (byteAt_eq_none hnone), StringText.read,
      if_pos (byteAt_eq_none hnone')]
    exact fun _ => rfl
  · intro h
    have hgoes := goes_on_of_slash quote multiLine hslash
    simp only [Bool.or_eq_true, not_or, Bool.not_eq_true] at hgoes
    have hcontent := lt_content_of_slash quote multiLine hslash
    rw [StringText.read, if_neg (Nat.not_le.2 (lt_size_of_byteAt hslash)), hgoes.1.1, hgoes.1.2,
      hgoes.2] at h
    exact absurd h (Nat.not_le.2 hcontent)

lemma stringStart (hlo : lo ≤ p) (hhi : p < hi) :
    StringText.readStart src' quote (m.pos p) = move m (StringText.readStart src quote p) := by
  have hword : ∀ b ∈ [quote.byte, quote.byte], b ∉ Byte.closing := by
    simp [quote.byte_not_mem_closing]
  unfold StringText.readStart
  rw [w.add_one hlo hhi, w.startsWith hword (Nat.le_succ_of_le hlo) hhi]
  split
  case isTrue hthree =>
    rw [w.add hlo (k := 3) (w.behind_word_le (p := p + 1) hword hhi hthree)]
    rfl
  case isFalse => rfl

/-! ## Runes, bytes and byte strings -/

lemma charBody (isByte : Bool) (hlo : lo ≤ p) (hhi : p < hi) (hpos : src.isBoundary p) :
    MovedIf m (·.stop ≤ m.pos hi) (CharLiteral.readBody src isByte p)
      (CharLiteral.readBody src' isByte (m.pos p)) := by
  unfold CharLiteral.readBody
  rw [w.byteAt hlo hhi]
  refine .ite (fun hslash h => ?_) fun _ _ => ?_
  · dsimp only at h ⊢
    rw [(w.escape _ hlo hhi (beq_iff_eq.1 hslash) h).1]
    simp only [Moves.move, Option.isSome_map, Option.toList_map]
  · obtain ⟨hchar, hadd, -⟩ := w.nextChar hlo hhi hpos
    dsimp only
    rw [hchar, hadd]
    split <;> rfl

/-- What stands behind the character of a rune or a byte. -/
lemma charEnd (isByte : Bool) (start : Nat) {body : CharLiteral.Body} (hlo : lo ≤ body.stop) :
    MovedIf m (·.stop ≤ m.pos hi) (CharLiteral.finish src isByte quote start body)
      (CharLiteral.finish src' isByte quote (m.pos start) (move m body)) := by
  intro h
  have hfinish := CharLiteral.le_stop_finish src' isByte quote (m.pos start) (move m body)
  have hle : body.stop ≤ hi := pos_le.1 (Nat.le_trans hfinish h)
  have hplain := quote.byte_not_mem_closing
  have hstop : (move m body).stop = m.pos body.stop := rfl
  revert h
  unfold CharLiteral.finish
  dsimp only
  rw [hstop, w.byteAt_eq hplain hlo hle]
  refine (MovedIf.ite (c := fun l : Lexeme => l.stop ≤ m.pos hi) (fun hclosed _ => ?_) fun _ h => ?_)
  · rw [w.add_one hlo (w.lt_of_byteAt hplain hle (beq_iff_eq.1 hclosed))]
    rfl
  · -- The search for a quote passes over what stands behind the excerpt.
    have hrun : src'.skipWhile (fun b => !(b == quote.byte || Byte.isLineBreak b))
        (m.pos body.stop) ≤ m.pos hi := by
      split at h
      · exact Nat.le_of_succ_le h
      · exact h
    obtain ⟨hskip, hfound⟩ := w.skipWhile hlo hle hrun
      (.inl fun e => by cases quote <;> exact nomatch e)
    have hlo' := Nat.le_trans hlo
      (src.le_skipWhile (fun b => !(b == quote.byte || Byte.isLineBreak b)) body.stop)
    rw [hskip, w.byteAt_eq hplain hlo' hfound]
    split
    case isTrue hclosed =>
      rw [w.add_one hlo' (w.lt_of_byteAt hplain hfound (beq_iff_eq.1 hclosed))]
      simp only [Moves.move, List.map_append, List.map_cons, List.map_nil]
    case isFalse => simp only [Moves.move, List.map_append, List.map_cons, List.map_nil]

omit w in
/-- A comment in the place of a character belongs to the literal. -/
lemma lt_charLiteral_of_slash (isByte : Bool) (quote : Quote) (hb : src'.byteAt (q + 2) = some 0x2F) :
    q + 2 < (CharLiteral.read src' isByte quote q).stop := by
  have hplain : ¬(some 0x2F == some quote.byte) = true := by cases quote <;> decide
  have hsize := lt_size_of_byteAt hb
  have hbody := (CharLiteral.readBody_stop isByte (isBoundary_of_ascii hb (by decide)) hsize).2
  rw [CharLiteral.read_eq, decide_eq_false (Nat.not_le.2 hsize), Source.byteIs, hb,
    if_neg (by decide), if_neg hplain]
  exact Nat.lt_of_lt_of_le hbody (CharLiteral.le_stop_finish ..)

/-- A rune or a byte, whose quote stands in the excerpt. -/
lemma charLiteral (isByte : Bool) (hlo : lo ≤ p) (hhi : p + 2 ≤ hi)
    (hquote : src.byteAt (p + 1) = some quote.byte) :
    MovedIf m (·.stop ≤ m.pos hi) (CharLiteral.read src isByte quote p)
      (CharLiteral.read src' isByte quote (m.pos p)) := by
  have hlo' : lo ≤ p + 2 := Nat.le_add_right_of_le hlo
  have hpos : src.isBoundary (p + 2) := isBoundary_behind_ascii hquote quote.ascii_byte
  have hstart := w.add hlo hhi
  obtain hlt | ⟨hnone, hnone'⟩ | ⟨hend, hslash⟩ := w.inside_or_end hhi
  · have hsize : ¬src.size ≤ p + 2 := Nat.not_le.2 (Nat.lt_of_lt_of_le hlt w.le_size.1)
    have hsize' : ¬src'.size ≤ m.pos (p + 2) :=
      Nat.not_le.2 (Nat.lt_of_lt_of_le (m.strict hlt) w.le_size.2)
    have hline : src'.byteIs (m.pos (p + 2)) Byte.isLineBreak
        = src.byteIs (p + 2) Byte.isLineBreak := by
      rw [Source.byteIs, Source.byteIs, w.byteAt hlo' hlt]
    rw [CharLiteral.read_eq, CharLiteral.read_eq, hstart, hline, decide_eq_false hsize,
      decide_eq_false hsize', w.byteAt_eq quote.byte_not_mem_closing hlo' hhi]
    refine .ite (fun _ _ => rfl) fun _ => .ite (fun _ _ => ?_) fun _ h => ?_
    · rw [w.add_one hlo' hlt]
      rfl
    · have hmore := (CharLiteral.readBody_stop isByte hpos (Nat.lt_of_not_le hsize)).2
      have hbody := w.charBody isByte hlo' hlt hpos (Nat.le_trans (CharLiteral.le_stop_finish ..) h)
      rw [hbody] at h ⊢
      exact w.charEnd isByte p (by omega) h
  · rw [CharLiteral.read_eq, CharLiteral.read_eq, hstart,
      decide_eq_true (byteAt_eq_none hnone'), decide_eq_true (byteAt_eq_none hnone)]
    exact fun _ => rfl
  · intro h
    have hslash' : src'.byteAt (m.pos p + 2) = some 0x2F := by rw [hstart, hslash]
    have := lt_charLiteral_of_slash isByte quote hslash'
    rw [← hend] at h
    omega

omit w in
/-- At a comment a byte string goes on. -/
lemma lt_byteText_of_slash (hb : src'.byteAt q = some 0x2F) :
    q < (CharLiteral.readByteText src' q).stop := by
  obtain ⟨-, hle⟩ := CharLiteral.readByteText_stop (isBoundary_behind_ascii hb (by decide))
  have hchar : src'.charAtD q = '/' := by
    rw [Source.charAtD, (charAt_of_ascii hb (by decide)).1]
    rfl
  rw [CharLiteral.readByteText, dif_neg (Nat.not_le.2 (lt_size_of_byteAt hb)), Source.byteIs, hb,
    if_neg (by decide), if_neg (by decide), if_neg (by decide), hchar]
  exact hle

lemma byteText (hlo : lo ≤ p) (hhi : p ≤ hi) (hpos : src.isBoundary p) :
    MovedIf m (·.stop ≤ m.pos hi) (CharLiteral.readByteText src p)
      (CharLiteral.readByteText src' (m.pos p)) := by
  induction hn : hi - p using Nat.strongRecOn generalizing p with
  | ind n ih =>
    obtain hlt | ⟨hnone, hnone'⟩ | ⟨rfl, hslash⟩ := w.inside_or_end hhi
    · have hsize : p < src.size := Nat.lt_of_lt_of_le hlt w.le_size.1
      have hsize' : m.pos p < src'.size := Nat.lt_of_lt_of_le (m.strict hlt) w.le_size.2
      rw [CharLiteral.readByteText, dif_neg (Nat.not_le.2 hsize), CharLiteral.readByteText,
        dif_neg (Nat.not_le.2 hsize'), Source.byteIs, Source.byteIs, w.byteAt hlo hlt]
      refine .ite (fun _ _ => rfl) fun _ => .ite (fun _ _ => ?closed) fun _ =>
        .ite (fun hslash h => ?escape) fun _ => ?plain
      case closed =>
        rw [w.add_one hlo hlt]
        rfl
      case escape =>
        have hbyte := beq_iff_eq.1 hslash
        have hbehind' := (CharLiteral.readByteText_stop
          (Escape.isBoundary_read .byte ((w.byteAt hlo hlt).trans hbyte))).2
        obtain ⟨hescape, hle⟩ := w.escape .byte hlo hlt hbyte (Nat.le_trans hbehind' h)
        have hstop : (move m (Escape.read src .byte p)).stop = m.pos (Escape.read src .byte p).stop :=
          rfl
        have hmore := Escape.lt_stop_read src .byte p
        have hrest := ih _ (by omega) (by omega) hle (Escape.isBoundary_read .byte hbyte) rfl
        dsimp only at h ⊢
        rw [hescape, hstop] at h ⊢
        rw [hrest h]
        simp only [Moves.move, Option.isSome_map, Option.toList_map, List.map_append]
      case plain =>
        obtain ⟨hchar, hadd, hmore, hle, hbehind⟩ := w.nextChar hlo hlt hpos
        have hrest := ih _ (by omega) (by omega) hle hbehind rfl
        dsimp only
        rw [hchar, hadd]
        refine .ite (fun _ h => ?_) fun _ h => ?_
        · rw [hrest h]
          rfl
        · rw [hrest h]
          rfl
    · rw [CharLiteral.readByteText, dif_pos (byteAt_eq_none hnone), CharLiteral.readByteText,
        dif_pos (byteAt_eq_none hnone')]
      exact fun _ => rfl
    · exact fun h => absurd h (Nat.not_le.2 (lt_byteText_of_slash hslash))

/-- A byte string, whose quote stands in the excerpt. -/
lemma byteString (hlo : lo ≤ p) (hhi : p + 2 ≤ hi) (hquote : src.byteAt (p + 1) = some 0x22)
    (h : (CharLiteral.readByteString src' (m.pos p)).stop ≤ m.pos hi) :
    CharLiteral.readByteString src' (m.pos p) = move m (CharLiteral.readByteString src p) := by
  have hpos : src.isBoundary (p + 2) := isBoundary_behind_ascii hquote (by decide)
  unfold CharLiteral.readByteString at h ⊢
  dsimp only at h ⊢
  rw [w.add hlo hhi] at h ⊢
  rw [w.byteText (Nat.le_add_right_of_le hlo) hhi hpos h]
  generalize CharLiteral.readByteText src (p + 2) = body
  cases body with
  | mk stop text closed invalidEscape errors =>
    cases closed with
    | true => rfl
    | false => simp [Moves.move]

/-! ## Raw strings -/

lemma hashes (hlo : lo ≤ p) (hhi : p ≤ hi) :
    RawString.hashes src' (m.pos p) = RawString.hashes src p ∧ p + RawString.hashes src p ≤ hi := by
  obtain ⟨hskip, hle⟩ := w.skipWhile_inside (f := (· == 0x23)) (by decide) hlo hhi
  have hfrom := src.le_skipWhile (· == 0x23) p
  have hadd := w.add (k := src.skipWhile (· == 0x23) p - p) hlo (by omega)
  rw [Nat.add_sub_cancel' hfrom] at hadd
  unfold RawString.hashes
  rw [hskip]
  omega

/-- A search that ends in the excerpt. -/
lemma find? {f : UInt8 → Bool} (hlo : lo ≤ p) (hhi : p ≤ hi)
    (h : (src'.find? f (m.pos p)).getD src'.size ≤ m.pos hi)
    (hf : f 0x2F = false ∨ (src'.find? f (m.pos p)).getD src'.size < m.pos hi
      ∨ src'.size ≤ m.pos hi) :
    src'.find? f (m.pos p) = (src.find? f p).map m.pos ∧ ∀ i ∈ src.find? f p, i ≤ hi := by
  have hsize := w.le_size
  have hgetD :
      (src'.find? f (m.pos p)).getD src'.size = src'.skipWhile (fun b => !f b) (m.pos p) := by
    have := skipWhile_le_size (p := fun b => !f b) (Nat.le_trans (pos_le.2 hhi) hsize.2)
    unfold Source.find?
    dsimp only
    split
    · rfl
    · exact Nat.le_antisymm (Nat.le_of_not_lt ‹_›) this
  rw [hgetD] at h hf
  obtain ⟨hskip, hle⟩ := w.skipWhile hlo hhi h (hf.imp_left fun hslash e => by simp [hslash] at e)
  have hin := w.size_le hle
  unfold Source.find?
  dsimp only
  rw [hskip]
  by_cases hlt : src.skipWhile (fun b => !f b) p < src.size
  · rw [if_pos hlt, if_pos (by omega)]
    refine ⟨rfl, ?_⟩
    rintro _ ⟨⟩
    exact hle
  · rw [if_neg hlt, if_neg (by omega)]
    exact ⟨rfl, nofun⟩

/-- The search for the end of a raw string, if it ends in the excerpt. -/
lemma closer? (quote : Quote) (fence : Nat) (hlo : lo ≤ p) (hhi : p ≤ hi)
    (h : (RawString.closer? src' quote fence (m.pos p)).getD src'.size ≤ m.pos hi) :
    RawString.closer? src' quote fence (m.pos p)
        = (RawString.closer? src quote fence p).map m.pos
      ∧ ∀ i ∈ RawString.closer? src quote fence p, p ≤ i ∧ i < hi := by
  have hslash : (0x2F == quote.byte) = false := by cases quote <;> rfl
  have hplain := quote.byte_not_mem_closing
  generalize hq : m.pos p = q at h ⊢
  fun_induction RawString.closer? src' quote fence q generalizing p with
  | case1 q hnone =>
    subst hq
    obtain ⟨hsame, -⟩ := w.find? hlo hhi (by rw [hnone]; exact h) (.inl hslash)
    rw [RawString.closer?_none (Option.map_eq_none_iff.1 (hsame.symm.trans hnone))]
    exact ⟨rfl, by rintro _ ⟨⟩⟩
  | case2 q found hfound hfence =>
    subst hq
    obtain ⟨hsame, hle⟩ := w.find? hlo hhi (by rw [hfound]; exact h) (.inl hslash)
    obtain ⟨i, hmark, rfl⟩ := Option.map_eq_some_iff.1 (hsame.symm.trans hfound)
    obtain ⟨b, hb, hquote⟩ := byteAt_of_find? hmark
    have hlt := w.lt_of_byteAt hplain (hle i hmark) (beq_iff_eq.1 hquote ▸ hb)
    have hfrom := (find?_bounds hmark).1
    obtain ⟨hhashes, -⟩ := w.hashes (p := i + 1) (by omega) hlt
    rw [w.add_one (by omega) hlt, hhashes] at hfence
    rw [RawString.closer?_some hmark, if_pos hfence]
    refine ⟨rfl, ?_⟩
    rintro _ ⟨⟩
    exact ⟨hfrom, hlt⟩
  | case3 q found hfound hfence ih =>
    subst hq
    have hbehind : found ≤ (RawString.closer? src' quote fence (found + 1)).getD src'.size := by
      cases hrest : RawString.closer? src' quote fence (found + 1) with
      | none => exact Nat.le_of_lt (find?_bounds hfound).2
      | some last => exact Nat.le_of_succ_le (RawString.closer?_found hrest).1
    obtain ⟨hsame, hle⟩ :=
      w.find? hlo hhi (by rw [hfound]; exact Nat.le_trans hbehind h) (.inl hslash)
    obtain ⟨i, hmark, rfl⟩ := Option.map_eq_some_iff.1 (hsame.symm.trans hfound)
    obtain ⟨b, hb, hquote⟩ := byteAt_of_find? hmark
    have hlt := w.lt_of_byteAt hplain (hle i hmark) (beq_iff_eq.1 hquote ▸ hb)
    have hfrom := (find?_bounds hmark).1
    have hlo' : lo ≤ i + 1 := by omega
    obtain ⟨hhashes, -⟩ := w.hashes hlo' hlt
    rw [w.add_one (by omega) hlt, hhashes] at hfence
    -- The quote does not close the string, and both searches go on behind it.
    obtain ⟨hsame', hin⟩ := ih hlo' hlt (w.add_one (by omega) hlt).symm h
    rw [RawString.closer?_some hmark, if_neg hfence]
    exact ⟨hsame', fun j hj => ⟨by have := (hin j hj).1; omega, (hin j hj).2⟩⟩

lemma rawString (quote : Quote) {fence : Nat} (hlo : lo ≤ p) (hhi : p + fence + 1 ≤ hi)
    (h : (RawString.read src' fence quote (m.pos p)).stop ≤ m.pos hi) :
    RawString.read src' fence quote (m.pos p) = move m (RawString.read src fence quote p) := by
  have hlo' : lo ≤ p + fence + 1 := by omega
  have hbody : m.pos p + fence + 1 = m.pos (p + fence + 1) := by
    rw [Nat.add_assoc, Nat.add_assoc, w.add hlo (by omega)]
  unfold RawString.read at h ⊢
  dsimp only at h ⊢
  rw [hbody] at h ⊢
  cases hclosed : RawString.closer? src' quote fence (m.pos (p + fence + 1)) with
  | some found' =>
    rw [hclosed] at h
    dsimp only at h ⊢
    have hinside : (some found').getD src'.size ≤ m.pos hi := by
      rw [Option.getD_some]
      omega
    obtain ⟨hsame, hin⟩ := w.closer? quote fence hlo' hhi (hclosed ▸ hinside)
    obtain ⟨found, hfound, rfl⟩ := Option.map_eq_some_iff.1 (hsame.symm.trans hclosed)
    obtain ⟨hfrom, hlt⟩ := hin found hfound
    obtain ⟨-, -, hfence⟩ := RawString.closer?_found hfound
    obtain ⟨-, hle⟩ := w.hashes (p := found + 1) (by omega) hlt
    have hstop : m.pos found + 1 + fence = m.pos (found + 1 + fence) := by
      rw [w.add_one (by omega) hlt, w.add (by omega) (by omega)]
    rw [hfound, hstop, w.slice hlo' hfrom (Nat.le_of_lt hlt)]
    rfl
  | none =>
    rw [hclosed] at h
    dsimp only at h ⊢
    -- The raw string goes on to the end of the text, so there is no comment behind the excerpt.
    obtain ⟨hsize, hsize'⟩ : src.size = hi ∧ src'.size = m.pos hi := by
      cases w.border with
      | ended hsize hsize' => exact ⟨hsize, hsize'⟩
      | comment _ _ hslash => exact absurd (lt_size_of_byteAt hslash) (Nat.not_lt.2 h)
    have hends (n : Nat) :
        (RawString.closer? src' quote n (m.pos (p + fence + 1))).getD src'.size ≤ m.pos hi := by
      cases hlast : RawString.closer? src' quote n (m.pos (p + fence + 1)) with
      | none => exact hsize'.le
      | some last =>
        obtain ⟨-, hbyte, -⟩ := RawString.closer?_found hlast
        exact hsize' ▸ Nat.le_of_lt (lt_size_of_byteAt hbyte)
    obtain ⟨hsame, -⟩ := w.closer? quote fence hlo' hhi (hends fence)
    obtain ⟨hsame', hin⟩ := w.closer? quote 1 hlo' hhi (hends 1)
    rw [Option.map_eq_none_iff.1 (hsame.symm.trans hclosed), hsame', hsize', hsize,
      w.slice hlo' hhi (Nat.le_refl hi)]
    cases hshort : RawString.closer? src quote 1 (p + fence + 1) with
    | none => rfl
    | some found =>
      obtain ⟨hfrom, hlt⟩ := hin found hshort
      obtain ⟨hhashes, hle⟩ := w.hashes (p := found + 1) (by omega) hlt
      dsimp only [Option.map_some]
      rw [w.add_one (by omega) hlt, hhashes, w.add (by omega) hle]
      rfl

/-- A hash sign, by itself or with a raw string behind it. -/
lemma hash (hlo : lo ≤ p) (hhi : p < hi)
    (h : (RawString.readHash src' (m.pos p)).stop ≤ m.pos hi) :
    RawString.readHash src' (m.pos p) = move m (RawString.readHash src p) := by
  obtain ⟨hhashes, hle⟩ := w.hashes hlo (Nat.le_of_lt hhi)
  have hquote : (src'.byteAt (m.pos p + RawString.hashes src p)).bind Quote.ofByte?
      = (src.byteAt (p + RawString.hashes src p)).bind Quote.ofByte? := by
    rw [w.add hlo hle, w.byteAt_bind (by decide) (Nat.le_add_right_of_le hlo) hle]
  unfold RawString.readHash at h ⊢
  dsimp only at h ⊢
  rw [hhashes, hquote] at h ⊢
  cases hopens : (src.byteAt (p + RawString.hashes src p)).bind Quote.ofByte? with
  | none =>
    dsimp only
    rw [w.add_one hlo hhi]
    rfl
  | some quote =>
    rw [hopens] at h
    obtain ⟨b, hb, hquote⟩ := Option.bind_eq_some_iff.1 hopens
    have hplain : b ∉ Byte.closing := by
      rw [Quote.byte_of_ofByte? hquote]
      exact quote.byte_not_mem_closing
    exact w.rawString quote hlo (w.lt_of_byteAt hplain hle hb) h

end Source.Excerpt

end CangjieSyntax
