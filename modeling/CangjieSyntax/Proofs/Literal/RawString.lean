import CangjieSyntax.Proofs.Grammar.Operand
import CangjieSyntax.Proofs.Token.RawString

/-!
# Raw strings read back

A body in which no quote has the fence behind it is found again between its fences. The quote in
front of the closing fence is the first one that closes: an earlier one would have to take signs of
the closing fence for its own, across the closing quote.
-/

namespace CangjieSyntax

variable {src : Source} {quote : Quote} {n pos i : Nat} {b : UInt8} {c : Char}
  {cs body rest : List Char}

/-! ## The first quote that closes -/

/-- Hash signs ahead are the first characters ahead. -/
lemma Source.Hashes.prefix (h : src.Hashes n pos) (hahead : src.Ahead pos cs) :
    List.replicate n '#' <+: cs := by
  induction n generalizing pos cs with
  | zero => exact List.nil_prefix
  | succ n ih =>
    obtain ⟨rest, rfl⟩ := hahead.eq_cons (c := '#') (h 0 (Nat.succ_pos n)) rfl
    have hrest : src.Hashes n (pos + 1) := fun i hi => by
      rw [Nat.add_assoc, Nat.add_comm 1 i]
      exact h (i + 1) (Nat.succ_lt_succ hi)
    rw [List.replicate_succ]
    exact List.cons_prefix_cons.2 ⟨rfl, ih hrest hahead.tail⟩

lemma Source.encoded_hashes (n : Nat) : encoded (List.replicate n '#') = List.replicate n 0x23 := by
  induction n with
  | zero => rfl
  | succ n ih =>
    rw [List.replicate_succ, List.replicate_succ, encoded, List.flatMap_cons, ← encoded, ih]
    rfl

lemma Source.hashes_of_ahead (h : src.Ahead pos (List.replicate n '#' ++ cs)) :
    src.Hashes n pos := by
  intro i hi
  rw [h.byteAt, encoded_append, encoded_hashes, List.getElem?_append_left (by simpa using hi)]
  exact List.getElem?_replicate_of_lt hi

lemma Quote.char_ne_hash (quote : Quote) : quote.char ≠ '#' := by
  cases quote <;> decide

/-- The quote behind a body that has none with the fence behind it is the first one that closes. -/
lemma Source.closesFirst_of_ahead
    (h : src.Ahead pos (body ++ quote.char :: (List.replicate n '#' ++ rest)))
    (hbody : ¬(quote.char :: List.replicate n '#') <:+: body) :
    src.ClosesFirst quote n pos (pos + (Source.encoded body).length) := by
  have hbehind := h.drop
  rw [Source.size_utf8Encode] at hbehind
  have hquote := hbehind.byteAt_quote
  have hsize : quote.char.utf8Size = 1 := by
    cases quote <;> rfl
  have htail := hbehind.tail
  rw [hsize] at htail
  refine ⟨Nat.le_add_right _ _, ⟨hquote, Source.hashes_of_ahead htail⟩, fun i hle hlt hcloses => ?_⟩
  obtain ⟨j, rfl⟩ := Nat.exists_eq_add_of_le hle
  have hj : (Source.encoded body)[j]? = some quote.byte := by
    have hat := h.byteAt j
    rw [hcloses.quote, Source.encoded_append, List.getElem?_append_left (by omega)] at hat
    exact hat.symm
  obtain ⟨before, c, after, rfl, rfl, -⟩ := Source.split_of_ascii hj quote.ascii_byte
  rw [List.append_assoc, List.cons_append] at h
  have hthere := h.drop
  rw [Source.size_utf8Encode] at hthere
  obtain ⟨_, e⟩ := hthere.eq_cons hcloses.quote quote.utf8EncodeChar_char
  obtain ⟨rfl, -⟩ := List.cons.inj e
  have hsigns := hthere.tail
  rw [hsize] at hsigns
  -- The signs behind the quote belong to the body, or the closing quote would be one of them.
  have hprefix := hcloses.hashes.prefix hsigns
  obtain hshort | hlong := Nat.lt_or_ge after.length n
  · have hmem : quote.char ∈ List.replicate n '#' := by
      have hmore : after ++ [quote.char] <+: List.replicate n '#' := by
        refine List.prefix_of_prefix_length_le ⟨List.replicate n '#' ++ rest, by simp⟩ hprefix ?_
        rw [List.length_append, List.length_replicate]
        exact hshort
      exact hmore.subset (by simp)
    exact quote.char_ne_hash (List.eq_of_mem_replicate hmem)
  · have hinside : List.replicate n '#' <+: after :=
      List.prefix_of_prefix_length_le hprefix (List.prefix_append _ _) (by simpa using hlong)
    obtain ⟨tail, rfl⟩ := hinside
    exact hbody ⟨before, tail, by simp⟩

/-! ## Literals -/

namespace Rule

variable {env : Env} {s : ParseState} {p : Shape} {shapes : List Shape} {call : Call}

lemma crosses_literal (h : s.Stands env (p :: shapes)) :
    Crosses env (p :: shapes) s literal shapes fun id u => ∃ span,
      u.nodes.exprs.get? id = some ⟨.literal (.ofToken env.src s.lexer.token), span⟩ := by
  refine .view (.view ?_)
  refine (crosses_advance h).bind fun _ t ht _ => ?_
  exact (crosses_allocExpr ht.stands).mono fun _ _ _ e => ⟨_, e⟩

/-- A literal of one token by itself is a chain. -/
lemma crosses_chainLiteral (h : s.Stands env (p :: shapes))
    (hkind : p.kind ∈ [.runeLiteral, .byteLiteral, .byteStringLiteral, .rawStringLiteral])
    (hrest : Shape.front shapes ∈ Kind.closers) :
    Crosses env (p :: shapes) s (chain call) shapes fun id u => ∃ span,
      u.nodes.exprs.get? id = some ⟨.literal (.ofToken env.src s.lexer.token), span⟩ := by
  have hs : s.kind = p.kind := h.kind_eq
  refine crosses_chain ?_ hrest fun hext ⟨span, e⟩ => ⟨span, hext.exprs.get?_eq e⟩
  refine .view ?_
  rw [hs]
  simp only [List.mem_cons, List.not_mem_nil, or_false] at hkind
  obtain e | e | e | e := hkind <;> rw [e] <;> exact crosses_literal h

/-- A raw string by itself is a chain. -/
lemma crosses_chainRawString (h : s.Stands env (p :: shapes)) (hkind : p.kind = .rawStringLiteral)
    (hrest : Shape.front shapes ∈ Kind.closers) :
    Crosses env (p :: shapes) s (chain call) shapes fun id u => ∃ span,
      u.nodes.exprs.get? id = some ⟨.literal (.ofToken env.src s.lexer.token), span⟩ :=
  crosses_chainLiteral h (by simp [hkind]) hrest

end Rule

/-- A body between its fences. -/
def RawString.fenced (quote : Quote) (n : Nat) (body : String) : String :=
  .ofList (List.replicate n '#' ++ quote.char :: (body.toList
    ++ quote.char :: List.replicate n '#'))

namespace RawString

variable {text : String}

lemma toList_fenced : (fenced quote n text).toList = List.replicate n '#' ++ quote.char ::
    (text.toList ++ quote.char :: (List.replicate n '#' ++ [])) := by
  rw [fenced, String.toList_ofList, List.append_nil]

/-- Where the parts of a fenced body stand, if there is nothing else. -/
lemma parts_fenced (hsrc : src.text = fenced quote n text) :
    src.Hashes n 0 ∧ src.byteAt (0 + n) = some quote.byte
      ∧ src.Ahead (0 + n + 1) (text.toList ++ quote.char :: (List.replicate n '#' ++ []))
      ∧ src.size = 0 + n + 1 + (Source.encoded text.toList).length + 1 + n := by
  have hsize : quote.char.utf8Size = 1 := by
    cases quote <;> rfl
  have hlength : (List.replicate n '#').utf8Encode.size = n := by
    rw [Source.size_utf8Encode, Source.encoded_hashes, List.length_replicate]
  have hahead : src.Ahead 0 (List.replicate n '#' ++ quote.char ::
      (text.toList ++ quote.char :: (List.replicate n '#' ++ []))) :=
    toList_fenced ▸ hsrc ▸ Source.ahead_zero
  have hquoted := hahead.drop
  rw [hlength] at hquoted
  have htext := hquoted.tail
  rw [hsize] at htext
  have hbehind := htext.drop
  rw [Source.size_utf8Encode] at hbehind
  have hend := hbehind.tail.size_eq
  rw [List.append_nil, hsize, hlength] at hend
  exact ⟨Source.hashes_of_ahead hahead, hquoted.byteAt_quote, htext, hend⟩

/-- A fenced body is one raw string with this body, and nothing else. -/
lemma scan_fenced (hn : 0 < n) (hbody : ¬(quote.char :: List.replicate n '#') <:+: text.toList)
    (hsrc : src.text = fenced quote n text) {m : Lexer}
    (hm : m = (Lexer.inFront src).scan src) :
    (Lexer.inFront src).Shows m ⟨.rawStringLiteral, text⟩ ∧ m.start = 0 ∧ m.pos = src.size
      ∧ m.modes = [.code 0] ∧ hashes src 0 = n := by
  obtain ⟨hhashes, hquote, htext, hsizes⟩ := parts_fenced hsrc
  have hgap : Gap.read src 0 = { stop := 0 } :=
    gapRead_of_byte (hhashes 0 hn) rfl rfl (by decide)
  have hpos : (Lexer.inFront src).pos = 0 := Nat.zero_min _
  have htakes : (Lexer.inFront src).TakesRawString src quote n 0 m :=
    hm ▸ Lexer.takesRawString_scan rfl hn (by rw [hpos, hgap]) hhashes hquote
  obtain ⟨hstop, hslice, -, hlog⟩ := htakes.closed _ (Source.closesFirst_of_ahead htext hbody)
  have hvalue : m.value = text := by
    have hbody := htext.slice
    rw [Source.slice, Source.size_utf8Encode, hslice, Option.getD_some, String.ofList_toList]
      at hbody
    exact hbody
  have hbreak : m.flags.lineBreak = false := by
    rw [htakes.lineBreak, hpos, hgap]
  have hstop' : m.pos = src.size := by
    rw [hstop, hsizes]
  have hwidth : m.start < m.pos := by
    rw [htakes.starts, hstop', hsizes]
    omega
  have hcount : hashes src 0 = n :=
    hashes_eq hhashes fun e => absurd (hquote.symm.trans e) (by cases quote <;> decide)
  have hknown : Kind.rawStringLiteral ≠ .unknown := by
    rintro ⟨⟩
  refine ⟨⟨htakes.kind, hvalue, hlog, hbreak, ?_, hwidth, hknown⟩, htakes.starts, hstop',
    htakes.modes, hcount⟩
  rw [hpos]
  exact Nat.zero_le _

lemma ofToken_token {m : Lexer} (hkind : m.kind = .rawStringLiteral) :
    Literal.ofToken src m.token = .rawString m.value (hashes src m.start) := by
  have hkind' : m.token.kind = .rawStringLiteral := hkind
  unfold Literal.ofToken
  rw [hkind']
  rfl

end RawString

/-- Raw strings end where they must. What starts with hash signs and a quote in code is taken up to
the first quote with as many signs behind it, or to the end of the text with one report. So a body
without such a quote is found again between its fences, wherever the nesting allows for any
expression at all. -/
theorem rawString_delimited (hn : 0 < n) :
    (∀ (src : Source) (l : Lexer) (braces start : Nat), Mode.top l.modes = .code braces →
      (Gap.read src l.pos).stop = start → src.Hashes n start →
      src.byteAt (start + n) = some quote.byte →
      l.TakesRawString src quote n start (l.scan src))
    ∧ ∀ (body : String) (settings : Settings),
      ¬(quote.char :: List.replicate n '#') <:+: body.toList → 0 < settings.maxDepth →
      ∃ p, parseExpression (RawString.fenced quote n body).toUTF8 0 settings = some p
        ∧ p.diagnostics = #[] ∧ p.next = (RawString.fenced quote n body).toUTF8.size
        ∧ ∃ span, p.nodes.exprs.get? p.expr = some ⟨.literal (.rawString body n), span⟩ := by
  refine ⟨fun src l braces start hmode hstart hhashes hquote =>
    Lexer.takesRawString_scan hmode hn hstart hhashes hquote, fun body settings hbody hdepth => ?_⟩
  obtain ⟨hshows, hstart, hstop, hmodes, hcount⟩ := RawString.scan_fenced hn hbody
    (rfl : (Source.ofString (RawString.fenced quote n body)).text = _) rfl
  refine parseExpression_crosses (fun id nodes => ∃ span,
    nodes.exprs.get? id = some ⟨.literal (.rawString body n), span⟩)
    (.cons hshows (.nil hmodes hshows.log hstop)) (.inl ?_) hdepth rfl fun s hs _ hlexer _ => ?_
  · exact List.forall_mem_singleton.2 fun e => nomatch e
  · have hliteral : Literal.ofToken (.ofString (RawString.fenced quote n body)) s.lexer.token
        = .rawString body n := by
      rw [hlexer, RawString.ofToken_token hshows.kind, hshows.value, hstart, hcount]
    exact hliteral ▸ Rule.crosses_chainRawString hs rfl List.mem_cons_self

/-- A raw string whose only other quote has too few signs behind it, and one with such a quote in
its body. -/
theorem rawString_delimited_of_shortFence :
    0 < 2 ∧ (Gap.read (.ofString "##\"a\"#b") 0).stop = 0
      ∧ (Source.ofString "##\"a\"#b").Hashes 2 0
      ∧ (Source.ofString "##\"a\"#b").byteAt (0 + 2) = some Quote.double.byte
      ∧ (Lexer.ofSource (.ofString "##\"a\"#b")).TakesRawString (.ofString "##\"a\"#b") .double 2 0
        ((Lexer.ofSource (.ofString "##\"a\"#b")).scan (.ofString "##\"a\"#b"))
      ∧ ¬(Quote.double.char :: List.replicate 2 '#') <:+: "a\"#b".toList
      ∧ ∃ p, parseExpression (RawString.fenced .double 2 "a\"#b").toUTF8 0 { maxDepth := 1 } = some p
        ∧ p.diagnostics = #[] ∧ p.next = (RawString.fenced .double 2 "a\"#b").toUTF8.size
        ∧ ∃ span, p.nodes.exprs.get? p.expr
          = some ⟨.literal (.rawString "a\"#b" 2), span⟩ := by
  have hgap : (Gap.read (.ofString "##\"a\"#b") 0).stop = 0 := by decide +kernel
  have hhashes : (Source.ofString "##\"a\"#b").Hashes 2 0 := by
    unfold Source.Hashes
    decide +kernel
  have hquote : (Source.ofString "##\"a\"#b").byteAt (0 + 2) = some Quote.double.byte := by
    decide +kernel
  have hbody : ¬(Quote.double.char :: List.replicate 2 '#') <:+: "a\"#b".toList := by
    decide +kernel
  obtain ⟨scan, parse⟩ := @rawString_delimited .double 2 (by decide)
  exact ⟨by decide, hgap, hhashes, hquote, scan _ _ 0 0 rfl hgap hhashes hquote, hbody,
    parse "a\"#b" { maxDepth := 1 } hbody (by decide)⟩

end CangjieSyntax
