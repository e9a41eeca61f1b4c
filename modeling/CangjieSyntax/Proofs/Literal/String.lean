import CangjieSyntax.Proofs.Chain.Basic
import CangjieSyntax.Proofs.Literal.Text

/-!
# Strings read back

A string is a text, and then holes with a text behind each of them. It is found again with its texts
and holes in order; of an empty text nothing is left.
-/

namespace CangjieSyntax

/-- A text, and how it is written in a string. -/
structure WrittenText (quote : Quote) where
  text : String
  chars : List Char
  writes : quote.Writes text.toList chars

namespace WrittenText

/-- A text with backslashes where it needs them. -/
def escaped (quote : Quote) (text : String) : WrittenText quote :=
  ⟨text, _, quote.writes_escape text.toList⟩

/-- A text by its code points. -/
def byCodePoints (quote : Quote) (text : String) : WrittenText quote :=
  ⟨text, _, quote.writes_codePoints text.toList⟩

end WrittenText

/-- What stands between the quotes of a string: a text, and holes with a text behind each. -/
structure StringBody (quote : Quote) where
  first : WrittenText quote
  rest : List (Ident × WrittenText quote)

/-- A piece of what a string means. -/
inductive StringPiece where
  | text (s : String)
  | hole (x : Ident)

/-! ## Texts and meanings -/

/-- The quotes around a string. -/
def Quote.fenceChars (quote : Quote) (multiLine : Bool) : List Char :=
  if multiLine then [quote.char, quote.char, quote.char] else [quote.char]

/-- What the rules see of the quotes in front of a string. -/
def Shape.stringStart (multiLine : Bool) : Shape :=
  ⟨if multiLine then .multiLineStringStart else .stringStart, ""⟩

namespace StringPiece

/-- The characters of a hole. -/
def holeChars (x : Ident) : List Char :=
  '$' :: '\x7b' :: ((Tile.name x).chars ++ ['\x7d'])

/-- What the rules see of a piece. -/
def shapes : StringPiece → List Shape
  | text s => [⟨.stringContent, s⟩]
  | hole x => [⟨.interpolationStart, ""⟩, x.shape, ⟨.interpolationEnd, ""⟩]

end StringPiece

/-- The piece that a text is, if it is not empty. -/
def WrittenText.pieces {quote : Quote} (t : WrittenText quote) : List StringPiece :=
  if t.text = "" then [] else [.text t.text]

namespace StringBody

variable {quote : Quote}

/-- The characters of holes and the texts behind them. -/
def charsBehind (rest : List (Ident × WrittenText quote)) : List Char :=
  rest.flatMap fun (x, t) => StringPiece.holeChars x ++ t.chars

/-- Holes with the texts behind them, as far as they are not empty. -/
def piecesBehind (rest : List (Ident × WrittenText quote)) : List StringPiece :=
  rest.flatMap fun (x, t) => .hole x :: t.pieces

/-- A string with a body. -/
def literal (body : StringBody quote) (multiLine : Bool) : String :=
  .ofList (quote.fenceChars multiLine
    ++ (body.first.chars ++ (charsBehind body.rest ++ quote.fenceChars multiLine)))

/-- The texts that are not empty, and the holes. -/
def pieces (body : StringBody quote) : List StringPiece :=
  body.first.pieces ++ piecesBehind body.rest

end StringBody

/-- A part of a string is a piece of what the string means. -/
def Nodes.IsPiece (nodes : Nodes) : StringPiece → StringPart → Prop
  | .text s, .text s' => s = s'
  | .hole x, .interpolation block => nodes.IsNameBlock x block.items
  | _, _ => False

lemma Nodes.IsPiece.extend {nodes others : Nodes} {piece : StringPiece} {part : StringPart}
    (hext : nodes.Extends others) (h : nodes.IsPiece piece part) : others.IsPiece piece part := by
  cases piece with
  | text s => cases part <;> exact h
  | hole x =>
    cases part with
    | text s => exact h
    | interpolation block => exact Nodes.IsNameBlock.extend hext h

/-! ## Tokens of a string -/

variable {src : Source} {quote : Quote} {multiLine : Bool} {pos : Nat} {modes : List Mode}
  {behind cs : List Char} {x : Ident}

namespace StringText

/-- Behind a text a hole opens or the string closes. -/
def Ends (quote : Quote) (multiLine : Bool) (behind : List Char) : Prop :=
  (∃ rest, behind = '$' :: '\x7b' :: rest) ∨ ∃ rest, behind = quote.fenceChars multiLine ++ rest

lemma opensHole_ahead (h : src.Ahead pos ('$' :: '\x7b' :: cs)) : opensHole src pos := by
  have hdollar : src.byteAt pos = some 0x24 := h.byteAt 0
  have hbrace : src.byteAt (pos + 1) = some 0x7B := h.byteAt 1
  rw [opensHole, hdollar, hbrace]
  rfl

lemma closes_ahead (h : src.Ahead pos (quote.fenceChars multiLine ++ cs)) :
    closes src quote multiLine pos := by
  cases multiLine with
  | false => exact beq_iff_eq.2 h.byteAt_quote
  | true =>
    rw [closes, if_pos rfl, Source.startsWith_eq h.byteAt, Source.encoded_append]
    cases quote <;> rfl

lemma startsWith_quotes (h : src.Ahead pos cs) :
    src.startsWith pos [quote.byte, quote.byte] ↔ [quote.char, quote.char] <+: cs := by
  have hsize : quote.char.utf8Size = 1 := by
    cases quote <;> rfl
  constructor
  · intro hstarts
    rw [Source.startsWith, Source.startsWith, Source.startsWith, Bool.and_true, Bool.and_eq_true,
      beq_iff_eq, beq_iff_eq] at hstarts
    obtain ⟨rest, rfl⟩ := h.eq_cons hstarts.1 quote.utf8EncodeChar_char
    have htail := h.tail
    rw [hsize] at htail
    obtain ⟨rest', rfl⟩ := htail.eq_cons hstarts.2 quote.utf8EncodeChar_char
    exact ⟨rest', rfl⟩
  · rintro ⟨rest, rfl⟩
    rw [Source.startsWith_eq h.byteAt, Source.encoded_append]
    cases quote <;> rfl

lemma Ends.stops (h : Ends quote multiLine behind) (hahead : src.Ahead pos behind) :
    closes src quote multiLine pos ∨ opensHole src pos := by
  obtain ⟨rest, rfl⟩ | ⟨rest, rfl⟩ := h
  · exact .inr (opensHole_ahead hahead)
  · exact .inl (closes_ahead hahead)

/-- A text that is not empty is one token. -/
lemma read_writes {text : List Char} (h : quote.Writes text cs) (hne : text ≠ [])
    (hahead : src.Ahead pos (cs ++ behind)) (hends : Ends quote multiLine behind) :
    read src quote multiLine pos = { kind := .stringContent
                                     stop := pos + (Source.encoded cs).length
                                     value := .ofList text } := by
  have hcontent : readContent src quote multiLine pos
      = { stop := pos + (Source.encoded cs).length, text } := by
    have hbehind := hahead.drop
    rw [Source.size_utf8Encode] at hbehind
    exact readContent_writes h hahead (hends.stops hbehind)
  obtain ⟨d, ds, rfl, hd⟩ := h.head hne
  obtain ⟨hlt, hcloses, hhole, hbreaks⟩ := goes_on hahead hd multiLine
  rw [read, if_neg (Nat.not_le.2 hlt), hcloses, hhole, hbreaks, hcontent]
  rfl

end StringText

namespace Shape.Spelled

/-- A text is one token, or none if it is empty. -/
lemma writtenText (t : WrittenText quote) (hends : StringText.Ends quote multiLine behind) :
    Spelled (.text quote multiLine :: modes) (.text quote multiLine :: modes)
      (t.pieces.flatMap StringPiece.shapes) t.chars behind := by
  obtain ⟨text, chars, writes⟩ := t
  rw [WrittenText.pieces]
  split
  case isTrue e =>
    subst e
    cases writes
    exact .nil
  case isFalse hne =>
    have hne' : text.toList ≠ [] := fun e => hne (String.toList_eq_nil_iff.1 e)
    have hchars : chars ≠ [] := by
      obtain ⟨d, ds, rfl, -⟩ := writes.head hne'
      exact List.cons_ne_nil _ _
    apply of_text .stay hchars (by rintro ⟨⟩)
    intro src pos hahead
    rw [StringText.read_writes writes hne' hahead hends, String.ofList_toList]

lemma hole (x : Ident) :
    Spelled (.text quote multiLine :: modes) (.text quote multiLine :: modes)
      (StringPiece.hole x).shapes (StringPiece.holeChars x) behind := by
  have hgap : ∀ c ∈ [], c ∈ Tile.blanks ∧ c ∉ Tile.lineBreaks := List.forall_mem_nil _
  have opening : Spelled (.text quote multiLine :: modes)
      (.code 0 :: .text quote multiLine :: modes) [⟨.interpolationStart, ""⟩] ['$', '\x7b']
      ((Tile.name x).chars ++ ('\x7d' :: behind)) := by
    apply of_text (.enter (.code 0)) (List.cons_ne_nil _ _) (by rintro ⟨⟩)
    intro src pos hahead
    have hlt := Source.lt_size_of_charAt hahead.charAt
    have hcloses : StringText.closes src quote multiLine pos = false :=
      StringText.closes_of_ne hahead (by cases quote <;> decide)
    rw [StringText.read, if_neg (Nat.not_le.2 hlt), hcloses, if_neg Bool.false_ne_true,
      if_pos (StringText.opensHole_ahead hahead)]
    rfl
  have name : Spelled (.code 0 :: .text quote multiLine :: modes)
      (.code 0 :: .text quote multiLine :: modes) [x.shape] (Tile.name x).chars
      ('\x7d' :: behind) := by
    apply Shape.Spelled.name hgap _ rfl
    · rintro _ ⟨⟩ -
      decide +kernel
    · rintro _ ⟨⟩
      decide
  have closing : Spelled (.code 0 :: .text quote multiLine :: modes)
      (.text quote multiLine :: modes) [⟨.interpolationEnd, ""⟩] ['\x7d'] behind :=
    interpolationEnd hgap
  exact (opening.append name).append closing

/-- The quotes behind a string. -/
lemma stringEnd : Spelled (.text quote multiLine :: modes) modes [⟨.stringEnd, ""⟩]
    (quote.fenceChars multiLine) behind := by
  have hne : quote.fenceChars multiLine ≠ [] := by
    cases multiLine <;> exact List.cons_ne_nil _ _
  apply of_text .leave hne (by rintro ⟨⟩)
  intro src pos hahead
  have hlt : pos < src.size := by
    cases multiLine <;> exact Source.lt_size_of_charAt hahead.charAt
  rw [StringText.read, if_neg (Nat.not_le.2 hlt), if_pos (StringText.closes_ahead hahead)]
  cases multiLine <;> cases quote <;> rfl

/-- The quotes in front of a string. -/
lemma stringStart (hcode : (Mode.top modes).isCode)
    (hline : multiLine = false → ¬[quote.char, quote.char] <+: behind) :
    Spelled modes (.text quote multiLine :: modes) [Shape.stringStart multiLine]
      (quote.fenceChars multiLine) behind := by
  have hne : quote.fenceChars multiLine ≠ [] := by
    cases multiLine <;> exact List.cons_ne_nil _ _
  have hgap : ∀ c ∈ [], c ∈ Tile.blanks ∧ c ∉ Tile.lineBreaks := List.forall_mem_nil _
  apply of_standsAt (.enter (.text quote multiLine)) hcode hne hgap
  · cases multiLine <;> rintro ⟨⟩
  · intro src pos hahead
    have hfirst : src.byteAt pos = some quote.byte := by
      cases multiLine <;> exact Source.Ahead.byteAt_quote hahead
    have hread : Lexeme.readCode src modes pos quote.byte = StringText.readStart src quote pos := by
      have hpoint : Numeral.startsWithPoint src pos = false := by
        rw [Numeral.startsWithPoint, hfirst]
        cases quote <;> rfl
      unfold Lexeme.readCode
      rw [hpoint]
      cases quote <;> rfl
    refine ⟨quote.byte, hfirst, by cases quote <;> rfl, by cases quote <;> rfl,
      by cases quote <;> decide, hread.trans ?_⟩
    have hsize : quote.char.utf8Size = 1 := by
      cases quote <;> rfl
    rw [StringText.readStart]
    cases multiLine with
    | true =>
      have htail := Source.Ahead.tail hahead
      rw [hsize] at htail
      have hquotes : [quote.char, quote.char] <+: quote.char :: quote.char :: behind :=
        ⟨behind, rfl⟩
      rw [if_pos ((StringText.startsWith_quotes htail).2 hquotes)]
      cases quote <;> rfl
    | false =>
      have htail := Source.Ahead.tail hahead
      rw [hsize] at htail
      rw [if_neg (mt (StringText.startsWith_quotes htail).1 (hline rfl))]
      cases quote <;> rfl

end Shape.Spelled

namespace StringBody

variable {rest : List (Ident × WrittenText quote)} {body : StringBody quote}

lemma ends_behind (rest : List (Ident × WrittenText quote)) (multiLine : Bool)
    (behind : List Char) :
    StringText.Ends quote multiLine
      (charsBehind rest ++ (quote.fenceChars multiLine ++ behind)) := by
  cases rest with
  | nil => exact .inr ⟨behind, rfl⟩
  | cons hole rest => exact .inl ⟨_, rfl⟩

lemma spelled_behind (rest : List (Ident × WrittenText quote)) :
    Shape.Spelled (.text quote multiLine :: modes) (.text quote multiLine :: modes)
      ((piecesBehind rest).flatMap StringPiece.shapes) (charsBehind rest)
      (quote.fenceChars multiLine ++ behind) := by
  induction rest with
  | nil => exact .nil
  | cons hole rest ih =>
    obtain ⟨x, t⟩ := hole
    have hole := @Shape.Spelled.hole quote multiLine modes
      (t.chars ++ (charsBehind rest ++ (quote.fenceChars multiLine ++ behind))) x
    have text := @Shape.Spelled.writtenText quote multiLine modes _ t
      (ends_behind rest multiLine behind)
    have whole := (hole.append text).append ih
    simpa [piecesBehind, charsBehind] using whole

/-- Inside a line the quote in front of a body is no longer fence. -/
lemma not_quotes_prefix (body : StringBody quote) :
    ¬[quote.char, quote.char] <+: body.first.chars ++ (charsBehind body.rest ++ [quote.char]) := by
  obtain ⟨⟨text, chars, writes⟩, rest⟩ := body
  intro hprefix
  by_cases hempty : text.toList = []
  · rw [hempty] at writes
    cases writes
    cases rest with
    | nil =>
      have hshort : 2 ≤ 1 := hprefix.length_le
      exact absurd hshort (by decide)
    | cons hole rest =>
      have hdollar := (List.cons_prefix_cons.1 hprefix).1
      exact absurd hdollar (by cases quote <;> decide)
  · obtain ⟨d, ds, rfl, hd⟩ := writes.head hempty
    have hquote : quote.char = d := (List.cons_prefix_cons.1 hprefix).1
    exact hd (hquote ▸ List.mem_cons_self)

/-- A string is read token by token. -/
lemma spelled_literal (body : StringBody quote) (multiLine : Bool) :
    Shape.Spelled [.code 0] [.code 0] (.stringStart multiLine
      :: (body.pieces.flatMap StringPiece.shapes ++ [⟨.stringEnd, ""⟩]))
      (body.literal multiLine).toList [] := by
  have opening : Shape.Spelled [.code 0] [.text quote multiLine, .code 0] [.stringStart multiLine]
      (quote.fenceChars multiLine)
      (body.first.chars ++ (charsBehind body.rest ++ (quote.fenceChars multiLine ++ []))) := by
    apply Shape.Spelled.stringStart rfl
    rintro rfl
    exact body.not_quotes_prefix
  have first := @Shape.Spelled.writtenText quote multiLine [.code 0] _ body.first
    (ends_behind body.rest multiLine [])
  have behind := @spelled_behind quote multiLine [.code 0] [] body.rest
  have closing := @Shape.Spelled.stringEnd quote multiLine [.code 0] []
  have whole := ((opening.append first).append behind).append closing
  rw [literal, String.toList_ofList]
  simpa [pieces] using whole

end StringBody

/-! ## Pieces of a string -/

namespace StringPiece

def isText : StringPiece → Bool
  | text _ => true
  | hole _ => false

/-- No text follows a text. -/
def Apart (pieces : List StringPiece) : Prop :=
  pieces.IsChain fun p q => p.isText → q.isText = false

end StringPiece

/-- The pieces of a string are kept apart: its texts lie between holes. -/
lemma StringBody.apart_pieces (body : StringBody quote) : StringPiece.Apart body.pieces := by
  have append (t : WrittenText quote) (rest : List (Ident × WrittenText quote))
      (h : StringPiece.Apart (piecesBehind rest)) :
      StringPiece.Apart (t.pieces ++ piecesBehind rest) := by
    rw [WrittenText.pieces]
    split
    case isTrue => exact h
    case isFalse =>
      refine List.isChain_cons.2 ⟨fun next hnext _ => ?_, h⟩
      cases rest with
      | nil => exact nomatch hnext
      | cons hole rest =>
        cases hnext
        rfl
  have behind (rest : List (Ident × WrittenText quote)) :
      StringPiece.Apart (piecesBehind rest) := by
    induction rest with
    | nil => exact .nil
    | cons hole rest ih =>
      exact List.isChain_cons.2 ⟨fun _ _ e => absurd e Bool.false_ne_true, append _ _ ih⟩
  exact append body.first body.rest (behind body.rest)

namespace Rule

variable {env : Env} {s : ParseState} {shapes : List Shape} {nesting : Nat}
  {parts : List StringPart}

lemma crosses_hole (h : s.Stands env ((StringPiece.hole x).shapes ++ shapes))
    (hdepth : s.depth + 1 < env.settings.maxDepth) :
    Crosses env ((StringPiece.hole x).shapes ++ shapes) s (hole (callTo nesting)) shapes
      fun block u => u.nodes.IsNameBlock x block.items := by
  have hend : Kind.interpolationEnd ∈ blockEnds := by decide
  refine .view ((crosses_advance h).bind fun _ t ht _ => ?_)
  have hdepth' : t.depth + 1 < env.settings.maxDepth := by rwa [ht.depth]
  refine (crosses_allItemsName ht.stands hdepth' hend).bind fun items u hu hitems => ?_
  refine (crosses_optional hu.stands).bind ?_
  rintro _ v hv rfl
  exact .view (.pure hv.stands (hitems.extend hv.nodes))

/-- A round takes one piece of the string. A text becomes a part of its own where no text is in front
of it. -/
lemma crosses_stringRound (piece : StringPiece) (h : s.Stands env (piece.shapes ++ shapes))
    (hdepth : s.depth + 1 < env.settings.maxDepth)
    (hparts : piece.isText → ∀ s, parts.getLast? ≠ some (.text s)) :
    Crosses env (piece.shapes ++ shapes) s (stringRound (callTo nesting) parts) shapes
      fun next u => ∃ part, next = .inl (parts ++ [part]) ∧ u.nodes.IsPiece piece part := by
  cases piece with
  | text t =>
    have hadd : StringPart.addText parts t = parts ++ [.text t] := by
      rw [StringPart.addText]
      split
      case h_1 before hlast => exact absurd hlast (hparts rfl before)
      case h_2 => rfl
    refine .view ?_
    rw [h.kind_eq]
    refine .view ?_
    rw [ParseState.Stands.value_eq h]
    refine (crosses_advance h).bind fun _ t ht _ => ?_
    exact .pure ht.stands ⟨.text _, congrArg Sum.inl hadd, rfl⟩
  | hole x =>
    refine .view ?_
    rw [h.kind_eq]
    refine (crosses_hole h hdepth).bind fun block t ht hblock => ?_
    exact .pure ht.stands ⟨.interpolation block, rfl, hblock⟩

/-- All rounds take all pieces of the string, up to the quotes behind it. -/
lemma crosses_pieces (pieces : List StringPiece)
    (h : s.Stands env (pieces.flatMap StringPiece.shapes ++ [⟨.stringEnd, ""⟩]))
    (hdepth : s.depth + 1 < env.settings.maxDepth) (hapart : StringPiece.Apart pieces)
    (hparts : ∀ piece ∈ pieces.head?, piece.isText → ∀ s, parts.getLast? ≠ some (.text s))
    (rounds : Nat) :
    Crosses env (pieces.flatMap StringPiece.shapes ++ [⟨.stringEnd, ""⟩]) s
      (loopUpTo (stringRound (callTo nesting)) rounds parts) [] fun found u =>
      ∃ more, found = parts ++ more ∧ List.Forall₂ u.nodes.IsPiece pieces more := by
  induction pieces generalizing s parts rounds with
  | nil =>
    refine .loop_done ?_ rounds
    refine .view ?_
    rw [h.kind_eq]
    refine (crosses_advance h).bind fun _ t ht _ => ?_
    exact .pure ht.stands ⟨parts, rfl, [], (List.append_nil parts).symm, .nil⟩
  | cons piece pieces ih =>
    rw [List.flatMap_cons, List.append_assoc] at h ⊢
    have apart := hparts piece rfl
    refine .loop_next ((crosses_stringRound piece h hdepth apart).mono ?_) rounds
    rintro _ t ht ⟨part, rfl, hpart⟩
    refine ⟨_, rfl, fun rounds => ?_⟩
    have hdepth' : t.depth + 1 < env.settings.maxDepth := by rwa [ht.depth]
    have hparts' : ∀ next ∈ pieces.head?, next.isText → ∀ s,
        (parts ++ [part]).getLast? ≠ some (.text s) := by
      intro next hnext htext s hlast
      rw [List.getLast?_concat] at hlast
      cases hlast
      cases piece with
      | text t =>
        have hhole := (List.isChain_cons.1 hapart).1 next hnext rfl
        exact Bool.false_ne_true (hhole.symm.trans htext)
      | hole x => exact hpart
    refine (ih ht.stands hdepth' hapart.tail hparts' rounds).mono ?_
    rintro _ u hu ⟨more, rfl, hmore⟩
    exact ⟨part :: more, List.append_assoc .., .cons (hpart.extend hu.nodes) hmore⟩

/-- A string by itself is a chain. -/
lemma crosses_chainString (body : StringBody quote)
    (h : s.Stands env (.stringStart multiLine
      :: (body.pieces.flatMap StringPiece.shapes ++ [⟨.stringEnd, ""⟩])))
    (hdepth : s.depth + 1 < env.settings.maxDepth) :
    Crosses env (.stringStart multiLine
      :: (body.pieces.flatMap StringPiece.shapes ++ [⟨.stringEnd, ""⟩])) s
      (chain (callTo nesting)) [] fun id u => ∃ parts span,
      u.nodes.exprs.get? id = some ⟨.literal (.string multiLine parts), span⟩
        ∧ List.Forall₂ u.nodes.IsPiece body.pieces parts := by
  have string : Crosses env (.stringStart multiLine
      :: (body.pieces.flatMap StringPiece.shapes ++ [⟨.stringEnd, ""⟩])) s
      (string (callTo nesting)) [] fun id u => ∃ parts span,
      u.nodes.exprs.get? id = some ⟨.literal (.string multiLine parts), span⟩
        ∧ List.Forall₂ u.nodes.IsPiece body.pieces parts := by
    have hmultiLine : (s.kind == .multiLineStringStart) = multiLine := by
      rw [h.kind_eq]
      cases multiLine <;> rfl
    refine .view (.view ?_)
    rw [hmultiLine]
    refine (crosses_advance h).bind fun _ t ht _ => ?_
    have hdepth' : t.depth + 1 < env.settings.maxDepth := by rwa [ht.depth]
    have noText : ∀ piece ∈ body.pieces.head?, piece.isText →
        ∀ s, ([] : List StringPart).getLast? ≠ some (.text s) := fun _ _ _ _ e => nomatch e
    refine (Crosses.loop fun rounds => crosses_pieces body.pieces ht.stands hdepth'
      body.apart_pieces noText rounds).bind ?_
    rintro _ u hu ⟨parts, rfl, hparts⟩
    refine (crosses_exprFrom hu.stands).mono ?_
    rintro id v hv ⟨span, e⟩
    exact ⟨_, span, e, hparts.imp fun _ _ h => h.extend hv.nodes⟩
  have hstart : s.kind = .stringStart ∨ s.kind = .multiLineStringStart := by
    rw [h.kind_eq]
    cases multiLine with
    | false => exact .inl rfl
    | true => exact .inr rfl
  refine crosses_chain ?_ List.mem_cons_self ?_
  · refine .view ?_
    obtain e | e := hstart <;> rw [e] <;> exact string
  · rintro id t u hext ⟨parts, span, e, hparts⟩
    exact ⟨parts, span, hext.exprs.get?_eq e, hparts.imp fun _ _ h => h.extend hext⟩

end Rule

/-! ## Parses -/

/-- No token of a string is a keyword. -/
lemma StringBody.spare (body : StringBody quote) (multiLine : Bool) :
    Shape.Spare (.stringStart multiLine
      :: (body.pieces.flatMap StringPiece.shapes ++ [⟨.stringEnd, ""⟩])) := by
  have start : (Shape.stringStart multiLine).kind.isKeyword = false := by
    cases multiLine <;> rfl
  have piece (piece : StringPiece) : ∀ p ∈ piece.shapes, p.kind.isKeyword = false := by
    cases piece with
    | text t => exact List.forall_mem_singleton.2 rfl
    | hole x =>
      have name : x.shape.kind.isKeyword = false := by
        obtain e | e := x.kind_shape <;> rw [e] <;> rfl
      exact List.forall_mem_cons.2 ⟨rfl, List.forall_mem_cons.2
        ⟨name, List.forall_mem_singleton.2 rfl⟩⟩
  have all : ∀ p ∈ Shape.stringStart multiLine
      :: (body.pieces.flatMap StringPiece.shapes ++ [⟨.stringEnd, ""⟩]),
      p.kind.isKeyword = false := by
    refine List.forall_mem_cons.2 ⟨start, List.forall_mem_append.2 ⟨fun p hp => ?_,
      List.forall_mem_singleton.2 rfl⟩⟩
    obtain ⟨q, -, hq⟩ := List.mem_flatMap.1 hp
    exact piece q p hq
  refine .inr fun p hp k _ e => ?_
  have := all p hp
  rw [e] at this
  exact nomatch this

/-- A string is found again as it was written, its empty texts left out. -/
theorem parse_string {settings : Settings} (body : StringBody quote) (multiLine : Bool)
    (hdepth : 3 ≤ settings.maxDepth) :
    ∃ p, parseExpression (body.literal multiLine).toUTF8 0 settings = some p
      ∧ p.diagnostics = #[] ∧ p.next = (body.literal multiLine).toUTF8.size
      ∧ ∃ parts span, p.nodes.exprs.get? p.expr = some ⟨.literal (.string multiLine parts), span⟩
        ∧ List.Forall₂ p.nodes.IsPiece body.pieces parts := by
  have offers := @Shape.Spelled.offers (.ofString (body.literal multiLine)) _
    (body.spelled_literal multiLine)
  refine parseExpression_crosses (fun id nodes => ∃ parts span,
    nodes.exprs.get? id = some ⟨.literal (.string multiLine parts), span⟩
      ∧ List.Forall₂ nodes.IsPiece body.pieces parts) offers (body.spare multiLine) (by omega) ?_
    fun s hs hsdepth _ nesting => ?_
  · cases multiLine <;> rfl
  · apply Rule.crosses_chainString body hs
    rw [hsdepth]
    exact hdepth

/-- A string with two holes and an empty text behind the last one. -/
def StringBody.visitor : StringBody .double where
  first := .escaped .double "a\"$'\\\n"
  rest := [(.x, .byCodePoints .double "é\""), (.x, .escaped .double "")]

def StringBody.visitorText : String :=
  "\"\"\"a\\\"\\$'\\\\\\n$\x7bx\x7d\\u\x7b000000e9\x7d\\u\x7b00000022\x7d$\x7bx\x7d\"\"\""

/-- Over several lines, with its quotes and holes. -/
theorem parse_string_of_visitor :
    3 ≤ 3 ∧ StringBody.visitor.literal true = StringBody.visitorText
      ∧ ∃ p, parseExpression (StringBody.visitor.literal true).toUTF8 0 { maxDepth := 3 } = some p
        ∧ p.diagnostics = #[] ∧ p.next = (StringBody.visitor.literal true).toUTF8.size
        ∧ ∃ parts span, p.nodes.exprs.get? p.expr = some ⟨.literal (.string true parts), span⟩
          ∧ List.Forall₂ p.nodes.IsPiece StringBody.visitor.pieces parts := by
  have hdepth : 3 ≤ 3 := Nat.le_refl 3
  have htext : StringBody.visitor.literal true = StringBody.visitorText := by decide +kernel
  exact ⟨hdepth, htext, parse_string StringBody.visitor true hdepth⟩

end CangjieSyntax
