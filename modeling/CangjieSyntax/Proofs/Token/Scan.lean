import CangjieSyntax.Proofs.Token.Gap

/-!
# Scanning a text

One step of the lexer leads from a place between characters to another one and leaves the modes
stacked as they were meant to be. Each token takes up text, or it ends a string and takes one mode
off the stack; a scan therefore comes to the end of the text. The tokens that it yields lie one
behind the other, and nothing but gaps lies between them.

Reading may also begin inside a character, in code. It then passes over the rest of the character
byte by byte.
-/

namespace CangjieSyntax

variable {src : Source} {modes : List Mode} {pos : Nat} {first : UInt8} {l m last : Lexer}
  {states : List Lexer}

namespace Lexer

/-- A state that reading goes on from: the modes are stacked as they should be, and the place lies
between characters, or inside one in code. -/
structure Sound (src : Source) (l : Lexer) : Prop where
  stacked : Mode.Stacked l.modes
  placed : src.isBoundary l.pos ∨ l.pos < src.size ∧ (Mode.top l.modes).isCode

/-- A bound on the number of tokens ahead. -/
def ahead (src : Source) (l : Lexer) : Nat :=
  2 * (src.size - l.pos) + l.modes.length

/-- At the end of the text, with all strings and holes ended. -/
structure Ended (src : Source) (l : Lexer) : Prop where
  kind : l.kind = .endOfFile
  pos : l.pos = src.size
  modes : ∃ braces, l.modes = [.code braces]

/-- What one step does, wherever it begins. -/
structure Advances (src : Source) (l m : Lexer) : Prop where
  sound : m.Sound src
  le_start : l.pos ≤ m.start
  start_le : m.start ≤ m.pos
  le_size : m.pos ≤ src.size
  ended : m.kind = .endOfFile → m.Ended src ∧ m.start = src.size
  ahead_lt : m.kind ≠ .endOfFile → m.ahead src < l.ahead src

/-- How a token lies behind the one before it. The gap between the two has pieces in code only, and
the flags of the token say what the pieces are. -/
structure Follows (src : Source) (l m : Lexer) : Prop where
  le_start : l.pos ≤ m.start
  start_le : m.start ≤ m.pos
  span : m.token.span.start = m.start ∧ m.token.span.stop = m.pos
  start_boundary : src.isBoundary m.start
  boundary : src.isBoundary m.pos
  gap : ∃ pieces, Gap.Spans src l.pos m.start pieces
    ∧ ((Mode.top l.modes).isCode = false → pieces = [])
    ∧ (m.flags.lineBreak ↔ src.HasLineFeed l.pos m.start ∨ .carriageReturn ∈ pieces)
    ∧ (m.flags.trivia ↔ ∃ piece ∈ pieces, piece.isTrivia)

/-- The states behind the tokens from a state on up to the end of the text, and the last of them. -/
inductive Scans (src : Source) : Lexer → List Lexer → Lexer → Prop
  | last {l : Lexer} (h : (l.scan src).kind = .endOfFile) :
    Scans src l [l.scan src] (l.scan src)
  | next {l last : Lexer} {states : List Lexer} (h : (l.scan src).kind ≠ .endOfFile)
    (rest : Scans src (l.scan src) states last) : Scans src l (l.scan src :: states) last

end Lexer

/-! ## One token -/

namespace Lexeme

/-- The end of the text, where only the outermost mode is left. -/
lemma endOfFile_change (src : Source) (pos : Nat) (h : Mode.Stacked modes) :
    (endOfFile src modes pos).change.Fits modes
      ∧ ∃ braces, (endOfFile src modes pos).change.apply modes = [.code braces] := by
  unfold endOfFile
  split
  case isTrue => exact ⟨trivial, h.outermost_eq⟩
  case isFalse hlen =>
    refine ⟨trivial, ?_⟩
    obtain ⟨braces, hbottom⟩ := h.bottom
    obtain ⟨outer, rfl⟩ := List.getLast?_eq_some_iff.1 hbottom
    simp only [List.length_append, List.length_singleton, Nat.lt_add_left_iff_pos,
      Nat.not_lt, Nat.le_zero, List.length_eq_zero_iff] at hlen
    exact ⟨braces, by rw [hlen]; rfl⟩

lemma endOfFile_kind : (endOfFile src modes pos).kind = .endOfFile := by
  unfold endOfFile
  split <;> rfl

lemma endOfFile_stop : (endOfFile src modes pos).stop = pos := by
  unfold endOfFile
  split <;> rfl

lemma endOfFile_flags : (endOfFile src modes pos).flags = {} := by
  unfold endOfFile
  split <;> rfl

end Lexeme

/-! ## Inside a character -/

lemma Source.not_ascii_of_not_isBoundary {b : UInt8} (hb : src.byteAt pos = some b)
    (h : ¬src.isBoundary pos) : ∀ d < 0x80, b ≠ d := by
  rintro d hd rfl
  exact h (isBoundary_of_ascii hb hd)

lemma Gap.read_of_not_ascii {b : UInt8} (hb : src.byteAt pos = some b)
    (h : ∀ d < 0x80, b ≠ d) : read src pos = { stop := pos } := by
  rw [read]
  split
  case h_1 => rfl
  case h_2 b' hb' =>
    obtain rfl : b = b' := Option.some.inj (hb.symm.trans hb')
    simp [Byte.isLineBreak, Byte.isBlank, h]

/-- Where no character starts, one byte is passed over. -/
lemma Lexeme.readCode_inside (hfirst : src.byteAt pos = some first) (h : ¬src.isBoundary pos) :
    readCode src modes pos first = { kind := .unknown, stop := pos + 1 } := by
  have hb := Source.not_ascii_of_not_isBoundary hfirst h
  have hdigit : Byte.isDigit first = false :=
    Bool.eq_false_iff.2 fun hd => hb first (Byte.ascii_isDigit first hd) rfl
  have hchar : src.charAt pos = none := by
    rw [Source.isBoundary, Bool.or_eq_true, not_or] at h
    simpa using h.2
  have hmunch : Punctuation.munch? src pos = none := by
    refine Option.map_eq_none_iff.2 (List.find?_eq_none.2 fun entry hentry hstarts => ?_)
    obtain ⟨hne, hascii⟩ := Punctuation.munchTable_ascii entry hentry
    obtain ⟨b, word, hword⟩ := List.exists_cons_of_ne_nil hne
    rw [hword, Source.startsWith, Bool.and_eq_true, beq_iff_eq, hfirst, Option.some.injEq]
      at hstarts
    exact hb b (hascii b (hword ▸ List.mem_cons_self)) hstarts.1
  have hword : (if Word.startsAt src pos then Word.read src pos else readMark src pos)
      = { kind := .unknown, stop := pos + 1 } := by
    simp [Word.startsAt, readMark, hmunch, hchar]
  unfold readCode
  simp only [hword]
  cases (src.byteAt (pos + 1)).bind Quote.ofByte? with
  | none => simp [hb, hdigit, Numeral.startsWithPoint, Quote.ofByte?, hfirst]
  | some quote => simp [hb, hdigit, Numeral.startsWithPoint, Quote.ofByte?, hfirst]

/-- Behind a byte-order mark another character may start. -/
lemma Source.isBoundary_behind_byteOrderMark (h : src.startsWith 0 byteOrderMark) :
    src.isBoundary byteOrderMark.length := by
  simp only [byteOrderMark, startsWith, Bool.and_eq_true, beq_iff_eq, Nat.zero_add, and_true] at h
  obtain ⟨h0, h1, h2⟩ := h
  have hlt : 2 < src.bytes.size := lt_size_of_byteAt h2
  simp only [byteAt] at h0 h1 h2
  rw [getElem?_pos src.bytes _ (by omega), Option.some.injEq] at h0 h1 h2
  have hfirst : ByteArray.utf8DecodeChar?.parseFirstByte src.bytes[0] = .twoMore := by
    rw [h0]
    rfl
  have hc : src.charAt 0 = some (Char.ofNat 0xFEFF) := by
    unfold charAt ByteArray.utf8DecodeChar?
    rw [dif_pos (by omega)]
    split
    case h_4 =>
      rw [dif_pos hlt, h0]
      simp only [Nat.zero_add, h1, h2]
      rfl
    case h_1 e | h_2 e | h_3 e | h_5 e => exact absurd (hfirst.symm.trans e) (by simp)
  exact isBoundary_behind hc

namespace Lexer

lemma scan_of_text {quote : Quote} {multiLine : Bool}
    (h : Mode.top l.modes = .text quote multiLine) :
    l.scan src = l.accept l.pos (StringText.read src quote multiLine l.pos) := by
  unfold scan Lexeme.read
  rw [h]

/-- A token of code, with the gap in front of it. -/
lemma scan_of_code (src : Source) (h : (Mode.top l.modes).isCode) :
    ∃ lexeme : Lexeme,
      l.scan src = l.accept (Gap.read src l.pos).stop { lexeme with
        flags := (Gap.read src l.pos).flags.union lexeme.flags
        errors := (Gap.read src l.pos).errors ++ lexeme.errors }
      ∧ (src.byteAt (Gap.read src l.pos).stop = none
          ∧ lexeme = Lexeme.endOfFile src l.modes (Gap.read src l.pos).stop
        ∨ ∃ first, src.byteAt (Gap.read src l.pos).stop = some first
          ∧ lexeme = Lexeme.readCode src l.modes (Gap.read src l.pos).stop first) := by
  unfold scan Lexeme.read
  cases hmode : Mode.top l.modes with
  | text => exact nomatch hmode ▸ h
  | code =>
    dsimp only
    cases hfirst : src.byteAt (Gap.read src l.pos).stop with
    | none => exact ⟨_, rfl, .inl ⟨rfl, rfl⟩⟩
    | some first => exact ⟨_, rfl, .inr ⟨first, rfl, rfl⟩⟩

lemma span_token (h : l.start ≤ l.pos) :
    l.token.span.start = l.start ∧ l.token.span.stop = l.pos :=
  ⟨rfl, Span.stop_ofBounds h⟩

lemma advances_of_stands {lexeme : Lexeme} (h : l.Sound src) (hle : l.pos ≤ m.start)
    (hstands : lexeme.Stands src l.modes m.start) (hkind : m.kind = lexeme.kind)
    (hpos : m.pos = lexeme.stop) (hmodes : m.modes = lexeme.change.apply l.modes) :
    Advances src l m := by
  have hsize := Source.le_size_of_isBoundary hstands.boundary
  have hstart : m.start ≤ lexeme.stop := by
    obtain hlt | ⟨heq, -⟩ := hstands.moves <;> omega
  refine ⟨⟨?_, ?_⟩, hle, hpos ▸ hstart, hpos ▸ hsize, ?_, fun _ => ?_⟩
  · rw [hmodes]
    exact h.stacked.apply hstands.change
  · rw [hpos]
    exact .inl hstands.boundary
  · rw [hkind]
    exact fun e => absurd e hstands.kind
  · unfold ahead
    rw [hpos, hmodes]
    obtain hlt | ⟨heq, hleave, -⟩ := hstands.moves
    · have := lexeme.change.length_apply_le l.modes
      omega
    · have hfits := hstands.change
      rw [hleave] at hfits ⊢
      change 1 < l.modes.length at hfits
      change 2 * _ + l.modes.tail.length < _
      rw [List.length_tail]
      omega

/-- Between characters a step leads behind the next token. -/
theorem advances_of_isBoundary (h : l.Sound src) (hpos : src.isBoundary l.pos) :
    Advances src l (l.scan src) ∧ Follows src l (l.scan src) := by
  cases hmode : Mode.top l.modes with
  | text quote multiLine =>
    have htext : (Mode.top l.modes).isCode = false := by rw [hmode]; rfl
    have hstands := StringText.stands_read quote multiLine hpos htext
      (h.stacked.one_lt_length htext)
    rw [scan_of_text hmode]
    have hadvances : Advances src l (l.accept l.pos (StringText.read src quote multiLine l.pos)) :=
      advances_of_stands h (Nat.le_refl _) hstands rfl rfl rfl
    refine ⟨hadvances, Nat.le_refl _, hadvances.start_le, span_token hadvances.start_le, hpos,
      hstands.boundary, [], .nil _, fun _ => rfl, ?_, ?_⟩
    · exact iff_of_false (by simp [accept, hstands.bare]) (by simp [accept, src.not_hasLineFeed_self])
    · exact iff_of_false (by simp [accept, hstands.bare]) (by simp)
  | code braces =>
    have hcode : (Mode.top l.modes).isCode := by rw [hmode]; rfl
    obtain ⟨hstart, hle⟩ := Gap.stop_read hpos
    obtain ⟨pieces, hspans, hfeed, htrivia⟩ := Gap.spans_read hpos
    obtain ⟨lexeme, e, hread⟩ := scan_of_code src hcode
    have hgap (hflags : lexeme.flags.lineBreak = false ∧ lexeme.flags.trivia = false) :
        ∃ pieces, Gap.Spans src l.pos (l.scan src).start pieces
          ∧ ((Mode.top l.modes).isCode = false → pieces = [])
          ∧ ((l.scan src).flags.lineBreak ↔
            src.HasLineFeed l.pos (l.scan src).start ∨ .carriageReturn ∈ pieces)
          ∧ ((l.scan src).flags.trivia ↔ ∃ piece ∈ pieces, piece.isTrivia) := by
      rw [e]
      refine ⟨pieces, hspans, fun htext => absurd htext (by simp [hcode]), ?_, ?_⟩
      · simpa [accept, Gap.flags, TokenFlags.union, hflags] using hfeed
      · simpa [accept, Gap.flags, TokenFlags.union, hflags] using htrivia
    obtain ⟨hnone, rfl⟩ | ⟨first, hfirst, rfl⟩ := hread
    · have hsize := Nat.le_antisymm (Source.le_size_of_isBoundary hstart)
        (Source.byteAt_eq_none hnone)
      obtain ⟨hfits, braces', hmodes⟩ := Lexeme.endOfFile_change src (Gap.read src l.pos).stop
        h.stacked
      have hgap := hgap (by rw [Lexeme.endOfFile_flags]; exact ⟨rfl, rfl⟩)
      rw [e] at hgap ⊢
      have hstop : (Lexeme.endOfFile src l.modes (Gap.read src l.pos).stop).stop = src.size :=
        Lexeme.endOfFile_stop.trans hsize
      have hend : src.isBoundary
          (Lexeme.endOfFile src l.modes (Gap.read src l.pos).stop).stop :=
        hstop ▸ Source.isBoundary_size
      have hempty := Nat.le_of_eq (hsize.trans hstop.symm)
      refine ⟨⟨⟨h.stacked.apply hfits, .inl hend⟩, hle, hempty, Nat.le_of_eq hstop, fun _ => ?_, ?_⟩,
        hle, hempty, span_token hempty, hstart, hend, hgap⟩
      · exact ⟨⟨Lexeme.endOfFile_kind, hstop, braces', hmodes⟩, hsize⟩
      · exact fun hkind => absurd Lexeme.endOfFile_kind hkind
    · have hstands := Lexeme.stands_readCode hstart hfirst hcode
      have hgap := hgap hstands.bare
      have hadvances : Advances src l (l.scan src) := by
        rw [e]
        exact advances_of_stands h hle hstands rfl rfl rfl
      rw [e] at hadvances hgap ⊢
      exact ⟨hadvances, hle, hadvances.start_le, span_token hadvances.start_le, hstart,
        hstands.boundary, hgap⟩

/-- Inside a character a step passes over one byte. -/
lemma scan_inside (hpos : ¬src.isBoundary l.pos) (hlt : l.pos < src.size)
    (hcode : (Mode.top l.modes).isCode) :
    l.scan src = l.accept l.pos { kind := .unknown, stop := l.pos + 1 } := by
  obtain ⟨first, hfirst⟩ := Source.byteAt_of_lt hlt
  have hgap := Gap.read_of_not_ascii hfirst (Source.not_ascii_of_not_isBoundary hfirst hpos)
  obtain ⟨lexeme, e, ⟨hnone, -⟩ | ⟨first', hfirst', rfl⟩⟩ := scan_of_code src hcode
  · simp [hgap, hfirst] at hnone
  · rw [hgap] at hfirst' e
    rw [e, Lexeme.readCode_inside hfirst' hpos]
    rfl

lemma advances_inside (h : l.Sound src) (hpos : ¬src.isBoundary l.pos) (hlt : l.pos < src.size)
    (hcode : (Mode.top l.modes).isCode) : Advances src l (l.scan src) := by
  rw [scan_inside hpos hlt hcode]
  refine ⟨⟨h.stacked, ?_⟩, Nat.le_refl _, Nat.le_succ _, hlt, nofun, fun _ => ?_⟩
  · obtain heq | hlt : l.pos + 1 = src.size ∨ l.pos + 1 < src.size := Nat.eq_or_lt_of_le hlt
    · left
      change src.isBoundary (l.pos + 1)
      rw [heq]
      exact Source.isBoundary_size
    · exact .inr ⟨hlt, hcode⟩
  · change 2 * (src.size - (l.pos + 1)) + l.modes.length < 2 * (src.size - l.pos) + l.modes.length
    omega

/-- Every step leads on through the text, or it comes to its end. -/
theorem Sound.advances (h : l.Sound src) : Advances src l (l.scan src) := by
  by_cases hpos : src.isBoundary l.pos
  · exact (advances_of_isBoundary h hpos).1
  · obtain ⟨hlt, hcode⟩ := h.placed.resolve_left hpos
    exact advances_inside h hpos hlt hcode

/-! ## A whole scan -/

lemma isBoundary_ofSource (src : Source) : src.isBoundary (ofSource src).pos := by
  unfold ofSource
  dsimp only
  split
  case isTrue hmark => exact Source.isBoundary_behind_byteOrderMark hmark
  case isFalse => exact Source.isBoundary_zero

lemma sound_ofSource (src : Source) : (ofSource src).Sound src :=
  ⟨.outermost 0, .inl (isBoundary_ofSource src)⟩

lemma Sound.seek (pos : Nat) (l : Lexer) : (l.seek src pos).Sound src := by
  refine ⟨.outermost 0, ?_⟩
  obtain hlt | hle := Nat.lt_or_ge pos src.size
  · right
    change min pos src.size < src.size ∧ _
    rw [Nat.min_eq_left (Nat.le_of_lt hlt)]
    exact ⟨hlt, rfl⟩
  · left
    change src.isBoundary (min pos src.size)
    rw [Nat.min_eq_right hle]
    exact Source.isBoundary_size

/-- In code at the end of the text there are no more tokens and no more errors. -/
lemma scan_of_end {braces : Nat} (hpos : l.pos = src.size) (hmodes : l.modes = [.code braces]) :
    (l.scan src).Ended src ∧ (l.scan src).log = l.log := by
  have hgap : Gap.read src src.size = { stop := src.size } := by
    rw [Gap.read]
    split
    case h_1 => rfl
    case h_2 b hb => simp [src.byteAt_size] at hb
  have hread : Lexeme.read src l.modes l.pos
      = (src.size, { kind := .endOfFile, stop := src.size }) := by
    rw [hmodes, hpos]
    simp [Lexeme.read, Mode.top, hgap, src.byteAt_size, Lexeme.endOfFile, Gap.flags,
      TokenFlags.union]
  unfold Lexer.scan
  rw [hread]
  exact ⟨⟨rfl, rfl, braces, hmodes⟩, Array.append_empty⟩

lemma Ended.scan (h : l.Ended src) : (l.scan src).Ended src ∧ (l.scan src).log = l.log := by
  obtain ⟨braces, hmodes⟩ := h.modes
  exact scan_of_end h.pos hmodes

/-- A scan comes to the end of the text. -/
theorem Sound.scans (h : l.Sound src) :
    ∃ states last, Scans src l states last ∧ states.length ≤ l.ahead src + 1 := by
  induction hn : l.ahead src using Nat.strongRecOn generalizing l with
  | ind n ih =>
    have hstep := h.advances
    by_cases hkind : (l.scan src).kind = .endOfFile
    · exact ⟨_, _, .last hkind, by simp⟩
    · have hlt := hstep.ahead_lt hkind
      obtain ⟨states, last, hrest, hlen⟩ := ih _ (hn ▸ hlt) hstep.sound rfl
      exact ⟨_, _, .next hkind hrest, by simp only [List.length_cons]; omega⟩

lemma Scans.ended (h : l.Sound src) (hscan : Scans src l states last) : last.Ended src := by
  induction hscan with
  | last hkind => exact (h.advances.ended hkind).1
  | next _ _ ih => exact ih h.advances.sound

lemma Scans.getLast? (h : Scans src l states last) : states.getLast? = some last := by
  induction h with
  | last => rfl
  | next _ _ ih => rw [List.getLast?_cons, ih, Option.getD_some]

/-- Only the last token is the end of the text. -/
lemma Scans.kind_ne (h : Scans src l states last) :
    ∀ m ∈ states.dropLast, m.kind ≠ .endOfFile := by
  induction h with
  | last => simp
  | next hkind hrest ih =>
    cases hrest with
    | last => simpa using hkind
    | next => simpa using ⟨hkind, ih⟩

/-- From a place between characters on, the tokens lie one behind the other. -/
lemma Scans.isChain_follows (h : l.Sound src) (hpos : src.isBoundary l.pos)
    (hscan : Scans src l states last) :
    (l :: states).IsChain fun l m => m = l.scan src ∧ Follows src l m := by
  induction hscan with
  | last =>
    obtain ⟨-, hfollows⟩ := advances_of_isBoundary h hpos
    exact .cons_cons ⟨rfl, hfollows⟩ (.singleton _)
  | next _ _ ih =>
    obtain ⟨hadvances, hfollows⟩ := advances_of_isBoundary h hpos
    exact .cons_cons ⟨rfl, hfollows⟩ (ih hadvances.sound hfollows.boundary)

lemma Scans.scanAll_go {rounds : Nat} (h : Scans src l states last)
    (hrounds : states.length ≤ rounds) :
    scanAll.go src rounds l = (states.map fun m => (m.token, m.depth), last) := by
  induction h generalizing rounds with
  | last hkind =>
    obtain ⟨rounds, rfl⟩ := Nat.exists_eq_add_of_le' hrounds
    simp [scanAll.go, hkind]
  | next hkind hrest ih =>
    obtain ⟨rounds, rfl⟩ : ∃ n, rounds = n + 1 :=
      Nat.exists_eq_add_one.2 (Nat.lt_of_lt_of_le (Nat.succ_pos _) hrounds)
    simp only [scanAll.go, hkind, if_false]
    rw [ih (Nat.le_of_succ_le_succ hrounds)]
    rfl

/-- The bound on the number of tokens is never what ends a scan. -/
theorem Sound.scanAll_eq (h : l.Sound src) :
    ∃ states last, Scans src l states last
      ∧ l.scanAll src = (states.map fun m => (m.token, m.depth), last) := by
  obtain ⟨states, last, hscan, hlen⟩ := h.scans
  refine ⟨states, last, hscan, hscan.scanAll_go (Nat.le_trans hlen ?_)⟩
  unfold ahead depth
  omega

/-- Scanning loses no text. The tokens of a text lie between characters, one behind the other, with
nothing but gaps between them and none inside the text of a string, and the flags of each token say
what is in the gap in front of it. The scan starts behind an optional byte-order mark and ends at
the end of the text, which is the only token of its kind. -/
theorem scanAll_covers (src : Source) :
    ∃ states last, (ofSource src).scanAll src = (states.map fun m => (m.token, m.depth), last)
      ∧ (ofSource src).pos
        = (if src.startsWith 0 Source.byteOrderMark then Source.byteOrderMark.length else 0)
      ∧ (ofSource src :: states).IsChain (fun l m => m = l.scan src ∧ Follows src l m)
      ∧ (∀ m ∈ states.dropLast, m.kind ≠ .endOfFile)
      ∧ states.getLast? = some last ∧ last.kind = .endOfFile ∧ last.pos = src.size := by
  have hsound := sound_ofSource src
  obtain ⟨states, last, hscan, e⟩ := hsound.scanAll_eq
  have hended := hscan.ended hsound
  exact ⟨states, last, e, rfl, hscan.isChain_follows hsound (isBoundary_ofSource src),
    hscan.kind_ne, hscan.getLast?, hended.kind, hended.pos⟩

end Lexer

end CangjieSyntax
