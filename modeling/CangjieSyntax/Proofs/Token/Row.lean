import Mathlib.Data.List.Chain
import CangjieSyntax.Proofs.Token.Spaced
import CangjieSyntax.Proofs.Token.Tile

/-!
# Rows of tiles

In a row blanks may lie in front of every tile but a `<`. The lexer reads a row tile by tile.
`l.Awaits src tiles` says that it has read the first of some tiles and the others lie ahead.
-/

namespace CangjieSyntax

/-- The characters that may lie between two tiles. -/
def Tile.blanks : List Char :=
  [' ', '\t', '\x0c', '\n', '\r']

/-- Some characters are a row of tiles, each of which ends where what is behind it starts. -/
inductive Row : List Tile → List Char → Prop
  | nil {gap : List Char} (hgap : ∀ c ∈ gap, c ∈ Tile.blanks) : Row [] gap
  | cons {gap cs : List Char} {t : Tile} {tiles : List Tile} (hgap : ∀ c ∈ gap, c ∈ Tile.blanks)
    (hless : t = .mark .less → gap = []) (plain : t.Plain) (ends : ∀ c ∈ cs.head?, t.EndsAt c)
    (rest : Row tiles cs) : Row (t :: tiles) (gap ++ (t.chars ++ cs))

variable {src : Source} {pos : Nat} {t : Tile} {tiles : List Tile} {cs gap : List Char}

/-! ## Characters of a row -/

namespace Tile

/-- The characters of a tile are parts of words, backquotes or characters of marks. -/
lemma forall_chars {P : Char → Prop} (plain : t.Plain)
    (part : ∀ c, Unicode.isIdentifierPart c → P c) (quote : P '`')
    (mark : ∀ p ∈ marks, ∀ c ∈ p.text.toList, P c) : ∀ c ∈ t.chars, P c := by
  intro c hc
  cases t with
  | name x =>
    have word : ∀ c ∈ x.text.toList, P c := fun c hc => part c (List.all_eq_true.1 x.parts c hc)
    rw [chars] at hc
    split at hc
    · simp only [List.cons_append, List.mem_cons, List.mem_append, List.not_mem_nil,
        or_false] at hc
      obtain rfl | hc | rfl := hc
      · exact quote
      · exact word c hc
      · exact quote
    · exact word c hc
  | keyword k => exact part c (List.all_eq_true.1 k.spelled.2.1 c hc)
  | mark p => exact mark p plain c hc

lemma isIdentifierPart_blank : ∀ c ∈ blanks, Unicode.isIdentifierPart c = false :=
  List.all_iff_forall_prop.1 (by decide +kernel)

/-- No blank stands in a tile. -/
lemma not_mem_blanks (plain : t.Plain) : ∀ c ∈ t.chars, c ∉ blanks := by
  have mark : ∀ p ∈ marks, p.text.toList.all fun c => c ∉ blanks := by decide
  refine forall_chars plain (fun c hc hblank => ?_) (by decide) fun p hp =>
    List.all_iff_forall_prop.1 (mark p hp)
  exact Bool.false_ne_true ((isIdentifierPart_blank c hblank).symm.trans hc)

end Tile

/-- No quote stands in a tile. -/
lemma Tile.quoteFree (plain : t.Plain) : ∀ c ∈ t.chars, c ≠ '"' ∧ c ≠ '\'' := by
  have part {c : Char} (hc : Unicode.isIdentifierPart c) : c ≠ '"' ∧ c ≠ '\'' :=
    ⟨isIdentifierPart_ne hc (by decide +kernel), isIdentifierPart_ne hc (by decide +kernel)⟩
  have mark : ∀ p ∈ marks, p.text.toList.all fun c => c ≠ '"' ∧ c ≠ '\'' := by decide
  exact forall_chars plain (fun _ => part) (by decide) fun p hp =>
    List.all_iff_forall_prop.1 (mark p hp)

namespace Row

/-- No quote stands in a row. -/
lemma quoteFree (h : Row tiles cs) : ∀ c ∈ cs, c ≠ '"' ∧ c ≠ '\'' := by
  have blank : ∀ c ∈ Tile.blanks, c ≠ '"' ∧ c ≠ '\'' := List.all_iff_forall_prop.1 rfl
  induction h with
  | nil hgap => exact fun c hc => blank c (hgap c hc)
  | cons hgap _ plain _ _ ih =>
    refine List.forall_mem_append.2 ⟨fun c hc => blank c (hgap c hc), ?_⟩
    exact List.forall_mem_append.2 ⟨Tile.quoteFree plain, ih⟩

lemma plain (h : Row (t :: tiles) cs) : t.Plain := by
  cases h with
  | cons _ _ plain => exact plain

/-- Without its blanks, a row is its tiles. -/
lemma filter_eq (h : Row tiles cs) : cs.filter (· ∉ Tile.blanks) = tiles.flatMap Tile.chars := by
  have gone {gap : List Char} (hgap : ∀ c ∈ gap, c ∈ Tile.blanks) :
      gap.filter (· ∉ Tile.blanks) = [] := by
    simpa using hgap
  induction h with
  | nil hgap => exact gone hgap
  | @cons gap cs t tiles hgap _ plain _ _ ih =>
    have kept : t.chars.filter (· ∉ Tile.blanks) = t.chars := by
      simpa using Tile.not_mem_blanks plain
    rw [List.filter_append, List.filter_append, gone hgap, kept, ih, List.flatMap_cons,
      List.nil_append]

lemma noQuote (h : Row tiles cs) (hahead : src.Ahead pos cs) (i : Nat) :
    (src.byteAt (pos + i)).bind Quote.ofByte? = none := by
  rw [Option.bind_eq_none_iff]
  intro b hb
  rw [hahead.byteAt] at hb
  obtain ⟨c, hc, hbc⟩ := List.mem_flatMap.1 (List.mem_of_getElem? hb)
  exact quote_of_mem_utf8EncodeChar (h.quoteFree c hc) hbc

end Row

/-! ## Blanks -/

/-- In front of a tile the gap ends. -/
lemma gapRead_of_byte {b : UInt8} (h : src.byteAt pos = some b)
    (hbreak : Byte.isLineBreak b = false) (hblank : Byte.isBlank b = false) (hslash : b ≠ 0x2F) :
    Gap.read src pos = { stop := pos } := by
  rw [Gap.read]
  split
  case h_1 e => simp [h] at e
  case h_2 b' e =>
    obtain rfl : b = b' := Option.some.inj (h.symm.trans e)
    rw [if_neg (by simp [hbreak]), if_neg (by simp [hblank]), if_neg (by simp [hslash]),
      dif_neg (by simp [hslash])]

/-- The characters that break a line. -/
def Tile.lineBreaks : List Char :=
  ['\n', '\r']

lemma Tile.not_mem_lineBreaks (plain : t.Plain) : ∀ c ∈ t.chars, c ∉ lineBreaks := by
  have blank : ∀ c ∈ lineBreaks, c ∈ blanks := by simp [lineBreaks, blanks]
  exact fun c hc hline => not_mem_blanks plain c hc (blank c hline)

/-- A gap of blanks has no errors, without blanks it is none, and only some of them break a line. -/
lemma gapRead_blanks (hgap : ∀ c ∈ gap, c ∈ Tile.blanks) (h : src.Ahead pos (gap ++ cs))
    (hstop : ∀ p, src.Ahead p cs → Gap.read src p = { stop := p }) :
    src.Ahead (Gap.read src pos).stop cs ∧ (Gap.read src pos).errors = []
      ∧ (gap = [] → (Gap.read src pos).flags = {})
      ∧ ((∀ c ∈ gap, c ∉ Tile.lineBreaks) → (Gap.read src pos).flags.lineBreak = false) := by
  induction gap generalizing pos with
  | nil =>
    rw [hstop pos h]
    exact ⟨h, rfl, fun _ => rfl, fun _ => rfl⟩
  | cons c gap ih =>
    obtain ⟨hc, hrest⟩ := List.forall_mem_cons.1 hgap
    have hbytes : ∀ c ∈ Tile.blanks, c.utf8Size = 1 ∧ ∃ b, (String.utf8EncodeChar c) = [b]
        ∧ (Byte.isLineBreak b || Byte.isBlank b)
        ∧ Byte.isLineBreak b = decide (c ∈ Tile.lineBreaks) := by
      intro c hc
      simp only [Tile.blanks, List.mem_cons, List.not_mem_nil, or_false] at hc
      obtain rfl | rfl | rfl | rfl | rfl := hc <;> exact ⟨rfl, _, rfl, rfl, rfl⟩
    obtain ⟨hsize, b, hencode, hb, hline⟩ := hbytes c hc
    have hat : src.byteAt pos = some b := by
      have := h.byteAt 0
      rwa [List.cons_append, Source.encoded, List.flatMap_cons, hencode] at this
    have htail : src.Ahead (pos + 1) (gap ++ cs) := by
      have : src.Ahead (pos + c.utf8Size) (gap ++ cs) := Source.Ahead.tail h
      rwa [hsize] at this
    obtain ⟨hstop', herrors, -, hbreak⟩ := ih hrest htail
    have hread : c ∈ Tile.lineBreaks
          ∧ Gap.read src pos = { Gap.read src (pos + 1) with lineBreak := true }
        ∨ Gap.read src pos = { Gap.read src (pos + 1) with trivia := true } := by
      conv in Gap.read src pos => rw [Gap.read]
      conv in Gap.read src pos => rw [Gap.read]
      split
      case h_1 e => simp [hat] at e
      case h_2 b' e =>
        obtain rfl : b = b' := Option.some.inj (hat.symm.trans e)
        cases hbyte : Byte.isLineBreak b with
        | true => exact .inl ⟨of_decide_eq_true (hline.symm.trans hbyte), rfl⟩
        | false =>
          rw [hbyte, Bool.false_or] at hb
          rw [if_neg Bool.false_ne_true, if_pos hb]
          exact .inr rfl
    have hflags (h : c :: gap = []) : (Gap.read src pos).flags = {} :=
      absurd h (List.cons_ne_nil c gap)
    obtain ⟨hmem, e⟩ | e := hread
    · rw [e] at hflags ⊢
      exact ⟨hstop', herrors, hflags, fun h => absurd hmem (h c List.mem_cons_self)⟩
    · rw [e] at hflags ⊢
      exact ⟨hstop', herrors, hflags, fun h => hbreak (List.forall_mem_cons.1 h).2⟩

/-! ## Reading a row -/

/-- The next token of a row. -/
lemma Row.read (h : Row (t :: tiles) cs) (hahead : src.Ahead pos cs) :
    ∃ start flags rest, Lexeme.read src [.code 0] pos = (start, { t.lexeme start with flags })
      ∧ (t = .mark .less → flags.separated = false)
      ∧ ((∀ c ∈ cs, c ∉ Tile.lineBreaks) → flags.lineBreak = false) ∧ Row tiles rest
      ∧ src.Ahead (t.lexeme start).stop rest := by
  cases h with
  | @cons gap cs _ _ hgap hless plain ends hrest =>
    have stands {p : Nat} (hp : src.Ahead p (t.chars ++ cs)) :
        Lexeme.StandsAt src [.code 0] p (t.lexeme p) := by
      have hrow : Row (t :: tiles) ([] ++ (t.chars ++ cs)) :=
        .cons (fun _ h => nomatch h) (fun _ => rfl) plain ends hrest
      exact standsAt_tile plain ends (hrow.noQuote hp 1) hp
    obtain ⟨hstart, herrors, hflags, hline⟩ := gapRead_blanks hgap hahead fun p hp => by
      obtain ⟨b, hb, hbreak, hblank, hslash, -⟩ := stands hp
      exact gapRead_of_byte hb hbreak hblank hslash
    obtain ⟨b, hb, -, -, -, hread⟩ := stands hstart
    refine ⟨(Gap.read src pos).stop, (Gap.read src pos).flags, cs, ?_, fun e => ?_,
      fun h => hline (List.forall_mem_append.1 h).1, hrest, ?_⟩
    · have hunion : (Gap.read src pos).flags.union {} = (Gap.read src pos).flags := by
        simp [TokenFlags.union]
      simp only [Lexeme.read, Mode.top, hb, hread, herrors]
      exact congrArg (fun flags => ((Gap.read src pos).stop,
        { t.lexeme (Gap.read src pos).stop with flags })) hunion
    · rw [hflags (hless e)]
      rfl
    · rw [Tile.lexeme, ← Source.size_utf8Encode]
      exact hstart.drop

/-- Behind the last tile the text ends. -/
lemma Row.read_nil (h : Row [] cs) (hahead : src.Ahead pos cs) :
    ∃ start flags, Lexeme.read src [.code 0] pos
      = (start, { kind := .endOfFile, stop := start, flags }) ∧ src.Ahead start [] := by
  cases h with
  | nil hgap =>
    have hahead' : src.Ahead pos (cs ++ []) := by rwa [List.append_nil]
    obtain ⟨hstart, herrors, -⟩ := gapRead_blanks hgap hahead' fun p hp => gapRead_end hp
    have hat : src.byteAt (Gap.read src pos).stop = none := hstart.byteAt 0
    have hunion : (Gap.read src pos).flags.union {} = (Gap.read src pos).flags := by
      simp [TokenFlags.union]
    refine ⟨(Gap.read src pos).stop, (Gap.read src pos).flags, ?_, hstart⟩
    simp only [Lexeme.read, Mode.top, hat, herrors]
    exact congrArg (fun flags => ((Gap.read src pos).stop,
      ({ kind := .endOfFile, stop := (Gap.read src pos).stop, flags } : Lexeme))) hunion

/-- The kind of the first token of a row. -/
def Tile.front : List Tile → Kind
  | [] => .endOfFile
  | t :: _ => t.kind

/-- The lexer is ahead of a row, in the outermost code and without a fault so far. -/
structure Lexer.Before (src : Source) (tiles : List Tile) (l : Lexer) : Prop where
  modes : l.modes = [.code 0]
  log : l.log = #[]
  ahead : ∃ cs, Row tiles cs ∧ src.Ahead l.pos cs

/-- The lexer has read the first tile of a row, or the end of the text behind it. -/
structure Lexer.Awaits (src : Source) (tiles : List Tile) (l : Lexer) : Prop where
  before : l.Before src tiles.tail
  kind : l.kind = Tile.front tiles
  value : ∀ t ∈ tiles.head?, l.value = t.value
  touches : l.kind = .mark .less → l.flags.separated = false
  scanned : ∃ m : Lexer, m.Before src tiles ∧ l = m.scan src

namespace Lexer.Before

variable {l : Lexer}

/-- In front of a row the lexer reads its first tile. -/
lemma scan (h : l.Before src tiles) : (l.scan src).Awaits src tiles := by
  have hscanned : ∃ m : Lexer, m.Before src tiles ∧ l.scan src = m.scan src := ⟨l, h, rfl⟩
  obtain ⟨hmodes, hlog, cs, hrow, hahead⟩ := h
  cases tiles with
  | nil =>
    obtain ⟨start, flags, hread, hend⟩ := hrow.read_nil hahead
    have e : l.scan src = l.accept start { kind := .endOfFile, stop := start, flags } := by
      rw [Lexer.scan, hmodes, hread]
    rw [e] at hscanned ⊢
    refine ⟨⟨hmodes, ?_, [], .nil (by rintro _ ⟨⟩), hend⟩, rfl, by rintro _ ⟨⟩, by rintro ⟨⟩,
      hscanned⟩
    rw [accept, hlog]
    rfl
  | cons t tiles =>
    obtain ⟨start, flags, rest, hread, hless, -, hrest, hstop⟩ := hrow.read hahead
    have e : l.scan src = l.accept start { t.lexeme start with flags } := by
      rw [Lexer.scan, hmodes, hread]
    rw [e] at hscanned ⊢
    refine ⟨⟨hmodes, ?_, rest, hrest, hstop⟩, rfl, ?_, fun hkind => hless ?_, hscanned⟩
    · rw [accept, hlog]
      rfl
    · rintro _ ⟨⟩
      rfl
    · change t.kind = .mark .less at hkind
      cases t with
      | name x =>
        rw [Tile.kind] at hkind
        split at hkind <;> cases hkind
      | keyword k => cases hkind
      | mark p => rw [Kind.mark.inj hkind]

lemma front_ne_unknown (tiles : List Tile) : Tile.front tiles ≠ .unknown := by
  cases tiles with
  | nil => rintro ⟨⟩
  | cons t tiles =>
    cases t with
    | name x =>
      rw [Tile.front, Tile.kind]
      split <;> rintro ⟨⟩
    | keyword k | mark p => rintro ⟨⟩

/-- No token in front of a row is passed over. -/
lemma scanKnown (h : l.Before src tiles) : (l.scanKnown src).Awaits src tiles := by
  have hscan := h.scan
  rwa [Facing.scanKnown_eq (hscan.kind ▸ front_ne_unknown tiles)]

end Lexer.Before

/-- A text that ends in a row which no blank leads into tells where the row was read, and so that no
line was broken in front of its first tile. -/
lemma Lexer.Awaits.lineBreak_eq {l : Lexer} {front : List Char} {c : Char}
    (h : l.Awaits src (t :: tiles)) (htext : src.text.toList = front ++ c :: cs)
    (hc : c ∉ Tile.blanks) (hrow : Row (t :: tiles) cs) (hline : ∀ d ∈ cs, d ∉ Tile.lineBreaks) :
    l.flags.lineBreak = false := by
  obtain ⟨m, ⟨hmodes, -, ds, hread, hahead⟩, rfl⟩ := h.scanned
  have hsuffix : ds <:+ src.text.toList := hahead.imp fun before h => h.1.symm
  have longer : ¬(c :: cs).IsSuffix ds := by
    intro hlonger
    -- Without blanks both are the characters of the tiles, up to the one more.
    have hcount := (hlonger.filter (· ∉ Tile.blanks)).length_le
    rw [List.filter_cons_of_pos (by simpa using hc), hrow.filter_eq, hread.filter_eq] at hcount
    exact Nat.not_succ_le_self _ hcount
  have hshorter : ds <:+ c :: cs :=
    (List.suffix_or_suffix_of_suffix hsuffix ⟨front, htext.symm⟩).resolve_right longer
  obtain rfl | hshorter := List.suffix_cons_iff.1 hshorter
  · exact absurd (List.suffix_refl _) longer
  · obtain ⟨start, flags, rest, e, -, hflags, -⟩ := hread.read hahead
    rw [Lexer.scan, hmodes, e]
    exact hflags fun d hd => hline d (hshorter.mem hd)

/-! ## Laying out tiles -/

/-- The characters of some tiles, each behind its gap. -/
def Tile.laidOut (row : List (List Char × Tile)) : List Char :=
  row.flatMap fun p => p.1 ++ p.2.chars

/-- Gaps are blanks, and none lies in front of a `<`. -/
def Tile.Spaced (row : List (List Char × Tile)) : Prop :=
  ∀ p ∈ row, (∀ c ∈ p.1, c ∈ blanks) ∧ (p.2 = .mark .less → p.1 = [])

instance (row : List (List Char × Tile)) : Decidable (Tile.Spaced row) :=
  decidable_of_iff
    (row.all fun p => p.1.all (· ∈ Tile.blanks) ∧ (p.2 = .mark .less → p.1 = [])) <| by
    rw [Tile.Spaced, List.all_iff_forall_prop]
    simp only [List.all_iff_forall_prop]

/-- A tile ends where the other one starts, with or without a gap between them. -/
def Tile.Touches (t u : Tile) : Prop :=
  ∀ c ∈ u.chars.head?, t.EndsAt c

namespace Tile

lemma endsAt_blank (t : Tile) : ∀ c ∈ blanks, t.EndsAt c := by
  have mark (p : Punctuation) : ∀ c ∈ blanks, c ∉ extensions p := by
    refine List.all_iff_forall_prop.1 ?_
    cases p <;> rfl
  intro c hc
  cases t with
  | name x => exact fun _ => isIdentifierPart_blank c hc
  | keyword k => exact isIdentifierPart_blank c hc
  | mark p => exact mark p c hc

lemma chars_ne_nil (plain : t.Plain) : t.chars ≠ [] := by
  cases t with
  | name x =>
    have hstart := x.starts
    rw [chars]
    split
    · exact List.cons_ne_nil _ _
    · intro e
      simp [e] at hstart
  | keyword k => exact fun e => k.text_ne_empty (String.toList_inj.1 e)
  | mark p =>
    have key : ∀ p ∈ marks, p.text.toList ≠ [] := by decide
    exact key p plain

/-- A mark does not go on with a name. -/
lemma touches_name {p : Punctuation} {x : Ident} (hp : p ∈ marks) :
    Touches (.mark p) (.name x) := by
  have key : ∀ p ∈ marks, '`' ∉ extensions p ∧ (extensions p).all fun c =>
      Unicode.isIdentifierStart c = false := by
    decide +kernel
  obtain ⟨hquote, hstarts⟩ := key p hp
  intro c hc hmem
  rw [chars] at hc
  split at hc
  · cases hc
    exact hquote hmem
  · have hstart := x.starts
    rw [Option.mem_def.1 hc] at hstart
    exact Bool.false_ne_true ((List.all_iff_forall_prop.1 hstarts c hmem).symm.trans hstart)

/-- A name does not go on with a mark. -/
lemma name_touches {p : Punctuation} {x : Ident} (hp : p ∈ marks) :
    Touches (.name x) (.mark p) := by
  have key : ∀ p ∈ marks, p.text.toList.head?.all fun c => !Unicode.isIdentifierPart c := by
    decide +kernel
  intro c hc _
  have hpart := (Option.all_eq_true ..).1 (key p hp) c hc
  rwa [Bool.not_eq_true'] at hpart

end Tile

/-- A tile ends in front of a row if it may touch the first tile of it. -/
lemma Row.ends (h : Row tiles cs) (htouch : ∀ u ∈ tiles.head?, t.Touches u) :
    ∀ c ∈ cs.head?, t.EndsAt c := by
  intro c hc
  cases h with
  | nil hgap => exact t.endsAt_blank c (hgap c (List.mem_of_mem_head? hc))
  | @cons gap cs u tiles hgap _ plain _ _ =>
    -- The next character is a blank or the first one of the next tile.
    cases gap with
    | cons d gap =>
      obtain rfl : d = c := Option.some.inj hc
      exact t.endsAt_blank d (hgap d List.mem_cons_self)
    | nil =>
      obtain ⟨d, ds, e⟩ := List.exists_cons_of_ne_nil (Tile.chars_ne_nil plain)
      rw [List.nil_append, e] at hc
      obtain rfl : d = c := Option.some.inj hc
      exact htouch u rfl d (by rw [e]; rfl)

/-- A tile without a gap makes a row longer in front. -/
lemma Row.cons_tile (h : Row tiles cs) (plain : t.Plain)
    (htouch : ∀ u ∈ tiles.head?, t.Touches u) : Row (t :: tiles) (t.chars ++ cs) := by
  have row : Row (t :: tiles) ([] ++ (t.chars ++ cs)) :=
    .cons (fun _ hc => nomatch hc) (fun _ => rfl) plain (h.ends htouch) h
  exact row

/-- Tiles that may touch make a row longer in front, however they are laid out. -/
lemma Row.laidOut_append {row : List (List Char × Tile)} (hspaced : Tile.Spaced row)
    (hplain : ∀ p ∈ row, p.2.Plain)
    (htouch : (row.map Prod.snd ++ tiles.take 1).IsChain Tile.Touches) (h : Row tiles cs) :
    Row (row.map Prod.snd ++ tiles) (Tile.laidOut row ++ cs) := by
  induction row with
  | nil => exact h
  | cons p row ih =>
    obtain ⟨⟨hgap, hless⟩, hspaced⟩ := List.forall_mem_cons.1 hspaced
    obtain ⟨plain, hplain⟩ := List.forall_mem_cons.1 hplain
    have e : Tile.laidOut (p :: row) ++ cs = p.1 ++ (p.2.chars ++ (Tile.laidOut row ++ cs)) := by
      rw [Tile.laidOut, List.flatMap_cons, List.append_assoc, List.append_assoc]
      rfl
    rw [List.map_cons, List.cons_append] at htouch ⊢
    have hrow := ih hspaced hplain htouch.of_cons
    rw [e]
    refine .cons hgap hless plain (hrow.ends fun u hu => ?_) hrow
    refine htouch.rel_head? ?_
    rw [List.head?_append] at hu ⊢
    rwa [List.head?_take, if_neg Nat.one_ne_zero]

/-- A blank may lie in front of a row that does not start with a `<`. -/
lemma Row.blank_cons {c : Char} (hc : c ∈ Tile.blanks) (h : Row tiles cs)
    (hless : tiles.head? ≠ some (.mark .less)) : Row tiles (c :: cs) := by
  cases h with
  | nil hgap => exact .nil (List.forall_mem_cons.2 ⟨hc, hgap⟩)
  | cons hgap _ plain ends hrest =>
    rw [← List.cons_append]
    refine .cons (List.forall_mem_cons.2 ⟨hc, hgap⟩) (fun e => ?_) plain ends hrest
    exact absurd (congrArg some e) hless

end CangjieSyntax
