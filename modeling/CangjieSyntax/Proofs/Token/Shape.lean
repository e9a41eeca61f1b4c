import CangjieSyntax.Proofs.Token.Meets
import CangjieSyntax.Proofs.Token.Row

/-!
# Tokens of given shapes

`l.Offers src shapes` says that a lexer reads tokens of the given shapes one after the other, all on
one line and without a fault, and that the text ends with the last one. `Shape.Spelled` says which
characters are read so, whatever modes they are read in and lead to. What is spelled piece by piece
is spelled as a whole.
-/

namespace CangjieSyntax

/-- What a rule sees of a token. -/
structure Shape where
  kind : Kind
  value : String := ""

/-- The kind of the first token, or of the end of the text. -/
def Shape.front : List Shape → Kind
  | [] => .endOfFile
  | p :: _ => p.kind

/-- The state behind a token of the given shape, which starts a piece of the text of its own. -/
structure Lexer.Shows (l m : Lexer) (p : Shape) : Prop where
  kind : m.kind = p.kind
  value : m.value = p.value
  log : m.log = #[]
  sameLine : m.flags.lineBreak = false
  behind : l.pos ≤ m.start
  width : m.start < m.pos
  known : p.kind ≠ .unknown

/-- A lexer reads tokens of the given shapes, and then comes to the end of the text. -/
inductive Lexer.Offers (src : Source) : List Shape → Lexer → Prop
  | nil {l : Lexer} (hmodes : l.modes = [.code 0]) (hlog : l.log = #[]) (hpos : l.pos = src.size) :
    Offers src [] l
  | cons {l : Lexer} {p : Shape} {rest : List Shape} (shows : l.Shows (l.scan src) p)
    (behind : (l.scan src).Offers src rest) : Offers src (p :: rest) l

variable {src : Source} {l : Lexer} {p : Shape} {shapes shapes' : List Shape}

namespace Lexer.Offers

/-- What is read at the end of the text. -/
lemma scan_nil (h : l.Offers src []) : (l.scan src).kind = .endOfFile ∧ (l.scan src).log = #[]
    ∧ (l.scan src).start = src.size := by
  obtain ⟨hmodes, hlog, hpos⟩ := h
  have hend : src.byteAt l.pos = none := hpos ▸ src.byteAt_size
  have hgap : Gap.read src l.pos = { stop := l.pos } := by
    rw [Gap.read]
    split
    case h_1 => rfl
    case h_2 _ e => exact absurd (hend.symm.trans e) (by simp)
  have hread : Lexeme.read src l.modes l.pos
      = (l.pos, { kind := .endOfFile, stop := l.pos, flags := ({} : TokenFlags).union {} }) := by
    rw [Lexeme.read, hmodes, Mode.top]
    dsimp only
    rw [hgap, hend]
    rfl
  rw [scan, hread]
  refine ⟨rfl, ?_, hpos⟩
  change l.log ++ _ = #[]
  rw [hlog]
  rfl

lemma kind_scan (h : l.Offers src shapes) : (l.scan src).kind = Shape.front shapes := by
  cases h with
  | nil hmodes hlog hpos => exact (Offers.nil hmodes hlog hpos).scan_nil.1
  | cons shows _ => exact shows.kind

lemma log_scan (h : l.Offers src shapes) : (l.scan src).log = #[] := by
  cases h with
  | nil hmodes hlog hpos => exact (Offers.nil hmodes hlog hpos).scan_nil.2.1
  | cons shows _ => exact shows.log

/-- Reading goes on behind the place. -/
lemma le_start_scan (h : l.Offers src shapes) : l.pos ≤ (l.scan src).start := by
  cases h with
  | nil hmodes hlog hpos => rw [(Offers.nil hmodes hlog hpos).scan_nil.2.2, hpos]
  | cons shows _ => exact shows.behind

/-- No token is passed over. -/
lemma scanKnown_eq (h : l.Offers src shapes) : l.scanKnown src = l.scan src := by
  refine Facing.scanKnown_eq ?_
  rw [h.kind_scan]
  cases h with
  | nil => exact fun e => nomatch e
  | cons shows _ => exact shows.known

/-- A scan comes to tokens of the shapes and to the end. -/
lemma kind_mem (h : l.Offers src shapes) {k : Kind} (hk : l.Meets src k) :
    k = .endOfFile ∨ ∃ p ∈ shapes, p.kind = k := by
  have go (rounds : Nat) {l : Lexer} {shapes : List Shape} (h : l.Offers src shapes) :
      ∀ t ∈ (scanAll.go src rounds l).1,
        t.1.kind = .endOfFile ∨ ∃ p ∈ shapes, p.kind = t.1.kind := by
    induction rounds generalizing l shapes with
    | zero => exact List.forall_mem_nil _
    | succ rounds ih =>
      rw [scanAll.go]
      dsimp only
      split
      case isTrue hend => exact List.forall_mem_singleton.2 (.inl hend)
      case isFalse hend =>
        cases h with
        | nil hmodes hlog hpos => exact absurd (Offers.nil hmodes hlog hpos).scan_nil.1 hend
        | @cons _ p rest shows behind =>
          refine List.forall_mem_cons.2 ⟨.inr ⟨p, List.mem_cons_self, shows.kind.symm⟩, ?_⟩
          intro t ht
          refine (ih behind t ht).imp_right ?_
          rintro ⟨q, hq, e⟩
          exact ⟨q, List.mem_cons_of_mem _ hq, e⟩
  obtain ⟨t, ht, rfl⟩ := hk
  exact go _ h t ht

end Lexer.Offers

/-! ## Characters that are read as tokens -/

/-- In some modes and without a fault so far, the lexer stands in front of some characters. -/
structure Lexer.At (src : Source) (modes : List Mode) (cs : List Char) (l : Lexer) : Prop where
  modes : l.modes = modes
  log : l.log = #[]
  ahead : src.Ahead l.pos cs

/-- In front of others, some characters are read as tokens of the given shapes, which lead from some
modes to others. -/
def Shape.Spelled (modes modes' : List Mode) (shapes : List Shape) (cs behind : List Char) : Prop :=
  ∀ ⦃src : Source⦄ ⦃l : Lexer⦄ ⦃more : List Shape⦄, l.At src modes (cs ++ behind) →
    (∀ m : Lexer, m.At src modes' behind → m.Offers src more) → l.Offers src (shapes ++ more)

variable {modes modes' modes'' : List Mode} {cs cs' behind gap chars : List Char} {t : Tile}

/-- In front of the first token of a text. -/
def Lexer.inFront (src : Source) : Lexer :=
  (Lexer.ofSource src).seek src 0

namespace Shape.Spelled

lemma nil : Spelled modes modes [] [] behind :=
  fun _ _ _ h hmore => hmore _ h

lemma append (h : Spelled modes modes' shapes cs (cs' ++ behind))
    (h' : Spelled modes' modes'' shapes' cs' behind) :
    Spelled modes modes'' (shapes ++ shapes') (cs ++ cs') behind := by
  intro src l more hl hmore
  rw [List.append_assoc] at hl ⊢
  exact h hl fun m hm => h' hm hmore

/-- A whole text is read as it is spelled. -/
lemma offers (h : Spelled [.code 0] [.code 0] shapes src.text.toList []) :
    (Lexer.inFront src).Offers src shapes := by
  have hpos : (Lexer.inFront src).pos = 0 := Nat.zero_min _
  have hat : (Lexer.inFront src).At src [.code 0] (src.text.toList ++ []) :=
    ⟨rfl, rfl, by rw [hpos, List.append_nil]; exact Source.ahead_zero⟩
  have := h hat fun m hm => .nil hm.modes hm.log hm.ahead.size_eq.symm
  rwa [List.append_nil] at this

/-- A file without a byte order mark is read from its first character on. -/
lemma offers_file (h : Spelled [.code 0] [.code 0] shapes src.text.toList [])
    (hmark : src.startsWith 0 Source.byteOrderMark = false) :
    (Lexer.ofSource src).Offers src shapes := by
  have hstart : Lexer.ofSource src = Lexer.inFront src := by
    rw [Lexer.ofSource, hmark, Lexer.inFront, Lexer.seek, Nat.zero_min]
    rfl
  exact hstart ▸ h.offers

/-- Where the next scan yields it, a token is spelled. -/
lemma of_scan (change : ModeChange) (hne : chars ≠ []) (hknown : p.kind ≠ .unknown)
    (h : ∀ {src : Source} {l : Lexer}, l.At src modes (cs ++ behind) → ∃ start flags,
      l.pos ≤ start ∧ src.Ahead start (chars ++ behind) ∧ TokenFlags.lineBreak flags = false
        ∧ l.scan src = l.accept start { kind := p.kind
                                        stop := start + (Source.encoded chars).length
                                        value := p.value, flags, change }) :
    Spelled modes (change.apply modes) [p] cs behind := by
  intro src l more hl hmore
  obtain ⟨start, flags, hstart, hahead, hline, hscan⟩ := h hl
  have hlog : (l.scan src).log = #[] := by
    rw [hscan]
    exact congrArg (· ++ #[]) hl.log
  have hwidth : 0 < (Source.encoded chars).length := by
    obtain ⟨c, cs, rfl⟩ := List.exists_cons_of_ne_nil hne
    have := c.utf8Size_pos
    rw [← Source.size_utf8Encode, Source.size_utf8Encode_cons]
    omega
  have hbehind := hahead.drop
  rw [Source.size_utf8Encode] at hbehind
  refine .cons ⟨?_, ?_, hlog, ?_, ?_, ?_, hknown⟩ (hmore _ ⟨?_, hlog, ?_⟩)
  · rw [hscan]
    rfl
  · rw [hscan]
    rfl
  · rw [hscan]
    exact hline
  · rw [hscan]
    exact hstart
  · rw [hscan]
    exact Nat.lt_add_of_pos_right hwidth
  · rw [hscan, ← hl.modes]
    rfl
  · rw [hscan]
    exact hbehind

/-- Where a lexeme stands behind some blanks, it is the next token. -/
lemma of_standsAt (change : ModeChange) (hcode : (Mode.top modes).isCode) (hne : chars ≠ [])
    (hgap : ∀ c ∈ gap, c ∈ Tile.blanks ∧ c ∉ Tile.lineBreaks) (hknown : p.kind ≠ .unknown)
    (stands : ∀ {src : Source} {pos : Nat}, src.Ahead pos (chars ++ behind) →
      Lexeme.StandsAt src modes pos { kind := p.kind
                                      stop := pos + (Source.encoded chars).length
                                      value := p.value, change }) :
    Spelled modes (change.apply modes) [p] (gap ++ chars) behind := by
  apply of_scan change hne hknown
  rintro src l ⟨rfl, hlog, hahead⟩
  rw [List.append_assoc] at hahead
  obtain ⟨hstart, herrors, -, hline⟩ := gapRead_blanks (fun c hc => (hgap c hc).1) hahead
    fun p hp => by
      obtain ⟨b, hb, hbreak, hblank, hslash, -⟩ := stands hp
      exact gapRead_of_byte hb hbreak hblank hslash
  obtain ⟨b, hb, -, -, -, hread⟩ := stands hstart
  refine ⟨(Gap.read src l.pos).stop, (Gap.read src l.pos).flags.union {},
    (Gap.stop_read hahead.isBoundary).2, hstart,
    (Bool.or_false _).trans (hline fun c hc => (hgap c hc).2), ?_⟩
  have hmode : ∃ braces, Mode.top l.modes = .code braces := by
    cases hmode : Mode.top l.modes with
    | code braces => exact ⟨braces, rfl⟩
    | text => exact nomatch hmode ▸ hcode
  obtain ⟨braces, hmode⟩ := hmode
  rw [Lexer.scan, Lexeme.read, hmode]
  dsimp only
  rw [hb, herrors]
  dsimp only
  rw [hread]
  rfl

/-- In the text of a string, a piece of it is the next token. -/
lemma of_text {quote : Quote} {multiLine : Bool} (change : ModeChange) (hne : chars ≠ [])
    (hknown : p.kind ≠ .unknown)
    (hread : ∀ {src : Source} {pos : Nat}, src.Ahead pos (chars ++ behind) →
      StringText.read src quote multiLine pos = { kind := p.kind
                                                  stop := pos + (Source.encoded chars).length
                                                  value := p.value, change }) :
    Spelled (.text quote multiLine :: modes) (change.apply (.text quote multiLine :: modes)) [p]
      chars behind := by
  apply of_scan change hne hknown
  rintro src l ⟨hmodes, hlog, hahead⟩
  have hmode : Mode.top l.modes = .text quote multiLine := congrArg Mode.top hmodes
  refine ⟨l.pos, {}, Nat.le_refl _, hahead, rfl, ?_⟩
  rw [Lexer.scan_of_text hmode, hread hahead]

end Shape.Spelled

/-! ## Words, marks and braces -/

/-- What a rule sees of a tile. -/
def Tile.shape (t : Tile) : Shape :=
  ⟨t.kind, t.value⟩

/-- What a rule sees of a name. -/
def Ident.shape (x : Ident) : Shape :=
  (Tile.name x).shape

/-- What a rule sees of a mark. -/
def Shape.mark (p : Punctuation) : Shape :=
  (Tile.mark p).shape

/-- The second byte ahead is one of some characters, or of the first one behind them. -/
lemma Source.Ahead.mem_of_byteAt_succ {pos : Nat} {b : UInt8} (h : src.Ahead pos (cs ++ behind))
    (hne : cs ≠ []) (hb : src.byteAt (pos + 1) = some b) :
    ∃ c, (c ∈ cs ∨ c ∈ behind.head?) ∧ b ∈ String.utf8EncodeChar c := by
  obtain ⟨d, ds, rfl⟩ := List.exists_cons_of_ne_nil hne
  rw [h.byteAt, encoded_append] at hb
  obtain hlt | hle := Nat.lt_or_ge 1 (encoded (d :: ds)).length
  · rw [List.getElem?_append_left hlt] at hb
    obtain ⟨c, hc, hbc⟩ := List.mem_flatMap.1 (List.mem_of_getElem? hb)
    exact ⟨c, .inl hc, hbc⟩
  · have hpos := d.utf8Size_pos
    rw [← size_utf8Encode, size_utf8Encode_cons] at hle
    have hone : (encoded (d :: ds)).length = 1 := by
      rw [← size_utf8Encode, size_utf8Encode_cons]
      omega
    rw [List.getElem?_append_right (by omega), hone] at hb
    cases behind with
    | nil => exact nomatch hb
    | cons c behind =>
      obtain ⟨b', bytes, e⟩ := utf8EncodeChar_eq_cons c
      rw [encoded, List.flatMap_cons, e] at hb
      obtain rfl : b' = b := Option.some.inj hb
      exact ⟨c, .inr rfl, e ▸ List.mem_cons_self⟩

namespace Shape.Spelled

variable {braces : Nat} {x : Ident} (hgap : ∀ c ∈ gap, c ∈ Tile.blanks ∧ c ∉ Tile.lineBreaks)
  (hquote : ∀ c ∈ behind.head?, c ≠ '"' ∧ c ≠ '\'')

include hgap

/-- Where a tile ends, it is the next token. -/
lemma of_tile (hcode : (Mode.top modes).isCode) (hquote : ∀ c ∈ behind.head?, c ≠ '"' ∧ c ≠ '\'')
    (hne : t.chars ≠ []) (hfree : ∀ c ∈ t.chars, c ≠ '"' ∧ c ≠ '\'')
    (stands : ∀ {src : Source} {pos : Nat}, src.Ahead pos (t.chars ++ behind) →
      (src.byteAt (pos + 1)).bind Quote.ofByte? = none →
      Lexeme.StandsAt src modes pos (t.lexeme pos)) :
    Spelled modes modes [t.shape] (gap ++ t.chars) behind := by
  have hknown : t.kind ≠ .unknown := by
    cases t with
    | name x =>
      rw [Tile.kind]
      cases x.raw <;> rintro ⟨⟩
    | keyword k | mark p => rintro ⟨⟩
  apply of_standsAt .stay hcode hne hgap hknown
  intro src pos h
  apply stands h
  rw [Option.bind_eq_none_iff]
  intro b hb
  obtain ⟨c, hc, hbc⟩ := h.mem_of_byteAt_succ hne hb
  exact quote_of_mem_utf8EncodeChar (hc.elim (hfree c) (hquote c)) hbc

lemma openBrace : Spelled (.code braces :: modes) (.code (braces + 1) :: modes)
    [mark .openBrace] (gap ++ ['\x7b']) behind := by
  apply of_standsAt .openBrace rfl (List.cons_ne_nil _ _) hgap (by rintro ⟨⟩)
  intro src pos h
  exact ⟨0x7B, h.byteAt 0, rfl, rfl, by decide, rfl⟩

/-- A brace that closes another one. -/
lemma closeBrace : Spelled (.code (braces + 1) :: modes) (.code braces :: modes)
    [mark .closeBrace] (gap ++ ['\x7d']) behind := by
  apply of_standsAt .closeBrace rfl (List.cons_ne_nil _ _) hgap (by rintro ⟨⟩)
  intro src pos h
  have hread : Lexeme.readCode src (.code (braces + 1) :: modes) pos 0x7D
      = Lexeme.closeBrace (.code (braces + 1) :: modes) pos := rfl
  refine ⟨0x7D, h.byteAt 0, rfl, rfl, by decide, hread.trans ?_⟩
  rw [Lexeme.closeBrace, if_neg (by rintro ⟨⟨⟩, -⟩)]
  rfl

/-- A brace that closes a hole. -/
lemma interpolationEnd {m : Mode} : Spelled (.code 0 :: m :: modes) (m :: modes)
    [⟨.interpolationEnd, ""⟩] (gap ++ ['\x7d']) behind := by
  apply of_standsAt .leave rfl (List.cons_ne_nil _ _) hgap (by rintro ⟨⟩)
  intro src pos h
  have hread : Lexeme.readCode src (.code 0 :: m :: modes) pos 0x7D
      = Lexeme.closeBrace (.code 0 :: m :: modes) pos := rfl
  refine ⟨0x7D, h.byteAt 0, rfl, rfl, by decide, hread.trans ?_⟩
  rw [Lexeme.closeBrace, if_pos ⟨rfl, by simp⟩]
  rfl

include hquote

lemma name (hcode : (Mode.top modes).isCode) (ends : ∀ c ∈ behind.head?, (Tile.name x).EndsAt c) :
    Spelled modes modes [x.shape] (gap ++ (Tile.name x).chars) behind := by
  have hne : (Tile.name x).chars ≠ [] := by
    have hstart := x.starts
    rw [Tile.chars]
    split
    · exact List.cons_ne_nil _ _
    · rintro e
      simp [e] at hstart
  apply of_tile hgap hcode hquote hne (Tile.quoteFree trivial)
  intro src pos h hsecond
  exact standsAt_tile trivial ends hsecond h

lemma keyword {k : Keyword} (hcode : (Mode.top modes).isCode)
    (ends : ∀ c ∈ behind.head?, Unicode.isIdentifierPart c = false) :
    Spelled modes modes [(Tile.keyword k).shape] (gap ++ k.text.toList) behind := by
  have hne : k.text.toList ≠ [] := by
    have hstart := k.spelled.1
    rintro e
    simp [e] at hstart
  have plain : (Tile.keyword k).Plain := trivial
  have hfree : ∀ c ∈ k.text.toList, c ≠ '"' ∧ c ≠ '\'' := Tile.quoteFree plain
  apply of_tile (t := .keyword k) hgap hcode hquote hne hfree
  intro src pos h hsecond
  exact standsAt_tile plain ends hsecond h

lemma mark {p : Punctuation} (hp : p ∈ Punctuation.separable) (hcode : (Mode.top modes).isCode)
    (ends : ∀ c ∈ behind.head?, c ∉ Tile.extensions p) :
    Spelled modes modes [.mark p] (gap ++ p.text.toList) behind := by
  have chars : ∀ p ∈ Punctuation.separable,
      p.text.toList ≠ [] ∧ p.text.toList.all fun c => c ≠ '"' ∧ c ≠ '\'' := by decide
  obtain ⟨hne, hfree⟩ := chars p hp
  apply of_tile (t := .mark p) hgap hcode hquote hne (List.all_iff_forall_prop.1 hfree)
  intro src pos h hsecond
  exact standsAt_mark hp h ends hsecond

end Shape.Spelled

/-! ## Tiles on one line -/

namespace Tile

/-- Tiles that stand on one line. Where no gap lies between two of them, the one in front ends. -/
structure OnLine (row : List (List Char × Tile)) : Prop where
  gaps : ∀ p ∈ row, ∀ c ∈ p.1, c ∈ blanks ∧ c ∉ lineBreaks
  touch : row.IsChain fun p q => q.1 = [] → p.2.Touches q.2

instance (c : Char) : (t : Tile) → Decidable (t.EndsAt c)
  | .name x => inferInstanceAs (Decidable (x.raw = false → Unicode.isIdentifierPart c = false))
  | .keyword _ => inferInstanceAs (Decidable (Unicode.isIdentifierPart c = false))
  | .mark p => inferInstanceAs (Decidable (c ∉ extensions p))

instance (t u : Tile) : Decidable (t.Touches u) :=
  Option.decidableForallMem u.chars.head?

-- The characters of a gap are looked at one by one; there are too many to look at all that exist.
instance (row : List (List Char × Tile)) : Decidable (OnLine row) :=
  decidable_of_iff ((row.all fun p => p.1.all fun c => c ∈ blanks ∧ c ∉ lineBreaks) = true
      ∧ row.IsChain fun p q => q.1 = [] → p.2.Touches q.2)
    ⟨fun h => ⟨by simpa using h.1, h.2⟩, fun h => ⟨by simpa using h.gaps, h.touch⟩⟩

/-- Some tiles of code lead from so many open braces to so many others. -/
inductive Leads : Nat → List Tile → Nat → Prop
  | nil {n : Nat} : Leads n [] n
  | name {n m : Nat} {tiles : List Tile} (x : Ident) (rest : Leads n tiles m) :
    Leads n (.name x :: tiles) m
  | keyword {n m : Nat} {tiles : List Tile} (k : Keyword) (rest : Leads n tiles m) :
    Leads n (.keyword k :: tiles) m
  | mark {n m : Nat} {p : Punctuation} {tiles : List Tile} (hp : p ∈ Punctuation.separable)
    (rest : Leads n tiles m) : Leads n (.mark p :: tiles) m
  | opening {n m : Nat} {tiles : List Tile} (rest : Leads (n + 1) tiles m) :
    Leads n (.mark .openBrace :: tiles) m
  | closing {n m : Nat} {tiles : List Tile} (rest : Leads n tiles m) :
    Leads (n + 1) (.mark .closeBrace :: tiles) m

variable {n m k : Nat} {tiles others : List Tile} {row : List (List Char × Tile)} {c : Char}

lemma Leads.append (h : Leads n tiles k) (h' : Leads k others m) : Leads n (tiles ++ others) m := by
  induction h with
  | nil => exact h'
  | name x _ ih => exact .name x (ih h')
  | keyword k _ ih => exact .keyword k (ih h')
  | mark hp _ ih => exact .mark hp (ih h')
  | opening _ ih => exact .opening (ih h')
  | closing _ ih => exact .closing (ih h')

/-- A tile of code is not empty, and no quote stands in it. -/
lemma Leads.quoteFree (h : Leads n tiles m) :
    ∀ t ∈ tiles, t.chars ≠ [] ∧ ∀ c ∈ t.chars, c ≠ '"' ∧ c ≠ '\'' := by
  have word {t : Tile} (plain : t.Plain) : t.chars ≠ [] ∧ ∀ c ∈ t.chars, c ≠ '"' ∧ c ≠ '\'' :=
    ⟨chars_ne_nil plain, Tile.quoteFree plain⟩
  have marks : ∀ p ∈ .openBrace :: .closeBrace :: Punctuation.separable,
      p.text.toList ≠ [] ∧ p.text.toList.all fun c => c ≠ '"' ∧ c ≠ '\'' := by decide
  have mark {p : Punctuation} (hp : p ∈ .openBrace :: .closeBrace :: Punctuation.separable) :
      (Tile.mark p).chars ≠ [] ∧ ∀ c ∈ (Tile.mark p).chars, c ≠ '"' ∧ c ≠ '\'' :=
    ⟨(marks p hp).1, List.all_iff_forall_prop.1 (marks p hp).2⟩
  induction h with
  | nil => exact List.forall_mem_nil _
  | name x _ ih => exact List.forall_mem_cons.2 ⟨word (t := .name x) trivial, ih⟩
  | keyword k _ ih => exact List.forall_mem_cons.2 ⟨word (t := .keyword k) trivial, ih⟩
  | mark hp _ ih =>
    exact List.forall_mem_cons.2 ⟨mark (List.mem_cons_of_mem _ (List.mem_cons_of_mem _ hp)), ih⟩
  | opening _ ih => exact List.forall_mem_cons.2 ⟨mark List.mem_cons_self, ih⟩
  | closing _ ih =>
    exact List.forall_mem_cons.2 ⟨mark (List.mem_cons_of_mem _ List.mem_cons_self), ih⟩

/-- What stands behind a tile on its line starts with no quote, and the tile does not go on with
it. -/
lemma OnLine.head (hrow : OnLine ((gap, t) :: row))
    (hfree : ∀ u ∈ row.map Prod.snd, u.chars ≠ [] ∧ ∀ c ∈ u.chars, c ≠ '"' ∧ c ≠ '\'') :
    ∀ c ∈ (laidOut row).head?, (c ≠ '"' ∧ c ≠ '\'') ∧ t.EndsAt c := by
  have blank : ∀ c ∈ blanks, c ≠ '"' ∧ c ≠ '\'' := List.all_iff_forall_prop.1 rfl
  intro c hc
  obtain - | ⟨⟨gap', u⟩, row⟩ := row
  · exact nomatch hc
  · cases gap' with
    | cons d gap' =>
      obtain rfl : d = c := Option.some.inj hc
      have hblank := (hrow.gaps _ (List.mem_cons_of_mem _ List.mem_cons_self) d
        List.mem_cons_self).1
      exact ⟨blank d hblank, t.endsAt_blank d hblank⟩
    | nil =>
      obtain ⟨hne, hfree⟩ := hfree u List.mem_cons_self
      obtain ⟨d, ds, e⟩ := List.exists_cons_of_ne_nil hne
      have htouch : t.Touches u := (List.isChain_cons_cons.1 hrow.touch).1 rfl
      rw [laidOut, List.flatMap_cons, List.nil_append, e] at hc
      obtain rfl : d = c := Option.some.inj hc
      refine ⟨hfree d (e ▸ List.mem_cons_self), htouch d ?_⟩
      rw [e]
      rfl

/-- A tile and then the others of its line. -/
lemma OnLine.spelled_cons (hrow : OnLine row) (htiles : row.map Prod.snd = t :: tiles)
    (hfree : ∀ u ∈ tiles, u.chars ≠ [] ∧ ∀ c ∈ u.chars, c ≠ '"' ∧ c ≠ '\'')
    (head : ∀ gap behind, (∀ c ∈ gap, c ∈ blanks ∧ c ∉ lineBreaks) →
      (∀ c ∈ behind.head?, (c ≠ '"' ∧ c ≠ '\'') ∧ t.EndsAt c) →
      Shape.Spelled modes modes' [t.shape] (gap ++ t.chars) behind)
    (rest : ∀ {row}, row.map Prod.snd = tiles → OnLine row →
      Shape.Spelled modes' modes'' (tiles.map shape) (laidOut row) []) :
    Shape.Spelled modes modes'' ((t :: tiles).map shape) (laidOut row) [] := by
  obtain ⟨⟨gap, t⟩, row, rfl, rfl, rfl⟩ := List.map_eq_cons_iff.1 htiles
  have hrest : OnLine row :=
    ⟨fun p hp => hrow.gaps p (List.mem_cons_of_mem _ hp), hrow.touch.of_cons⟩
  have first : Shape.Spelled modes modes' [t.shape] (gap ++ t.chars) (laidOut row ++ []) := by
    rw [List.append_nil]
    exact head gap _ (hrow.gaps _ List.mem_cons_self) (hrow.head hfree)
  exact first.append (rest rfl hrest)

/-- Tiles on a line are read one after the other, and the braces are counted with them. -/
lemma Leads.spelled (h : Leads n tiles m) (htiles : row.map Prod.snd = tiles) (hrow : OnLine row) :
    Shape.Spelled (.code n :: modes) (.code m :: modes) (tiles.map shape) (laidOut row) [] := by
  induction h generalizing row with
  | nil =>
    obtain rfl := List.map_eq_nil_iff.1 htiles
    exact .nil
  | name x rest ih =>
    refine hrow.spelled_cons htiles rest.quoteFree (fun gap behind hgap hbehind => ?_) ih
    exact .name hgap (fun c hc => (hbehind c hc).1) rfl fun c hc => (hbehind c hc).2
  | keyword k rest ih =>
    refine hrow.spelled_cons htiles rest.quoteFree (fun gap behind hgap hbehind => ?_) ih
    exact .keyword hgap (fun c hc => (hbehind c hc).1) rfl fun c hc => (hbehind c hc).2
  | mark hp rest ih =>
    refine hrow.spelled_cons htiles rest.quoteFree (fun gap behind hgap hbehind => ?_) ih
    exact .mark hgap (fun c hc => (hbehind c hc).1) hp rfl fun c hc => (hbehind c hc).2
  | opening rest ih =>
    exact hrow.spelled_cons htiles rest.quoteFree (fun _ _ hgap _ => .openBrace hgap) ih
  | closing rest ih =>
    exact hrow.spelled_cons htiles rest.quoteFree (fun _ _ hgap _ => .closeBrace hgap) ih

end Tile

end CangjieSyntax
