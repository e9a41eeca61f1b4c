import CangjieSyntax.Grammar.Primary
import CangjieSyntax.Proofs.Excerpt.Tokens
import CangjieSyntax.Proofs.Twin.Twins

/-!
# Two lexers abreast

Two lexers, one in each of two texts, stand at the same token. As long as what is read lies in an
excerpt of both texts they stay abreast, and where they do so from token to token, everything that is
found by reading on from them is the same. No text is so long that the bound on the number of steps
would end a search.
-/

namespace CangjieSyntax

variable {src src' : Source} {m : Move} {lo hi steps steps' : Nat} {l l' k k' : Lexer}
  {R : Lexer → Lexer → Prop}

lemma TokenFlags.separated_union (f g : TokenFlags) :
    (f.union g).separated = (f.separated || g.separated) := by
  simp only [separated, union]
  cases f.lineBreak <;> cases f.trivia <;> cases g.lineBreak <;> cases g.trivia <;> rfl

/-- Two lexers, one in each text, stand at the same token. -/
structure Lexer.Abreast (src src' : Source) (m : Move) (l l' : Lexer) : Prop where
  same : l.Same m l'
  modes : l'.modes = l.modes
  log : l'.log = l.log.map (move m)
  regular : l.Regular src
  regular' : l'.Regular src'
  boundary : src.isBoundary l.pos
  start_le : l.start ≤ l.pos

namespace Lexer.Abreast

variable (h : l.Abreast src src' m l')

include h

/-- The same lexeme, up to its place and to what lies in front of it. -/
lemma accept {start : Nat} {lexeme lexeme' : Lexeme}
    (hscan : l.scan src = l.accept start lexeme)
    (hscan' : l'.scan src' = l'.accept (m.pos start) lexeme')
    (hlexeme : lexeme' = { move m lexeme with flags := lexeme'.flags })
    (lineBreak : lexeme'.flags.lineBreak = lexeme.flags.lineBreak)
    (separated : lexeme'.flags.separated = lexeme.flags.separated) :
    (l.scan src).Abreast src src' m (l'.scan src') := by
  obtain ⟨hadvances, hfollows⟩ := advances_of_isBoundary h.regular.sound h.boundary
  refine ⟨?_, ?_, ?_, h.regular.scan, h.regular'.scan, hfollows.boundary, hadvances.start_le⟩
  · rw [hscan, hscan', hlexeme]
    exact ⟨rfl, rfl, rfl, rfl, rfl, lineBreak, separated⟩
  · rw [hscan, hscan', hlexeme]
    exact congrArg (ModeChange.apply lexeme.change) h.modes
  · rw [hscan, hscan', hlexeme]
    have reported (e : LexError × Bounds) :
        (move m e).1.diagnostic (move m e).2.span = move m (e.1.diagnostic e.2.span) :=
      congrArg e.1.diagnostic (move_ofBounds m e.2.start e.2.stop).symm
    have errors : (move m lexeme.errors).map (fun e => e.1.diagnostic e.2.span)
        = (lexeme.errors.map fun e => e.1.diagnostic e.2.span).map (move m) := by
      rw [show move m lexeme.errors = lexeme.errors.map (move m) from rfl, List.map_map, List.map_map]
      exact List.map_congr_left fun e _ => reported e
    change l'.log ++ (move m lexeme.errors).map (fun e => e.1.diagnostic e.2.span)
      = Array.map (move m) (l.log ++ lexeme.errors.map fun e => e.1.diagnostic e.2.span)
    rw [errors, h.log]
    exact Array.toList_inj.1 (by simp)

/-- The next token is the same if it ends in an excerpt. -/
lemma scan (w : src.Excerpt src' m lo hi) (hlo : lo ≤ l.pos) (hhi : l.pos ≤ hi)
    (hstop : (l'.scan src').pos ≤ m.pos hi) :
    (l.scan src).Abreast src src' m (l'.scan src') ∧ (l.scan src).pos ≤ hi := by
  have hread := w.read l.modes hlo hhi h.boundary (by
    rw [← h.modes, ← h.same.pos]
    exact hstop)
  have hscan' : l'.scan src' = l'.accept (m.pos (Lexeme.read src l.modes l.pos).1)
      (move m (Lexeme.read src l.modes l.pos).2) := by
    unfold Lexer.scan
    rw [h.modes, h.same.pos, hread]
  refine ⟨h.accept rfl hscan' rfl rfl rfl, ?_⟩
  rw [hscan'] at hstop
  exact Source.Excerpt.pos_le.1 hstop

/-- A `>` is joined to what touches it in the excerpt. -/
lemma joinGreater (w : src.Excerpt src' m lo hi) (hlo : lo ≤ l.pos) (hhi : l.pos ≤ hi) :
    (l.joinGreater src).Abreast src src' m (l'.joinGreater src')
      ∧ (l.joinGreater src).start = l.start ∧ (l.joinGreater src).pos ≤ hi := by
  obtain ⟨hjoin', hle⟩ := w.joinGreater? hlo hhi
  have regular := h.regular.joinGreater
  have regular' := h.regular'.joinGreater
  unfold Lexer.joinGreater at regular regular' ⊢
  rw [h.same.kind, h.same.pos, hjoin'] at regular' ⊢
  split
  case isFalse => exact ⟨h, rfl, hhi⟩
  case isTrue hgreater =>
    rw [if_pos hgreater] at regular regular'
    cases hjoin : Punctuation.joinGreater? src l.pos with
    | none => exact ⟨h, rfl, hhi⟩
    | some found =>
      obtain ⟨p, stop⟩ := found
      obtain ⟨hstop, hlt, -⟩ := Punctuation.joinGreater?_stop hjoin
      rw [hjoin] at regular regular'
      refine ⟨⟨{ h.same with pos := rfl, kind := rfl }, h.modes, h.log, regular, regular', hstop, ?_⟩,
        rfl, hle _ hjoin⟩
      exact Nat.le_trans h.start_le (Nat.le_of_lt hlt)

lemma addFlags {flags flags' : TokenFlags} (lineBreak : flags'.lineBreak = flags.lineBreak)
    (separated : flags'.separated = flags.separated) :
    (l.addFlags flags).Abreast src src' m (l'.addFlags flags') where
  same := { h.same with
    lineBreak := by
      change (l'.flags.lineBreak || flags'.lineBreak) = (l.flags.lineBreak || flags.lineBreak)
      rw [h.same.lineBreak, lineBreak]
    separated := by
      change (l'.flags.union flags').separated = (l.flags.union flags).separated
      rw [TokenFlags.separated_union, TokenFlags.separated_union, h.same.separated, separated] }
  modes := h.modes
  log := h.log
  regular := h.regular.addFlags flags
  regular' := h.regular'.addFlags flags'
  boundary := h.boundary
  start_le := h.start_le

/-- Going back to an earlier token. -/
lemma restore (hk : k.Abreast src src' m k') :
    (l.restore k).Abreast src src' m (l'.restore k') where
  same := { h.same with }
  modes := h.modes
  log := by
    unfold Lexer.restore
    dsimp only
    rw [hk.log, h.log, Array.size_map]
    exact Array.toList_inj.1 (by simp)
  regular := ⟨⟨h.regular.sound.stacked, h.regular.sound.placed⟩,
    fun hkind => ⟨hkind, (h.regular.ended hkind).pos, (h.regular.ended hkind).modes⟩,
    h.regular.greater⟩
  regular' := ⟨⟨h.regular'.sound.stacked, h.regular'.sound.placed⟩,
    fun hkind => ⟨hkind, (h.regular'.ended hkind).pos, (h.regular'.ended hkind).modes⟩,
    h.regular'.greater⟩
  boundary := h.boundary
  start_le := h.start_le

lemma isModifierWord : l'.isModifierWord = l.isModifierWord := by
  rw [Lexer.isModifierWord, Lexer.isModifierWord, h.same.kind, h.same.value]

end Lexer.Abreast

/-- A relation between the lexers in two texts that stays whatever both of them do. -/
structure Lexer.Bisimulation (src src' : Source) (m : Move) (R : Lexer → Lexer → Prop) : Prop where
  abreast : ∀ {l l'}, R l l' → l.Abreast src src' m l'
  /-- The current token stands in an excerpt. -/
  inside : ∀ {l l'}, R l l' → ∃ lo hi, src.Excerpt src' m lo hi ∧ lo ≤ l.start ∧ l.pos ≤ hi
  scan : ∀ {l l'}, R l l' → R (l.scan src) (l'.scan src')
  joinGreater : ∀ {l l'}, R l l' → R (l.joinGreater src) (l'.joinGreater src')
  addFlags : ∀ {l l'} {flags flags' : TokenFlags}, R l l' → flags'.lineBreak = flags.lineBreak →
    flags'.separated = flags.separated → R (l.addFlags flags) (l'.addFlags flags')
  restore : ∀ {l l' k k'}, R l l' → R k k' → R (l.restore k) (l'.restore k')
  size_eq : src'.size = m.pos src.size
  counts : m.counts = ⟨0, 0, 0, 0⟩

/-- Where the one text is the end of the other one, lexers at the same token stay so. -/
lemma Source.Excerpt.bisimulation (w : src.Excerpt src' m 0 src.size)
    (size_eq : src'.size = m.pos src.size) (counts : m.counts = ⟨0, 0, 0, 0⟩) :
    Lexer.Bisimulation src src' m (Lexer.Abreast src src' m) where
  abreast h := h
  inside h := ⟨0, src.size, w, Nat.zero_le _, le_size_of_isBoundary h.boundary⟩
  scan h := (h.scan w (Nat.zero_le _) (le_size_of_isBoundary h.boundary)
    (size_eq ▸ h.regular'.sound.advances.le_size)).1
  joinGreater h := (h.joinGreater w (Nat.zero_le _) (le_size_of_isBoundary h.boundary)).1
  addFlags h := h.addFlags
  restore h hk := h.restore hk
  size_eq := size_eq
  counts := counts

namespace Lexer

lemma ahead_lt_steps (src : Source) (l : Lexer) : l.ahead src < l.steps src := by
  unfold ahead Lexer.steps depth
  omega

/-- A character that belongs to no token is passed over. -/
lemma pos_lt_of_unknown (hpos : src.isBoundary l.pos)
    (hkind : (l.scan src).kind = .unknown) : l.pos < (l.scan src).pos := by
  cases hmode : Mode.top l.modes with
  | text quote multiLine =>
    rw [scan_of_text hmode] at hkind
    change (StringText.read src quote multiLine l.pos).kind = .unknown at hkind
    unfold StringText.read StringText.unterminated at hkind
    split at hkind
    · exact nomatch hkind
    split at hkind
    · exact nomatch hkind
    split at hkind
    · exact nomatch hkind
    split at hkind <;> exact nomatch hkind
  | code braces =>
    have hcode : (Mode.top l.modes).isCode := by rw [hmode]; rfl
    obtain ⟨hstart, hle⟩ := Gap.stop_read hpos
    obtain ⟨lexeme, e, ⟨-, rfl⟩ | ⟨first, hfirst, rfl⟩⟩ := scan_of_code src hcode
    · rw [e] at hkind
      exact nomatch Lexeme.endOfFile_kind.symm.trans hkind
    · rw [e]
      obtain hlt | ⟨-, -, hends⟩ := (Lexeme.stands_readCode hstart hfirst hcode).moves
      · exact Nat.lt_of_le_of_lt hle hlt
      · exact absurd (hends first hfirst) (by simp [Gap.not_isLineBreak_stop hfirst])

namespace Bisimulation

variable (b : Bisimulation src src' m R) (h : R l l')

include b h

lemma scanKnown_go {skipped skipped' : TokenFlags} (hsteps : src.size - l.pos < steps)
    (hsteps' : src'.size - l'.pos < steps') (lineBreak : skipped'.lineBreak = skipped.lineBreak)
    (separated : skipped'.separated = skipped.separated) :
    R (scanKnown.go src steps skipped l) (scanKnown.go src' steps' skipped' l') := by
  induction steps generalizing steps' skipped skipped' l l' with
  | zero => omega
  | succ steps ih =>
    obtain ⟨steps', rfl⟩ := Nat.exists_eq_add_one.2 (Nat.zero_lt_of_lt hsteps')
    have here := b.abreast h
    have next := b.abreast (b.scan h)
    have hsize := here.regular.sound.advances.le_size
    have hsize' := here.regular'.sound.advances.le_size
    rw [scanKnown.go, scanKnown.go, next.same.kind]
    split
    case isTrue hkind =>
      have hlt := pos_lt_of_unknown here.boundary hkind
      have hlt' : l'.pos < (l'.scan src').pos := by
        rw [here.same.pos, next.same.pos]
        exact m.strict hlt
      refine ih (b.scan h) (by omega) (by omega) ?_ ?_
      · change (_ || _) = (_ || _)
        rw [lineBreak]
        exact congrArg _ next.same.lineBreak
      · rw [TokenFlags.separated_union, TokenFlags.separated_union, separated]
        simp [TokenFlags.separated]
    case isFalse => exact b.addFlags (b.scan h) lineBreak separated

/-- The next known token is the same. -/
theorem scanKnown : R (l.scanKnown src) (l'.scanKnown src') :=
  b.scanKnown_go h (Nat.lt_succ_of_le (Nat.sub_le _ _)) (Nat.lt_succ_of_le (Nat.sub_le _ _)) rfl rfl

lemma atModifier : l'.atModifier src' = l.atModifier src := by
  have next := (b.abreast (b.scan h)).same
  unfold Lexer.atModifier
  dsimp only
  rw [(b.abreast h).isModifierWord, next.kind, next.lineBreak]

/-- The searches ahead come closer to their ends in both texts, or both texts end. -/
lemma ahead_scan : (l.scan src).kind = .endOfFile ∧ (l'.scan src').kind = .endOfFile
    ∨ (l.scan src).kind ≠ .endOfFile ∧ (l.scan src).ahead src < l.ahead src
      ∧ (l'.scan src').ahead src' < l'.ahead src' := by
  have here := b.abreast h
  have hkind := (b.abreast (b.scan h)).same.kind
  by_cases hend : (l.scan src).kind = .endOfFile
  · exact .inl ⟨hend, hkind.trans hend⟩
  · exact .inr ⟨hend, here.regular.sound.advances.ahead_lt hend,
      here.regular'.sound.advances.ahead_lt (hkind ▸ hend)⟩

lemma kindAfterModifiers_go (hsteps : l.ahead src < steps) (hsteps' : l'.ahead src' < steps') :
    kindAfterModifiers.go src' steps' l' = kindAfterModifiers.go src steps l := by
  have ended {src : Source} {steps : Nat} {l : Lexer} (hend : l.kind = .endOfFile) :
      kindAfterModifiers.go src steps l = .endOfFile := by
    cases steps with
    | zero => exact hend
    | succ steps => simp [kindAfterModifiers.go, Lexer.isModifierWord, hend]
  induction steps generalizing steps' l l' with
  | zero => omega
  | succ steps ih =>
    obtain ⟨steps', rfl⟩ := Nat.exists_eq_add_one.2 (Nat.zero_lt_of_lt hsteps')
    have here := b.abreast h
    rw [kindAfterModifiers.go, kindAfterModifiers.go, here.isModifierWord, here.same.kind]
    split
    · obtain ⟨hend, hend'⟩ | ⟨-, hlt, hlt'⟩ := b.ahead_scan h
      · rw [ended hend, ended hend']
      · exact ih (b.scan h) (by omega) (by omega)
    · rfl

lemma macroPackageAhead_go (hsteps : l.ahead src < steps) (hsteps' : l'.ahead src' < steps') :
    macroPackageAhead.go src' steps' l' = macroPackageAhead.go src steps l := by
  have ended {src : Source} {steps : Nat} {l : Lexer} (hended : l.Ended src) :
      macroPackageAhead.go src steps l = false := by
    cases steps with
    | zero => rfl
    | succ steps => simp [macroPackageAhead.go, hended.kind, hended.scan.1.kind]
  induction steps generalizing steps' l l' with
  | zero => omega
  | succ steps ih =>
    obtain ⟨steps', rfl⟩ := Nat.exists_eq_add_one.2 (Nat.zero_lt_of_lt hsteps')
    have next := b.abreast (b.scan h)
    rw [macroPackageAhead.go, macroPackageAhead.go, (b.abreast h).same.kind, next.same.kind]
    split
    · rfl
    · obtain ⟨hend, hend'⟩ | ⟨-, hlt, hlt'⟩ := b.ahead_scan h
      · rw [ended (next.regular.ended hend), ended (next.regular'.ended hend')]
      · exact ih (b.scan h) (by omega) (by omega)

lemma behindPath?_go (hsteps : l.ahead src < steps) (hsteps' : l'.ahead src' < steps') :
    Option.Rel R (behindPath?.go src steps l) (behindPath?.go src' steps' l') := by
  induction steps generalizing steps' l l' with
  | zero => omega
  | succ steps ih =>
    obtain ⟨steps', rfl⟩ := Nat.exists_eq_add_one.2 (Nat.zero_lt_of_lt hsteps')
    have hname := b.scan h
    have hnext := b.scan hname
    rw [behindPath?.go, behindPath?.go]
    dsimp only
    rw [(b.abreast hname).same.kind, (b.abreast hnext).same.kind]
    split
    case isFalse => exact .none
    case isTrue hidentifier =>
      obtain ⟨hend, -⟩ | ⟨-, hlt, hlt'⟩ := b.ahead_scan h
      · simp [hend, Kind.isIdentifier] at hidentifier
      split
      case isFalse => exact .some hnext
      case isTrue hdot =>
        obtain ⟨hend, -⟩ | ⟨-, hlt₂, hlt₂'⟩ := b.ahead_scan hname
        · simp [hend] at hdot
        exact ih hnext (by omega) (by omega)

lemma closingBracket?_go {depth : Nat} (hsteps : l.ahead src < steps)
    (hsteps' : l'.ahead src' < steps') :
    Option.Rel R (closingBracket?.go src steps depth l) (closingBracket?.go src' steps' depth l') := by
  induction steps generalizing steps' depth l l' with
  | zero => omega
  | succ steps ih =>
    obtain ⟨steps', rfl⟩ := Nat.exists_eq_add_one.2 (Nat.zero_lt_of_lt hsteps')
    have hnext := b.scan h
    unfold closingBracket?.go
    dsimp only
    rw [(b.abreast hnext).same.kind]
    obtain ⟨hend, -⟩ | ⟨-, hlt, hlt'⟩ := b.ahead_scan h
    · rw [hend]
      exact .none
    have hrest (depth : Nat) : Option.Rel R (closingBracket?.go src steps depth (l.scan src))
        (closingBracket?.go src' steps' depth (l'.scan src')) :=
      ih hnext (by omega) (by omega)
    split
    · exact hrest _
    · exact .some hnext
    · exact hrest _
    · exact .none
    · exact hrest _

/-! ## What is found -/

lemma kindAfterModifiers : l'.kindAfterModifiers src' = l.kindAfterModifiers src :=
  b.kindAfterModifiers_go h (ahead_lt_steps src l) (ahead_lt_steps src' l')

lemma macroPackageAhead : l'.macroPackageAhead src' = l.macroPackageAhead src :=
  b.macroPackageAhead_go h (ahead_lt_steps src l) (ahead_lt_steps src' l')

lemma behindPath? : Option.Rel R (l.behindPath? src) (l'.behindPath? src') :=
  b.behindPath?_go h (ahead_lt_steps src l) (ahead_lt_steps src' l')

lemma closingBracket? : Option.Rel R (l.closingBracket? src) (l'.closingBracket? src') :=
  b.closingBracket?_go h (ahead_lt_steps src l) (ahead_lt_steps src' l')

lemma atMacroCall : l'.atMacroCall src' = l.atMacroCall src := by
  have hpath := b.behindPath? h
  unfold Lexer.atMacroCall
  dsimp only
  generalize l.behindPath? src = found at hpath ⊢
  generalize l'.behindPath? src' = found' at hpath ⊢
  cases hpath with
  | none => rfl
  | @some next next' hnext =>
    have hclosing := b.closingBracket? hnext
    have seen {k k' : Lexer} (hk : R k k') :
        (k'.kind == .mark .openParen && !k'.flags.lineBreak)
          = (k.kind == .mark .openParen && !k.flags.lineBreak) := by
      rw [(b.abreast hk).same.kind, (b.abreast hk).same.lineBreak]
    have same := (b.abreast hnext).same
    simp only [Option.bind_eq_bind, Option.bind_some, same.kind, same.lineBreak]
    split
    · generalize next.closingBracket? src = found at hclosing ⊢
      generalize next'.closingBracket? src' = found' at hclosing ⊢
      cases hclosing with
      | none => rfl
      | some hclosing => exact seen (b.scan hclosing)
    · exact seen hnext

lemma text : l'.span.text? src' = l.span.text? src := by
  obtain ⟨lo, hi, hw, hlo, hhi⟩ := b.inside h
  have here := b.abreast h
  have hle' : l'.start ≤ l'.pos := by
    rw [here.same.start, here.same.pos]
    exact Source.Excerpt.pos_le.2 here.start_le
  unfold Span.text? Lexer.span
  rw [Span.stop_ofBounds here.start_le, Span.stop_ofBounds hle', Span.start_ofBounds,
    Span.start_ofBounds, here.same.start, here.same.pos]
  exact hw.slice? hlo here.start_le hhi

lemma literal : Literal.ofToken src' l'.token = Literal.ofToken src l.token := by
  obtain ⟨lo, hi, hw, hlo, hhi⟩ := b.inside h
  have here := b.abreast h
  have hhashes := (hw.hashes hlo (Nat.le_trans here.start_le hhi)).1
  unfold Literal.ofToken token span
  dsimp only
  rw [here.same.kind, here.same.value, here.same.suffix, Span.start_ofBounds, Span.start_ofBounds,
    here.same.start, hhashes]

theorem sees : l.SeesAlike src src' l' where
  peek := (b.abreast (b.scan h)).same.kind
  atModifier := b.atModifier h
  atMacroCall := b.atMacroCall h
  kindAfterModifiers := b.kindAfterModifiers h
  macroPackageAhead := b.macroPackageAhead h
  literal := b.literal h
  text := b.text h

end Bisimulation

end Lexer

end CangjieSyntax
