import CangjieSyntax.Proofs.Token.Joining

/-!
# Progress from token to token

Each token starts further on than the one before it, unless it is the end of the text: a token takes
up text, or it ends a string in front of a line break or of the end of the text, and the gap behind
it then passes over the break.
-/

namespace CangjieSyntax

variable {src : Source} {l m : Lexer} {pos : Nat} {b : UInt8}

/-- A gap takes in the line breaks in it. -/
lemma Gap.not_isLineBreak_stop (h : src.byteAt (read src pos).stop = some b) :
    Byte.isLineBreak b = false := by
  fun_induction read src pos with
  | case1 pos hnone => simp [hnone] at h
  | case2 _ _ _ _ _ ih => exact ih h
  | case3 _ _ _ _ _ _ ih => exact ih h
  | case4 _ _ _ _ _ _ _ ih => exact ih h
  | case5 _ _ _ _ _ _ _ _ _ ih => exact ih h
  | case6 pos b' hb hbreak =>
    obtain rfl : b' = b := Option.some.inj (hb.symm.trans h)
    exact Bool.eq_false_iff.2 hbreak

namespace Lexer

/-- The current token takes up text, it is the end of the text, or a line ends behind it, in
code. -/
structure Stretches (src : Source) (l : Lexer) : Prop where
  start_le : l.start ≤ l.pos
  moves : l.start < l.pos ∨ l.kind = .endOfFile ∨ (Mode.top l.modes).isCode ∧ src.EndsLine l.pos

/-- The token of `m` is further on than that of `l`. -/
def Passes (l m : Lexer) : Prop :=
  m.kind = .endOfFile ∨ l.start < m.start

namespace Stretches

lemma scan (h : l.Sound src) : (l.scan src).Stretches src := by
  refine ⟨h.advances.start_le, ?_⟩
  by_cases hpos : src.isBoundary l.pos
  · cases hmode : Mode.top l.modes with
    | text quote multiLine =>
      have htext : (Mode.top l.modes).isCode = false := by rw [hmode]; rfl
      have hlen := h.stacked.one_lt_length htext
      have hstands := StringText.stands_read quote multiLine hpos htext hlen
      rw [scan_of_text hmode]
      obtain hlt | ⟨hstop, hleave, hends⟩ := hstands.moves
      · exact .inl hlt
      · refine .inr (.inr ⟨?_, ?_⟩)
        · change (Mode.top (ModeChange.apply
            (StringText.read src quote multiLine l.pos).change l.modes)).isCode
          rw [hleave]
          exact h.stacked.isCode_tail htext
        · change src.EndsLine (StringText.read src quote multiLine l.pos).stop
          rw [hstop]
          exact hends
    | code braces =>
      have hcode : (Mode.top l.modes).isCode := by rw [hmode]; rfl
      obtain ⟨lexeme, e, ⟨-, rfl⟩ | ⟨first, hfirst, rfl⟩⟩ := scan_of_code src hcode
      · rw [e]
        exact .inr (.inl Lexeme.endOfFile_kind)
      · have hstands := Lexeme.stands_readCode (Gap.stop_read hpos).1 hfirst hcode
        rw [e]
        obtain hlt | ⟨-, -, hends⟩ := hstands.moves
        · exact .inl hlt
        · exact absurd (hends first hfirst) (by simp [Gap.not_isLineBreak_stop hfirst])
  · obtain ⟨hlt, hcode⟩ := h.placed.resolve_left hpos
    rw [scan_inside hpos hlt hcode]
    exact .inl (Nat.lt_succ_self l.pos)

lemma joinGreater (h : l.Stretches src) : (l.joinGreater src).Stretches src := by
  unfold Lexer.joinGreater
  split
  · split
    case h_1 p stop hjoin =>
      obtain ⟨-, hlt, -⟩ := Punctuation.joinGreater?_stop hjoin
      have hmoves := Nat.lt_of_le_of_lt h.start_le hlt
      exact ⟨Nat.le_of_lt hmoves, .inl hmoves⟩
    case h_2 => exact h
  · exact h

end Stretches

/-- The next token is further on. -/
lemma passes_scan (h : l.Sound src) (hl : l.Stretches src) (hkind : l.kind ≠ .endOfFile) :
    l.Passes (l.scan src) := by
  have hle := h.advances.le_start
  obtain hlt | hend | ⟨hcode, hends⟩ := hl.moves
  · exact .inr (Nat.lt_of_lt_of_le hlt hle)
  · exact absurd hend hkind
  · obtain ⟨lexeme, e, ⟨-, rfl⟩ | ⟨first, hfirst, rfl⟩⟩ := scan_of_code src hcode
    · rw [e]
      exact .inl Lexeme.endOfFile_kind
    · right
      rw [e] at hle ⊢
      -- The line ends in front of the gap, but not behind it.
      refine Nat.lt_of_le_of_ne (Nat.le_trans hl.start_le hle) fun hsame => ?_
      have hstop : (Gap.read src l.pos).stop = l.pos :=
        Nat.le_antisymm (Nat.le_trans (Nat.le_of_eq hsame.symm) hl.start_le) hle
      have hline := hends first (hstop ▸ hfirst)
      simp [Gap.not_isLineBreak_stop hfirst] at hline

/-- What holds of the next token, and of any token behind such a one, holds of the next known
one. -/
lemma scanKnown_of_first {P : Lexer → Prop} (first : P (l.scan src))
    (scan : ∀ m, P m → P (m.scan src)) (addFlags : ∀ m flags, P m → P (m.addFlags flags)) :
    P (l.scanKnown src) := by
  unfold scanKnown scanKnown.go
  dsimp only
  split
  · exact scanKnown_go_induction scan addFlags _ _ first
  · exact addFlags _ _ first

lemma Stretches.scanKnown (h : l.Regular src) : (l.scanKnown src).Stretches src := by
  have hall : (l.scanKnown src).Regular src ∧ (l.scanKnown src).Stretches src :=
    scanKnown_of_first (P := fun m => m.Regular src ∧ m.Stretches src)
      ⟨h.scan, .scan h.sound⟩ (fun m hm => ⟨hm.1.scan, .scan hm.1.sound⟩)
      (fun m flags hm => ⟨hm.1.addFlags flags, hm.2.start_le, hm.2.moves⟩)
  exact hall.2

/-- The next known token is of a kind that a scan comes to. -/
lemma Remains.kind_scanKnown {allowed : Kind → Prop} {log : Log} (h : l.Regular src)
    (hremains : Remains src allowed log l) : allowed (l.scanKnown src).kind := by
  obtain ⟨hnext, hkind⟩ := hremains.scan h.sound
  have hall : (l.scanKnown src).Regular src ∧ Remains src allowed log (l.scanKnown src)
      ∧ allowed (l.scanKnown src).kind :=
    scanKnown_of_first (P := fun m => m.Regular src ∧ Remains src allowed log m ∧ allowed m.kind)
      ⟨h.scan, hnext, hkind⟩ (fun m hm => ⟨hm.1.scan, hm.2.1.scan hm.1.sound⟩)
      (fun m flags hm => ⟨hm.1.addFlags flags, hm.2.1.addFlags flags, hm.2.2⟩)
  exact hall.2.2

/-- The next known token is further on. -/
theorem passes_scanKnown (h : l.Regular src) (hl : l.Stretches src) (hkind : l.kind ≠ .endOfFile) :
    l.Passes (l.scanKnown src) := by
  have hscan (m : Lexer) (hm : m.Regular src) (hmoves : m.start ≤ m.pos) (hpasses : l.Passes m) :
      l.Passes (m.scan src) := by
    obtain hend | hlt := hpasses
    · exact .inl (hm.ended hend).scan.1.kind
    · exact .inr (Nat.lt_of_lt_of_le hlt (Nat.le_trans hmoves hm.sound.advances.le_start))
  have hall : (l.scanKnown src).Regular src ∧ (l.scanKnown src).start ≤ (l.scanKnown src).pos
      ∧ l.Passes (l.scanKnown src) :=
    scanKnown_of_first (P := fun m => m.Regular src ∧ m.start ≤ m.pos ∧ l.Passes m)
      ⟨h.scan, h.sound.advances.start_le, passes_scan h.sound hl hkind⟩
      (fun m hm => ⟨hm.1.scan, hm.1.sound.advances.start_le, hscan m hm.1 hm.2.1 hm.2.2⟩)
      (fun m flags hm => ⟨hm.1.addFlags flags, hm.2.1, hm.2.2⟩)
  exact hall.2.2

end Lexer

end CangjieSyntax
