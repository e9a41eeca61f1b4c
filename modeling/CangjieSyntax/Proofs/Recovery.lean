import CangjieSyntax.Proofs.Termination

/-!
# Passing over statements

After a fault the rest of a statement is passed over, up to the first place where one can end with no
bracket open. A single number counts the open brackets of all kinds. One of them may so be closed by
one of another kind, and a brace that closes the block around the statement is passed over behind a
parenthesis that is left open.
-/

namespace CangjieSyntax

variable {env : Env} {src : Source} {s t : ParseState} {must : Bool} {n : Nat}

/-! ## The tokens passed over -/

/-- An opening bracket of any kind. -/
def Kind.OpensBracket (k : Kind) : Prop :=
  k = .mark .openParen ∨ k = .mark .openBracket ∨ k = .mark .openBrace

/-- A token opens a bracket, closes one, or leaves their number as it is. -/
lemma Kind.bracketDepth_cases (depth : Nat) (k : Kind) :
    k.OpensBracket ∧ bracketDepth depth k = depth + 1 ∨ bracketDepth depth k = depth - 1
      ∨ bracketDepth depth k = depth := by
  unfold bracketDepth OpensBracket
  split <;> simp

namespace ParseState

/-- The state behind the next `n` tokens. -/
def ahead (src : Source) (s : ParseState) (n : Nat) : ParseState :=
  (advance src)^[n] s

/-- How many brackets that the next `n` tokens open are open behind them. -/
def openAhead (src : Source) (s : ParseState) : Nat → Nat
  | 0 => 0
  | n + 1 => Kind.bracketDepth (s.openAhead src n) (s.ahead src n).kind

/-- A statement ends behind the next `n` tokens, with a semicolon or in front of what is there. With
`must`, the end of a line does not count where no token has been passed over. -/
def EndsStatement (src : Source) (must : Bool) (s : ParseState) (n : Nat) : Prop :=
  (s.ahead src n).kind = .endOfFile ∨ s.openAhead src n = 0 ∧
    ((s.ahead src n).kind = .mark .closeBrace ∨ (s.ahead src n).kind = .interpolationEnd
      ∨ (s.ahead src n).kind = .mark .semicolon
      ∨ (must = true → n ≠ 0) ∧ (s.ahead src n).lexer.flags.lineBreak = true)

/-- The first place where a statement ends. -/
structure StopsAt (src : Source) (must : Bool) (s : ParseState) (n : Nat) : Prop where
  ends : s.EndsStatement src must n
  first : ∀ i < n, ¬s.EndsStatement src must i

/-- The state behind a statement that ends behind the next `n` tokens. A semicolon belongs to it. -/
def behindStatement (src : Source) (s : ParseState) (n : Nat) : ParseState :=
  if s.openAhead src n = 0 ∧ (s.ahead src n).kind = .mark .semicolon then s.ahead src (n + 1)
  else s.ahead src n

/-- The bracket at `j` is closed by the token at `i`: it is open all along between them, and no longer
behind that token. -/
structure Closes (src : Source) (s : ParseState) (j i : Nat) : Prop where
  opens : (s.ahead src j).kind.OpensBracket
  isOpen : ∀ m, j < m → m ≤ i → s.openAhead src j < s.openAhead src m
  closes : s.openAhead src (i + 1) = s.openAhead src j

lemma behindStatement_of_not
    (h : ¬(s.openAhead src n = 0 ∧ (s.ahead src n).kind = .mark .semicolon)) :
    s.behindStatement src n = s.ahead src n :=
  if_neg h

lemma ahead_succ (src : Source) (s : ParseState) (n : Nat) :
    s.ahead src (n + 1) = (s.ahead src n).advance src :=
  Function.iterate_succ_apply' _ n s

/-- Where brackets are open, one of them is the last to have been opened. -/
lemma exists_last_open (s : ParseState) (hopen : 0 < s.openAhead src n) :
    ∃ j < n, (s.ahead src j).kind.OpensBracket ∧ s.openAhead src n = s.openAhead src j + 1
      ∧ ∀ m, j < m → m ≤ n → s.openAhead src j < s.openAhead src m := by
  induction n using Nat.strongRecOn with
  | ind n ih =>
    cases n with
    | zero => exact absurd hopen (Nat.lt_irrefl 0)
    | succ n =>
      obtain ⟨hopens, e⟩ | e | e := Kind.bracketDepth_cases (s.openAhead src n) (s.ahead src n).kind
      all_goals change s.openAhead src (n + 1) = _ at e
      · refine ⟨n, n.lt_succ_self, hopens, e, fun m hlt hle => ?_⟩
        obtain rfl : m = n + 1 := by omega
        omega
      · -- The last bracket is closed, so that the one that was open in front of it is the last one.
        obtain ⟨j, hj, -, ej, hjn⟩ := ih n n.lt_succ_self (by omega)
        obtain ⟨i, hi, hopens, ei, hij⟩ := ih j (by omega) (by omega)
        refine ⟨i, by omega, hopens, by omega, fun m hlt hle => ?_⟩
        obtain hmj | hjm := Nat.lt_or_ge j m
        · obtain hmn | rfl : m ≤ n ∨ m = n + 1 := by omega
          · have := hjn m hmj hmn
            omega
          · omega
        · exact hij m hlt hjm
      · obtain ⟨j, hj, hopens, ej, hjn⟩ := ih n n.lt_succ_self (by omega)
        refine ⟨j, by omega, hopens, by omega, fun m hlt hle => ?_⟩
        obtain hmn | rfl : m ≤ n ∨ m = n + 1 := by omega
        · exact hjn m hlt hmn
        · omega

/-- A brace passed over closes a bracket opened on the way. -/
lemma StopsAt.exists_closes {i : Nat} (h : s.StopsAt src must n) (hi : i < n)
    (hbrace : (s.ahead src i).kind = .mark .closeBrace) : ∃ j < i, s.Closes src j i := by
  have hopen : s.openAhead src i ≠ 0 := fun hnone => h.first i hi (.inr ⟨hnone, .inl hbrace⟩)
  obtain ⟨j, hj, hopens, e, hbetween⟩ := exists_last_open s (Nat.pos_of_ne_zero hopen)
  refine ⟨j, hj, hopens, hbetween, ?_⟩
  rw [openAhead, hbrace, e]
  rfl

end ParseState

/-! ## The rule -/

namespace Rule

/-- A round passes over one token, unless the statement ends there. -/
lemma ensures_skipStatementRound (s : ParseState) (n : Nat) :
    Ensures env (s.ahead env.src n) (skipStatementRound (s.openAhead env.src n, must && n == 0))
      (Sum.elim
        (fun b t => ¬s.EndsStatement env.src must n ∧ t = s.ahead env.src (n + 1)
          ∧ b = (s.openAhead env.src (n + 1), must && n + 1 == 0))
        fun _ t => s.EndsStatement env.src must n ∧ t = s.behindStatement env.src n) := by
  have hadvance := s.ahead_succ env.src n
  unfold ParseState.EndsStatement
  refine .view ?_
  split
  case isTrue hend =>
    have hend := eq_of_beq hend
    exact .pure ⟨.inl hend, (ParseState.behindStatement_of_not (by simp [hend])).symm⟩
  case isFalse hend =>
    rw [beq_iff_eq] at hend
    split
    case isTrue hclose =>
      simp only [Bool.and_eq_true, Bool.or_eq_true, beq_iff_eq] at hclose
      obtain ⟨hnone, hclose⟩ := hclose
      refine .pure ⟨.inr ⟨hnone, hclose.imp_right .inl⟩, (ParseState.behindStatement_of_not ?_).symm⟩
      obtain hclose | hclose := hclose <;> simp [hclose]
    case isFalse hclose =>
      simp only [Bool.and_eq_true, Bool.or_eq_true, beq_iff_eq] at hclose
      split
      case isTrue hsemicolon =>
        simp only [Bool.and_eq_true, beq_iff_eq] at hsemicolon
        refine .advance (.pure ⟨.inr ⟨hsemicolon.1, .inr (.inr (.inl hsemicolon.2))⟩, ?_⟩)
        rw [ParseState.behindStatement, if_pos hsemicolon, hadvance]
      case isFalse hsemicolon =>
        simp only [Bool.and_eq_true, beq_iff_eq] at hsemicolon
        -- That a token is passed over first is told by the place where the round starts.
        have hbreaks (hnone : s.openAhead env.src n = 0) : (s.openAhead env.src n == 0
            && !(must && n == 0) && (s.ahead env.src n).lexer.flags.lineBreak) = true
              ↔ (must = true → n ≠ 0) ∧ (s.ahead env.src n).lexer.flags.lineBreak = true := by
          cases must <;> simp [hnone]
        refine .view ?_
        split
        case isTrue hbreak =>
          have hnone : s.openAhead env.src n = 0 := by
            simp only [Bool.and_eq_true, beq_iff_eq] at hbreak
            exact hbreak.1.1
          have hline := (hbreaks hnone).1 hbreak
          exact .pure ⟨.inr ⟨hnone, .inr (.inr (.inr hline))⟩,
            (ParseState.behindStatement_of_not hsemicolon).symm⟩
        case isFalse hbreak =>
          refine .advance (.pure ⟨?_, hadvance.symm, ?_⟩)
          · rintro (hfile | ⟨hnone, hbrace | hhole | hmark | hline⟩)
            · exact hend hfile
            · exact hclose ⟨hnone, .inl hbrace⟩
            · exact hclose ⟨hnone, .inr hhole⟩
            · exact hsemicolon ⟨hnone, hmark⟩
            · exact hbreak ((hbreaks hnone).2 hline)
          · simp [ParseState.openAhead]

/-- Passing over the rest of a statement leads to the first place where one ends. -/
lemma ensures_skipStatement_stops (s : ParseState) (must : Bool) :
    Ensures env s (skipStatement must) fun _ t => ∃ n, s.StopsAt env.src must n
      ∧ t = { s.behindStatement env.src n with muted := false } := by
  refine Ensures.bind (P := fun _ t => ∃ n, s.StopsAt env.src must n
    ∧ t = s.behindStatement env.src n) ?_ fun _ t ⟨n, hn, e⟩ => ?_
  · refine Ensures.loop_invariant (R := fun b t => ∃ n, (∀ i < n, ¬s.EndsStatement env.src must i)
      ∧ t = s.ahead env.src n ∧ b = (s.openAhead env.src n, must && n == 0)) ?_
      ⟨0, fun _ h => absurd h (Nat.not_lt_zero _), rfl, by simp [ParseState.openAhead]⟩
    rintro _ _ ⟨n, hfirst, rfl, rfl⟩
    refine Ensures.mono (fun next t h => ?_) (ensures_skipStatementRound s n)
    cases next with
    | inl b =>
      obtain ⟨hnot, e, hb⟩ := h
      refine ⟨n + 1, fun i hi => ?_, e, hb⟩
      obtain hlt | rfl := Nat.lt_succ_iff_lt_or_eq.1 hi
      · exact hfirst i hlt
      · exact hnot
    | inr => exact ⟨n, ⟨h.1, hfirst⟩, h.2⟩
  · rintro _ _ ⟨⟩
    exact ⟨n, hn, by rw [e]⟩

/-- In a parse the rest of a statement is passed over up to the first place where one ends. Each brace
passed over closes a bracket opened on the way there, whatever its kind is. -/
theorem skipStatement_stops (hfresh : s.Fresh env.src) (hvisits : Visits env (s.advance env.src) t)
    (must : Bool) : ∃ n, t.StopsAt env.src must n
      ∧ skipStatement must env t = some ((), { t.behindStatement env.src n with muted := false })
      ∧ ∀ i < n, (t.ahead env.src i).kind = .mark .closeBrace → ∃ j < i, t.Closes env.src j i := by
  obtain ⟨⟨⟩, u, hrun⟩ := finishes_skipStatement (J := Region.behind env s.lexer) (fun h => h.2.1)
    (hfresh.visits hvisits) must
  obtain ⟨n, hn, e⟩ := ensures_skipStatement_stops t must _ u hrun
  exact ⟨n, hn, e ▸ hrun, fun i hi hbrace => hn.exists_closes hi hbrace⟩

end Rule

/-- Behind a parenthesis that is left open, the brace that ends the block of a function is passed over,
and the function behind it becomes an item of the block. -/
example : (parseFile "func f() \x7b\nx y (\n\x7d\nfunc g() \x7b\x7d".toUTF8 {}).map
    (fun p => p.tree.items.length) = some 1 := by
  decide +kernel

end CangjieSyntax
