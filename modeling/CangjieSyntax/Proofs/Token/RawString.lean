import CangjieSyntax.Proofs.Token.Access
import CangjieSyntax.Proofs.Token.Gap

/-!
# Raw strings

Where a raw string ends is said here without a search: `src.Closes quote n pos` says that a quote
stands at an offset with at least `n` hash signs behind it, and `src.ClosesFirst` that it is the
first one. The lexer takes what stands in front of it, or else the rest of the text.
-/

namespace CangjieSyntax

variable {src : Source} {quote : Quote} {n pos i found start : Nat}

/-! ## Quotes with hash signs behind them -/

/-- So many hash signs stand at an offset, and perhaps more. -/
def Source.Hashes (src : Source) (n pos : Nat) : Prop :=
  ∀ i < n, src.byteAt (pos + i) = some 0x23

/-- A quote stands at an offset with at least `n` hash signs behind it. -/
structure Source.Closes (src : Source) (quote : Quote) (n pos : Nat) : Prop where
  quote : src.byteAt pos = some quote.byte
  hashes : src.Hashes n (pos + 1)

/-- The first offset from `pos` on where a quote has at least `n` hash signs behind it. -/
structure Source.ClosesFirst (src : Source) (quote : Quote) (n pos found : Nat) : Prop where
  le : pos ≤ found
  closes : src.Closes quote n found
  first : ∀ i, pos ≤ i → i < found → ¬src.Closes quote n i

namespace RawString

open Source

lemma hashes_none (h : src.byteAt pos ≠ some 0x23) : hashes src pos = 0 := by
  unfold hashes
  cases hb : src.byteAt pos with
  | none => rw [skipWhile_none hb, Nat.sub_self]
  | some b =>
    have hb' : (b == 0x23) = false := beq_eq_false_iff_ne.2 fun e => h (hb.trans (congrArg some e))
    rw [skipWhile_neg hb hb', Nat.sub_self]

lemma hashes_succ (h : src.byteAt pos = some 0x23) : hashes src pos = hashes src (pos + 1) + 1 := by
  have hle := src.le_skipWhile (· == 0x23) (pos + 1)
  unfold hashes
  rw [skipWhile_pos h (by decide)]
  omega

/-- The signs that are counted are those that stand there. -/
lemma le_hashes_iff : n ≤ hashes src pos ↔ src.Hashes n pos := by
  induction n generalizing pos with
  | zero => exact ⟨fun _ _ h => absurd h (Nat.not_lt_zero _), fun _ => Nat.zero_le _⟩
  | succ n ih =>
    by_cases h : src.byteAt pos = some 0x23
    case pos =>
      rw [hashes_succ h, Nat.add_le_add_iff_right, ih]
      constructor
      · intro hall i hi
        cases i with
        | zero => exact h
        | succ i =>
          rw [Nat.add_comm i 1, ← Nat.add_assoc]
          exact hall i (Nat.lt_of_succ_lt_succ hi)
      · intro hall i hi
        rw [Nat.add_assoc, Nat.add_comm 1 i]
        exact hall (i + 1) (Nat.succ_lt_succ hi)
    case neg =>
      rw [hashes_none h]
      exact ⟨fun hle => absurd hle (Nat.not_succ_le_zero n),
        fun hall => absurd (hall 0 (Nat.succ_pos n)) h⟩

/-- Signs with something else behind them are all that are counted. -/
lemma hashes_eq (h : src.Hashes n pos) (hend : src.byteAt (pos + n) ≠ some 0x23) :
    hashes src pos = n := by
  refine Nat.le_antisymm ?_ (le_hashes_iff.2 h)
  by_contra hlt
  exact hend (le_hashes_iff.1 (Nat.lt_of_not_le hlt) n (Nat.lt_succ_self n))

/-- In front of the first quote, or of the end, nothing closes. -/
lemma not_closes_before {m : Nat} (hle : pos ≤ i)
    (hlt : i < (src.find? (· == quote.byte) pos).getD src.size) : ¬src.Closes quote m i := by
  intro hcloses
  have hsize := lt_size_of_byteAt hcloses.quote
  have hrun : i < src.skipWhile (fun b => !(b == quote.byte)) pos := by
    unfold Source.find? at hlt
    dsimp only at hlt
    split at hlt
    case isTrue => exact hlt
    case isFalse hend => omega
  obtain ⟨b, hb, hother⟩ := byteAt_in_run hle hrun
  obtain rfl := Option.some.inj (hb.symm.trans hcloses.quote)
  simp at hother

/-- The search finds the first quote that closes. -/
lemma closesFirst_of_closer? (h : closer? src quote n pos = some found) :
    src.ClosesFirst quote n pos found := by
  fun_induction closer? src quote n pos with
  | case1 => cases h
  | case2 pos mark hmark hfence =>
    cases h
    obtain ⟨b, hb, hquote⟩ := byteAt_of_find? hmark
    rw [beq_iff_eq.1 hquote] at hb
    exact ⟨(find?_bounds hmark).1, ⟨hb, le_hashes_iff.1 hfence⟩,
      fun i hle hlt => not_closes_before hle (by rwa [hmark])⟩
  | case3 pos mark hmark hfence ih =>
    obtain ⟨hle, hcloses, hfirst⟩ := ih h
    have hbounds := find?_bounds hmark
    refine ⟨by omega, hcloses, fun i hi hlt => ?_⟩
    -- The quote passed over has too few signs behind it.
    obtain hbefore | rfl | hbehind := Nat.lt_trichotomy i mark
    · exact not_closes_before hi (by rwa [hmark])
    · exact fun hthis => hfence (le_hashes_iff.2 hthis.hashes)
    · exact hfirst i hbehind hlt

/-- The search fails only where no quote closes. -/
lemma not_closes_of_closer? (h : closer? src quote n pos = none) (hle : pos ≤ i) :
    ¬src.Closes quote n i := by
  fun_induction closer? src quote n pos with
  | case1 pos hnone =>
    intro hcloses
    have hsize := lt_size_of_byteAt hcloses.quote
    exact not_closes_before hle (by rwa [hnone]) hcloses
  | case2 => cases h
  | case3 pos mark hmark hfence ih =>
    obtain hbefore | rfl | hbehind := Nat.lt_trichotomy i mark
    · exact not_closes_before hle (by rwa [hmark])
    · exact fun hthis => hfence (le_hashes_iff.2 hthis.hashes)
    · exact ih h hbehind

lemma closer?_eq_some_iff :
    closer? src quote n pos = some found ↔ src.ClosesFirst quote n pos found := by
  refine ⟨closesFirst_of_closer?, fun hfirst => ?_⟩
  cases h : closer? src quote n pos with
  | none => exact absurd hfirst.closes (not_closes_of_closer? h hfirst.le)
  | some found' =>
    have hfirst' := closesFirst_of_closer? h
    obtain hlt | rfl | hlt := Nat.lt_trichotomy found found'
    · exact absurd hfirst.closes (hfirst'.first found hfirst.le hlt)
    · rfl
    · exact absurd hfirst'.closes (hfirst.first found' hfirst'.le hlt)

lemma closer?_eq_none_iff :
    closer? src quote n pos = none ↔ ∀ i, pos ≤ i → ¬src.Closes quote n i := by
  refine ⟨fun h i => not_closes_of_closer? h, fun hnone => ?_⟩
  cases h : closer? src quote n pos with
  | none => rfl
  | some found =>
    have hfirst := closesFirst_of_closer? h
    exact absurd hfirst.closes (hnone found hfirst.le)

end RawString

/-! ## Gaps -/

/-- A comment that is not closed takes the rest of the text. -/
lemma BlockComment.Spans.stop_eq {outer stop : Nat} {closed : Bool}
    (h : Spans src outer pos stop closed) (hclosed : closed = false) : stop = src.size := by
  induction h with
  | unclosed => rfl
  | close => exact nomatch hclosed
  | skip _ _ _ _ ih | openInner _ _ ih | closeInner _ _ ih => exact ih hclosed

/-- In front of a token no comment is left open. -/
lemma Gap.errors_of_byteAt {b : UInt8} (h : src.byteAt (read src pos).stop = some b) :
    (read src pos).errors = [] := by
  fun_induction read src pos with
  | case1 | case6 => rfl
  | case2 _ _ _ _ _ ih | case3 _ _ _ _ _ _ ih | case4 _ _ _ _ _ _ _ ih => exact ih h
  | case5 pos d hd _ _ _ hopen comment rest ih =>
    have hstar : src.byteAt (pos + 1) = some 0x2A := by
      rw [Bool.and_eq_true, beq_iff_eq, beq_iff_eq] at hopen
      exact hopen.2
    have hspans := (BlockComment.spans_read src (pos + 2) 0 (Source.lt_size_of_byteAt hstar)).1
    cases hclosed : comment.closed with
    | true => exact ih h
    | false =>
      have hend : comment.stop = src.size := hspans.stop_eq hclosed
      have hrest : rest = { stop := src.size } := by
        dsimp only [rest]
        rw [hend, Gap.read]
        split
        case h_1 => rfl
        case h_2 _ e => exact absurd ((Source.byteAt_size src).symm.trans e) (by simp)
      change src.byteAt rest.stop = some b at h
      rw [hrest, Source.byteAt_size] at h
      cases h

/-! ## The token -/

/-- What one step of the lexer makes of `n` hash signs and a quote that start a token at an offset:
a raw string up to the first quote that closes it, or up to the end of the text. -/
structure Lexer.TakesRawString (src : Source) (quote : Quote) (n start : Nat) (l m : Lexer) :
    Prop where
  kind : m.kind = .rawStringLiteral
  starts : m.start = start
  modes : m.modes = l.modes
  lineBreak : m.flags.lineBreak = (Gap.read src l.pos).lineBreak
  /-- Without a report, what stands in front of the quote is the value. -/
  closed : ∀ found, src.ClosesFirst quote n (start + n + 1) found →
    m.pos = found + 1 + n ∧ src.slice? (start + n + 1) found = some m.value
      ∧ m.flags.unterminated = false ∧ m.log = l.log
  /-- The one report is at the first quote with any hash signs behind it, or at the fence. -/
  unclosed : (∀ i, start + n + 1 ≤ i → ¬src.Closes quote n i) →
    m.pos = src.size ∧ src.slice? (start + n + 1) src.size = some m.value
      ∧ m.flags.unterminated = true ∧ ∃ (e : LexError) (place : Span),
      m.log = l.log.push (e.diagnostic place)
        ∧ (∀ found, src.ClosesFirst quote 1 (start + n + 1) found → ∃ short,
          src.Hashes short (found + 1) ∧ src.byteAt (found + 1 + short) ≠ some 0x23
            ∧ e = .rawStringFenceMismatch n short ∧ place = .ofBounds found (found + 1 + short))
        ∧ ((∀ i, start + n + 1 ≤ i → ¬src.Closes quote 1 i) →
          e = .unterminatedRawString quote.char n ∧ place = .ofBounds start (start + n + 1))

namespace Lexer

variable {l : Lexer} {braces : Nat}

/-- Hash signs with a quote behind them are read as a raw string. -/
lemma scan_eq_rawString (hmode : Mode.top l.modes = .code braces) (hn : 0 < n)
    (hhashes : src.Hashes n (Gap.read src l.pos).stop)
    (hquote : src.byteAt ((Gap.read src l.pos).stop + n) = some quote.byte) :
    l.scan src = l.accept (Gap.read src l.pos).stop
      { RawString.read src n quote (Gap.read src l.pos).stop with
        flags := (Gap.read src l.pos).flags.union
          (RawString.read src n quote (Gap.read src l.pos).stop).flags } := by
  have hfirst : src.byteAt (Gap.read src l.pos).stop = some 0x23 := hhashes 0 hn
  have hcount : RawString.hashes src (Gap.read src l.pos).stop = n :=
    RawString.hashes_eq hhashes (by rw [hquote]; cases quote <;> decide)
  have hof : Quote.ofByte? quote.byte = some quote := by cases quote <;> rfl
  have hread (modes : List Mode) : Lexeme.readCode src modes (Gap.read src l.pos).stop 0x23
      = RawString.read src n quote (Gap.read src l.pos).stop := by
    have e : RawString.readHash src (Gap.read src l.pos).stop
        = RawString.read src n quote (Gap.read src l.pos).stop := by
      unfold RawString.readHash
      dsimp only
      rw [hcount, hquote, Option.bind_some, hof]
    exact e
  unfold scan Lexeme.read
  rw [hmode]
  dsimp only
  rw [hfirst, Gap.errors_of_byteAt hfirst, List.nil_append]
  dsimp only
  rw [hread]

lemma takesRawString_scan (hmode : Mode.top l.modes = .code braces) (hn : 0 < n)
    (hstart : (Gap.read src l.pos).stop = start) (hhashes : src.Hashes n start)
    (hquote : src.byteAt (start + n) = some quote.byte) :
    TakesRawString src quote n start l (l.scan src) := by
  subst hstart
  rw [scan_eq_rawString hmode hn hhashes hquote]
  have hbody : src.isBoundary ((Gap.read src l.pos).stop + n + 1) :=
    Source.isBoundary_behind_ascii hquote quote.ascii_byte
  have slice {stop : Nat} (hstop : src.isBoundary stop)
      (hle : (Gap.read src l.pos).stop + n + 1 ≤ stop) :
      src.slice? ((Gap.read src l.pos).stop + n + 1) stop
        = some (src.slice ((Gap.read src l.pos).stop + n + 1) stop) :=
    Source.slice?_of_isBoundary hbody hstop hle
  have hunion (single unterminated : Bool) : ((Gap.read src l.pos).flags.union
      { singleQuote := single, unterminated }).unterminated = unterminated :=
    Bool.false_or _
  refine ⟨?_, rfl, ?_, ?_, fun found hfound => ?_, fun hnone => ?_⟩
  · unfold RawString.read accept
    dsimp only
    split <;> rfl
  · unfold RawString.read accept
    dsimp only
    split <;> rfl
  · unfold RawString.read accept
    dsimp only
    split <;> exact Bool.or_false _
  · have hclosed := RawString.closer?_eq_some_iff.2 hfound
    have hboundary := Source.isBoundary_of_ascii hfound.closes.quote quote.ascii_byte
    unfold RawString.read
    dsimp only
    rw [hclosed]
    exact ⟨rfl, slice hboundary hfound.le, hunion _ _, Array.append_empty⟩
  · have hclosed := RawString.closer?_eq_none_iff.2 hnone
    have hsize := Source.le_size_of_isBoundary hbody
    unfold RawString.read
    dsimp only
    rw [hclosed]
    refine ⟨rfl, slice Source.isBoundary_size hsize, hunion _ _, _, _, rfl, fun found hshort => ?_,
      fun hshort => ?_⟩
    · rw [RawString.closer?_eq_some_iff.2 hshort]
      refine ⟨_, RawString.le_hashes_iff.1 (Nat.le_refl _), fun hmore => ?_, rfl, rfl⟩
      have hall : src.Hashes (RawString.hashes src (found + 1) + 1) (found + 1) := fun i hi => by
        obtain hlt | rfl := Nat.lt_succ_iff_lt_or_eq.1 hi
        · exact RawString.le_hashes_iff.1 (Nat.le_refl _) i hlt
        · exact hmore
      exact Nat.not_succ_le_self _ (RawString.le_hashes_iff.2 hall)
    · rw [RawString.closer?_eq_none_iff.2 hshort]
      exact ⟨rfl, rfl⟩

end Lexer

end CangjieSyntax
