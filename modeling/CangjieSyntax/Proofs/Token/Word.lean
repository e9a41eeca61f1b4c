import CangjieSyntax.Proofs.Source.Chars
import CangjieSyntax.Token.Word

/-!
# Words are not empty

A character that starts an identifier continues one as well, so that a word that starts somewhere
has at least that character.
-/

namespace CangjieSyntax

namespace Unicode

/-- Whether the ranges of the second list run out when each range of the first one in turn takes
away those in front that lie inside it. -/
def covers : List (Nat × Nat) → List (Nat × Nat) → Bool
  | [], inner => inner.isEmpty
  | q :: outer, inner => covers outer (inner.dropWhile fun r => q.1 ≤ r.1 && r.2 ≤ q.2)

lemma any_of_covers {outer inner : List (Nat × Nat)} {n : Nat} (hcovers : covers outer inner)
    (h : inner.any fun r => r.1 ≤ n && n ≤ r.2) : outer.any fun r => r.1 ≤ n && n ≤ r.2 := by
  induction outer generalizing inner with
  | nil =>
    rw [covers, List.isEmpty_iff] at hcovers
    rw [hcovers] at h
    exact h
  | cons q outer ih =>
    rw [covers] at hcovers
    rw [← List.takeWhile_append_dropWhile (p := fun r => q.1 ≤ r.1 && r.2 ≤ q.2) (l := inner),
      List.any_append, Bool.or_eq_true] at h
    rw [List.any_cons, Bool.or_eq_true]
    obtain h | h := h
    · left
      obtain ⟨r, hr, hn⟩ := List.any_eq_true.1 h
      have hin := List.all_eq_true.1 List.all_takeWhile r hr
      simp only [Bool.and_eq_true, decide_eq_true_eq] at hin hn ⊢
      omega
    · exact .inr (ih hcovers h)

lemma covers_low : covers idContinueLow idStartLow := by
  decide +kernel

lemma covers_middle : covers idContinueMiddle idStartMiddle := by
  decide +kernel

lemma covers_high : covers idContinueHigh idStartHigh := by
  decide +kernel

/-- A character that starts an identifier continues one as well. -/
lemma isIdentifierPart_of_isIdentifierStart {c : Char} (h : isIdentifierStart c) :
    isIdentifierPart c := by
  unfold isIdentifierStart at h
  unfold isIdentifierPart
  split at h
  case isTrue hascii =>
    rw [if_pos hascii]
    simp only [Char.isAlphanum, Bool.or_eq_true] at h ⊢
    obtain h | h := h
    · exact .inl h
    · exact .inr (.inl h)
  case isFalse hascii =>
    rw [if_neg hascii]
    unfold isXidStart CharTable.contains CharTable.rangesFor at h
    unfold isXidContinue CharTable.contains CharTable.rangesFor
    by_cases hlow : c.val < 0x2000
    · rw [if_pos hlow] at h ⊢
      exact any_of_covers covers_low h
    · rw [if_neg hlow] at h ⊢
      by_cases hmiddle : c.val < 0x10000
      · rw [if_pos hmiddle] at h ⊢
        exact any_of_covers covers_middle h
      · rw [if_neg hmiddle] at h ⊢
        exact any_of_covers covers_high h

end Unicode

namespace Word

variable {src : Source} {pos : Nat}

/-- The text of a word that starts somewhere. -/
lemma slice_skip_ne_empty (h : startsAt src pos) : src.slice pos (skip src pos) ≠ "" := by
  rw [startsAt, Option.any_eq_true] at h
  obtain ⟨c, hc, hstart⟩ := h
  obtain ⟨cs, hahead⟩ := Source.ahead_of_charAt hc
  have hpart := Unicode.isIdentifierPart_of_isIdentifierStart hstart
  have hsplit : src.Ahead pos ((c :: cs).takeWhile Unicode.isIdentifierPart
      ++ (c :: cs).dropWhile Unicode.isIdentifierPart) := by
    rw [List.takeWhile_append_dropWhile]
    exact hahead
  rw [skip, hahead.skipChars, hsplit.slice, List.takeWhile_cons_of_pos hpart]
  simp

end Word

end CangjieSyntax
