import CangjieSyntax.Proofs.Token.Word
import CangjieSyntax.Token.Lexer

/-!
# Tokens and the log

Two facts on every step of the lexer: a token that is a name has a text unless a lexical error has
been reported, and the log only grows.

Most tokens of code depend on nothing but the text and the offset where they start. So two such
tokens that start at the same offset are of the same kind, and the next token starts elsewhere if it
is of another kind.
-/

namespace CangjieSyntax

/-- Whether a token of this kind is a name, plain, between backquotes or behind a dollar sign. -/
def Kind.isName : Kind → Bool
  | identifier | rawIdentifier | dollarIdentifier => true
  | _ => false

namespace Lexeme

/-- A name has a text unless an error is found in it. -/
def Named (l : Lexeme) : Prop :=
  l.kind.isName → l.value ≠ "" ∨ l.errors ≠ []

variable {src : Source} {pos : Nat}

lemma named_of_not_isName {l : Lexeme} (h : l.kind.isName = false) : l.Named :=
  fun e => absurd e (by simp [h])

lemma named_word (h : Word.startsAt src pos) : (Word.read src pos).Named := by
  unfold Word.read
  dsimp only
  split
  · exact named_of_not_isName rfl
  · split
    · exact named_of_not_isName rfl
    · exact fun _ => .inl (Word.slice_skip_ne_empty h)

lemma named_raw : (Word.readRaw src pos).Named := by
  unfold Word.readRaw
  dsimp only
  by_cases hstart : Word.startsAt src (pos + 1)
  · rw [if_pos hstart]
    split
    · exact fun _ => .inl (Word.slice_skip_ne_empty hstart)
    · exact fun _ => .inr (by simp)
  · rw [if_neg hstart, bne_self_eq_false, Bool.false_and, if_neg Bool.false_ne_true]
    exact fun _ => .inr (by simp)

lemma named_dollar : (Word.readDollar src pos).Named := by
  unfold Word.readDollar
  split
  case isTrue hstart => exact fun _ => .inl (Word.slice_skip_ne_empty hstart)
  case isFalse => exact named_of_not_isName rfl

lemma isName_withSuffix (body : Numeral.Body) :
    (Numeral.withSuffix src pos body).kind.isName = false := by
  obtain ⟨stop, isFloat, flags, errors⟩ := body
  unfold Numeral.withSuffix
  dsimp only
  rw [apply_ite Lexeme.kind, apply_ite Lexeme.kind]
  cases isFloat <;> simp [Kind.isName]

lemma isName_charLiteral (isByte : Bool) (quote : Quote) :
    (CharLiteral.read src isByte quote pos).kind.isName = false := by
  unfold CharLiteral.read
  cases isByte
  all_goals
    dsimp only
    split
    · rfl
    · split
      · rfl
      · split
        · rfl
        · split <;> rfl

lemma isName_rawString : (RawString.readHash src pos).kind.isName = false := by
  unfold RawString.readHash RawString.read
  dsimp only
  split
  · split <;> rfl
  · rfl

lemma isName_readMark : (readMark src pos).kind.isName = false := by
  unfold readMark
  split
  · rfl
  · split <;> rfl

lemma isName_stringText (quote : Quote) (multiLine : Bool) :
    (StringText.read src quote multiLine pos).kind.isName = false := by
  unfold StringText.read StringText.unterminated
  split
  · rfl
  · split
    · rfl
    · split
      · rfl
      · split <;> rfl

lemma isName_readStart (quote : Quote) :
    (StringText.readStart src quote pos).kind.isName = false := by
  unfold StringText.readStart
  split <;> rfl

lemma isName_closeBrace (modes : List Mode) : (closeBrace modes pos).kind.isName = false := by
  unfold closeBrace
  split <;> rfl

lemma named_readCode (modes : List Mode) (first : UInt8) :
    (readCode src modes pos first).Named := by
  have word : (if Word.startsAt src pos then Word.read src pos else readMark src pos).Named := by
    split
    case isTrue h => exact named_word h
    case isFalse => exact named_of_not_isName isName_readMark
  unfold readCode
  dsimp only
  split
  · exact named_of_not_isName rfl
  split
  · exact named_of_not_isName (isName_closeBrace modes)
  split
  · exact named_dollar
  split
  · exact named_of_not_isName isName_rawString
  split
  · exact named_raw
  split
  · exact named_of_not_isName (isName_withSuffix _)
  split
  · exact named_of_not_isName (isName_withSuffix _)
  split
  · exact named_of_not_isName (isName_readStart _)
  · split
    · exact named_of_not_isName (isName_charLiteral _ _)
    split
    · split
      · exact named_of_not_isName (isName_charLiteral _ _)
      · exact named_of_not_isName rfl
    · exact word
  · exact word

/-- Every name that is read has a text unless an error is found in it. -/
theorem named_read (modes : List Mode) : (read src modes pos).2.Named := by
  unfold read
  split
  · exact named_of_not_isName (isName_stringText _ _)
  · dsimp only
    intro h
    split at h
    case h_1 =>
      unfold endOfFile at h
      split at h <;> exact nomatch h
    case h_2 first hfirst =>
      obtain h | h := named_readCode modes first h
      · left
        simpa only [hfirst] using h
      · right
        intro e
        exact h (List.append_eq_nil_iff.1 e).2

end Lexeme

namespace Lexer

/-- The current token, if it is a name, has a text unless an error has been reported. -/
def Named (l : Lexer) : Prop :=
  l.kind.isName → l.value ≠ "" ∨ l.log ≠ #[]

variable {src : Source} {l : Lexer}

lemma named_scan : (l.scan src).Named := by
  intro h
  obtain h | h := Lexeme.named_read l.modes h
  · exact .inl h
  · right
    intro e
    have e := congrArg Array.toList e
    simp [scan, accept] at e
    exact h e.2

lemma log_scan : l.log.toList <+: (l.scan src).log.toList := by
  unfold scan accept
  simp

lemma scanKnown_go_induction {P : Lexer → Prop} (scan : ∀ l, P l → P (l.scan src))
    (addFlags : ∀ l flags, P l → P (l.addFlags flags)) (rounds : Nat) (skipped : TokenFlags)
    (h : P l) : P (scanKnown.go src rounds skipped l) := by
  induction rounds generalizing skipped l with
  | zero => exact h
  | succ rounds ih =>
    rw [scanKnown.go]
    split
    · exact ih _ (scan l h)
    · exact addFlags _ _ (scan l h)

/-- A token that belongs to the language is not passed over. -/
lemma kind_scanKnown (h : (l.scan src).kind ≠ .unknown) :
    (l.scanKnown src).kind = (l.scan src).kind := by
  unfold scanKnown scanKnown.go
  dsimp only
  rw [if_neg h]
  rfl

/-- What holds of the current token and of every token holds behind the next known one. -/
lemma scanKnown_induction {P : Lexer → Prop} (scan : ∀ l, P l → P (l.scan src))
    (addFlags : ∀ l flags, P l → P (l.addFlags flags)) (h : P l) : P (l.scanKnown src) :=
  scanKnown_go_induction scan addFlags _ _ h

/-- What holds of every token that is read holds of the next known one. -/
lemma scanKnown_of_scan {P : Lexer → Prop} (scan : ∀ l : Lexer, P (l.scan src))
    (addFlags : ∀ l flags, P l → P (l.addFlags flags)) (l : Lexer) : P (l.scanKnown src) := by
  unfold scanKnown scanKnown.go
  dsimp only
  split
  · exact scanKnown_go_induction (fun _ _ => scan _) addFlags _ _ (scan l)
  · exact addFlags _ _ (scan l)

/-- What stands in the log has no part in reading on. -/
lemma scanKnown_eq_up_to_log {m : Lexer} (src : Source) (h : ∃ log, m = { l with log }) :
    ∃ log, m.scanKnown src = { l.scanKnown src with log } := by
  have go (rounds : Nat) (skipped : TokenFlags) (l m : Lexer) (h : ∃ log, m = { l with log }) :
      ∃ log, scanKnown.go src rounds skipped m = { scanKnown.go src rounds skipped l with log } := by
    induction rounds generalizing skipped l m with
    | zero => exact h
    | succ rounds ih =>
      have hscan : ∃ log, m.scan src = { l.scan src with log } := by
        obtain ⟨log, rfl⟩ := h
        exact ⟨_, rfl⟩
      rw [scanKnown.go, scanKnown.go]
      dsimp only
      generalize m.scan src = m' at hscan
      obtain ⟨log, rfl⟩ := hscan
      dsimp only
      split
      · exact ih _ _ _ ⟨log, rfl⟩
      · exact ⟨log, rfl⟩
  exact go _ _ _ _ h

lemma Named.scanKnown (h : l.Named) : (l.scanKnown src).Named :=
  scanKnown_induction (fun _ _ => named_scan) (fun _ _ h => h) h

lemma log_scanKnown (src : Source) (l : Lexer) : l.log.toList <+: (l.scanKnown src).log.toList :=
  scanKnown_induction (P := fun m => l.log.toList <+: m.log.toList)
    (fun _ h => h.trans log_scan) (fun _ _ h => h) (List.prefix_refl _)

lemma Named.joinGreater (h : l.Named) : (l.joinGreater src).Named := by
  unfold Lexer.joinGreater
  split
  · split
    · exact fun e => nomatch e
    · exact h
  · exact h

lemma log_joinGreater : (l.joinGreater src).log = l.log := by
  unfold Lexer.joinGreater
  split
  · split <;> rfl
  · rfl

/-- A state whose log is only added to is found again by going back to it. -/
lemma restore_of_isPrefix {m : Lexer} (h : l.log.toList <+: m.log.toList) : l.restore m = l := by
  have hlog : m.log.take l.log.size = l.log := by
    apply Array.toList_inj.1
    rw [← Array.shrink_eq_take, Array.toList_shrink, ← Array.length_toList]
    exact (List.prefix_iff_eq_take.1 h).symm
  rw [restore, hlog]

end Lexer

/-! ## Places where tokens start -/

section

/-- Whether the offset where a token of this kind starts decides that it is of this kind. The
pieces of strings, the braces that close holes and the end of the text are no such tokens. -/
def Kind.isAnchored : Kind → Bool
  | stringContent | stringEnd | interpolationStart | interpolationEnd | endOfFile => false
  | mark .closeBrace => false
  | _ => true

variable {src : Source} {modes : List Mode} {pos : Nat}

namespace Lexeme

lemma isAnchored_stringText (quote : Quote) (multiLine : Bool) :
    (StringText.read src quote multiLine pos).kind.isAnchored = false := by
  unfold StringText.read StringText.unterminated
  split
  · rfl
  · split
    · rfl
    · split
      · rfl
      · split <;> rfl

lemma isAnchored_closeBrace : (closeBrace modes pos).kind.isAnchored = false := by
  unfold closeBrace
  split <;> rfl

lemma isAnchored_endOfFile : (endOfFile src modes pos).kind.isAnchored = false := by
  unfold endOfFile
  split <;> rfl

/-- Only a closing brace depends on the holes that are open. -/
lemma readCode_eq {first : UInt8} (h : (readCode src modes pos first).kind.isAnchored)
    (modes' : List Mode) : readCode src modes' pos first = readCode src modes pos first := by
  by_cases hbrace : first == 0x7D
  · obtain rfl := beq_iff_eq.1 hbrace
    have : (closeBrace modes pos).kind.isAnchored = false := isAnchored_closeBrace
    rw [show readCode src modes pos 0x7D = closeBrace modes pos from rfl] at h
    simp [this] at h
  · unfold readCode
    dsimp only
    rw [if_neg hbrace, if_neg hbrace]

/-- The token at an offset, if the place decides of what kind it is. -/
lemma kind_read (h : (read src modes pos).2.kind.isAnchored) :
    ∃ first, src.byteAt (read src modes pos).1 = some first
      ∧ ∀ modes', (readCode src modes' (read src modes pos).1 first).kind
        = (read src modes pos).2.kind := by
  unfold read at h ⊢
  split at h
  · simp [isAnchored_stringText] at h
  · dsimp only at h ⊢
    cases hfirst : src.byteAt (Gap.read src pos).stop with
    | none => simp [hfirst, isAnchored_endOfFile] at h
    | some first =>
      rw [hfirst] at h
      exact ⟨first, rfl, fun modes' => congrArg Lexeme.kind (readCode_eq h modes')⟩

end Lexeme

namespace Lexer

/-- The current token is what stands where it starts, if the place decides of what kind that is. -/
def Anchored (src : Source) (l : Lexer) : Prop :=
  l.kind.isAnchored → ∃ first, src.byteAt l.start = some first
    ∧ ∀ modes, (Lexeme.readCode src modes l.start first).kind = l.kind

lemma anchored_scanKnown (l : Lexer) : (l.scanKnown src).Anchored src :=
  scanKnown_of_scan (fun _ h => Lexeme.kind_read h) (fun _ _ h => h) l

/-- Tokens of different kinds do not start at the same offset. -/
lemma Anchored.start_ne {l l' : Lexer} (h : l.Anchored src) (h' : l'.Anchored src)
    (hl : l.kind.isAnchored) (hl' : l'.kind.isAnchored) (hne : l'.kind ≠ l.kind) :
    l'.start ≠ l.start := by
  intro e
  obtain ⟨first, hfirst, hkind⟩ := h hl
  obtain ⟨first', hfirst', hkind'⟩ := h' hl'
  rw [e, hfirst] at hfirst'
  cases hfirst'
  rw [← hkind [], ← hkind' [], e] at hne
  exact hne rfl

end Lexer

end

end CangjieSyntax
