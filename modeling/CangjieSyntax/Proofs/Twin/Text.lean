import CangjieSyntax.Proofs.Twin.Twins

/-!
# Two parses of one text

The same text is parsed under two settings, of which the second ones allow at least as much nesting
and as many tokens in an attempt. Nothing has moved, and both lexers are the same.
-/

namespace CangjieSyntax

variable {env : Env} {s t : ParseState}

/-- What becomes of faults, and of what only attempts change, in a step. -/
structure Grows (s t : ParseState) : Prop where
  errorCount : s.errorCount ≤ t.errorCount
  comparisons : t.comparisons = s.comparisons
  depth : t.tentative.depth = s.tentative.depth
  failed : s.tentative.failed = true → t.tentative.failed = true
  exhausted : s.tentative.exhausted = true → t.tentative.exhausted = true

lemma ParseState.grows_checkLimit (s : ParseState) : Grows s s.checkLimit := by
  unfold checkLimit
  split
  · split
    · exact ⟨le_rfl, rfl, rfl, fun _ => rfl, fun _ => rfl⟩
    · exact ⟨le_rfl, rfl, rfl, id, id⟩
  · exact ⟨le_rfl, rfl, rfl, id, id⟩

lemma Step.grows (hstep : Step env s t) : Grows s t := by
  cases hstep with
  | advance =>
    have counted := ParseState.grows_checkLimit { s with
      prevStop := s.lexer.pos, prevSpan := s.lexer.span, prevKind := s.lexer.kind
      tokenCount := s.tokenCount + 1 }
    unfold ParseState.advance ParseState.lexicalFault
    dsimp only
    split
    · split
      · exact { counted with failed := fun _ => rfl }
      · exact { counted with errorCount := Nat.le_succ_of_le counted.errorCount }
    · exact { counted with }
  | report span m args =>
    unfold ParseState.report
    dsimp only
    split
    · exact ⟨le_rfl, rfl, rfl, fun _ => rfl, id⟩
    · split
      · exact ⟨Nat.le_succ _, rfl, rfl, id, id⟩
      · exact ⟨Nat.le_succ _, rfl, rfl, id, id⟩
  | reportDepth span =>
    unfold ParseState.reportDepth
    split
    · exact ⟨le_rfl, rfl, rfl, fun _ => rfl, id⟩
    · exact ⟨Nat.le_succ _, rfl, rfl, id, id⟩
  | alloc => exact ⟨le_rfl, rfl, rfl, id, id⟩
  | intern => exact ⟨le_rfl, rfl, rfl, id, id⟩
  | deeper => exact ⟨le_rfl, rfl, rfl, id, id⟩
  | shallower => exact ⟨le_rfl, rfl, rfl, id, id⟩

/-- Settings under which a parse may go at least as far. -/
structure Settings.Within (settings settings' : Settings) : Prop where
  maxDepth : settings.maxDepth ≤ settings'.maxDepth
  budget : settings.budget ≤ settings'.budget

/-- No fault has been met, at most so many attempts are under way, and none was given up that may
have met the end of what the first settings allow but not of what the second ones do. -/
structure Clear (settings settings' : Settings) (attempts : Nat) (s : ParseState) : Prop where
  errorCount : s.errorCount = 0
  attempts : s.tentative.depth ≤ attempts
  comparisons : settings.maxDepth = settings'.maxDepth ∨ s.comparisons = []

/-- Besides, the attempt under way has not failed, or not for want of what the settings allow. -/
structure Promising (settings settings' : Settings) (s : ParseState) : Prop
    extends Clear settings settings' 1 s where
  attempt : s.tentative.failed = false
    ∨ settings.maxDepth = settings'.maxDepth ∧ s.tentative.exhausted = false

variable {src : Source} {settings settings' : Settings} {attempts : Nat}

lemma Clear.of_grows (hgrows : Grows s t) (h : Clear settings settings' attempts t) :
    Clear settings settings' attempts s where
  errorCount := Nat.le_zero.1 (h.errorCount ▸ hgrows.errorCount)
  attempts := hgrows.depth ▸ h.attempts
  comparisons := hgrows.comparisons ▸ h.comparisons

lemma Clear.regressive : Regressive env (Clear settings settings' attempts) where
  step hstep h := h.of_grows hstep.grows
  unmute h := { h with }
  joinGreater h := { h with }
  enclose h := { h with }

lemma Promising.regressive : Regressive env (Promising settings settings') where
  step {s t} hstep h := by
    refine ⟨h.toClear.of_grows hstep.grows, h.attempt.imp ?_ (And.imp_right ?_)⟩
    · exact fun ht => Bool.eq_false_iff.2 fun hs => by simp [hstep.grows.failed hs] at ht
    · exact fun ht => Bool.eq_false_iff.2 fun hs => by simp [hstep.grows.exhausted hs] at ht
  unmute h := { h with }
  joinGreater h := { h with }
  enclose h := { h with }

lemma Clear.not_reportDepth {span : Span} {maxDepth : Nat} :
    ¬ Clear settings settings' 0 (s.reportDepth span maxDepth) := by
  intro h
  unfold ParseState.reportDepth at h
  split at h
  case isTrue htentative =>
    have := Nat.le_zero.1 h.attempts
    simp [ParseState.isTentative, ParseState.fail] at htentative this
    exact htentative this
  case isFalse => exact Nat.succ_ne_zero _ h.errorCount

lemma Clear.not_report {span : Span} {m : Message} {args : List String} :
    ¬ Clear settings settings' 0 (s.report span m args) := by
  intro h
  unfold ParseState.report at h
  dsimp only at h
  split at h
  case isTrue htentative =>
    have := Nat.le_zero.1 h.attempts
    simp [ParseState.isTentative, ParseState.fail] at htentative this
    exact htentative this
  case isFalse =>
    split at h
    · exact Nat.succ_ne_zero _ h.errorCount
    · exact Nat.succ_ne_zero _ h.errorCount

lemma Promising.not_reportDepth {span : Span} {maxDepth : Nat}
    (hne : settings.maxDepth ≠ settings'.maxDepth) :
    ¬ Promising settings settings' (s.reportDepth span maxDepth) := by
  intro h
  unfold ParseState.reportDepth at h
  split at h
  · obtain hfailed | ⟨same, -⟩ := h.attempt
    · exact nomatch hfailed
    · exact hne same
  · exact Nat.succ_ne_zero _ h.errorCount

namespace Twins

/-- Two parses of one text under two settings. -/
def ofText (src : Source) (settings settings' : Settings) (tentative : Bool) (exact : Prop)
    (good : ParseState → Prop) (regressive : Regressive { src, settings } good)
    (depth : settings.maxDepth = settings'.maxDepth ∨ settings.maxDepth ≤ settings'.maxDepth
      ∧ ∀ s span, ¬ good (ParseState.reportDepth s span settings.maxDepth))
    (exhausted : exact ∨ ∀ s, good s → s.tentative.exhausted = true → s.tentative.failed = false) :
    Twins where
  env := { src, settings }
  env' := { src, settings := settings' }
  shift := .refl
  base := {}
  before := #[]
  lexBefore := #[]
  errors := 0
  tentative
  exact
  good
  mirrored := False
  lexes l l' := l' = l
  base_counts := rfl
  rounds_le := Env.rounds_le_rounds le_rfl
  rounds_eq := False.elim
  counts := False.elim
  all_good := False.elim
  depth
  regressive
  exhausted
  same := by
    rintro l _ rfl
    exact ⟨rfl, rfl, rfl, rfl, rfl, rfl, rfl⟩
  sees := by
    rintro l _ rfl
    exact ⟨rfl, rfl, rfl, rfl, rfl, rfl, rfl⟩
  log := by
    rintro l _ rfl
    simp
  scanKnown := by
    rintro l _ rfl
    rfl
  joinGreater := by
    rintro l _ rfl
    rfl

/-- An attempt and itself. -/
def ofAttempt (src : Source) (settings settings' : Settings) : Twins :=
  ofText src settings settings true True (Clear settings settings' 1) Clear.regressive (.inl rfl)
    (.inl trivial)

end Twins

namespace Settings.Within

variable (h : settings.Within settings') (src : Source)

/-- Two parses outside attempts. -/
def outside : Twins :=
  .ofText src settings settings' false True (Clear settings settings' 0) Clear.regressive
    (.inr ⟨h.maxDepth, fun _ _ => Clear.not_reportDepth⟩) (.inl trivial)

/-- Two attempts at the same place. -/
def inside : Twins :=
  .ofText src settings settings' true False (Promising settings settings') Promising.regressive
    (or_iff_not_imp_left.2 fun hne => ⟨h.maxDepth, fun _ _ => Promising.not_reportDepth hne⟩)
    (.inr fun s hs hexhausted => hs.attempt.resolve_right fun e => by simp [hexhausted] at e)

/-- Outside attempts a state is like itself. -/
lemma alike_refl (hs : s.tentative = {}) : (h.outside src).Alike s s where
  lexes := rfl
  nodes := (Nodes.appendMoved_refl s.nodes).symm
  names := trivial
  log := by
    change s.log = #[] ++ s.log.map (move .refl)
    simp
  depth := rfl
  prevStop := rfl
  prevKind := rfl
  prevText := rfl
  settled := fun _ => ⟨hs, hs⟩
  tried := fun e => nomatch e
  comparisons := fun _ => Iff.rfl
  muted := rfl
  lastErrorStart := fun _ => Iff.rfl
  errorCount := (Nat.zero_add _).symm
  enclosingType := rfl

end Settings.Within

end CangjieSyntax
