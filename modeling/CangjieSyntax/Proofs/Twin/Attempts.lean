import CangjieSyntax.Proofs.Grammar.Rule
import CangjieSyntax.Proofs.Twin.File
import CangjieSyntax.Proofs.Twin.Text

/-!
# Attempts under two settings

An attempt that is committed in the first parse is committed in the second one, which may go at least
as far. Where an attempt for type arguments is given up and good comes of it, it was for no want of
what the settings allow, and the second one is given up as well.
-/

namespace CangjieSyntax

variable {src : Source} {settings settings' : Settings} {env : Env} {s s' u u' w : ParseState}
  {α β β' : Type}

/-! ## Entering and leaving -/

namespace Settings.Within

variable (h : settings.Within settings')

lemma enter (hs : (h.outside src).Alike s s') :
    (h.inside src).Alike (s.enterTentative settings.budget)
      (s'.enterTentative settings'.budget) := by
  obtain ⟨settled, settled'⟩ := hs.settled rfl
  refine { hs with settled := fun e => (nomatch e), tried := fun _ => ?_ }
  unfold ParseState.enterTentative
  rw [settled, settled']
  refine ⟨rfl, rfl, rfl, rfl, _, _, rfl, rfl, ?_, False.elim⟩
  have := h.budget
  change s.tokenCount + settings.budget + s'.tokenCount
    ≤ s'.tokenCount + settings'.budget + s.tokenCount
  omega

variable (hs : (h.outside src).Alike s s') (hu : (h.inside src).Alike u u')

include hs hu

lemma commit : (h.outside src).Alike (s.commit u) (s'.commit u') := by
  have tried := hu.tried rfl
  refine { hu with settled := fun _ => ?_, tried := fun e => nomatch e }
  obtain ⟨settled, settled'⟩ := hs.settled rfl
  unfold ParseState.commit ParseState.leaveTentative
  rw [tried.depth, tried.depth', settled, settled']
  exact ⟨rfl, rfl⟩

lemma giveUp : (h.outside src).Alike (s.giveUp u) (s'.giveUp u') := by
  have tried := hu.tried rfl
  obtain ⟨settled, settled'⟩ := hs.settled rfl
  have same (nodes : Nodes) : Nodes.appendMoved {} .refl nodes = nodes :=
    Nodes.appendMoved_refl nodes
  have lexer : s'.lexer = s.lexer := hs.lexes
  have lexer' : u'.lexer = u.lexer := hu.lexes
  have nodes : s'.nodes = s.nodes := hs.nodes.trans (same _)
  have nodes' : u'.nodes = u.nodes := hu.nodes.trans (same _)
  unfold ParseState.giveUp ParseState.leaveTentative ParseState.rewind
  rw [tried.depth, tried.depth', settled, settled', ParseState.checkLimit_of_settled rfl,
    ParseState.checkLimit_of_settled rfl]
  exact { hu with
    lexes := by
      change s'.lexer.restore u'.lexer = s.lexer.restore u.lexer
      rw [lexer, lexer']
    nodes := by
      change u'.nodes.truncate s'.nodes.counts = Nodes.appendMoved {} .refl _
      rw [same, nodes, nodes']
    depth := hs.depth
    prevStop := hs.prevStop
    prevKind := hs.prevKind
    prevText := hs.prevText
    settled := fun _ => ⟨rfl, rfl⟩
    tried := fun e => nomatch e }

end Settings.Within

/-- Where nothing but tokens and names were lost, both parses go back to states that are alike. -/
lemma Settings.Within.giveUp_of_tries {h : settings.Within settings'}
    (hs : (h.outside src).Alike s s') (hu : Tries { src, settings } s u)
    (hu' : Tries { src, settings := settings' } s' u') :
    (h.outside src).Alike (s.giveUp u) (s'.giveUp u') := by
  obtain ⟨settled, settled'⟩ := hs.settled rfl
  rw [(Inside.of_tries settled hu).giveUp_eq settled,
    (Inside.of_tries settled' hu').giveUp_eq settled']
  exact { hs with tried := fun e => nomatch e }

/-- Giving an attempt up goes back to the token in front of it. -/
lemma ParseState.giveUp_back (hs : s.tentative = {}) (hu : u.tentative.depth ≤ 1) :
    (s.giveUp u).tentative = {} ∧ ∃ log, (s.giveUp u).lexer = { s.lexer with log } := by
  have settled : (s.rewind (u.leaveTentative s.tentative.limit)).tentative = {} := by
    simp [rewind, leaveTentative, hs, Nat.sub_eq_zero_of_le hu]
  unfold giveUp
  rw [checkLimit_of_settled settled]
  exact ⟨settled, _, rfl⟩

namespace Rule

variable {body body' : Rule (Option α)} {result : Option α}

/-- A state behind an attempt is clear only if the state inside it was. -/
lemma clear_of_commit (hw : Clear settings settings' 0 (s.commit u)) :
    Clear settings settings' 1 u :=
  ⟨hw.errorCount, Nat.le_add_of_sub_le hw.attempts, hw.comparisons⟩

lemma clear_of_giveUp (hw : Clear settings settings' 0 (s.giveUp u)) :
    Clear settings settings' 1 u := by
  have hw := hw.of_grows (ParseState.grows_checkLimit _)
  exact ⟨hw.errorCount, Nat.le_add_of_sub_le hw.attempts, hw.comparisons⟩

/-- Nothing clear comes of an attempt but from a clear state. -/
lemma clear_of_attempt {f : Option α → Option α} {a : Attempt α}
    (hbody : Follows (.ofAttempt src settings settings') body f body)
    (e : attempt body { src, settings } s = some (a, w)) (hw : Clear settings settings' 0 w) :
    Clear settings settings' 0 s := by
  obtain ⟨result, u, hrun, hend⟩ := attempt_eq_some e
  have hu : Clear settings settings' 1 u := by
    obtain ⟨_, _, _, _, rfl⟩ | ⟨_, _, rfl⟩ := hend
    · exact clear_of_commit hw
    · exact clear_of_giveUp hw
  have entered : Clear settings settings' 1 (s.enterTentative settings.budget) :=
    hbody.good hrun hu
  exact ⟨entered.errorCount, Nat.le_of_succ_le_succ entered.attempts, entered.comparisons⟩

section

variable {h : settings.Within settings'} {f : α → α}

/-- An attempt that is committed in the first parse is committed in the second one. -/
lemma committed_attempt {a : α}
    (hbody : Follows (h.inside src) body (Option.map f) body')
    (hs : (h.outside src).Alike s s')
    (e : attempt body { src, settings } s = some (.committed a, w))
    (hw : Clear settings settings' 0 w) :
    ∃ w', attempt body' { src, settings := settings' } s' = some (.committed (f a), w')
      ∧ (h.outside src).Alike w w' := by
  obtain ⟨result, u, hrun, ⟨b, rfl, hok, hb, rfl⟩ | ⟨-, hb, -⟩⟩ := attempt_eq_some e
  · cases hb
    have hu : Promising settings settings' u := { clear_of_commit hw with attempt := .inl hok }
    obtain ⟨u', hrun', halike⟩ := hbody.run (h.enter hs) hrun hu
    exact ⟨s'.commit u', attempt_committed hrun' (halike.failed.trans hok), h.commit hs halike⟩
  · split at hb
    · exact nomatch hb
    · exact nomatch hb

/-- An attempt that is given up in the first parse is given up in the second one, if it was for no
want of what the settings allow. -/
lemma rewound_attempt (same : settings.maxDepth = settings'.maxDepth)
    (hbody : Follows (h.inside src) body (Option.map f) body')
    (hs : (h.outside src).Alike s s')
    (e : attempt body { src, settings } s = some (.rewound, w))
    (hw : Clear settings settings' 0 w) :
    ∃ w', attempt body' { src, settings := settings' } s' = some (.rewound, w')
      ∧ (h.outside src).Alike w w' := by
  obtain ⟨result, u, hrun, ⟨_, _, _, hb, _⟩ | ⟨hno, hb, rfl⟩⟩ := attempt_eq_some e
  · exact nomatch hb
  split at hb
  · exact nomatch hb
  case isFalse hleft =>
    rw [Bool.not_eq_true] at hleft
    have hu : Promising settings settings' u :=
      { clear_of_giveUp hw with attempt := .inr ⟨same, hleft⟩ }
    obtain ⟨u', hrun', halike⟩ := hbody.run (h.enter hs) hrun hu
    refine ⟨s'.giveUp u', ?_, h.giveUp hs halike⟩
    have hno' : result.map f = none ∨ u'.tentative.failed = true :=
      hno.imp Option.map_eq_none_iff.2 halike.failed.trans
    have hleft' := (halike.tried rfl).exhausted.trans hleft
    exact (attempt_givenUp hrun' hno').trans (by rw [hleft']; rfl)

end

/-! ## Type arguments -/

/-- Type arguments are found in both parses or in none, where good comes of it. -/
lemma follows_typeArguments? {h : settings.Within settings'} {call call' : Call}
    (hself : Follows (.ofAttempt src settings settings') (call .type) (move .refl) (call .type))
    (htype : Follows (h.inside src) (call .type) (move .refl) (call' .type)) :
    Follows (h.outside src) (typeArguments? call) (move .refl) (typeArguments? call') := by
  refine .read <| .view_id (fun s s' hs => ?_) fun candidate => .ite (fun _ => .pure rfl) fun _ => ?_
  · have known : s'.comparisons.contains s'.start = s.comparisons.contains s.start := by
      rw [Bool.eq_iff_iff, List.contains_iff_mem, List.contains_iff_mem, hs.start]
      exact hs.comparisons s.start
    rw [hs.kind, hs.same.separated, known]
    rfl
  refine .tokenSpan fun opening => ?_
  have clear {s a w} (e : attempt (fittingArguments? call) { src, settings } s = some (a, w))
      (hw : Clear settings settings' 0 w) : Clear settings settings' 0 s :=
    clear_of_attempt (follows_fittingArguments? hself) e hw
  -- Good comes of an attempt that is given up only where the settings allow as much nesting.
  have same {w : ParseState}
      (hw : Clear settings settings' 0 { w with comparisons := opening.start :: w.comparisons }) :
      settings.maxDepth = settings'.maxDepth :=
    hw.comparisons.resolve_right (List.cons_ne_nil _ _)
  refine ⟨fun e hgood => ?_, fun {s s' a t} hs e hgood => ?_, False.elim⟩
  · obtain ⟨result, w, hattempt, e⟩ := bind_eq_some.1 e
    refine clear hattempt ?_
    cases result with
    | committed args =>
      cases e
      exact hgood
    | rewound =>
      cases e
      exact { hgood with comparisons := .inl (same hgood) }
    | exhausted =>
      cases e
      exact absurd hgood Clear.not_report
  · obtain ⟨result, w, hattempt, e⟩ := bind_eq_some.1 e
    cases result with
    | committed args =>
      cases e
      obtain ⟨w', hattempt', halike⟩ :=
        committed_attempt (follows_fittingArguments? htype) hs hattempt hgood
      exact ⟨w', bind_eq_some.2 ⟨_, w', hattempt', rfl⟩, halike⟩
    | rewound =>
      cases e
      obtain ⟨w', hattempt', halike⟩ := rewound_attempt (same hgood)
        (follows_fittingArguments? htype) hs hattempt { hgood with comparisons := .inl (same hgood) }
      refine ⟨_, bind_eq_some.2 ⟨_, w', hattempt', rfl⟩, { halike with comparisons := fun p => ?_ }⟩
      change p ∈ (move .refl opening).start :: w'.comparisons ↔ p ∈ opening.start :: w.comparisons
      rw [move_refl, List.mem_cons, List.mem_cons]
      exact or_congr_right (halike.comparisons p)
    | exhausted =>
      cases e
      exact absurd hgood Clear.not_report

end Rule

end CangjieSyntax
