import CangjieSyntax.Proofs.Lockstep.Memory
import CangjieSyntax.Proofs.Pattern.Alternation

/-!
# Attempts that run out of tokens

A parse is compared with one that allows its attempts fewer tokens. Inside an attempt the two stay
in step until the second one runs out of them. There it gives the attempt up. A lack of tokens is
reported for type arguments, but not for the parameters of a lambda, which is read as one without
any. So a text that is parsed without diagnostics gives the same with fewer tokens, or their lack is
reported, unless some lambda has parameters.
-/

namespace CangjieSyntax

variable {env : Env} {budget : Nat} {s s' t t' u u' : ParseState} {α β : Type}

/-! ## Inside attempts -/

namespace ParseState

lemma eq_of_seen (h : s'.seen = s.seen) : s' = { s with
    names := s'.names, tokenCount := s'.tokenCount
    tentative := { s.tentative with limit := s'.tentative.limit } } := by
  obtain ⟨_, _, _, _, _, _, _, _, _, ⟨_, _, _, _⟩⟩ := s
  obtain ⟨_, _, _, _, _, _, _, _, _, ⟨_, _, _, _⟩⟩ := s'
  simp only [seen, ParseState.mk.injEq, Tentative.mk.injEq] at h ⊢
  simp [h]

/-- No attempt has to end with the next token. -/
def Spares (s : ParseState) : Prop :=
  ∀ limit ∈ s.tentative.limit, s.tokenCount < limit

lemma checkLimit_of_spares {tokenCount : Nat} (hcount : tokenCount = s.tokenCount + 1)
    (h : s.Spares) : checkLimit { t with tokenCount, tentative := s.tentative }
      = { t with tokenCount, tentative := s.tentative } := by
  unfold checkLimit
  dsimp only
  split
  case h_1 limit hlimit =>
    have := h limit hlimit
    rw [if_neg (by omega)]
  case h_2 => rfl

lemma advance_of_spares (src : Source) (h : s.Spares) :
    s.advance src =
      let t := { s with
        lexer := s.lexer.scanKnown src, prevStop := s.lexer.pos, prevSpan := s.lexer.span
        prevKind := s.lexer.kind, tokenCount := s.tokenCount + 1 }
      if s.lexer.log.size < t.lexer.log.size then t.lexicalFault else t := by
  have unlimited := checkLimit_of_spares (t := { s with
    prevStop := s.lexer.pos, prevSpan := s.lexer.span, prevKind := s.lexer.kind }) rfl h
  unfold advance
  dsimp only at unlimited ⊢
  rw [unlimited]

lemma seen_advance (src : Source) (hseen : s'.seen = s.seen) (h : s.Spares) (h' : s'.Spares) :
    (s'.advance src).seen = (s.advance src).seen := by
  rw [advance_of_spares src h, advance_of_spares src h']
  rw [eq_of_seen hseen]
  dsimp only
  split
  · unfold lexicalFault isTentative
    dsimp only
    split <;> rfl
  · rfl

lemma seen_report (hseen : s'.seen = s.seen) (span : Span) (m : Message) (args : List String) :
    (s'.report span m args).seen = (s.report span m args).seen := by
  rw [eq_of_seen hseen]
  unfold report isTentative
  dsimp only
  split
  · rfl
  · split <;> rfl

lemma seen_reportDepth (hseen : s'.seen = s.seen) (span : Span) (maxDepth : Nat) :
    (s'.reportDepth span maxDepth).seen = (s.reportDepth span maxDepth).seen := by
  rw [eq_of_seen hseen]
  unfold reportDepth isTentative
  dsimp only
  split <;> rfl

/-- What has been taken of the tokens that an attempt is allowed. -/
def taken (s : ParseState) : Option Nat × Nat :=
  (s.tentative.limit, s.tokenCount)

lemma taken_report (span : Span) (m : Message) (args : List String) :
    (s.report span m args).taken = s.taken := by
  unfold report
  split
  · rfl
  · dsimp only
    split <;> rfl

lemma taken_reportDepth (span : Span) (maxDepth : Nat) :
    (s.reportDepth span maxDepth).taken = s.taken := by
  unfold reportDepth
  split <;> rfl

lemma taken_advance (src : Source) (h : s.Spares) :
    (s.advance src).taken = (s.tentative.limit, s.tokenCount + 1) := by
  rw [advance_of_spares src h]
  dsimp only
  split
  · unfold lexicalFault
    split <;> rfl
  · rfl

/-- The attempt under way has failed for want of tokens. -/
def RunsOut (s : ParseState) : Prop :=
  s.tentative.failed = true ∧ s.tentative.exhausted = true

/-- One token more than allowed is taken. -/
lemma runsOut_advance (src : Source) {limit : Nat} (hlimit : s.tentative.limit = some limit)
    (h : limit ≤ s.tokenCount) : (s.advance src).RunsOut := by
  have hexhaust : checkLimit { s with
      prevStop := s.lexer.pos, prevSpan := s.lexer.span, prevKind := s.lexer.kind
      tokenCount := s.tokenCount + 1 } = exhaust { s with
        prevStop := s.lexer.pos, prevSpan := s.lexer.span, prevKind := s.lexer.kind
        tokenCount := s.tokenCount + 1 } := by
    unfold checkLimit
    dsimp only
    rw [hlimit]
    exact if_pos (Nat.lt_succ_of_le h)
  unfold advance
  dsimp only
  rw [hexhaust]
  split
  · unfold lexicalFault
    split <;> exact ⟨rfl, rfl⟩
  · exact ⟨rfl, rfl⟩

end ParseState

/-- From states seen alike, steps lead to states seen alike, unless a token is taken. -/
lemma Stride.seen_or_advance (hseen : s'.seen = s.seen) (h : Stride env s s' t t') :
    (t'.seen = t.seen ∧ t.taken = s.taken ∧ t'.taken = s'.taken)
      ∨ t = s.advance env.src ∧ t' = s'.advance env.src := by
  cases h with
  | advance => exact .inr ⟨rfl, rfl⟩
  | report span m args =>
    exact .inl ⟨ParseState.seen_report hseen span m args, ParseState.taken_report span m args,
      ParseState.taken_report span m args⟩
  | reportDepth span =>
    exact .inl ⟨ParseState.seen_reportDepth hseen span _, ParseState.taken_reportDepth span _,
      ParseState.taken_reportDepth span _⟩
  | alloc | intern | deeper | shallower =>
    exact .inl ⟨by rw [ParseState.eq_of_seen hseen]; rfl, rfl, rfl⟩

lemma Stride.step' (hseen : s'.seen = s.seen) (h : Stride env s s' t t') : Step env s' t' := by
  cases h with
  | advance => exact .advance s'
  | report span m args => exact .report s' span m args
  | reportDepth span => exact .reportDepth s' span
  | alloc node => exact .alloc s' node
  | intern text => exact .intern s' text
  | deeper hdepth => exact .deeper ((congrArg ParseState.depth hseen :).trans_lt hdepth)
  | shallower => exact .shallower s'

/-- The environment in which attempts may take no more tokens than given. -/
abbrev Env.tighten (env : Env) (budget : Nat) : Env :=
  { env with settings := { env.settings with budget } }

/-- In the second state no more tokens are left for the attempt than in the first one. -/
def ParseState.Scarcer (s s' : ParseState) : Prop :=
  ∃ limit limit', s.tentative.limit = some limit ∧ s'.tentative.limit = some limit'
    ∧ limit' + s.tokenCount ≤ limit + s'.tokenCount

lemma ParseState.Scarcer.of_taken (h : s.Scarcer s') (ht : t.taken = s.taken)
    (ht' : t'.taken = s'.taken) : t.Scarcer t' := by
  obtain ⟨limit, limit', hlimit, hlimit', hle⟩ := h
  obtain ⟨e, hcount⟩ := Prod.mk.inj ht
  obtain ⟨e', hcount'⟩ := Prod.mk.inj ht'
  exact ⟨limit, limit', e.trans hlimit, e'.trans hlimit', by omega⟩

/-- States of an attempt that rules cannot tell apart, the second one with no more tokens left. -/
def ParseState.Inner (s s' : ParseState) : Prop :=
  s'.seen = s.seen ∧ s.Scarcer s'

/-- The second attempt runs out of tokens, or both go on. -/
lemma ParseState.Inner.stride (hs : s.Inner s') (h : Stride env s s' t t') :
    t.Inner t' ∨ t'.RunsOut := by
  obtain ⟨hseen, hscarcer⟩ := hs
  obtain ⟨hsame, ht, ht'⟩ | ⟨rfl, rfl⟩ := h.seen_or_advance hseen
  · exact .inl ⟨hsame, hscarcer.of_taken ht ht'⟩
  · obtain ⟨limit, limit', hlimit, hlimit', hle⟩ := hscarcer
    by_cases hlast : limit' ≤ s'.tokenCount
    · exact .inr (runsOut_advance env.src hlimit' hlast)
    · have hspares : s.Spares := by
        rw [Spares, hlimit]
        rintro _ ⟨⟩
        omega
      have hspares' : s'.Spares := by
        rw [Spares, hlimit']
        rintro _ ⟨⟩
        omega
      obtain ⟨e, hcount⟩ := Prod.mk.inj (taken_advance env.src hspares)
      obtain ⟨e', hcount'⟩ := Prod.mk.inj (taken_advance env.src hspares')
      exact .inl ⟨seen_advance env.src hseen hspares hspares', limit, limit', e.trans hlimit,
        e'.trans hlimit', by omega⟩

/-- An attempt, and one that may take fewer tokens and parts from it where it runs out of them. -/
def Lockstep.attempts (env : Env) (budget : Nat) : Lockstep where
  env := env
  env' := env.tighten budget
  src := rfl
  maxDepth := rfl
  alike := ParseState.Inner
  parted _ s' := s'.RunsOut
  lasts s t := s.RunsOut → t.RunsOut
  seen h := h.1
  stride h hstride := h.stride hstride
  refl _ := id
  trans h h' := h' ∘ h
  step h hs := ⟨h.failed hs.1, h.grows.exhausted hs.2⟩

/-! ## Outside attempts -/

/-- Outside attempts, no fault has been met. -/
structure ParseState.Clean (s : ParseState) : Prop where
  settled : s.tentative = {}
  errorCount : s.errorCount = 0
  muted : s.muted = false
  lastErrorStart : s.lastErrorStart = none

namespace ParseState

lemma spares_of_settled (h : s.tentative = {}) : s.Spares := by
  rw [Spares, h]
  exact nofun

/-- Whatever is reported is a fault. -/
lemma Clean.step (hs : s.Clean) (hstep : Step env s t) : t.Clean ∨ t.errorCount ≠ 0 := by
  cases hstep with
  | advance =>
    have hsettled : (s.advance env.src).tentative = {} := (Step.advance s).settled hs.settled
    rw [advance_of_spares env.src (spares_of_settled hs.settled)] at hsettled ⊢
    dsimp only at hsettled ⊢
    split
    · right
      unfold lexicalFault
      rw [if_neg (by simp [isTentative, hs.settled])]
      exact Nat.succ_ne_zero _
    · exact .inl { hs with }
  | report span m args =>
    right
    rw [errorCount_report hs.settled]
    exact Nat.succ_ne_zero _
  | reportDepth span =>
    right
    rw [errorCount_reportDepth hs.settled]
    exact Nat.succ_ne_zero _
  | alloc | intern | deeper | shallower => exact .inl { hs with }

/-- The first fault is reported. -/
lemma Clean.log_report (hs : s.Clean) (span : Span) (m : Message) (args : List String) :
    (s.report span m args).log = s.log.push (m.diagnostic span args) := by
  unfold report
  rw [if_neg (by simp [isTentative, hs.settled])]
  dsimp only
  rw [if_neg (by simp [hs.muted, hs.lastErrorStart])]

/-- Want of tokens has been reported. -/
def TellsExhaustion (s : ParseState) : Prop :=
  ∃ d ∈ s.log, d.fault = .ambiguityExhausted

/-- What is built outside attempts lasts, and so does what has been reported. -/
def Lasts (s t : ParseState) : Prop :=
  s.tentative = {} → s.Builds t ∧ ∀ d ∈ s.log, d ∈ t.log

lemma Lasts.of_step (hstep : Step env s t) : s.Lasts t := by
  refine fun hs => ⟨.of_step hs hstep, fun d hd => ?_⟩
  cases hstep with
  | advance =>
    obtain ⟨tentative, errorCount, muted, -, -, -, e⟩ := s.advance_eq env.src
    rw [e]
    exact hd
  | report span m args =>
    unfold report
    split
    · exact hd
    · dsimp only
      split
      · exact hd
      · exact Array.mem_push_of_mem _ hd
  | reportDepth span =>
    unfold reportDepth
    split
    · exact hd
    · dsimp only
      split
      · exact hd
      · exact Array.mem_push_of_mem _ hd
  | alloc | intern | deeper | shallower => exact hd

lemma Lasts.of_turn (hturn : Turn env s t) : s.Lasts t := by
  refine fun hs => ⟨.of_turn hs hturn, fun d hd => ?_⟩
  cases hturn with
  | unmute | joinGreater | remember | enclose => exact hd
  | commit htries ok =>
    have hlog := congrArg Prod.fst (Inside.of_tries hs htries).context
    exact (show (s.commit _).log = s.log from hlog) ▸ hd
  | giveUp htries =>
    rw [(Inside.of_tries hs htries).giveUp_eq hs]
    exact hd

end ParseState

/-- States outside attempts that rules cannot tell apart, where no fault has been met. -/
structure ParseState.Paired (s s' : ParseState) : Prop where
  seen : s'.seen = s.seen
  clean : s.Clean
  clean' : s'.Clean

/-- A fault is met, or both parses go on. -/
lemma ParseState.Paired.stride (hs : s.Paired s') (h : Stride env s s' t t') :
    t.Paired t' ∨ t.errorCount ≠ 0 := by
  have hseen : t'.seen = t.seen := by
    obtain ⟨hseen, -⟩ | ⟨rfl, rfl⟩ := h.seen_or_advance hs.seen
    · exact hseen
    · exact seen_advance env.src hs.seen (spares_of_settled hs.clean.settled)
        (spares_of_settled hs.clean'.settled)
  have hcount : t'.errorCount = t.errorCount := (congrArg errorCount hseen :)
  obtain hclean | hfault := hs.clean.step h.step
  · obtain hclean' | hfault := hs.clean'.step (h.step' hs.seen)
    · exact .inl ⟨hseen, hclean, hclean'⟩
    · exact absurd (hcount.trans hclean.errorCount) hfault
  · exact .inr hfault

/-- Some lambda among the nodes has parameters. -/
def Nodes.TakesParams (nodes : Nodes) : Prop :=
  ∃ id params body span, nodes.exprs.get? id = some ⟨.lambda params body, span⟩ ∧ params ≠ []

lemma Nodes.TakesParams.grow {nodes others : Nodes} (h : nodes.TakesParams)
    (hext : nodes.Extends others) : others.TakesParams := by
  obtain ⟨id, params, body, span, hget, hparams⟩ := h
  exact ⟨id, params, body, span, hext.exprs.get?_eq hget, hparams⟩

/-- A parse, and one whose attempts may take fewer tokens. They may part where the first one meets a
fault or has built a lambda with parameters, or where the second one has reported want of tokens. -/
def Lockstep.budgets (env : Env) (budget : Nat) : Lockstep where
  env := env
  env' := env.tighten budget
  src := rfl
  maxDepth := rfl
  alike := ParseState.Paired
  parted s s' := s.tentative = {} ∧ s'.tentative = {}
    ∧ (s.errorCount ≠ 0 ∨ s.nodes.TakesParams ∨ s'.TellsExhaustion)
  lasts := ParseState.Lasts
  seen h := h.seen
  stride hs h := by
    refine (hs.stride h).imp_right fun hfault => ?_
    exact ⟨h.step.settled hs.clean.settled, (h.step' hs.seen).settled hs.clean'.settled,
      .inl hfault⟩
  refl s hs := ⟨.refl hs, fun _ => id⟩
  trans h h' hs := by
    obtain ⟨hbuilds, hlog⟩ := h hs
    obtain ⟨hbuilds', hlog'⟩ := h' hbuilds.settled
    exact ⟨hbuilds.trans hbuilds', fun d hd => hlog' d (hlog d hd)⟩
  step := .of_step

namespace Lockstep

lemma settled_budgets (env : Env) (budget : Nat) : (budgets env budget).Settled where
  unmute h := ⟨by rw [ParseState.eq_of_seen h.seen]; rfl, { h.clean with muted := rfl },
    { h.clean' with muted := rfl }⟩
  joinGreater h := ⟨by rw [ParseState.eq_of_seen h.seen]; rfl, { h.clean with },
    { h.clean' with }⟩
  enclose _ h := ⟨by rw [ParseState.eq_of_seen h.seen]; rfl, { h.clean with }, { h.clean' with }⟩
  turn := .of_turn

variable {o o' : Option (α × ParseState)}

/-- The second parse reports want of tokens, whatever the first one does. -/
lemma meets_of_exhaustion (hs : s.Paired s') (hlasts : ∀ a t, o = some (a, t) → s.Lasts t)
    (h : ∀ a t, o' = some (a, t) → t.tentative = {} ∧ t.TellsExhaustion) :
    (budgets env budget).Meets (fun _ _ => True) o o' := by
  cases o' with
  | none =>
    let report := Message.ambiguityExhausted.diagnostic s'.lexer.span []
    let told : ParseState := { s' with log := #[report] }
    have htold : told.TellsExhaustion := ⟨report, Array.mem_singleton.2 rfl, rfl⟩
    have hparted : (budgets env budget).parted s told :=
      ⟨hs.clean.settled, hs.clean'.settled, .inr (.inr htold)⟩
    exact .parted hparted (hlasts _ _) nofun
  | some p =>
    obtain ⟨a, t⟩ := p
    obtain ⟨hsettled, htold⟩ := h a t rfl
    refine .parted ⟨hs.clean.settled, hsettled, .inr (.inr htold)⟩ (hlasts _ _) ?_
    rintro _ _ ⟨⟩
    exact (budgets env budget).refl _

/-- The first parse builds a lambda with parameters, whatever the second one does. -/
lemma meets_of_takesParams (hs : s.Paired s')
    (h : ∀ a t, o = some (a, t) → t.tentative = {} ∧ t.nodes.TakesParams)
    (hlasts : ∀ a t, o' = some (a, t) → s'.Lasts t) :
    (budgets env budget).Meets (fun _ _ => True) o o' := by
  cases o with
  | none =>
    exact .parted (s := { s with errorCount := 1 })
      ⟨hs.clean.settled, hs.clean'.settled, .inl Nat.one_ne_zero⟩ nofun (hlasts _ _)
  | some p =>
    obtain ⟨a, t⟩ := p
    obtain ⟨hsettled, hparams⟩ := h a t rfl
    refine .parted ⟨hsettled, hs.clean'.settled, .inr (.inl hparams)⟩ ?_ (hlasts _ _)
    rintro _ _ ⟨⟩
    exact (budgets env budget).refl _

end Lockstep

/-! ## Attempts with fewer tokens -/

namespace ParseState

/-- Attempts that end alike are committed alike. -/
lemma Paired.commit (hs : s.Paired s') (hu : u'.seen = u.seen) (htries : Tries env s u)
    (htries' : Tries (env.tighten budget) s' u') (hok : u.tentative.failed = false)
    (hok' : u'.tentative.failed = false) : (s.commit u).Paired (s'.commit u') := by
  have clean {env : Env} {s u : ParseState} (hs : s.Clean) (h : Tries env s u)
      (hok : u.tentative.failed = false) : (s.commit u).Clean := by
    have hcontext := (Inside.of_tries hs.settled h).context
    simp only [context, Prod.mk.injEq] at hcontext
    obtain ⟨-, -, hmuted, hlast, hcount, -⟩ := hcontext
    exact ⟨(Turn.commit h hok).settled hs.settled, hcount.trans hs.errorCount,
      hmuted.trans hs.muted, hlast.trans hs.lastErrorStart⟩
  refine ⟨?_, clean hs.clean htries hok, clean hs.clean' htries' hok'⟩
  rw [eq_of_seen hu]
  rfl

lemma Clean.giveUp (hs : s.Clean) (htries : Tries env s u) : (s.giveUp u).Clean := by
  rw [(Inside.of_tries hs.settled htries).giveUp_eq hs.settled]
  exact { hs with }

/-- Attempts that are given up leave nothing behind that rules see. -/
lemma Paired.giveUp (hs : s.Paired s') (htries : Tries env s u)
    (htries' : Tries (env.tighten budget) s' u') : (s.giveUp u).Paired (s'.giveUp u') := by
  refine ⟨?_, hs.clean.giveUp htries, hs.clean'.giveUp htries'⟩
  rw [(Inside.of_tries hs.clean.settled htries).giveUp_eq hs.clean.settled,
    (Inside.of_tries hs.clean'.settled htries').giveUp_eq hs.clean'.settled]
  exact hs.seen

end ParseState

namespace Rule

section

variable {body : Rule (Option α)} (hbudget : budget ≤ env.settings.budget)
  (hbody : Agrees (.attempts env budget) body)
  (htries : ∀ {s result u}, body env (s.enterTentative env.settings.budget) = some (result, u) →
    Tries env s u)
  (htries' : ∀ {s result u},
    body (env.tighten budget) (s.enterTentative budget) = some (result, u) →
      Tries (env.tighten budget) s u)

include hbudget hbody htries htries'

/-- With fewer tokens an attempt ends as before, or for want of them. -/
lemma attempt_tighten (hs : s.Paired s') :
    (Lockstep.budgets env budget).Meets (fun _ _ => True) (attempt body env s)
        (attempt body (env.tighten budget) s')
      ∨ ∀ a t', attempt body (env.tighten budget) s' = some (a, t') →
        a = .exhausted ∧ ∃ u', Tries (env.tighten budget) s' u' ∧ t' = s'.giveUp u' := by
  have henter : (s.enterTentative env.settings.budget).Inner (s'.enterTentative budget) := by
    have hsettled := hs.clean.settled
    have hsettled' := hs.clean'.settled
    refine ⟨?_, s.tokenCount + env.settings.budget, s'.tokenCount + budget, ?_, ?_, ?_⟩
    · rw [ParseState.eq_of_seen hs.seen]
      rfl
    · simp [ParseState.enterTentative, hsettled]
    · simp [ParseState.enterTentative, hsettled']
    · simp only [ParseState.enterTentative]
      omega
  have hmeets : (Lockstep.attempts env budget).Meets _
      (body env (s.enterTentative env.settings.budget))
      (body (env.tighten budget) (s'.enterTentative budget)) := hbody.meets henter trivial
  generalize hrun : body env _ = o at hmeets
  generalize hrun' : body (env.tighten budget) _ = o' at hmeets
  cases hmeets with
  | none =>
    left
    rw [attempt_apply, attempt_apply, hrun, show body (env.tighten budget) _ = none from hrun']
    exact .none
  | @some result u u' hu _ =>
    left
    have hfailed : u'.tentative.failed = u.tentative.failed :=
      (congrArg (fun s : ParseState => s.tentative.failed) hu.1 :)
    have hexhausted : u'.tentative.exhausted = u.tentative.exhausted :=
      (congrArg (fun s : ParseState => s.tentative.exhausted) hu.1 :)
    by_cases hno : result = none ∨ u.tentative.failed = true
    · rw [attempt_givenUp hrun hno, attempt_givenUp hrun' (hfailed ▸ hno), hexhausted]
      exact .some (hs.giveUp (htries hrun) (htries' hrun')) trivial
    · rw [not_or, Bool.not_eq_true] at hno
      obtain ⟨a, rfl⟩ := Option.ne_none_iff_exists'.1 hno.1
      rw [attempt_committed hrun hno.2, attempt_committed hrun' (hfailed.trans hno.2)]
      exact .some (hs.commit hu.1 (htries hrun) (htries' hrun') hno.2 (hfailed.trans hno.2)) trivial
  | parted hout _ hlasts' =>
    right
    intro a t' e
    obtain ⟨result, u', hbody', hend⟩ := attempt_eq_some e
    obtain ⟨hfailed, hexhausted⟩ := hlasts' (hrun'.symm.trans hbody') hout
    obtain ⟨b, -, hok, -, -⟩ | ⟨-, rfl, rfl⟩ := hend
    · cases hok.symm.trans hfailed
    · exact ⟨if_pos hexhausted, u', htries' hbody', rfl⟩

end

lemma lasts_attempt_bind {env : Env} {body : Rule (Option α)} {k : Attempt α → Rule β} {b : β}
    (hpreserves : ∀ K : Invariant env, Preserves K body)
    (hk : ∀ {a s b t}, k a env s = some (b, t) → s.Lasts t)
    (e : (attempt body >>= k) env s = some (b, t)) : s.Lasts t := by
  obtain ⟨a, u, hattempt, hrest⟩ := bind_eq_some.1 e
  have hturn : Turn env s u := by
    obtain ⟨_, v, hrun, ⟨_, -, hok, -, rfl⟩ | ⟨-, -, rfl⟩⟩ := attempt_eq_some hattempt
    · exact .commit (tries_of_preserves hpreserves hrun) hok
    · exact .giveUp (tries_of_preserves hpreserves hrun)
  exact (Lockstep.budgets env 0).trans (.of_turn hturn) (hk hrest)

/-- An attempt and what goes on behind it, if it stays in step where the attempt ends alike and
where the second one is given up for want of tokens. -/
lemma agrees_attempt_bind {body : Rule (Option α)} {k : Attempt α → Rule β}
    (hbudget : budget ≤ env.settings.budget) (hbody : Agrees (.attempts env budget) body)
    (hpreserves : ∀ {env : Env} (K : Invariant env), Preserves K body)
    (hk : ∀ a, Agrees (.budgets env budget) (k a))
    (hout : ∀ {s s'}, s.Paired s' → (∀ a t', attempt body (env.tighten budget) s' = some (a, t') →
        a = .exhausted ∧ ∃ u', Tries (env.tighten budget) s' u' ∧ t' = s'.giveUp u') →
      (∀ b t, (attempt body >>= k) env s = some (b, t) → s.Lasts t) →
      (∀ b t, (attempt body >>= k) (env.tighten budget) s' = some (b, t) → s'.Lasts t) →
      (Lockstep.budgets env budget).Meets (fun _ _ => True) ((attempt body >>= k) env s)
        ((attempt body >>= k) (env.tighten budget) s')) :
    Agrees (.budgets env budget) (attempt body >>= k) := by
  have lasts {s : ParseState} {b : β} {t : ParseState}
      (e : (attempt body >>= k) env s = some (b, t)) : s.Lasts t :=
    lasts_attempt_bind hpreserves (fun {a _ _ _} e => (hk a).lasts e) e
  have lasts' {s : ParseState} {b : β} {t : ParseState}
      (e : (attempt body >>= k) (env.tighten budget) s = some (b, t)) : s.Lasts t :=
    lasts_attempt_bind hpreserves (fun {a _ _ _} e => (hk a).lasts' e) e
  refine ⟨lasts, lasts', fun {s s'} hs _ => ?_⟩
  obtain hmeets | hexhausted := attempt_tighten hbudget hbody (tries_of_preserves hpreserves)
    (tries_of_preserves hpreserves) hs
  · exact hmeets.bind (fun e => (hk _).lasts e) (fun e => (hk _).lasts' e)
      fun ht _ => (hk _).meets ht trivial
  · exact hout hs hexhausted (fun _ _ => lasts) fun _ _ => lasts'

/-! ## Type arguments -/

section

variable {nesting : Nat} (hbudget : budget ≤ env.settings.budget)

/-- Both parses lack tokens, which is a fault. -/
lemma agrees_reportExhausted (opening : Span) : Agrees (.budgets env budget) (do
    let budget := (← read).settings.budget
    reportAt opening .ambiguityExhausted ["<", toString budget]
    return ([] : List TypeId)) where
  lasts e := by
    cases e
    exact .of_step (.report _ opening _ _ : Step env _ _)
  lasts' e := by
    cases e
    exact .of_step (.report _ opening _ _ : Step env _ _)
  meets {s s'} hs _ := by
    have hparted : (Lockstep.budgets env budget).parted
        (s.report opening .ambiguityExhausted ["<", toString env.settings.budget])
        (s'.report opening .ambiguityExhausted ["<", toString budget]) := by
      refine ⟨?_, ?_, .inl ?_⟩
      · exact (Step.report s _ _ _ : Step env s _).settled hs.clean.settled
      · exact (Step.report s' _ _ _ : Step env s' _).settled hs.clean'.settled
      · rw [ParseState.errorCount_report hs.clean.settled]
        exact Nat.succ_ne_zero _
    refine .parted hparted ?_ ?_
    · rintro _ _ ⟨⟩
      exact (Lockstep.budgets env budget).refl _
    · rintro _ _ ⟨⟩
      exact (Lockstep.budgets env budget).refl _

include hbudget

lemma agrees_typeArgumentsIf_budgets (candidate : Bool) :
    Agrees (.budgets env budget) (typeArgumentsIf (callTo nesting) candidate) := by
  refine .ite (fun _ => .pure fun _ => id) fun _ => Agrees.bind agrees_tokenSpan fun opening => ?_
  refine agrees_attempt_bind hbudget (agrees_fittingArguments? (agrees_callTo_type nesting))
    (fun K => preserves_fittingArguments? (preserves_callTo_type nesting K)) (fun result => ?_)
    fun {s s'} hs hexhausted hlasts _ => ?_
  · cases result with
    | committed args => exact .pure args
    | rewound =>
      refine .bind (.modify (fun hs _ => ?_) (fun s => .of_turn (.remember s _ : Turn env s _))
        fun _ _ => trivial) fun _ => .pure []
      exact ⟨by rw [ParseState.eq_of_seen hs.seen]; rfl, { hs.clean with }, { hs.clean' with }⟩
    | exhausted => exact agrees_reportExhausted opening
  · refine Lockstep.meets_of_exhaustion hs hlasts fun args t e => ?_
    obtain ⟨_, _, hattempt, hrest⟩ := bind_eq_some.1 e
    obtain ⟨rfl, u', htries, rfl⟩ := hexhausted _ _ hattempt
    cases hrest
    have hclean := hs.clean'.giveUp htries
    refine ⟨(Step.report _ _ _ _ : Step env _ _).settled hclean.settled,
      Message.ambiguityExhausted.diagnostic opening ["<", toString budget], ?_, rfl⟩
    rw [hclean.log_report]
    exact Array.mem_push_self

/-- Whether type arguments may open is seen alike. -/
lemma agrees_typeArguments?_budgets :
    Agrees (.budgets env budget) (typeArguments? (callTo nesting)) where
  lasts e := (agrees_typeArgumentsIf_budgets hbudget _).lasts e
  lasts' e := (agrees_typeArgumentsIf_budgets hbudget _).lasts' e
  meets {s s'} hs _ := by
    change (Lockstep.budgets env budget).Meets _ (typeArguments? (callTo nesting) env s)
      (typeArguments? (callTo nesting) (env.tighten budget) s')
    have hcandidate : (s'.kind == .mark .less && !s'.lexer.flags.separated
        && !(env.remembers && s'.comparisons.contains s'.start))
          = (s.kind == .mark .less && !s.lexer.flags.separated
            && !(env.remembers && s.comparisons.contains s.start)) := by
      rw [ParseState.eq_of_seen hs.seen]
      rfl
    rw [typeArguments?_apply, typeArguments?_apply, hcandidate]
    exact (agrees_typeArgumentsIf_budgets hbudget _).meets hs trivial

end

/-! ## Lambdas -/

section

variable {call : Call}

/-- Only in front of the arrow there may be no parameters. -/
lemma ensures_lambdaParams? : Ensures env s (lambdaParams? call) fun result _ =>
    result = some [] → s.kind = .mark .fatArrow := by
  refine Ensures.bind (P := fun result _ => result = some [] → s.kind = .mark .fatArrow)
    (.loop_invariant (R := fun params t => params = [] → t = s) (fun params t ht => ?_)
      fun _ => rfl) fun result t ht => ?_
  · refine .view ?_
    split
    case isTrue harrow =>
      refine .pure fun e => ?_
      rw [← ht (Option.some.inj e)]
      exact eq_of_beq harrow
    split
    · exact .pure nofun
    · refine .view ?_
      extract_lets rest
      have hrest (name : Option Name) (u : ParseState) : Ensures env u (rest name)
          (Sum.elim (fun params t => params = [] → t = s)
            fun result _ => result = some [] → s.kind = .mark .fatArrow) := by
        refine .behind fun type _ => .view ?_
        refine .behind fun more _ => ?_
        cases more with
        | true => exact .pure fun e => absurd e (by simp)
        | false => exact .pure fun e => absurd e (by simp)
      clear_value rest
      split
      · exact .advance (hrest none _)
      · exact .behind fun name t => hrest (some name) t
  · cases result with
    | none => exact .pure nofun
    | some params =>
      refine .behind fun found _ => ?_
      cases found with
      | true => exact .pure ht
      | false => exact .pure nofun

/-- In front of the arrow there are no parameters. -/
lemma lambdaParams?_of_arrow (harrow : s.kind = .mark .fatArrow) :
    lambdaParams? call env s = some (some [], s.advance env.src) := by
  have hround : lambdaParamsRound call [] env s = some (.inr (some []), s) := by
    change (if s.kind == .mark .fatArrow then _ else _ : Rule _) env s = _
    rw [if_pos (beq_iff_eq.2 harrow)]
    rfl
  have hloop : loop (lambdaParamsRound call) [] env s = some (some [], s) := by
    obtain ⟨rounds, hrounds⟩ := Nat.exists_eq_add_of_le' env.one_le_rounds
    change loopUpTo (lambdaParamsRound call) env.rounds [] env s = _
    rw [hrounds]
    exact bind_eq_some.2 ⟨_, _, hround, rfl⟩
  exact bind_eq_some.2 ⟨_, _, hloop, bind_eq_some.2 ⟨_, _, optional_of_kind harrow, rfl⟩⟩

end

section

variable {nesting : Nat} (hbudget : budget ≤ env.settings.budget) (hpositive : 0 < budget)

include hbudget hpositive

/-- One token suffices to find that there are no parameters. -/
lemma committed_of_no_params (hs : s.Paired s')
    (e : attempt (lambdaParams? (callTo nesting)) env s = some (.committed [], t)) :
    ∃ t', attempt (lambdaParams? (callTo nesting)) (env.tighten budget) s'
      = some (.committed [], t') := by
  obtain ⟨result, u, hrun, ⟨_, rfl, hok, ⟨⟩, -⟩ | ⟨-, hnot, -⟩⟩ := attempt_eq_some e
  · have hsettled := hs.clean.settled
    have hsettled' := hs.clean'.settled
    have hseen : (s'.enterTentative budget).seen = (s.enterTentative env.settings.budget).seen := by
      rw [ParseState.eq_of_seen hs.seen]
      rfl
    have hspares : (s.enterTentative env.settings.budget).Spares := by
      simp only [ParseState.Spares, ParseState.enterTentative, hsettled]
      rintro _ ⟨⟩
      simp
      omega
    have hspares' : (s'.enterTentative budget).Spares := by
      simp only [ParseState.Spares, ParseState.enterTentative, hsettled']
      rintro _ ⟨⟩
      simp
      omega
    have harrow := ensures_lambdaParams? _ _ hrun rfl
    have harrow' : (s'.enterTentative budget).kind = .mark .fatArrow := by
      rw [← harrow, ParseState.eq_of_seen hseen]
      rfl
    cases (lambdaParams?_of_arrow harrow).symm.trans hrun
    have hsame := ParseState.seen_advance env.src hseen hspares hspares'
    have hok' : ((s'.enterTentative budget).advance env.src).tentative.failed = false :=
      (congrArg (fun s : ParseState => s.tentative.failed) hsame :).trans hok
    have hrun' : lambdaParams? (callTo nesting) (env.tighten budget) (s'.enterTentative budget)
        = some (some [], (s'.enterTentative budget).advance env.src) := lambdaParams?_of_arrow harrow'
    exact ⟨_, attempt_committed hrun' hok'⟩
  · split at hnot <;> cases hnot

end

/-- A lambda behind its brace, given what became of the attempt at its parameters. -/
def lambdaFrom (call : Call) (start : Nat) (needsArrow : Bool)
    (result : Attempt (List LambdaParam)) : Rule ExprId := do
  let params ← match result with
    | .committed params => pure params
    | _ =>
      if needsArrow then report .expected [Punctuation.fatArrow.text]
      pure []
  let items ← allItems call
  require (.mark .closeBrace)
  let span ← spanFrom start
  allocExpr (.lambda params ⟨items, span⟩) span

lemma lambda_eq (call : Call) (needsArrow : Bool) : lambda call needsArrow = (do
    let start ← start
    advance
    attempt (lambdaParams? call) >>= lambdaFrom call start needsArrow) :=
  rfl

/-- A lambda with parameters is one of the nodes. -/
lemma ensures_lambdaFrom {call : Call} {start : Nat} {needsArrow : Bool}
    {params : List LambdaParam} (hparams : params ≠ []) :
    Ensures env s (lambdaFrom call start needsArrow (.committed params))
      fun _ t => t.nodes.TakesParams := by
  refine .bind (P := fun found _ => found = params) (.pure rfl) ?_
  rintro _ t rfl
  refine .behind fun items _ => ?_
  refine .behind fun _ _ => .view ?_
  rintro _ _ ⟨⟩
  exact ⟨_, _, _, _, Arena.get?_push_next .., hparams⟩

section

variable {nesting : Nat} (hcall : ∀ {α : Type} (g : Nonterminal α),
  Agrees (.budgets env budget) (callTo nesting g))

include hcall

lemma agrees_lambdaFrom (start : Nat) (needsArrow : Bool) (result : Attempt (List LambdaParam)) :
    Agrees (.budgets env budget) (lambdaFrom (callTo nesting) start needsArrow result) := by
  have hL := Lockstep.settled_budgets env budget
  unfold lambdaFrom
  cases result <;> grind

/-- Where fewer tokens do not suffice for the parameters of a lambda, it has some, or the first
parse does not find them either. -/
lemma agrees_lambda_budgets (hbudget : budget ≤ env.settings.budget) (hpositive : 0 < budget)
    (needsArrow : Bool) : Agrees (.budgets env budget) (lambda (callTo nesting) needsArrow) := by
  rw [lambda_eq]
  refine .bind agrees_start fun start => .bind agrees_advance fun _ => ?_
  have hrest := agrees_lambdaFrom hcall start needsArrow
  refine agrees_attempt_bind hbudget (agrees_lambdaParams? (agrees_callTo_type nesting))
    (fun K => preserves_lambdaParams? (preserves_callTo_type nesting K)) hrest
    fun {s s'} hs hexhausted hlasts hlasts' => ?_
  cases e : attempt (lambdaParams? (callTo nesting)) env s with
  | none =>
    refine Lockstep.meets_of_takesParams hs (fun _ _ hrun => ?_) hlasts'
    obtain ⟨_, _, hattempt, -⟩ := bind_eq_some.1 hrun
    exact nomatch e.symm.trans hattempt
  | some p =>
    obtain ⟨result, t⟩ := p
    obtain ⟨found, u, hrun, ⟨params, -, -, rfl, -⟩ | ⟨-, hresult, rfl⟩⟩ := attempt_eq_some e
    · by_cases hparams : params = []
      · subst hparams
        obtain ⟨t', e'⟩ := committed_of_no_params hbudget hpositive hs e
        exact nomatch (hexhausted _ _ e').1
      · refine Lockstep.meets_of_takesParams hs (fun id v hv => ?_) hlasts'
        obtain ⟨_, _, hattempt, hlambda⟩ := bind_eq_some.1 hv
        cases e.symm.trans hattempt
        exact ⟨(hlasts id v hv hs.clean.settled).1.settled, ensures_lambdaFrom hparams id v hlambda⟩
    · cases e' : attempt (lambdaParams? (callTo nesting)) (env.tighten budget) s' with
      | none =>
        refine Lockstep.meets_of_exhaustion hs hlasts fun _ _ hrun => ?_
        obtain ⟨_, _, hattempt, -⟩ := bind_eq_some.1 hrun
        exact nomatch e'.symm.trans hattempt
      | some p' =>
        -- Neither parse has found parameters.
        obtain ⟨result', t'⟩ := p'
        obtain ⟨rfl, u', htries', rfl⟩ := hexhausted _ _ e'
        have hpaired := hs.giveUp (tries_of_preserves (fun K =>
          preserves_lambdaParams? (preserves_callTo_type nesting K)) hrun) htries'
        have hmeets := (hrest .exhausted).meets hpaired trivial
        have hrewound : lambdaFrom (callTo nesting) start needsArrow result
            = lambdaFrom (callTo nesting) start needsArrow .exhausted := by
          rw [hresult]
          split <;> rfl
        change (Lockstep.budgets env budget).Meets _ ((attempt _ env s).bind _)
          ((attempt _ (env.tighten budget) s').bind _)
        rw [e, e']
        change (Lockstep.budgets env budget).Meets _ (lambdaFrom _ _ _ result env _) _
        rw [hrewound]
        exact hmeets

end

lemma agrees_callTo_budgets (hbudget : budget ≤ env.settings.budget) (hpositive : 0 < budget)
    (nesting : Nat) (g : Nonterminal α) : Agrees (.budgets env budget) (callTo nesting g) :=
  agrees_callTo (Lockstep.settled_budgets env budget) fresh_true
    (fun _ => agrees_typeArguments?_budgets hbudget)
    (fun _ hcall => agrees_lambda_budgets hcall hbudget hpositive) nesting g

end Rule

/-! ## Parses with fewer tokens -/

lemma ParseState.Fresh.clean (h : s.Fresh env.src) : s.Clean := by
  cases h <;> exact ⟨rfl, rfl, rfl, rfl⟩

/-- Where the first parse has met no fault and has built no lambda with parameters, the second one
is in step with it, or has reported want of tokens. -/
lemma Lockstep.seen_or_exhausted {R : α → ParseState → Prop} {a : α} {o' : Option (α × ParseState)}
    (h : (budgets env budget).Meets R (some (a, t)) o') (hclean : t.errorCount = 0)
    (hparams : ¬ t.nodes.TakesParams) : (∃ t', o' = some (a, t') ∧ t'.seen = t.seen)
      ∨ ∀ a' t', o' = some (a', t') → t'.TellsExhaustion := by
  cases h with
  | @some _ _ t' ht => exact .inl ⟨t', rfl, ht.seen⟩
  | parted hparted hlasts hlasts' =>
    obtain ⟨hsettled, hsettled', hfault | hfound | ⟨d, hd, htold⟩⟩ := hparted
    · have := (hlasts rfl hsettled).1.errorCount
      omega
    · exact absurd (hfound.grow (hlasts rfl hsettled).1.nodes) hparams
    · exact .inr fun a' t' e => ⟨d, (hlasts' e hsettled').2 d hd, htold⟩

/-- From the start of a text on, a rule does the same with fewer tokens, or the lack is reported. -/
theorem ParseState.Fresh.runFrom_tighten {rule : Call → Rule α} {a : α} (h : s.Fresh env.src)
    (hrule : Agrees (.budgets env budget) (rule (Rule.callTo env.nesting)))
    (hrun : Rule.runFrom env rule s = some (a, t)) (hclean : t.errorCount = 0)
    (hparams : ¬ t.nodes.TakesParams) :
    (∃ t', Rule.runFrom (env.tighten budget) rule s = some (a, t') ∧ t'.seen = t.seen)
      ∨ ∀ a' t', Rule.runFrom (env.tighten budget) rule s = some (a', t') → t'.TellsExhaustion := by
  have hL := Lockstep.settled_budgets env budget
  have hunmute : Agrees (.budgets env budget) Rule.unmute :=
    AgreesVia.modify (fun hs _ => hL.unmute hs) (fun s => .of_turn (.unmute s : Turn env s _))
      fun _ => id
  have hwhole : Agrees (.budgets env budget) (do Rule.begin; rule (Rule.callTo env.nesting)) :=
    .bind (.bind Rule.agrees_advance fun _ => hunmute) fun _ => hrule
  have hnesting : (env.tighten budget).nesting = env.nesting := by
    unfold Env.nesting Env.rounds
    rfl
  have hmeets := hwhole.meets (s := s) ⟨rfl, h.clean, h.clean⟩ trivial
  change (Lockstep.budgets env budget).Meets _ (Rule.runFrom env rule s) _ at hmeets
  rw [hrun] at hmeets
  unfold Rule.runFrom
  rw [hnesting]
  exact Lockstep.seen_or_exhausted hmeets hclean hparams

/-- What is reported is among the diagnostics. -/
lemma ParseState.TellsExhaustion.located (h : s.TellsExhaustion) (settings : Settings) :
    ∃ d ∈ settings.locate s.diagnostics, d.fault = .ambiguityExhausted := by
  obtain ⟨d, hd, hfault⟩ := h
  have hmem : d ∈ s.diagnostics := by
    simp [diagnostics, Log.sorted, hd]
  unfold Settings.locate
  split
  · exact ⟨_, Array.mem_map_of_mem hmem, hfault⟩
  · exact ⟨d, hmem, hfault⟩

section

variable {settings : Settings} {src : Source} (hbudget : budget ≤ settings.budget)
  (hpositive : 0 < budget)

include hbudget hpositive

lemma Source.parseFile_of_le_budget {names names' : NameTable} {p : FileParse}
    (h : src.parseFile settings names = some (p, names')) (hclean : p.diagnostics = #[])
    (hparams : ¬ p.tree.nodes.TakesParams) :
    (∃ names', src.parseFile { settings with budget } names = some (p, names'))
      ∨ ∀ q names', src.parseFile { settings with budget } names = some (q, names') →
        ∃ d ∈ q.diagnostics, d.fault = .ambiguityExhausted := by
  obtain ⟨⟨tree, t⟩, hrun, e⟩ := Option.map_eq_some_iff.1 h
  cases e
  have hfresh : ParseState.Fresh (Env.mk src settings true).src { ParseState.ofSource src with
      names } := .file names
  have hreachable : Reachable (Env.mk src settings true) t :=
    (Rule.runFrom_keeps (Region.settled_reachable _)
      (fun _ => Rule.yields_file (Region.settled_reachable _)) (.file names) hrun).1
  obtain ⟨t', hrun', hseen⟩ | htold := hfresh.runFrom_tighten
    (Rule.agrees_file (Lockstep.settled_budgets _ _)
      (Rule.agrees_callTo_budgets hbudget hpositive _)) hrun
    (hreachable.errorCount_eq_zero hclean) hparams
  · refine .inl ⟨t'.names, Option.map_eq_some_iff.2 ⟨_, hrun', ?_⟩⟩
    rw [ParseState.eq_of_seen hseen]
    rfl
  · refine .inr fun q names' hq => ?_
    obtain ⟨⟨tree', t'⟩, hrun', e⟩ := Option.map_eq_some_iff.1 hq
    cases e
    exact (htold tree' t' hrun').located { settings with budget }

lemma Source.parseExpression_of_le_budget {offset : Nat} {p : ExprParse}
    (h : src.parseExpression offset settings = some p) (hclean : p.diagnostics = #[])
    (hparams : ¬ p.nodes.TakesParams) :
    src.parseExpression offset { settings with budget } = some p
      ∨ ∀ q, src.parseExpression offset { settings with budget } = some q →
        ∃ d ∈ q.diagnostics, d.fault = .ambiguityExhausted := by
  obtain ⟨⟨expr, t⟩, hrun, rfl⟩ := Option.map_eq_some_iff.1 h
  have hfresh : ParseState.Fresh (Env.mk src settings true).src { ParseState.ofSource src with
      lexer := (Lexer.ofSource src).seek src offset, prevStop := offset } := .expression offset
  have hreachable : Reachable (Env.mk src settings true) t :=
    (Rule.runFrom_keeps (Region.settled_reachable _)
      (fun _ => Rule.yields_statement (Region.settled_reachable _)) (.expression offset) hrun).1
  obtain ⟨t', hrun', hseen⟩ | htold := hfresh.runFrom_tighten
    (Rule.agrees_callTo_budgets hbudget hpositive (_ + 1) .statement) hrun
    (hreachable.errorCount_eq_zero hclean) hparams
  · refine .inl (Option.map_eq_some_iff.2 ⟨_, hrun', ?_⟩)
    rw [ParseState.eq_of_seen hseen]
    rfl
  · refine .inr fun q hq => ?_
    obtain ⟨⟨expr', t'⟩, hrun', rfl⟩ := Option.map_eq_some_iff.1 hq
    exact (htold expr' t' hrun').located { settings with budget }

/-- A text without lambdas that have parameters, parsed without diagnostics, is parsed to the same
with fewer tokens for each attempt, or the lack of them is reported. -/
theorem parse_of_le_budget (bytes : ByteArray) :
    (∀ p, parseFile bytes settings = some p → p.diagnostics = #[] → ¬ p.tree.nodes.TakesParams →
      parseFile bytes { settings with budget } = some p
        ∨ ∀ q, parseFile bytes { settings with budget } = some q →
          ∃ d ∈ q.diagnostics, d.fault = .ambiguityExhausted)
      ∧ ∀ offset p, parseExpression bytes offset settings = some p → p.diagnostics = #[] →
        ¬ p.nodes.TakesParams → parseExpression bytes offset { settings with budget } = some p
          ∨ ∀ q, parseExpression bytes offset { settings with budget } = some q →
            ∃ d ∈ q.diagnostics, d.fault = .ambiguityExhausted := by
  refine ⟨fun p hp hclean hparams => ?_, fun offset p hp hclean hparams => ?_⟩
  · obtain ⟨⟨_, names⟩, hinto, rfl⟩ := Option.map_eq_some_iff.1 hp
    unfold parseFile parseFileInto at *
    cases hsrc : Source.ofBytes bytes with
    | ok src =>
      rw [hsrc] at hinto
      obtain ⟨names', hq⟩ | htold :=
        Source.parseFile_of_le_budget hbudget hpositive hinto hclean hparams
      · exact .inl (Option.map_eq_some_iff.2 ⟨_, hq, rfl⟩)
      · refine .inr fun q hq => ?_
        obtain ⟨⟨_, names'⟩, hinto', rfl⟩ := Option.map_eq_some_iff.1 hq
        exact htold _ names' hinto'
    | error span =>
      rw [hsrc] at hinto
      cases hinto
      exact absurd hclean (settings.encodingFault_ne_empty span)
  · unfold parseExpression at *
    dsimp only at hp ⊢
    split at hp
    case h_1 src _ => exact Source.parseExpression_of_le_budget hbudget hpositive hp hclean hparams
    case h_2 => exact .inl hp

end

end CangjieSyntax
