import CangjieSyntax.Proofs.Ending.Finishes
import CangjieSyntax.Proofs.Nesting.Rule

/-!
# Tentative readings keep to their budget

An attempt takes no more tokens than its budget and two: one token goes past the limit, which makes
the attempt fail, and behind a label whose name is that token one more is taken unseen. A failed
attempt sees the end of the text wherever it looks, so that its rules take nothing any more. Since
a rule that goes on takes a token, an attempt comes to its end within as many rounds and as deep as
its budget allows, whatever text there is.

The invariant is `Affords limit left`: so many tokens are left until the attempt fails. `Spends`
says what a rule yields and, under a condition on rounds and nesting, that it yields something.
-/

namespace CangjieSyntax

variable {env : Env} {α β : Type} {s t u : ParseState} {limit left : Nat}

/-- A state of an attempt with a limit on its tokens, which fails when `left` more are taken, unless
it has failed before. -/
structure ParseState.Affords (limit left : Nat) (s : ParseState) : Prop where
  tentative : s.isTentative = true
  limited : s.tentative.limit = some limit
  taken : s.tokenCount ≤ limit + 2
  unfailed : s.tentative.failed = false → s.tokenCount ≤ limit ∧ limit < s.tokenCount + left

namespace ParseState

/-- A failed attempt sees the end of the text. -/
lemma kind_of_failed (h : s.tentative.failed = true) : s.kind = .endOfFile := by
  unfold kind
  rw [if_pos h]

lemma failed_of_kind_ne (h : s.kind ≠ .endOfFile) : s.tentative.failed = false := by
  by_contra hfailed
  exact h (kind_of_failed (by simpa using hfailed))

lemma checkLimit_counts (hlimit : s.tentative.limit = some limit) :
    s.checkLimit.tokenCount = s.tokenCount
      ∧ (s.checkLimit.tentative.failed = false →
        s.tentative.failed = false ∧ s.tokenCount ≤ limit) := by
  unfold checkLimit
  rw [hlimit]
  dsimp only
  split
  case isTrue => exact ⟨rfl, nofun⟩
  case isFalse hwithin => exact ⟨rfl, fun hok => ⟨hok, not_lt.1 hwithin⟩⟩

lemma tokenCount_lexicalFault (s : ParseState) : s.lexicalFault.tokenCount = s.tokenCount := by
  unfold lexicalFault
  split <;> rfl

lemma unfailed_of_lexicalFault (h : s.lexicalFault.tentative.failed = false) :
    s.tentative.failed = false := by
  unfold lexicalFault at h
  split at h
  · exact nomatch h
  · exact h

/-- Taking a token counts it, and one past the limit makes the attempt fail. -/
lemma advance_counts (src : Source) (hlimit : s.tentative.limit = some limit) :
    (s.advance src).tokenCount = s.tokenCount + 1
      ∧ ((s.advance src).tentative.failed = false →
        s.tentative.failed = false ∧ s.tokenCount + 1 ≤ limit) := by
  obtain ⟨count, within⟩ := checkLimit_counts (s := { s with
    prevStop := s.lexer.pos, prevSpan := s.lexer.span, prevKind := s.lexer.kind
    tokenCount := s.tokenCount + 1 }) hlimit
  unfold advance
  dsimp only
  split
  · refine ⟨(tokenCount_lexicalFault _).trans count, fun ok => ?_⟩
    have ok := unfailed_of_lexicalFault ok
    exact within ok
  · exact ⟨count, within⟩

namespace Affords

lemma mono {more : Nat} (h : s.Affords limit left) (hle : left ≤ more) : s.Affords limit more where
  tentative := h.tentative
  limited := h.limited
  taken := h.taken
  unfailed hok := by
    have := h.unfailed hok
    omega

/-- A state with the same tokens and attempts. -/
lemma of_eq (h : s.Affords limit left) (htentative : t.tentative = s.tentative)
    (hcount : t.tokenCount = s.tokenCount) : t.Affords limit left := by
  obtain ⟨tentative, limited, taken, unfailed⟩ := h
  unfold isTentative at tentative
  rw [← htentative] at tentative limited unfailed
  rw [← hcount] at taken unfailed
  exact ⟨tentative, limited, taken, unfailed⟩

/-- A fault makes the attempt fail. -/
lemma fail (h : s.Affords limit left) (more : Nat) : s.fail.Affords limit more :=
  ⟨h.tentative, h.limited, h.taken, nofun⟩

lemma report (h : s.Affords limit left) (span : Span) (m : Message) (args : List String)
    (more : Nat) : (s.report span m args).Affords limit more := by
  unfold ParseState.report
  rw [if_pos h.tentative]
  exact h.fail more

lemma reportDepth (h : s.Affords limit left) (span : Span) (maxDepth more : Nat) :
    (s.reportDepth span maxDepth).Affords limit more := by
  unfold ParseState.reportDepth
  rw [if_pos h.tentative]
  exact h.fail more

/-- Where a token is seen, some are left. -/
lemma left_pos (h : s.Affords limit left) (hkind : s.kind ≠ .endOfFile) : 0 < left := by
  have := h.unfailed (failed_of_kind_ne hkind)
  omega

/-- A token may be taken unseen if no more than one past the limit has been taken. -/
lemma advance_unseen (src : Source) (h : s.Affords limit left) (hcount : s.tokenCount ≤ limit + 1) :
    (s.advance src).Affords limit (left - 1) := by
  have around := s.surroundings_advance src
  simp only [surroundings, Prod.mk.injEq] at around
  obtain ⟨-, -, attempts, limited⟩ := around
  obtain ⟨count, ok⟩ := s.advance_counts src h.limited
  refine ⟨?_, limited.trans h.limited, by omega, fun hok => ?_⟩
  · unfold isTentative
    rw [attempts]
    exact h.tentative
  · have := ok hok
    have := h.unfailed this.1
    omega

/-- A token that is seen is one of those left. -/
lemma advance (src : Source) (h : s.Affords limit left) (hkind : s.kind ≠ .endOfFile) :
    (s.advance src).Affords limit (left - 1) ∧ (s.advance src).tokenCount ≤ limit + 1 := by
  have within := (h.unfailed (failed_of_kind_ne hkind)).1
  have count := (s.advance_counts src h.limited).1
  exact ⟨h.advance_unseen src (by omega), by omega⟩

end Affords

/-- An attempt starts with its whole budget, and fails with the token behind it. -/
lemma affords_enterTentative (hs : s.tentative = {}) (budget : Nat) :
    (s.enterTentative budget).Affords (s.tokenCount + budget) (budget + 1) where
  tentative := by simp [enterTentative, isTentative, hs]
  limited := by simp [enterTentative, hs]
  taken := by
    simp only [enterTentative]
    omega
  unfailed _ := by
    simp only [enterTentative]
    omega

lemma tokenCount_giveUp (s u : ParseState) : (s.giveUp u).tokenCount = u.tokenCount := by
  unfold giveUp checkLimit
  split
  · split <;> rfl
  · rfl

end ParseState

/-- Whatever a rule yields from a state on has a property, and if `ends` it does yield something. -/
structure Spends (env : Env) (ends : Prop) (s : ParseState) (r : Rule α)
    (Q : α → ParseState → Prop) : Prop where
  finishes : ends → Finishes env s r
  ensures : Ensures env s r Q

/-- A rule of an attempt with so many tokens left that takes none but those. -/
abbrev SpendsAtMost (env : Env) (ends : Prop) (limit left : Nat) (r : Rule α) : Prop :=
  ∀ s, s.Affords limit left → Spends env ends s r fun _ t => t.Affords limit left

/-- A round of a repeated rule that keeps to the tokens left. If the rule goes on, it takes one. -/
abbrev SpendsRound (env : Env) (ends : Prop) (limit left : Nat) (s : ParseState)
    (round : Rule (β ⊕ α)) : Prop :=
  Spends env ends s round
    (Sum.elim (fun _ t => ∃ less < left, t.Affords limit less) fun _ t => t.Affords limit left)

namespace Spends

variable {ends ends' : Prop} {r : Rule α} {k : α → Rule β} {P P' : α → ParseState → Prop}
  {Q : β → ParseState → Prop}

lemma mono (himp : ∀ a t, P a t → P' a t) (h : Spends env ends s r P) :
    Spends env ends s r P' :=
  ⟨h.finishes, h.ensures.mono himp⟩

lemma weaken (himp : ends' → ends) (h : Spends env ends s r P) : Spends env ends' s r P :=
  ⟨fun hends => h.finishes (himp hends), h.ensures⟩

lemma pure {a : α} (h : P a s) : Spends env ends s (Pure.pure a : Rule α) P :=
  ⟨fun _ => .pure a, .pure h⟩

lemma bind (h : Spends env ends s r P) (hk : ∀ a t, P a t → Spends env ends t (k a) Q) :
    Spends env ends s (r >>= k) Q where
  finishes hends := (h.finishes hends).bind fun a t e =>
    (hk a t (h.ensures a t e)).finishes hends
  ensures := h.ensures.bind fun a t ha => (hk a t ha).ensures

/-- A rule that looks at the state goes on from the same state. -/
lemma view {f : Source → ParseState → α} (h : Spends env ends s (k (f env.src s)) Q) :
    Spends env ends s (Rule.view f >>= k) Q :=
  ⟨h.finishes, h.ensures⟩

lemma get {k : ParseState → Rule β} (h : Spends env ends s (k s) Q) :
    Spends env ends s ((MonadState.get : Rule ParseState) >>= k) Q :=
  ⟨h.finishes, h.ensures⟩

lemma read {k : Env → Rule β} (h : Spends env ends s (k env) Q) :
    Spends env ends s ((MonadReader.read : Rule Env) >>= k) Q :=
  ⟨h.finishes, h.ensures⟩

lemma modify {f : ParseState → ParseState} {P : Unit → ParseState → Prop} (h : P () (f s)) :
    Spends env ends s (MonadState.modifyGet fun s => ((), f s) : Rule Unit) P := by
  refine ⟨fun _ => ⟨(), f s, rfl⟩, ?_⟩
  rintro _ _ ⟨⟩
  exact h

lemma advance {k : Unit → Rule β} (h : Spends env ends (s.advance env.src) (k ()) Q) :
    Spends env ends s (Rule.advance >>= k) Q :=
  ⟨h.finishes, h.ensures⟩

/-- In so many rounds a repeated rule keeps to what is left if each one that goes on takes a token.
It comes to its end if there are more rounds than tokens left. -/
lemma loopUpTo {step : β → Rule (β ⊕ α)}
    (h : ∀ b, ∀ less ≤ left, ∀ t, t.Affords limit less → SpendsRound env ends limit less t (step b))
    (rounds : Nat) (b : β) (less : Nat) (hle : less ≤ left) (hs : s.Affords limit less) :
    Spends env (ends ∧ less < rounds) s (Rule.loopUpTo step rounds b)
      fun _ t => t.Affords limit less := by
  induction rounds generalizing b less s with
  | zero => exact ⟨fun hends => absurd hends.2 (Nat.not_lt_zero _), fun _ _ e => nomatch e⟩
  | succ rounds ih =>
    refine .bind ((h b less hle s hs).weaken And.left) fun next t ht => ?_
    cases next with
    | inl b =>
      obtain ⟨fewer, hfewer, ht⟩ := ht
      refine ((ih b fewer (by omega) ht).weaken fun hends => ⟨hends.1, by omega⟩).mono ?_
      exact fun _ _ hu => hu.mono hfewer.le
    | inr a => exact .pure ht

lemma loop {step : β → Rule (β ⊕ α)} (b : β) (hs : s.Affords limit left)
    (hrounds : ends → left < env.rounds)
    (h : ∀ b, ∀ less ≤ left, ∀ t, t.Affords limit less →
      SpendsRound env ends limit less t (step b)) :
    Spends env ends s (Rule.loop step b) fun _ t => t.Affords limit left :=
  have rounds := (loopUpTo h env.rounds b left le_rfl hs).weaken fun hends => ⟨hends, hrounds hends⟩
  ⟨rounds.finishes, rounds.ensures⟩

end Spends

namespace Rule

variable {ends : Prop} {call : Call}

/-! ## The basic rules -/

lemma spends_reportAt (hs : s.Affords limit left) (more : Nat) (span : Span) (m : Message)
    (args : List String) :
    Spends env ends s (reportAt span m args) fun _ t => t.Affords limit more :=
  .modify (hs.report span m args more)

lemma spends_report (hs : s.Affords limit left) (more : Nat) (m : Message) (args : List String) :
    Spends env ends s (report m args) fun _ t => t.Affords limit more :=
  .view (spends_reportAt hs more _ m args)

/-- A token that is taken is one of those left. -/
lemma spends_optional (hs : s.Affords limit left) {c : Kind} (hc : c ≠ .endOfFile) :
    Spends env ends s (optional c) fun found t =>
      if found then 0 < left ∧ t.Affords limit (left - 1) else t.Affords limit left := by
  refine .view ?_
  split
  case isTrue hfound =>
    have hkind : s.kind ≠ .endOfFile := by
      rw [eq_of_beq hfound]
      exact hc
    exact .advance (.pure ⟨hs.left_pos hkind, (hs.advance env.src hkind).1⟩)
  case isFalse => exact .pure hs

/-- Where a token must stand, it is one of those left, or the attempt fails. -/
lemma spends_require (hs : s.Affords limit left) {c : Kind} (hc : c ≠ .endOfFile) :
    Spends env ends s (require c) fun _ t => t.Affords limit (left - 1) := by
  have hexpect : Spends env ends s (expect c) fun _ t => t.Affords limit (left - 1) := by
    refine .bind (spends_optional hs hc) fun found t ht => ?_
    cases found with
    | true => exact .pure ht.2
    | false => exact .bind (spends_report ht _ _ _) fun _ u hu => .pure hu
  exact .bind hexpect fun _ t ht => .pure ht

lemma spends_name (text : String) (span : Span) :
    SpendsAtMost env ends limit left (name text span) := by
  intro s hs
  refine .bind (P := fun _ t => t.Affords limit left) (.modify ?_) fun _ t ht => .pure ht
  exact hs.of_eq rfl rfl

/-- An identifier is one of the tokens left, or the attempt fails. -/
lemma spends_identifier (hs : s.Affords limit left) :
    Spends env ends s identifier fun _ t => t.Affords limit (left - 1)
      ∧ (s.kind.isIdentifier = true → t.tokenCount ≤ limit + 1) := by
  refine .view ?_
  split
  case isTrue hid =>
    have hkind : s.kind ≠ .endOfFile := by
      intro e
      rw [e] at hid
      exact absurd hid (by decide)
    let met := { s with names := s.names.insert s.lexer.value }
    have hmet : met.Affords limit left := hs.of_eq rfl rfl
    obtain ⟨ht, hcount⟩ := hmet.advance env.src hkind
    have named : Spends env ends s (name s.lexer.value s.lexer.span) fun _ t => t = met := by
      refine ⟨fun _ => ⟨_, _, rfl⟩, ?_⟩
      rintro _ _ ⟨⟩
      rfl
    refine .view (.view (.bind named fun n t e => ?_))
    subst e
    exact .advance (.pure ⟨ht, fun _ => hcount⟩)
  case isFalse hno =>
    refine .bind (spends_report hs (left - 1) _ _) fun _ t ht => .view ?_
    exact (spends_name _ _ t ht).mono fun _ _ hu => ⟨hu, fun h => absurd h hno⟩

/-- The colon behind a label is taken unseen. -/
lemma spends_label? : SpendsAtMost env ends limit left label? := by
  intro s hs
  refine .view ?_
  split
  case isTrue hlabel =>
    rw [Bool.and_eq_true] at hlabel
    refine .bind (spends_identifier hs) fun n t ht => .advance (.pure ?_)
    exact (ht.1.advance_unseen env.src (ht.2 hlabel.1)).mono (by omega)
  case isFalse => exact .pure hs

lemma spends_allocType (form : TypeForm) (span : Span) :
    SpendsAtMost env ends limit left (allocType form span) := by
  refine fun s hs => ⟨fun _ => ⟨_, _, rfl⟩, ?_⟩
  rintro _ _ ⟨⟩
  exact hs.of_eq rfl rfl

lemma spends_typeFrom (start : Nat) (form : TypeForm) :
    SpendsAtMost env ends limit left (typeFrom start form) :=
  fun s hs => .view (spends_allocType form _ s hs)

/-- A list takes a comma for each further element. Its elements stand where a token is seen. -/
lemma spends_list {close : Kind} {element : Rule α} (hrounds : ends → left < env.rounds)
    (h : ∀ less ≤ left, 0 < less → SpendsAtMost env ends limit less element) :
    SpendsAtMost env ends limit left (list close element) := by
  refine fun s hs => .loop [] hs hrounds fun items less hle t ht => .view ?_
  split
  · exact .pure ht
  case isFalse hgoes =>
    have hkind : t.kind ≠ .endOfFile := fun e => hgoes (by simp [e])
    refine .bind (h less hle (ht.left_pos hkind) t ht) fun a u hu => ?_
    refine .bind (spends_optional hu (by decide)) fun comma v hv => ?_
    cases comma with
    | true =>
      obtain ⟨hpos, hv⟩ := hv
      exact .pure ⟨less - 1, by omega, hv⟩
    | false => exact .pure hv

lemma spends_behind {c : Kind} {element : Rule α} (hc : c ≠ .endOfFile)
    (h : ∀ less < left, SpendsAtMost env ends limit less element) :
    SpendsAtMost env ends limit left (behind c element) := by
  refine fun s hs => .bind (spends_optional hs hc) fun found t ht => ?_
  cases found with
  | true =>
    obtain ⟨hpos, ht⟩ := ht
    exact .bind (h (left - 1) (by omega) t ht) fun a u hu => .pure (hu.mono (Nat.sub_le left 1))
  | false => exact .pure ht

lemma spends_nested {fallback : Span → Rule α} {body : Rule α}
    (hfallback : ∀ span, SpendsAtMost env ends limit left (fallback span))
    (hbody : SpendsAtMost env ends limit left body) :
    SpendsAtMost env ends limit left (nested fallback body) := by
  refine fun s hs => .read (.get ?_)
  split
  · exact .view (.bind (.modify (hs.reportDepth _ _ left)) fun _ t ht => hfallback _ t ht)
  · let deeper := { s with depth := s.depth + 1 }
    have hdeeper : deeper.Affords limit left := hs.of_eq rfl rfl
    refine .bind (.modify (P := fun _ t => t.Affords limit left) hdeeper) fun _ t ht => ?_
    refine .bind (hbody t ht) fun a u hu => ?_
    have hshallower : ParseState.Affords limit left { u with depth := u.depth - 1 } :=
      hu.of_eq rfl rfl
    exact .bind (.modify (P := fun _ v => v.Affords limit left) hshallower) fun _ v hv => .pure hv

/-! ## Types -/

section

variable (hrounds : ends → left < env.rounds)
  (htype : ∀ less < left, SpendsAtMost env ends limit less (call .type))

include hrounds htype

/-- The arguments stand behind the token that opens them. -/
lemma spends_typeArguments : SpendsAtMost env ends limit left (typeArguments call) := by
  refine fun s hs => .bind (spends_require hs (by decide)) fun _ t ht => ?_
  have args : SpendsAtMost env ends limit (left - 1) (list (.mark .greater) (call .type)) := by
    refine spends_list (fun hends => ?_) fun less hle hpos => htype less (by omega)
    have := hrounds hends
    omega
  refine .bind (args t ht) fun args u hu => ?_
  exact .bind (spends_require hu (by decide)) fun _ v hv => .pure (hv.mono (by omega))

lemma spends_segmentsRound (segments : List PathSegment) (hs : s.Affords limit left) :
    SpendsRound env ends limit left s (segmentsRound call false segments) := by
  refine .bind (spends_identifier hs) fun name t ht => .view ?_
  have ht := ht.1.mono (Nat.sub_le left 1)
  extract_lets rest
  have hrest (args : List TypeId) (u : ParseState) (hu : u.Affords limit left) :
      SpendsRound env ends limit left u (rest args) := by
    refine .view ?_
    split
    case isTrue hdot =>
      rw [Bool.and_eq_true] at hdot
      have hkind : u.kind ≠ .endOfFile := by
        rw [eq_of_beq hdot.1]
        decide
      have hpos := hu.left_pos hkind
      exact .advance (.pure ⟨left - 1, by omega, (hu.advance env.src hkind).1⟩)
    case isFalse => exact .pure hu
  clear_value rest
  split
  · exact absurd ‹_› (by decide)
  · split
    · exact .bind (spends_typeArguments hrounds htype t ht) hrest
    · exact hrest [] t ht

lemma spends_namedType : SpendsAtMost env ends limit left (namedType call false) := by
  refine fun s hs => .view (.bind (.loop [] hs hrounds fun segments less hle t ht => ?_)
    fun segments t ht => spends_typeFrom _ _ t ht)
  refine spends_segmentsRound (fun hends => ?_) (fun fewer hfewer => htype fewer (by omega)) _ ht
  exact hle.trans_lt (hrounds hends)

lemma spends_typeElements : SpendsAtMost env ends limit (left - 1) (typeElements call) := by
  intro s hs
  refine .loop _ hs (fun hends => ?_) fun (elements, trailingComma) less hle t ht => .view ?_
  · have := hrounds hends
    omega
  split
  · exact .pure ht
  case isFalse hgoes =>
    have hkind : t.kind ≠ .endOfFile := fun e => hgoes (by simp [e])
    have hpos := ht.left_pos hkind
    refine .bind (spends_label? t ht) fun label u hu => ?_
    refine .bind (htype less (by omega) u hu) fun type v hv => ?_
    refine .bind (spends_optional hv (by decide)) fun comma w hw => ?_
    cases comma with
    | true => exact .pure ⟨less - 1, by omega, hw.2⟩
    | false => exact .pure hw

/-- Behind its opening parenthesis, which is seen. -/
lemma spends_parenType (hs : s.Affords limit left) (hkind : s.kind ≠ .endOfFile) :
    Spends env ends s (parenType call) fun _ t => t.Affords limit left := by
  have hpos := hs.left_pos hkind
  refine .view (.advance ?_)
  have hopened := (hs.advance env.src hkind).1
  refine .bind (spends_typeElements hrounds htype _ hopened) fun elements t ht => ?_
  refine .bind (spends_require ht (by decide)) fun _ u hu => ?_
  refine .bind (spends_optional hu (by decide)) fun arrow v hv => ?_
  cases arrow with
  | true =>
    refine .bind (htype _ (by omega) v hv.2) fun result w hw => ?_
    exact (spends_typeFrom _ _ w hw).mono fun _ _ h => h.mono (by omega)
  | false =>
    have hv : v.Affords limit left := ParseState.Affords.mono hv (by omega)
    refine .view ?_
    split
    · exact .bind (spends_reportAt hv left _ _ _) fun _ w hw => spends_allocType _ _ w hw
    · exact spends_allocType _ _ v hv

/-- A type takes a token before it calls for another one. -/
lemma spends_plainType : SpendsAtMost env ends limit left (plainType call) := by
  refine fun s hs => .view (.view ?_)
  have behind (hkind : s.kind ≠ .endOfFile) :
      0 < left ∧ (s.advance env.src).Affords limit (left - 1) :=
    ⟨hs.left_pos hkind, (hs.advance env.src hkind).1⟩
  split
  case h_1 hmark =>
    obtain ⟨hpos, ht⟩ := behind (by simp [hmark])
    refine .advance (.bind (htype _ (by omega) _ ht) fun inner u hu => ?_)
    exact spends_typeFrom _ _ u (hu.mono (by omega))
  case h_2 hmark =>
    obtain ⟨hpos, ht⟩ := behind (by simp [hmark])
    refine .advance (.bind (htype _ (by omega) _ ht) fun inner u hu => .view ?_)
    refine .bind (spends_allocType _ _ u (hu.mono (Nat.sub_le left 1))) fun once v hv => ?_
    exact spends_allocType _ _ v hv
  case h_3 hmark => exact spends_parenType hrounds htype hs (by simp [hmark])
  case h_4 =>
    split
    · exact spends_namedType hrounds htype s hs
    · exact .view (.bind (spends_reportAt hs left _ _ _) fun _ t ht => spends_allocType _ _ t ht)

lemma spends_type : SpendsAtMost env ends limit left (type call) :=
  spends_nested (fun span => spends_allocType _ span) (spends_plainType hrounds htype)

end

/-- Types are nested no deeper than there are tokens left. -/
lemma spends_callTo_type (nesting left : Nat) :
    SpendsAtMost env (left < nesting ∧ left < env.rounds) limit left (callTo nesting .type) := by
  induction nesting generalizing left with
  | zero =>
    exact fun s _ => ⟨fun hends => absurd hends.1 (Nat.not_lt_zero _), fun _ _ e => nomatch e⟩
  | succ nesting ih =>
    refine spends_type And.right fun less hless s hs => ?_
    exact (ih less s hs).weaken fun hends => ⟨by omega, by omega⟩

/-! ## The readings that are tried -/

section

variable (hrounds : ends → left < env.rounds)
  (htype : ∀ less < left, SpendsAtMost env ends limit less (call .type))

include hrounds htype

lemma spends_fittingArguments? : SpendsAtMost env ends limit left (fittingArguments? call) :=
  fun s hs => .bind (spends_typeArguments hrounds htype s hs) fun _ _ ht => .view (.pure ht)

omit hrounds in
/-- A parameter takes a token for its name. -/
lemma spends_lambdaParamsRound (params : List LambdaParam) (hs : s.Affords limit left) :
    SpendsRound env ends limit left s (lambdaParamsRound call params) := by
  refine .view ?_
  split
  · exact .pure hs
  · split
    · exact .pure hs
    case isFalse hname =>
      have hkind : s.kind ≠ .endOfFile := fun e => hname (by rw [e]; decide)
      have hpos := hs.left_pos hkind
      refine .view ?_
      extract_lets rest
      have hrest (name : Option Name) (t : ParseState) (ht : t.Affords limit (left - 1)) :
          SpendsRound env ends limit left t (rest name) := by
        have type : SpendsAtMost env ends limit (left - 1) (typeBehind call (.mark .colon)) :=
          spends_behind (by decide) fun less hless => htype less (by omega)
        refine .bind (type t ht) fun type u hu => .view ?_
        refine .bind (spends_optional hu (by decide)) fun comma v hv => ?_
        cases comma with
        | true => exact .pure ⟨left - 1 - 1, by omega, hv.2⟩
        | false => exact .pure (ParseState.Affords.mono hv (by omega))
      clear_value rest
      split
      · exact .advance (hrest none _ (hs.advance env.src hkind).1)
      · exact .bind (spends_identifier hs) fun name t ht => hrest _ t ht.1

lemma spends_lambdaParams? : SpendsAtMost env ends limit left (lambdaParams? call) := by
  intro s hs
  refine .bind (.loop [] hs hrounds fun params less hle t ht => ?_) fun params t ht => ?_
  · exact spends_lambdaParamsRound (fun fewer hfewer => htype fewer (by omega)) params ht
  · cases params with
    | some params =>
      refine .bind (spends_optional ht (by decide)) fun arrow u hu => .pure ?_
      cases arrow with
      | true => exact hu.2.mono (Nat.sub_le left 1)
      | false => exact hu
    | none => exact .pure ht

end

/-- The readings that the grammar tries: type arguments in the place of a value, and the parameters
of a lambda. -/
inductive IsTried : {α : Type} → (Call → Rule (Option α)) → Prop
  | typeArguments : IsTried fittingArguments?
  | lambdaParams : IsTried lambdaParams?

lemma IsTried.spends {body : Call → Rule (Option α)} (hbody : IsTried body) (nesting : Nat) :
    SpendsAtMost env (left ≤ nesting ∧ left < env.rounds) limit left (body (callTo nesting)) := by
  have htype (less : Nat) (hless : less < left) :
      SpendsAtMost env (left ≤ nesting ∧ left < env.rounds) limit less (callTo nesting .type) := by
    intro s hs
    exact (spends_callTo_type nesting less s hs).weaken fun hends => ⟨by omega, by omega⟩
  cases hbody with
  | typeArguments => exact spends_fittingArguments? And.right htype
  | lambdaParams => exact spends_lambdaParams? And.right htype

/-- Outside other attempts, an attempt counts at most two tokens more than its budget, whether it is
committed or given up. Once it has failed, it sees the end of the text wherever it looks. One with a
budget of 32 bits comes to its end from any state. -/
theorem attempt_within_budget {body : Call → Rule (Option α)} (hbody : IsTried body)
    (hs : s.tentative = {}) (nesting : Nat) :
    (∀ a t, attempt (body (callTo nesting)) env s = some (a, t) →
      t.tokenCount ≤ s.tokenCount + env.settings.budget + 2)
      ∧ (env.settings.budget < 2 ^ 32 → env.settings.budget < nesting →
        ∃ a t, attempt (body (callTo nesting)) env s = some (a, t))
      ∧ ∀ u v, Tries env s u → u.tentative.failed = true →
        Relation.ReflTransGen (Step env) u v → v.kind = .endOfFile := by
  have inside := ParseState.affords_enterTentative hs env.settings.budget
  have spends : Spends env _ _ (body (callTo nesting)) _ := hbody.spends nesting _ inside
  refine ⟨fun a t e => ?_, fun hbudget hnesting => ?_, fun u v _ hfailed hsteps => ?_⟩
  · obtain ⟨result, u, hrun, hend⟩ := attempt_eq_some e
    have taken := (spends.ensures result u hrun).taken
    obtain ⟨b, -, -, -, rfl⟩ | ⟨-, -, rfl⟩ := hend
    · exact taken
    · rw [ParseState.tokenCount_giveUp]
      exact taken
  · have hrounds : env.settings.budget + 1 < env.rounds := by
      unfold Env.rounds
      norm_num at hbudget ⊢
      omega
    obtain ⟨result, u, hrun⟩ := spends.finishes ⟨hnesting, hrounds⟩
    rw [attempt_apply, hrun]
    exact ⟨_, _, rfl⟩
  · have hfailed : v.tentative.failed = true := by
      induction hsteps with
      | refl => exact hfailed
      | tail _ hstep ih => exact hstep.failed ih
    exact ParseState.kind_of_failed hfailed

/-- With a budget of two tokens, the name of a label is the one past the limit, and the colon behind
it is taken unseen: two tokens more than the budget are counted. -/
theorem attempt_within_budget_of_label :
    let env : Env := { src := .ofString "f<(a: B) -> C>(x)", settings := { budget := 2 } }
    let s := ((ParseState.ofSource env.src).advance env.src).advance env.src
    let u := (((s.enterTentative 2).advance env.src).advance env.src).advance env.src
    s.tentative = {}
      ∧ (∃ a t, attempt (fittingArguments? (callTo 3)) env s = some (a, t)
        ∧ t.tokenCount ≤ s.tokenCount + 4)
      ∧ (attempt (fittingArguments? (callTo 3)) env s).map (fun p => (p.1, p.2.tokenCount))
        = some (.exhausted, s.tokenCount + 4)
      ∧ u.tentative.failed = true ∧ u.kind = .endOfFile := by
  intro env s u
  have hs : s.tentative = {} := by decide +kernel
  obtain ⟨bounded, ends, blind⟩ := @attempt_within_budget env _ s _ .typeArguments hs 3
  obtain ⟨a, t, e⟩ := ends (by decide) (by decide)
  have tries : Tries env s u :=
    ((Relation.ReflTransGen.refl.tail (.advance _)).tail (.advance _)).tail (.advance _)
  have hfailed : u.tentative.failed = true := by decide +kernel
  exact ⟨hs, ⟨a, t, e, bounded a t e⟩, by decide +kernel, hfailed, blind u u tries hfailed .refl⟩

end Rule

end CangjieSyntax
