import CangjieSyntax.Proofs.Ending.Place
import CangjieSyntax.Proofs.Grammar.Rule

/-!
# Rules that come to an end

`Finishes env s r` says that a rule has an answer from a state on, `Returns J pre r` that it has one
from every state of a region in which the parts `pre` are held. What the rule leaves behind is known
from `Reads`, so that rules are put together here with one lemma for each way of doing so, too. A
repeated rule finishes if each of its rounds does and consumes a token; that is what `Ensures` is
for, which speaks of a rule only as far as it has an answer.
-/

namespace CangjieSyntax

variable {env : Env} {J K : Region env} {allowed : Kind → Prop} {α β : Type} {s t : ParseState}
  {pre mid : Multiset Part}

/-- A state of a region in which some parts are held. -/
structure Region.At (J : Region env) (held : Multiset Part) (s : ParseState) : Prop where
  mem : J.mem s
  holds : ∃ rest, Holds s.nodes s.Excused (held + rest)

/-- From a state on, a rule has an answer. -/
def Finishes (env : Env) (s : ParseState) (r : Rule α) : Prop :=
  ∃ a t, r env s = some (a, t)

/-- A rule has an answer from any state of a region where `pre` is held. -/
def Returns (J : Region env) (pre : Multiset Part) (r : Rule α) : Prop :=
  ∀ s, J.At pre s → Finishes env s r

/-- Whatever a rule yields from a state on has a property. -/
def Ensures (env : Env) (s : ParseState) (r : Rule α) (Q : α → ParseState → Prop) : Prop :=
  ∀ a t, r env s = some (a, t) → Q a t

/-- Wherever a round that starts in a state goes on, it has consumed a token. -/
abbrev Consumes (env : Env) (s : ParseState) (round : Rule (β ⊕ α)) : Prop :=
  Ensures env s round fun next t => next.isLeft → s.Consumes t

namespace Region.At

lemma weaken (h : J.At mid s) (hle : pre ≤ mid) : J.At pre s := by
  obtain ⟨hs, rest, hold⟩ := h
  exact ⟨hs, rest, hold.weaken (add_le_add_left hle rest)⟩

lemma drop (h : J.At pre s) : J.At 0 s :=
  h.weaken (Multiset.zero_le pre)

/-- Behind a rule the parts of its result are held. -/
lemma after {r : Rule α} {post : α → Multiset Part} {a : α} (h : J.At pre s)
    (hr : ReadsFrom J s pre r post) (e : r env s = some (a, t)) : J.At (post a) t := by
  obtain ⟨-, rest, hold⟩ := h
  obtain ⟨ht, hkeeps⟩ := hr a t e
  exact ⟨ht, rest, hkeeps.holds rest hold⟩

/-- A rule that yields something leaves what was held before. -/
lemma keep [HasParts α] {r : Rule α} {a : α} (h : J.At pre s) (hr : Yields J r)
    (e : r env s = some (a, t)) : J.At pre t := by
  obtain ⟨hs, rest, hold⟩ := h
  obtain ⟨ht, hkeeps⟩ := hr s hs a t e
  refine ⟨ht, rest, ?_⟩
  exact (hkeeps.holds (pre + rest) (hold.of_eq (zero_add _))).weaken (Multiset.le_add_left _ _)

/-- A step that allocates nothing leaves what is held. -/
lemma step (h : J.At pre s) (hmem : K.mem t) (hnodes : t.nodes = s.nodes)
    (hexcused : s.Excused → t.Excused) : K.At pre t := by
  obtain ⟨-, rest, hold⟩ := h
  refine ⟨hmem, rest, ?_⟩
  rw [hnodes]
  exact hold.mono hexcused

lemma advance (h : J.At pre s) (hmem : K.mem (s.advance env.src)) :
    K.At pre (s.advance env.src) :=
  h.step hmem (ParseState.advance_frame _).1 (Step.excused (.advance s))

lemma report (h : J.At pre s) (span : Span) (m : Message) (args : List String) :
    J.At pre (s.report span m args) :=
  have hreport : Step env s (s.report span m args) := .report s span m args
  h.step (J.step h.mem hreport) (ParseState.report_frame span m args).1 hreport.excused

end Region.At

/-! ## From one state on -/

namespace Finishes

variable {r : Rule α} {k : α → Rule β}

lemma bind (h : Finishes env s r) (hk : ∀ a t, r env s = some (a, t) → Finishes env t (k a)) :
    Finishes env s (r >>= k) := by
  obtain ⟨a, t, e⟩ := h
  obtain ⟨b, u, e'⟩ := hk a t e
  exact ⟨b, u, Rule.bind_eq_some.2 ⟨a, t, e, e'⟩⟩

lemma view {f : Source → ParseState → α} (h : Finishes env s (k (f env.src s))) :
    Finishes env s (Rule.view f >>= k) :=
  h

lemma get {k : ParseState → Rule β} (h : Finishes env s (k s)) :
    Finishes env s ((get : Rule ParseState) >>= k) :=
  h

lemma read {k : Env → Rule β} (h : Finishes env s (k env)) :
    Finishes env s ((read : Rule Env) >>= k) :=
  h

lemma pure (a : α) : Finishes env s (Pure.pure a : Rule α) :=
  ⟨a, s, rfl⟩

lemma advance {k : Unit → Rule β} (h : Finishes env (s.advance env.src) (k ())) :
    Finishes env s (Rule.advance >>= k) :=
  h

lemma report {m : Message} {args : List String} {k : Unit → Rule β}
    (h : Finishes env (s.report s.lexer.span m args) (k ())) :
    Finishes env s (Rule.report m args >>= k) :=
  h

/-- A rule that takes a token goes on in the region behind it. -/
lemma behind {k : Unit → Rule β} (hs : J.At pre (s.advance env.src)) (h : Returns J pre (k ())) :
    Finishes env s (Rule.advance >>= k) :=
  h _ hs

end Finishes

namespace Ensures

variable {r : Rule α} {k : α → Rule β} {P : α → ParseState → Prop} {Q : β → ParseState → Prop}

lemma bind (h : Ensures env s r P) (hk : ∀ a t, P a t → Ensures env t (k a) Q) :
    Ensures env s (r >>= k) Q := by
  intro b u e
  obtain ⟨a, t, hr, hrest⟩ := Rule.bind_eq_some.1 e
  exact hk a t (h a t hr) b u hrest

/-- Whatever a rule does, what comes behind it does as it should. -/
lemma behind (hk : ∀ a t, Ensures env t (k a) Q) : Ensures env s (r >>= k) Q :=
  .bind (P := fun _ _ => True) (fun _ _ _ => trivial) fun a t _ => hk a t

lemma mono {P' : α → ParseState → Prop} (himp : ∀ a t, P a t → P' a t) (h : Ensures env s r P) :
    Ensures env s r P' :=
  fun a t e => himp a t (h a t e)

lemma pure {a : α} (h : P a s) : Ensures env s (Pure.pure a : Rule α) P := by
  intro b t e
  obtain ⟨rfl, rfl⟩ := Rule.pure_eq_some.1 e
  exact h

lemma view {f : Source → ParseState → α} (h : Ensures env s (k (f env.src s)) Q) :
    Ensures env s (Rule.view f >>= k) Q :=
  h

lemma get {k : ParseState → Rule β} (h : Ensures env s (k s) Q) :
    Ensures env s ((get : Rule ParseState) >>= k) Q :=
  h

lemma read {k : Env → Rule β} (h : Ensures env s (k env) Q) :
    Ensures env s ((read : Rule Env) >>= k) Q :=
  h

lemma advance {k : Unit → Rule β} (h : Ensures env (s.advance env.src) (k ()) Q) :
    Ensures env s (Rule.advance >>= k) Q :=
  h

lemma report {m : Message} {args : List String} {k : Unit → Rule β}
    (h : Ensures env (s.report s.lexer.span m args) (k ()) Q) :
    Ensures env s (Rule.report m args >>= k) Q :=
  h

lemma reportAt {span : Span} {m : Message} {args : List String} {k : Unit → Rule β}
    (h : Ensures env (s.report span m args) (k ()) Q) :
    Ensures env s (Rule.reportAt span m args >>= k) Q :=
  h

/-- A token of the given kind is taken, or the state is left as it is. -/
lemma optional {c : Kind} {k : Bool → Rule β}
    (htaken : s.kind = c → Ensures env (s.advance env.src) (k true) Q)
    (habsent : Ensures env s (k false) Q) : Ensures env s (Rule.optional c >>= k) Q := by
  change Ensures env s ((if s.kind == c then do Rule.advance; Pure.pure true
    else Pure.pure false : Rule Bool) >>= k) Q
  split
  case isTrue hc => exact htaken (eq_of_beq hc)
  case isFalse => exact habsent

/-- What holds in a region holds behind a rule that keeps to it. -/
lemma of_reads {post : α → Multiset Part} (h : ReadsFrom J s pre r post) :
    Ensures env s r fun _ t => J.mem t :=
  fun a t e => (h a t e).1

/-- A rule that keeps to a region, and what comes behind it. -/
lemma reads {post : α → Multiset Part} (h : ReadsFrom J s pre r post)
    (hk : ∀ a t, J.mem t → Ensures env t (k a) Q) : Ensures env s (r >>= k) Q :=
  (of_reads h).bind hk

/-- A repeated rule keeps to a region if its first round leads into it. -/
lemma loop {step : β → Rule (β ⊕ α)} {q : β → Multiset Part} {p : α → Multiset Part} {b : β}
    (hfirst : Ensures env s (step b) fun _ t => J.mem t)
    (hreads : ∀ b, Reads J (q b) (step b) (Sum.elim q p)) :
    Ensures env s (Rule.loop step b) fun _ t => J.mem t := by
  have rounds (n : Nat) : Ensures env s (Rule.loopUpTo step n b) fun _ t => J.mem t := by
    cases n with
    | zero => exact fun _ _ e => nomatch e
    | succ n =>
      refine hfirst.bind fun next t ht => ?_
      cases next with
      | inl b' => exact .of_reads (Reads.loopUpTo n hreads b' t ht)
      | inr a => exact .pure ht
  exact rounds env.rounds

/-- What the state and what the rounds hand on are known to satisfy before each round. -/
lemma loop_invariant {step : β → Rule (β ⊕ α)} {b : β} {R : β → ParseState → Prop}
    {Q : α → ParseState → Prop}
    (h : ∀ b t, R b t → Ensures env t (step b) (Sum.elim R Q))
    (hb : R b s) : Ensures env s (Rule.loop step b) Q := by
  have rounds (n : Nat) (b : β) (t : ParseState) (ht : R b t) :
      Ensures env t (Rule.loopUpTo step n b) Q := by
    induction n generalizing b t with
    | zero => exact fun _ _ e => nomatch e
    | succ n ih =>
      refine (h b t ht).bind fun next u hu => ?_
      cases next with
      | inl b => exact ih b u hu
      | inr a => exact .pure hu
  exact rounds env.rounds b s hb

/-- Whatever is done behind a token leaves it consumed. -/
lemma past {post : α → Multiset Part} (hkind : s.kind ≠ .endOfFile)
    (h : ReadsFrom (J.past allowed s.lexer) t pre r post) :
    Ensures env t r fun _ u => s.Consumes u :=
  fun a u e => ⟨ParseState.lexer_kind_ne hkind, (h a u e).1.2.2⟩

end Ensures

/-- A rule that repeats a step finishes if each round does and consumes a token. -/
lemma Finishes.loop {step : β → Rule (β ⊕ α)} {b : β} {R : β → ParseState → Prop}
    (hway : ∀ {b t}, R b t → t.Underway env allowed)
    (h : ∀ b t, R b t → Finishes env t (step b))
    (hnext : ∀ b t, R b t → Ensures env t (step b) fun next u =>
      ∀ b', next = .inl b' → t.Consumes u ∧ R b' u)
    (hb : R b s) : Finishes env s (Rule.loop step b) := by
  -- There are more rounds than tokens left, and each round leaves fewer of them.
  have rounds (n : Nat) : ∀ b t, R b t → t.lexer.left env.src < n →
      Finishes env t (Rule.loopUpTo step n b) := by
    induction n with
    | zero => exact fun _ _ _ hleft => absurd hleft (Nat.not_lt_zero _)
    | succ n ih =>
      intro b t ht hleft
      refine (h b t ht).bind fun next u e => ?_
      cases next with
      | inl b' =>
        obtain ⟨⟨hkind, hpasses⟩, hu⟩ := hnext b t ht _ u e b' rfl
        have ht := hway ht
        have hless := Lexer.left_lt_of_passes ht.regular ht.stretches hkind hpasses
        exact ih b' u hu (by omega)
      | inr a => exact .pure a
  exact rounds env.rounds b s hb (Lexer.left_lt_rounds env s.lexer)

/-- Rounds that always finish need nothing to be held. -/
lemma Finishes.loop_of_always {step : β → Rule (β ⊕ α)} {q : β → Multiset Part}
    {p : α → Multiset Part} (hway : ∀ {t}, J.mem t → t.Underway env allowed)
    (hreads : ∀ b, Reads J (q b) (step b) (Sum.elim q p)) (h : ∀ b t, Finishes env t (step b))
    (hconsumes : ∀ b t, J.mem t → Consumes env t (step b)) (hs : J.mem s) (b : β) :
    Finishes env s (Rule.loop step b) := by
  refine .loop (R := fun _ t => J.mem t) hway (fun b t _ => h b t) ?_ hs
  rintro b t ht _ u e b' rfl
  exact ⟨hconsumes b t ht _ u e rfl, (hreads b t ht _ u e).1⟩

/-! ## In a region -/

namespace Returns

variable {r : Rule α} {k : α → Rule β} {p : α → Multiset Part}

lemma bind (hr : Reads J pre r p) (h : Returns J pre r) (hk : ∀ a, Returns J (p a) (k a)) :
    Returns J pre (r >>= k) :=
  fun s hs => (h s hs).bind fun a t e => hk a t (hs.after (hr s hs.mem) e)

/-- Less has to be held. -/
lemma weaken (hle : pre ≤ mid) (h : Returns J pre r) : Returns J mid r :=
  fun s hs => h s (hs.weaken hle)

/-- Nothing has to be held. -/
lemma drop (h : Returns J 0 r) : Returns J pre r :=
  h.weaken (Multiset.zero_le pre)

/-- A rule that uses some of what is held, and another one behind it. -/
lemma use {held : Multiset Part} (hr : Reads J mid r p) (h : Returns J mid r)
    (hk : ∀ a, Returns J (held + p a) (k a)) : Returns J (held + mid) (r >>= k) :=
  .bind (hr.frame held) (h.weaken (Multiset.le_add_left _ _)) hk

/-- A rule that yields something, and another one behind it. -/
lemma next [HasParts α] (hr : Yields J r) (h : Returns J 0 r) (hk : ∀ a, Returns J pre (k a)) :
    Returns J pre (r >>= k) :=
  fun s hs => (h s hs.drop).bind fun a t e => hk a t (hs.keep hr e)

/-- A rule that yields nothing, and another one behind it. -/
lemma skip (hr : Quiet J r) (h : Returns J 0 r) (hk : ∀ a, Returns J pre (k a)) :
    Returns J pre (r >>= k) := by
  have hframed : Reads J pre r fun _ => pre := by
    have h := hr.frame pre
    simp only [add_zero] at h
    exact h
  exact .bind hframed h.drop hk

lemma pure (a : α) : Returns J pre (Pure.pure a : Rule α) :=
  fun _ _ => .pure a

lemma view {f : Source → ParseState → α} (h : ∀ a, Returns J pre (k a)) :
    Returns J pre (Rule.view f >>= k) :=
  fun s hs => h _ s hs

lemma get {k : ParseState → Rule β} (h : ∀ s, Returns J pre (k s)) :
    Returns J pre ((get : Rule ParseState) >>= k) :=
  fun s hs => h s s hs

/-- A rule that repeats a step finishes if each round does and consumes a token. -/
theorem loop {step : β → Rule (β ⊕ α)} {q : β → Multiset Part}
    (hway : ∀ {s}, J.mem s → s.Underway env allowed)
    (hreads : ∀ b, Reads J (q b) (step b) (Sum.elim q p)) (h : ∀ b, Returns J (q b) (step b))
    (hconsumes : ∀ b s, J.mem s → Consumes env s (step b)) (b : β) :
    Returns J (q b) (Rule.loop step b) := by
  refine fun s hs => Finishes.loop (R := fun b t => J.At (q b) t) (fun ht => hway ht.mem) h ?_ hs
  rintro b t ht _ u e b' rfl
  have hu : J.At (Sum.elim q p (.inl b')) u := ht.after (hreads b t ht.mem) e
  exact ⟨hconsumes b t ht.mem _ u e rfl, hu⟩

end Returns

end CangjieSyntax
