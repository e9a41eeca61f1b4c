import CangjieSyntax.Grammar.File
import CangjieSyntax.Proofs.Grammar.Reads
import CangjieSyntax.Proofs.Twin.Rule

/-!
# Two runs in step

One rule is run under two environments that let it read the same text equally deep. A `Lockstep`
says which states the two runs are in at the same time: states that rules cannot tell apart, since
no rule looks at the tokens counted so far or at the names met. Where something that they do look at
is decided in different ways, the runs part, and only what lasts in each of them can be told.
`Agrees L r` says that the two runs of the rule `r` stay in step or part in such a way.
-/

namespace CangjieSyntax

/-- What rules see of a state: all but the tokens counted so far, the limit on them, and the names
met. -/
def ParseState.seen (s : ParseState) : ParseState :=
  { s with names := .empty, tokenCount := 0, tentative := { s.tentative with limit := none } }

/-- From two states the same step is taken. -/
inductive Stride (env : Env) : (s s' t t' : ParseState) → Prop
  | advance (s s' : ParseState) : Stride env s s' (s.advance env.src) (s'.advance env.src)
  | report (s s' : ParseState) (span : Span) (m : Message) (args : List String) :
    Stride env s s' (s.report span m args) (s'.report span m args)
  | reportDepth (s s' : ParseState) (span : Span) :
    Stride env s s' (s.reportDepth span env.settings.maxDepth)
      (s'.reportDepth span env.settings.maxDepth)
  | alloc (s s' : ParseState) (node : Node) :
    Stride env s s' { s with nodes := s.nodes.add node } { s' with nodes := s'.nodes.add node }
  | intern (s s' : ParseState) (text : String) :
    Stride env s s' { s with names := s.names.insert text }
      { s' with names := s'.names.insert text }
  | deeper {s s' : ParseState} (h : s.depth < env.settings.maxDepth) :
    Stride env s s' { s with depth := s.depth + 1 } { s' with depth := s'.depth + 1 }
  | shallower (s s' : ParseState) :
    Stride env s s' { s with depth := s.depth - 1 } { s' with depth := s'.depth - 1 }

lemma Stride.step {env : Env} {s s' t t' : ParseState} (h : Stride env s s' t t') :
    Step env s t := by
  cases h with
  | advance => exact .advance s
  | report span m args => exact .report s span m args
  | reportDepth span => exact .reportDepth s span
  | alloc node => exact .alloc s node
  | intern text => exact .intern s text
  | deeper hdepth => exact .deeper hdepth
  | shallower => exact .shallower s

/-- How two runs of a rule are kept in step. -/
structure Lockstep where
  env : Env
  env' : Env
  src : env'.src = env.src
  maxDepth : env'.settings.maxDepth = env.settings.maxDepth
  /-- The states that the two runs are in at the same time. -/
  alike : ParseState → ParseState → Prop
  /-- The states that the two runs may part in. -/
  parted : ParseState → ParseState → Prop
  /-- What lasts in either run, of a state that it was in. -/
  lasts : ParseState → ParseState → Prop
  seen : ∀ {s s'}, alike s s' → s'.seen = s.seen
  stride : ∀ {s s' t t'}, alike s s' → Stride env s s' t t' → alike t t' ∨ parted t t'
  refl : ∀ s, lasts s s
  trans : ∀ {s t u}, lasts s t → lasts t u → lasts s u
  step : ∀ {env s t}, Step env s t → lasts s t

namespace Lockstep

/-- Outside attempts, the runs stay in step in the turns that they take alone. -/
structure Settled (L : Lockstep) : Prop where
  unmute : ∀ {s s'}, L.alike s s' → L.alike { s with muted := false } { s' with muted := false }
  joinGreater : ∀ {s s'}, L.alike s s' →
    L.alike { s with lexer := s.lexer.joinGreater L.env.src }
      { s' with lexer := s'.lexer.joinGreater L.env.src }
  enclose : ∀ {s s'} (owner : Option String), L.alike s s' →
    L.alike { s with enclosingType := owner } { s' with enclosingType := owner }
  turn : ∀ {env s t}, Turn env s t → L.lasts s t

/-- A property that states have behind a token, as long as no `<` is remembered. -/
structure Fresh (L : Lockstep) (fresh : ParseState → Prop) : Prop where
  advance : ∀ {s s'}, L.alike s s' → fresh (s.advance L.env.src)
  step : ∀ {s s' t}, L.alike s s' → fresh s → Step L.env s t → fresh t

/-- What two runs come to: neither has an answer, both have the same one in states alike, of which
`R` holds, or they have parted. -/
inductive Meets {α : Type} (L : Lockstep) (R : α → ParseState → Prop) :
    Option (α × ParseState) → Option (α × ParseState) → Prop
  | none : Meets L R none none
  | some {a : α} {t t' : ParseState} (h : L.alike t t') (hR : R a t) :
    Meets L R (some (a, t)) (some (a, t'))
  | parted {o o' : Option (α × ParseState)} {s s' : ParseState} (h : L.parted s s')
    (lasts : ∀ {a t}, o = .some (a, t) → L.lasts s t)
    (lasts' : ∀ {a t}, o' = .some (a, t) → L.lasts s' t) : Meets L R o o'

end Lockstep

section

variable {α : Type}

/-- From states alike of which `Q` holds, two runs of a rule come to states alike of which `R`
holds, or they part. -/
structure AgreesVia (L : Lockstep) (Q : ParseState → Prop) (r : Rule α)
    (R : α → ParseState → Prop) : Prop where
  lasts : ∀ {s a t}, r L.env s = some (a, t) → L.lasts s t
  lasts' : ∀ {s a t}, r L.env' s = some (a, t) → L.lasts s t
  meets : ∀ {s s'}, L.alike s s' → Q s → L.Meets R (r L.env s) (r L.env' s')

/-- Two runs of a rule stay in step, or they part. -/
def Agrees (L : Lockstep) (r : Rule α) : Prop :=
  AgreesVia L (fun _ => True) r fun _ _ => True

end

variable {L : Lockstep} {Q Q' : ParseState → Prop} {α β : Type} {s s' t t' : ParseState}

namespace Lockstep

variable {R : α → ParseState → Prop} {o o' : Option (α × ParseState)}

lemma Meets.mono {R' : α → ParseState → Prop} (himp : ∀ a t, R a t → R' a t)
    (h : L.Meets R o o') : L.Meets R' o o' := by
  cases h with
  | none => exact .none
  | some h hR => exact .some h (himp _ _ hR)
  | parted h lasts lasts' => exact .parted h lasts lasts'

/-- What goes on from where two runs are, where what has lasted lasts. -/
lemma Meets.bind {S : β → ParseState → Prop} {f f' : α × ParseState → Option (β × ParseState)}
    (h : L.Meets R o o') (hlasts : ∀ {p b t}, f p = .some (b, t) → L.lasts p.2 t)
    (hlasts' : ∀ {p b t}, f' p = .some (b, t) → L.lasts p.2 t)
    (hmeets : ∀ {a t t'}, L.alike t t' → R a t → L.Meets S (f (a, t)) (f' (a, t'))) :
    L.Meets S (o.bind f) (o'.bind f') := by
  cases h with
  | none => exact .none
  | some ht hR => exact hmeets ht hR
  | parted hparted lasts lasts' =>
    refine .parted hparted (fun e => ?_) fun e => ?_
    · obtain ⟨⟨a, u⟩, ho, e⟩ := Option.bind_eq_some_iff.1 e
      exact L.trans (lasts ho) (hlasts e)
    · obtain ⟨⟨a, u⟩, ho, e⟩ := Option.bind_eq_some_iff.1 e
      exact L.trans (lasts' ho) (hlasts' e)

end Lockstep

/-! ## Rules in a row -/

namespace AgreesVia

variable {r : Rule α} {k : α → Rule β} {R : α → ParseState → Prop} {S : β → ParseState → Prop}

lemma mono {R' : α → ParseState → Prop} (hQ : ∀ s, Q' s → Q s) (hR : ∀ a t, R a t → R' a t)
    (h : AgreesVia L Q r R) : AgreesVia L Q' r R' where
  lasts := h.lasts
  lasts' := h.lasts'
  meets hs hq := (h.meets hs (hQ _ hq)).mono hR

lemma agrees (h : AgreesVia L (fun _ => True) r R) : Agrees L r :=
  h.mono (fun _ => id) fun _ _ _ => trivial

/-- Two rules in a row. Where the runs of the first one have parted, what they go on with lasts. -/
lemma bind (h : AgreesVia L Q r R) (hk : ∀ a, AgreesVia L (R a) (k a) S) :
    AgreesVia L Q (r >>= k) S where
  lasts e := by
    obtain ⟨a, u, hr, e⟩ := Rule.bind_eq_some.1 e
    exact L.trans (h.lasts hr) ((hk a).lasts e)
  lasts' e := by
    obtain ⟨a, u, hr, e⟩ := Rule.bind_eq_some.1 e
    exact L.trans (h.lasts' hr) ((hk a).lasts' e)
  meets hs hq := (h.meets hs hq).bind (fun e => (hk _).lasts e) (fun e => (hk _).lasts' e)
    fun ht hR => (hk _).meets ht hR

lemma pure {a : α} (h : ∀ s, Q s → R a s) : AgreesVia L Q (Pure.pure a : Rule α) R where
  lasts e := by
    cases e
    exact L.refl _
  lasts' e := by
    cases e
    exact L.refl _
  meets hs hq := .some hs (h _ hq)

lemma endless : AgreesVia L Q (Rule.endless : Rule α) R where
  lasts e := nomatch e
  lasts' e := nomatch e
  meets _ _ := .none

/-- Which of two rules is run depends on what both runs know. -/
lemma ite {c : Prop} [Decidable c] {q : Rule α} (ht : c → AgreesVia L Q r R)
    (he : ¬ c → AgreesVia L Q q R) : AgreesVia L Q (if c then r else q) R := by
  split
  case isTrue h => exact ht h
  case isFalse h => exact he h

/-- What rules see is the same in both runs. -/
lemma view {f : Source → ParseState → α} (hf : ∀ src s, f src s.seen = f src s)
    (hR : ∀ s, Q s → R (f L.env.src s) s) : AgreesVia L Q (Rule.view f) R where
  lasts e := by
    cases e
    exact L.refl _
  lasts' e := by
    cases e
    exact L.refl _
  meets {s s'} hs hq := by
    have same : f L.env'.src s' = f L.env.src s := by rw [L.src, ← hf _ s', L.seen hs, hf]
    change L.Meets R (some (f L.env.src s, s)) (some (f L.env'.src s', s'))
    rw [same]
    exact .some hs (hR s hq)

/-- A rule that goes on by what it sees of the state. -/
lemma get {k : ParseState → Rule β} (hk : ∀ s, k s.seen = k s)
    (h : ∀ s, AgreesVia L (fun t => t = s ∧ Q t) (k s) S) :
    AgreesVia L Q ((MonadState.get : Rule ParseState) >>= k) S where
  lasts {s _ _} e := (h s).lasts e
  lasts' {s _ _} e := (h s).lasts' e
  meets {s s'} hs hq := by
    change L.Meets S (k s L.env s) (k s' L.env' s')
    rw [← hk s', L.seen hs, hk]
    exact (h s).meets hs ⟨rfl, hq⟩

/-- A rule that reads what is the same in both environments. -/
lemma read {k : Env → Rule β} (hk : k L.env' = k L.env) (h : AgreesVia L Q (k L.env) S) :
    AgreesVia L Q ((MonadReader.read : Rule Env) >>= k) S where
  lasts e := h.lasts e
  lasts' {s a t} e := h.lasts' (s := s) (a := a) (t := t) (hk ▸ e)
  meets {s s'} hs hq := by
    change L.Meets S (k L.env L.env s) (k L.env' L.env' s')
    rw [hk]
    exact h.meets hs hq

/-- The same change of the state in both runs, which keeps them in step. -/
lemma modify {f : ParseState → ParseState} {R : Unit → ParseState → Prop}
    (halike : ∀ {s s'}, L.alike s s' → Q s → L.alike (f s) (f s')) (hlasts : ∀ s, L.lasts s (f s))
    (hR : ∀ {s s'}, L.alike s s' → Q s → R () (f s)) :
    AgreesVia L Q (MonadState.modifyGet fun s => ((), f s) : Rule Unit) R where
  lasts e := by
    cases e
    exact hlasts _
  lasts' e := by
    cases e
    exact hlasts _
  meets hs hq := .some (halike hs hq) (hR hs hq)

/-- The same step in both runs, behind which they may part. -/
lemma stride {f : ParseState → ParseState} {R : Unit → ParseState → Prop}
    (h : ∀ s s', Stride L.env s s' (f s) (f s')) (hR : ∀ {s s'}, L.alike s s' → Q s → R () (f s)) :
    AgreesVia L Q (MonadState.modifyGet fun s => ((), f s) : Rule Unit) R where
  lasts {s _ _} e := by
    cases e
    exact L.step (h s s).step
  lasts' {s _ _} e := by
    cases e
    exact L.step (h s s).step
  meets {s s'} hs hq := by
    obtain halike | hparted := L.stride hs (h s s')
    · exact .some halike (hR hs hq)
    · refine .parted hparted ?_ ?_
      · rintro _ _ ⟨⟩
        exact L.refl _
      · rintro _ _ ⟨⟩
        exact L.refl _

/-- A rule that is run behind the same step in both runs. -/
lemma behind (h : AgreesVia L Q r R) (hs : L.alike s s') (hstride : Stride L.env s s' t t')
    (hQ : Q t) : L.Meets R (r L.env t) (r L.env' t') := by
  obtain halike | hparted := L.stride hs hstride
  · exact h.meets halike hQ
  · exact .parted hparted h.lasts h.lasts'

/-! ## Repetition -/

/-- Rounds that keep the runs in step and `I` true end in step. -/
lemma loopUpTo {step : β → Rule (β ⊕ α)} {I : β → ParseState → Prop}
    (h : ∀ b, AgreesVia L (I b) (step b) fun next t => next.elim (I · t) (R · t)) (rounds : Nat)
    (b : β) : AgreesVia L (I b) (Rule.loopUpTo step rounds b) R := by
  induction rounds generalizing b with
  | zero => exact .endless
  | succ rounds ih =>
    refine .bind (h b) fun next => ?_
    cases next with
    | inl b => exact ih b
    | inr a => exact .pure fun _ hR => hR

lemma loop {step : β → Rule (β ⊕ α)} {I : β → ParseState → Prop}
    (h : ∀ b, AgreesVia L (I b) (step b) fun next t => next.elim (I · t) (R · t)) (b : β) :
    AgreesVia L (I b) (Rule.loop step b) R := by
  refine .read ?_ (.loopUpTo h L.env.rounds b)
  unfold Env.rounds
  rw [L.src]

end AgreesVia

end CangjieSyntax

/-!
## The basic rules

Tokens, reports, nodes, names, lists and nesting. The lemmas are there for `grind`, which reads most
rules off by itself.
-/

namespace CangjieSyntax

variable {L : Lockstep} {Q : ParseState → Prop} {α β : Type} {s s' : ParseState}

namespace Agrees

variable {r : Rule α} {k : α → Rule β}

lemma via (h : Agrees L r) : AgreesVia L Q r fun _ _ => True :=
  h.mono (fun _ _ => trivial) fun _ _ => id

lemma endless : Agrees L (Rule.endless : Rule α) :=
  AgreesVia.endless

@[grind ←]
lemma pure (a : α) : Agrees L (Pure.pure a : Rule α) :=
  AgreesVia.pure fun _ => id

@[grind ←]
lemma bind (h : Agrees L r) (hk : ∀ a, Agrees L (k a)) : Agrees L (r >>= k) :=
  AgreesVia.bind h fun a => (hk a).via

lemma view {f : Source → ParseState → α} (hf : ∀ src s, f src s.seen = f src s) :
    Agrees L (Rule.view f) :=
  AgreesVia.view hf fun _ => id

lemma get {k : ParseState → Rule β} (hk : ∀ s, k s.seen = k s) (h : ∀ s, Agrees L (k s)) :
    Agrees L ((MonadState.get : Rule ParseState) >>= k) :=
  AgreesVia.get hk fun s => (h s).via

lemma read {k : Env → Rule β} (hk : k L.env' = k L.env) (h : Agrees L (k L.env)) :
    Agrees L ((MonadReader.read : Rule Env) >>= k) :=
  AgreesVia.read hk h

lemma stride {f : ParseState → ParseState} (h : ∀ s s', Stride L.env s s' (f s) (f s')) :
    Agrees L (MonadState.modifyGet fun s => ((), f s) : Rule Unit) :=
  AgreesVia.stride h fun _ => id

@[grind ←]
lemma loop {step : β → Rule (β ⊕ α)} (h : ∀ b, Agrees L (step b)) (b : β) :
    Agrees L (Rule.loop step b) :=
  AgreesVia.loop (I := fun _ _ => True) (fun b => (h b).mono (fun _ => id) fun next _ _ => by
    cases next <;> trivial) b

@[grind ←]
lemma mapM {f : α → Rule β} (h : ∀ a, Agrees L (f a)) (items : List α) :
    Agrees L (items.mapM f) := by
  induction items with
  | nil => exact .pure []
  | cons a items ih =>
    rw [List.mapM_cons]
    exact (h a).bind fun b => ih.bind fun bs => .pure (b :: bs)

end Agrees

namespace Rule

/-! ## Tokens and reports -/

@[grind ←]
lemma agrees_advance : Agrees L advance :=
  .read (by rw [L.src]) (.stride fun s s' => .advance s s')

@[grind ←]
lemma agrees_reportAt (span : Span) (m : Message) (args : List String) :
    Agrees L (reportAt span m args) :=
  .stride fun s s' => .report s s' span m args

@[grind ←]
lemma agrees_kind : Agrees L kind := .view fun _ _ => rfl

@[grind ←]
lemma agrees_isAt (k : Kind) : Agrees L (isAt k) := .view fun _ _ => rfl

@[grind ←]
lemma agrees_start : Agrees L start := .view fun _ _ => rfl

@[grind ←]
lemma agrees_tokenSpan : Agrees L tokenSpan := .view fun _ _ => rfl

@[grind ←]
lemma agrees_tokenValue : Agrees L tokenValue := .view fun _ _ => rfl

@[grind ←]
lemma agrees_lineBreakBefore : Agrees L lineBreakBefore := .view fun _ _ => rfl

@[grind ←]
lemma agrees_spanFrom (start : Nat) : Agrees L (spanFrom start) := .view fun _ _ => rfl

@[grind ←]
lemma agrees_peek : Agrees L peek := .view fun _ _ => rfl

@[grind ←]
lemma agrees_operatorKind (hL : L.Settled) : Agrees L operatorKind := by
  refine .bind agrees_kind fun k => ?_
  split
  · refine .read (by rw [L.src]) (.bind ?_ fun _ => .get (fun _ => rfl) fun s => .pure _)
    exact AgreesVia.modify (fun hs _ => hL.joinGreater hs)
      (fun s => hL.turn (.joinGreater s : Turn L.env s _)) fun _ => id
  · exact .pure k

@[grind ←]
lemma agrees_optional (k : Kind) : Agrees L (optional k) := by
  unfold optional
  grind

@[grind ←]
lemma agrees_report (m : Message) (args : List String) : Agrees L (report m args) := by
  unfold report
  grind

@[grind ←]
lemma agrees_expect (k : Kind) : Agrees L (expect k) := by
  unfold expect
  grind

@[grind ←]
lemma agrees_require (k : Kind) : Agrees L (require k) := by
  unfold require
  grind

/-! ## Nodes and names -/

@[grind ←]
lemma agrees_allocExpr (form : ExprForm) (span : Span) : Agrees L (allocExpr form span) :=
  .get (fun _ => rfl) fun _ => .bind (.stride fun s s' => .alloc s s' (.expr ⟨form, span⟩))
    fun _ => .pure _

@[grind ←]
lemma agrees_allocType (form : TypeForm) (span : Span) : Agrees L (allocType form span) :=
  .get (fun _ => rfl) fun _ => .bind (.stride fun s s' => .alloc s s' (.type ⟨form, span⟩))
    fun _ => .pure _

@[grind ←]
lemma agrees_allocPattern (form : PatternForm) (span : Span) :
    Agrees L (allocPattern form span) :=
  .get (fun _ => rfl) fun _ => .bind (.stride fun s s' => .alloc s s' (.pattern ⟨form, span⟩))
    fun _ => .pure _

@[grind ←]
lemma agrees_allocDecl (node : DeclNode) : Agrees L (allocDecl node) :=
  .get (fun _ => rfl) fun _ => .bind (.stride fun s s' => .alloc s s' (.decl node)) fun _ => .pure _

@[grind ←]
lemma agrees_exprFrom (start : Nat) (form : ExprForm) : Agrees L (exprFrom start form) := by
  unfold exprFrom
  grind

@[grind ←]
lemma agrees_typeFrom (start : Nat) (form : TypeForm) : Agrees L (typeFrom start form) := by
  unfold typeFrom
  grind

@[grind ←]
lemma agrees_patternFrom (start : Nat) (form : PatternForm) :
    Agrees L (patternFrom start form) := by
  unfold patternFrom
  grind

@[grind ←]
lemma agrees_errorExpr (span : Span) : Agrees L (errorExpr span) := by
  unfold errorExpr
  grind

@[grind ←]
lemma agrees_intern (text : String) : Agrees L (intern text) :=
  .stride fun s s' => .intern s s' text

@[grind ←]
lemma agrees_name (text : String) (span : Span) : Agrees L (name text span) := by
  unfold name
  grind

@[grind ←]
lemma agrees_missingName : Agrees L missingName := by
  unfold missingName
  grind

@[grind ←]
lemma agrees_identifier : Agrees L identifier := by
  unfold identifier
  grind

@[grind ←]
lemma agrees_dottedName : Agrees L dottedName := by
  refine .bind agrees_identifier fun first => .loop (fun path => ?_) [first]
  refine .bind (.view fun _ _ => rfl) fun more => ?_
  grind

@[grind ←]
lemma agrees_label? : Agrees L label? := by
  refine .bind (.view fun _ _ => rfl) fun labelled => ?_
  grind

/-! ## Behind a token -/

section

variable {fresh : ParseState → Prop} (hfresh : L.Fresh fresh)

lemma fresh_true : L.Fresh fun _ => True :=
  ⟨fun _ => trivial, fun _ _ _ => trivial⟩

include hfresh

lemma agreesVia_advance : AgreesVia L Q advance fun _ => fresh :=
  .read (by rw [L.src]) (.stride (fun s s' => .advance s s') fun hs _ => hfresh.advance hs)

lemma agreesVia_report (m : Message) (args : List String) :
    AgreesVia L fresh (report m args) fun _ => fresh :=
  .bind (.view (R := fun _ => fresh) (fun _ _ => rfl) fun _ => id) fun span =>
    .stride (fun s s' => .report s s' span m args) fun hs hq =>
      hfresh.step hs hq (.report _ span m args)

lemma agreesVia_missingName : AgreesVia L fresh missingName fun _ => fresh :=
  .bind (.view (R := fun _ => fresh) (fun _ _ => rfl) fun _ => id) fun _ =>
    .bind (R := fun _ => fresh)
      (.stride (fun s s' => .intern s s' "") fun hs hq => hfresh.step hs hq (.intern _ ""))
      fun _ => .pure fun _ => id

/-- Whether an identifier is taken or a missing one reported, no token in front of it is left. -/
lemma agreesVia_identifier :
    AgreesVia L (fun s => s.kind.isIdentifier ∨ fresh s) identifier fun _ => fresh := by
  refine .bind (.view (R := fun k s => k.isIdentifier ∨ fresh s) (fun _ _ => rfl) fun _ => id)
    fun k => ?_
  refine .ite (fun _ => ?_) fun hother => ?_
  · refine .bind agrees_tokenValue.via fun value => ?_
    refine .bind agrees_tokenSpan fun span => .bind (agrees_name value span) fun name => ?_
    exact .bind (agreesVia_advance hfresh) fun _ => .pure fun _ => id
  · refine .mono (fun s h => h.resolve_left hother) (fun _ _ => id) ?_
    exact .bind (agreesVia_report hfresh _ _) fun _ => agreesVia_missingName hfresh

end

/-! ## Lists -/

section

variable {element : Rule α}

@[grind ←]
lemma agrees_list (close : Kind) (h : Agrees L element) : Agrees L (list close element) := by
  unfold list listRound
  grind

@[grind ←]
lemma agrees_behind (k : Kind) (h : Agrees L element) : Agrees L (behind k element) := by
  unfold behind
  grind

@[grind ←]
lemma agrees_separated (separator : Kind) (h : Agrees L element) :
    Agrees L (separated separator element) := by
  unfold separated separatedRound
  grind

end

/-! ## Nesting -/

section

variable {fallback : Span → Rule α} {body : Rule α}

/-- Past the depth allowed or one level deeper, a rule leads on from the state. -/
lemma lasts_nested {env : Env} {a : α} {t : ParseState}
    (hfallback : ∀ {span s a t}, fallback span env s = some (a, t) → L.lasts s t)
    (hbody : ∀ {s a t}, body env s = some (a, t) → L.lasts s t)
    (e : nested fallback body env s = some (a, t)) : L.lasts s t := by
  rw [nested_apply] at e
  split at e
  · exact L.trans (L.step (.reportDepth s _ : Step env s _)) (hfallback e)
  case isFalse hdepth =>
    obtain ⟨⟨b, u⟩, hrun, e⟩ := Option.map_eq_some_iff.1 e
    cases e
    refine L.trans (L.step (.deeper (Nat.lt_of_not_le hdepth) : Step env s _)) ?_
    exact L.trans (hbody hrun) (L.step (.shallower u : Step env u _))

/-- Both runs go one level deeper, or neither does. -/
lemma agreesVia_nested {R : α → ParseState → Prop}
    (hQ : ∀ {s s' t}, L.alike s s' → Q s → Step L.env s t → Q t)
    (hR : ∀ {s s' a t}, L.alike s s' → R a s → Step L.env s t → R a t)
    (hfallback : ∀ span, AgreesVia L Q (fallback span) R) (hbody : AgreesVia L Q body R) :
    AgreesVia L Q (nested fallback body) R where
  lasts e := lasts_nested (fun {span _ _ _} e => (hfallback span).lasts e) hbody.lasts e
  lasts' e := lasts_nested (fun {span _ _ _} e => (hfallback span).lasts' e) hbody.lasts' e
  meets {s s'} hs hq := by
    have hdepth : s'.depth = s.depth := (congrArg ParseState.depth (L.seen hs) :)
    have hspan : s'.lexer.span = s.lexer.span :=
      (congrArg (fun s : ParseState => s.lexer.span) (L.seen hs) :)
    rw [nested_apply, nested_apply, L.maxDepth]
    by_cases hdeep : L.env.settings.maxDepth ≤ s.depth
    · rw [if_pos hdeep, if_pos (hdepth ▸ hdeep), hspan]
      exact (hfallback _).behind hs (.reportDepth s s' _) (hQ hs hq (.reportDepth s _))
    · rw [if_neg hdeep, if_neg (hdepth ▸ hdeep), Option.map_eq_bind, Option.map_eq_bind]
      have hstep := Nat.lt_of_not_le hdeep
      refine (hbody.behind hs (.deeper hstep) (hQ hs hq (.deeper hstep))).bind ?_ ?_ ?_
      · rintro ⟨a, u⟩ _ _ ⟨⟩
        exact L.step (.shallower u : Step L.env u _)
      · rintro ⟨a, u⟩ _ _ ⟨⟩
        exact L.step (.shallower u : Step L.env u _)
      · intro a t t' ht hr
        exact (AgreesVia.pure (Q := R a) fun _ h => h).behind ht (.shallower t t')
          (hR ht hr (.shallower t))

@[grind ←]
lemma agrees_nested (hfallback : ∀ span, Agrees L (fallback span)) (hbody : Agrees L body) :
    Agrees L (nested fallback body) :=
  agreesVia_nested (fun _ _ _ => trivial) (fun _ _ _ => trivial) hfallback hbody

/-- A rule in the body of a type is run for the same type in both runs. -/
@[grind ←]
lemma agrees_enclosedBy (hL : L.Settled) (owner : Option String) (h : Agrees L body) :
    Agrees L (enclosedBy owner body) := by
  have enclose (owner : Option String) :
      Agrees L (modify fun s : ParseState => { s with enclosingType := owner }) :=
    AgreesVia.modify (fun hs _ => hL.enclose owner hs)
      (fun s => hL.turn (.enclose s owner : Turn L.env s _)) fun _ => id
  exact .get (fun _ => rfl) fun s => .bind (enclose owner) fun _ => .bind h fun a =>
    .bind (enclose s.enclosingType) fun _ => .pure a

end

end Rule

end CangjieSyntax
