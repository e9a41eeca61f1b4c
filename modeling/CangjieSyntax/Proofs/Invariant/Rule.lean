import CangjieSyntax.Proofs.Ending.Finishes

/-!
# Invariants of a parse

What every step of a parse keeps is kept by its rules. An `Invariant` is kept by all steps that
allocate no expression; a settled one, which speaks of the states outside attempts, is kept by whole
attempts as well, and by the allocation of any plain expression. `Preserves I r` says that the rule
`r` keeps the invariant `I` and all expressions allocated before, `Makes I P r` that it yields an
expression whose form has the property `P` as well.

Names with type arguments, operations, chains and assignments are not plain, and what the rules for
them keep depends on the invariant. The lemmas for putting rules together are there for `grind`,
which reads most rules off by itself.
-/

namespace CangjieSyntax

/-- A property of states that is kept by all steps that allocate no expression. -/
structure Invariant (env : Env) where
  holds : ParseState → Prop
  step : ∀ {s t}, holds s → Step env s t → t.nodes.exprs = s.nodes.exprs → holds t

namespace ExprForm

/-- The expression is a link, or a whole chain with an optional one. -/
abbrev isChained : ExprForm → Bool
  | .field .. | .call .. | .index .. | .trailingLambda .. | .optionalChain _ => true
  | _ => false

/-- An expression that is no operation with operators, no name with type arguments, no chain and no
assignment, neither quoted code nor a placeholder. -/
@[grind]
def IsPlain (form : ExprForm) : Prop :=
  (∀ op lhs rhs level, form ≠ .binary op lhs rhs level)
    ∧ (∀ op operand level, form ≠ .unary op operand level)
    ∧ (∀ name typeArgs, form = .identifier name typeArgs → typeArgs = [])
    ∧ form.isChained = false ∧ (∀ op target value, form ≠ .assign op target value)
    ∧ (∀ parts, form ≠ .quote parts) ∧ form ≠ .error

/-- An expression that an operator in front of it may take: nothing in it binds less. -/
@[grind]
def IsOperand (form : ExprForm) : Prop :=
  (∀ op lhs rhs level, form ≠ .binary op lhs rhs level)
    ∧ (∀ start stop inclusive step, form ≠ .range start stop inclusive step)
    ∧ (∀ value type, form ≠ .typeCast value type) ∧ ∀ value type, form ≠ .typeCheck value type

/-- An expression that a chain starts with: an operand that is no chain. -/
@[grind]
def IsPrimary (form : ExprForm) : Prop :=
  (∀ op lhs rhs level, form ≠ .binary op lhs rhs level)
    ∧ (∀ start stop inclusive step, form ≠ .range start stop inclusive step)
    ∧ (∀ value type, form ≠ .typeCast value type) ∧ (∀ value type, form ≠ .typeCheck value type)
    ∧ form.isChained = false

/-- A question mark stands in front of the link. -/
def isOptional : ExprForm → Bool
  | .field _ _ _ isOptional | .call _ _ isOptional | .index _ _ isOptional
  | .trailingLambda _ _ isOptional => isOptional
  | _ => false

/-- An expression that is a link from another one. -/
def IsLink (operand : ExprId) (isOptional : Bool) (form : ExprForm) : Prop :=
  form.target? = some operand ∧ form.isOptional = isOptional

section

variable {form : ExprForm} {operand : ExprId} {isOptional : Bool}

lemma IsPrimary.isOperand (h : form.IsPrimary) : form.IsOperand :=
  ⟨h.1, h.2.1, h.2.2.1, h.2.2.2.1⟩

lemma IsLink.isOperand (h : form.IsLink operand isOptional) : form.IsOperand := by
  have htarget := h.1
  cases form with
  | field | call | index | trailingLambda => simp [IsOperand]
  | _ => exact nomatch htarget

lemma IsLink.isChained (h : form.IsLink operand isOptional) : form.isChained = true := by
  have htarget := h.1
  cases form with
  | field | call | index | trailingLambda => rfl
  | _ => exact nomatch htarget

end

end ExprForm

/-- The expression at a place has a form with a property. -/
def Nodes.Has (nodes : Nodes) (id : ExprId) (P : ExprForm → Prop) : Prop :=
  ∃ node, nodes.exprs.get? id = some node ∧ P node.form

lemma Nodes.Has.grow {nodes others : Nodes} {id : ExprId} {P : ExprForm → Prop}
    (h : nodes.Has id P) (hext : nodes.exprs.Extends others.exprs) : others.Has id P := by
  obtain ⟨node, hnode, hform⟩ := h
  exact ⟨node, hext.get?_eq hnode, hform⟩

/-- An expression behind a new one is the new one, or was there before. -/
lemma Nodes.get?_add_expr {nodes : Nodes} {new node : ExprNode} {id : ExprId}
    (h : (nodes.add (.expr new)).exprs.get? id = some node) :
    (id = nodes.exprs.next ∧ node = new) ∨ nodes.exprs.get? id = some node := by
  have hadd : (nodes.add (.expr new)).get? (.expr id) = some (.expr node) := by
    rw [get?, h]
    rfl
  obtain ⟨hid, e⟩ | hold := get?_add hadd
  · cases e
    exact .inl ⟨NodeRef.expr.inj hid, rfl⟩
  · obtain ⟨_, hold, e⟩ := Option.map_eq_some_iff.1 hold
    cases e
    exact .inr hold

/-- A fault at the offset has been met, or no fault is reported for now. -/
def ParseState.Silent (s : ParseState) (pos : Nat) : Prop :=
  s.muted = true ∨ s.lastErrorStart = some pos

namespace Invariant

variable {env : Env}

/-- Allocating an expression keeps the invariant. -/
def Allows (I : Invariant env) (form : ExprForm) : Prop :=
  ∀ s span, I.holds s → I.holds { s with nodes := s.nodes.add (.expr ⟨form, span⟩) }

/-- An invariant of the states outside attempts. -/
structure Settled (I : Invariant env) : Prop where
  tentative : ∀ {s}, I.holds s → s.tentative = {}
  turn : ∀ {s t}, I.holds s → Turn env s t → t.nodes.exprs = s.nodes.exprs → I.holds t
  plain : ∀ form : ExprForm, form.IsPlain → I.Allows form
  placeholder : ∀ {s : ParseState} {span : Span}, I.holds s → s.Silent span.start →
    I.holds { s with nodes := s.nodes.add (.expr ⟨.error, span⟩) }

/-- The states of an attempt that has allocated no expression. -/
def attempt (env : Env) (s : ParseState) : Invariant env where
  holds u := Tries env s u ∧ u.nodes.exprs = s.nodes.exprs
  step h hstep e := ⟨h.1.tail hstep, e.trans h.2⟩

end Invariant

/-- The invariant holds in the state `t`, where no expression of `s` has been lost. -/
structure Invariant.Reaches {env : Env} (I : Invariant env) (s t : ParseState) : Prop where
  holds : I.holds t
  exprs : s.nodes.exprs.Extends t.nodes.exprs

section

variable {env : Env} {α : Type}

/-- A rule keeps an invariant, and all expressions allocated before. -/
def Preserves (I : Invariant env) (r : Rule α) : Prop :=
  ∀ s, I.holds s → Ensures env s r fun _ t => I.Reaches s t

/-- A rule keeps an invariant and yields an expression whose form has a property. -/
def Makes (I : Invariant env) (P : ExprForm → Prop) (r : Rule ExprId) : Prop :=
  ∀ s, I.holds s → Ensures env s r fun id t => I.Reaches s t ∧ t.nodes.Has id P

/-- At a token of a certain kind, a rule keeps an invariant and yields an expression whose form has a
property. -/
def MakesAt (I : Invariant env) (k : Kind) (P : ExprForm → Prop) (r : Rule ExprId) : Prop :=
  ∀ s, I.holds s → s.kind = k → Ensures env s r fun id t => I.Reaches s t ∧ t.nodes.Has id P

/-- A rule keeps an invariant until it allocates the expression that it yields, whose form has a
property. -/
def Builds (I : Invariant env) (P : ExprForm → Prop) (r : Rule ExprId) : Prop :=
  ∀ s, I.holds s → Ensures env s r fun id t => ∃ u node, I.Reaches s u ∧ P node.form
    ∧ id = u.nodes.exprs.next ∧ t = { u with nodes := u.nodes.add (.expr node) }

end

variable {env : Env} {I : Invariant env} {α β : Type} {s t u : ParseState}

namespace Invariant.Reaches

lemma refl (h : I.holds s) : I.Reaches s s :=
  ⟨h, .refl _⟩

lemma trans (h : I.Reaches s t) (h' : I.Reaches t u) : I.Reaches s u :=
  ⟨h'.holds, h.exprs.trans h'.exprs⟩

lemma has {id : ExprId} {P : ExprForm → Prop} (h : I.Reaches s t) (hid : s.nodes.Has id P) :
    t.nodes.Has id P :=
  hid.grow h.exprs

end Invariant.Reaches

namespace ParseState

/-- Outside attempts, whatever fault is met is reported or held back. -/
lemma silent_report (h : s.tentative = {}) (span : Span) (m : Message) (args : List String) :
    (s.report span m args).Silent span.start := by
  unfold report
  rw [if_neg (by simp [isTentative, h])]
  dsimp only
  split
  case isTrue hheld => simpa [Silent] using hheld
  case isFalse => exact .inr rfl

lemma silent_reportDepth (h : s.tentative = {}) (span : Span) (maxDepth pos : Nat) :
    (s.reportDepth span maxDepth).Silent pos := by
  unfold reportDepth
  rw [if_neg (by simp [isTentative, h])]
  exact .inl rfl

lemma Silent.advance {pos : Nat} (h : s.Silent pos) (src : Source) :
    (s.advance src).Silent pos := by
  obtain ⟨tentative, -, -, -, e⟩ := checkLimit_eq { s with
    prevStop := s.lexer.pos, prevSpan := s.lexer.span, prevKind := s.lexer.kind
    tokenCount := s.tokenCount + 1 }
  unfold ParseState.advance
  dsimp only
  rw [e]
  split
  · unfold lexicalFault
    split
    · exact h
    · exact .inl rfl
  · exact h

end ParseState

/-! ## Putting rules together -/

namespace Preserves

variable {r : Rule α} {k : α → Rule β}

lemma endless : Preserves I (Rule.endless : Rule α) :=
  fun _ _ _ _ e => nomatch e

@[grind ←]
lemma pure (a : α) : Preserves I (Pure.pure a : Rule α) := by
  rintro s hs _ _ ⟨⟩
  exact .refl hs

@[grind ←]
lemma bind (h : Preserves I r) (hk : ∀ a, Preserves I (k a)) : Preserves I (r >>= k) := by
  intro s hs
  exact (h s hs).bind fun a t ht => (hk a t ht.holds).mono fun _ _ hu => ht.trans hu

@[grind ←]
lemma view (f : Source → ParseState → α) : Preserves I (Rule.view f) := by
  rintro s hs _ _ ⟨⟩
  exact .refl hs

@[grind ←]
lemma get : Preserves I (MonadState.get : Rule ParseState) := by
  rintro s hs _ _ ⟨⟩
  exact .refl hs

@[grind ←]
lemma read {k : Env → Rule β} (h : Preserves I (k env)) :
    Preserves I ((MonadReader.read : Rule Env) >>= k) :=
  h

lemma modify {f : ParseState → ParseState} (h : ∀ s, I.holds s → I.holds (f s))
    (hexprs : ∀ s, (f s).nodes.exprs = s.nodes.exprs) :
    Preserves I (MonadState.modifyGet fun s => ((), f s) : Rule Unit) := by
  rintro s hs _ _ ⟨⟩
  refine ⟨h s hs, ?_⟩
  rw [hexprs]
  exact .refl _

/-- A step that allocates no expression. -/
lemma step {f : ParseState → ParseState} (h : ∀ s, Step env s (f s))
    (hexprs : ∀ s, (f s).nodes.exprs = s.nodes.exprs) :
    Preserves I (MonadState.modifyGet fun s => ((), f s) : Rule Unit) :=
  modify (fun s hs => I.step hs (h s) (hexprs s)) hexprs

/-- A step outside attempts that allocates no expression. -/
lemma turn (hI : I.Settled) {f : ParseState → ParseState} (h : ∀ s, Turn env s (f s))
    (hexprs : ∀ s, (f s).nodes.exprs = s.nodes.exprs) :
    Preserves I (MonadState.modifyGet fun s => ((), f s) : Rule Unit) :=
  modify (fun s hs => hI.turn hs (h s) (hexprs s)) hexprs

@[grind ←]
lemma loop {step : β → Rule (β ⊕ α)} (h : ∀ b, Preserves I (step b)) (b : β) :
    Preserves I (Rule.loop step b) := by
  intro s hs
  refine Ensures.loop_invariant (R := fun _ t => I.Reaches s t) (fun b t ht => ?_) (.refl hs)
  refine (h b t ht.holds).mono fun next u hu => ?_
  cases next <;> exact ht.trans hu

@[grind ←]
lemma mapM {f : α → Rule β} (h : ∀ a, Preserves I (f a)) (items : List α) :
    Preserves I (items.mapM f) := by
  induction items with
  | nil => exact .pure []
  | cons a items ih =>
    rw [List.mapM_cons]
    exact (h a).bind fun b => ih.bind fun bs => .pure (b :: bs)

end Preserves

namespace Makes

variable {r : Rule α} {k : α → Rule ExprId} {P : ExprForm → Prop}

lemma preserves {r : Rule ExprId} (h : Makes I P r) : Preserves I r :=
  fun s hs => (h s hs).mono fun _ _ ht => ht.1

lemma mono {Q : ExprForm → Prop} {r : Rule ExprId} (hPQ : ∀ form, P form → Q form)
    (h : Makes I P r) : Makes I Q r :=
  fun s hs => (h s hs).mono fun _ _ ht =>
    ⟨ht.1, ht.2.elim fun node hnode => ⟨node, hnode.1, hPQ _ hnode.2⟩⟩

lemma makesAt {r : Rule ExprId} (h : Makes I P r) (k : Kind) : MakesAt I k P r :=
  fun s hs _ => h s hs

@[grind ←]
lemma bind (h : Preserves I r) (hk : ∀ a, Makes I P (k a)) : Makes I P (r >>= k) := by
  intro s hs
  refine (h s hs).bind fun a t ht => (hk a t ht.holds).mono fun id u hu => ?_
  exact ⟨ht.trans hu.1, hu.2⟩

end Makes

namespace Builds

variable {r : Rule α} {k : α → Rule ExprId} {P : ExprForm → Prop}

lemma bind (h : Preserves I r) (hk : ∀ a, Builds I P (k a)) : Builds I P (r >>= k) := by
  intro s hs
  refine (h s hs).bind fun a t ht => (hk a t ht.holds).mono fun id v hv => ?_
  obtain ⟨u, node, hu, hnode⟩ := hv
  exact ⟨u, node, ht.trans hu, hnode⟩

/-- Where the invariant allows for the expression, the rule keeps it. -/
lemma makes {r : Rule ExprId} (h : Builds I P r) (hallows : ∀ form, P form → I.Allows form) :
    Makes I P r := by
  refine fun s hs => (h s hs).mono fun id t ht => ?_
  obtain ⟨u, node, hu, hform, rfl, rfl⟩ := ht
  have hreaches := hallows _ hform u node.span hu.holds
  exact ⟨⟨hreaches, hu.exprs.push _⟩, node, Arena.get?_push_next .., hform⟩

end Builds

namespace Rule

/-! ## Tokens and reports -/

@[grind ←]
lemma preserves_advance : Preserves I advance :=
  .read <| .step (fun s => .advance s) fun s => by rw [(s.advance_frame env.src).1]

@[grind ←]
lemma preserves_reportAt (span : Span) (m : Message) (args : List String) :
    Preserves I (reportAt span m args) :=
  .step (fun s => .report s span m args) fun s => by rw [(s.report_frame span m args).1]

@[grind ←]
lemma preserves_kind : Preserves I kind := .view _

@[grind ←]
lemma preserves_isAt (k : Kind) : Preserves I (isAt k) := .view _

@[grind ←]
lemma preserves_start : Preserves I start := .view _

@[grind ←]
lemma preserves_tokenSpan : Preserves I tokenSpan := .view _

@[grind ←]
lemma preserves_tokenValue : Preserves I tokenValue := .view _

@[grind ←]
lemma preserves_lineBreakBefore : Preserves I lineBreakBefore := .view _

@[grind ←]
lemma preserves_spanFrom (start : Nat) : Preserves I (spanFrom start) := .view _

@[grind ←]
lemma preserves_peek : Preserves I peek := .view _

@[grind ←]
lemma preserves_operatorKind (hI : I.Settled) : Preserves I operatorKind := by
  refine .bind preserves_kind fun k => ?_
  split
  · exact .read <| .bind (.turn hI (fun s => .joinGreater s) fun _ => rfl) fun _ =>
      .bind .get fun s => .pure _
  · exact .pure k

@[grind ←]
lemma preserves_optional (k : Kind) : Preserves I (optional k) := by
  unfold optional
  grind

@[grind ←]
lemma preserves_report (m : Message) (args : List String) : Preserves I (report m args) := by
  unfold report
  grind

@[grind ←]
lemma preserves_expect (k : Kind) : Preserves I (expect k) := by
  unfold expect
  grind

@[grind ←]
lemma preserves_require (k : Kind) : Preserves I (require k) := by
  unfold require
  grind

/-! ## Nodes and names -/

lemma preserves_allocExpr {form : ExprForm} (h : I.Allows form) (span : Span) :
    Preserves I (allocExpr form span) := by
  rintro s hs _ _ ⟨⟩
  exact ⟨h s span hs, (Arena.Extends.refl _).push _⟩

lemma makes_allocExpr {form : ExprForm} {P : ExprForm → Prop} (h : I.Allows form) (hform : P form)
    (span : Span) : Makes I P (allocExpr form span) := by
  rintro s hs _ _ ⟨⟩
  exact ⟨⟨h s span hs, (Arena.Extends.refl _).push _⟩, ⟨form, span⟩, Arena.get?_push_next .., hform⟩

lemma preserves_exprFrom {form : ExprForm} (h : I.Allows form) (start : Nat) :
    Preserves I (exprFrom start form) :=
  .bind (preserves_spanFrom start) fun span => preserves_allocExpr h span

@[grind ←]
lemma preserves_allocExpr_plain (hI : I.Settled) {form : ExprForm} (h : form.IsPlain)
    (span : Span) : Preserves I (allocExpr form span) :=
  preserves_allocExpr (hI.plain form h) span

@[grind ←]
lemma makes_allocExpr_plain (hI : I.Settled) {form : ExprForm} {P : ExprForm → Prop}
    (h : form.IsPlain) (hform : P form) (span : Span) : Makes I P (allocExpr form span) :=
  makes_allocExpr (hI.plain form h) hform span

@[grind ←]
lemma preserves_exprFrom_plain (hI : I.Settled) {form : ExprForm} (h : form.IsPlain)
    (start : Nat) : Preserves I (exprFrom start form) := by
  unfold exprFrom
  grind

@[grind ←]
lemma makes_exprFrom_plain (hI : I.Settled) {form : ExprForm} {P : ExprForm → Prop}
    (h : form.IsPlain) (hform : P form) (start : Nat) : Makes I P (exprFrom start form) := by
  unfold exprFrom
  grind

lemma builds_exprFrom {form : ExprForm} {P : ExprForm → Prop} (hform : P form) (start : Nat) :
    Builds I P (exprFrom start form) := by
  rintro s hs _ _ ⟨⟩
  exact ⟨s, ⟨form, s.spanFrom start⟩, .refl hs, hform, rfl, rfl⟩

/-- A placeholder is allocated for a fault that has been met. -/
lemma ensures_errorExpr (hI : I.Settled) {span : Span} (hs : I.holds s) (h : s.Silent span.start) :
    Ensures env s (errorExpr span) fun id t => I.Reaches s t ∧ t.nodes.Has id ExprForm.IsPrimary := by
  rintro _ _ ⟨⟩
  exact ⟨⟨hI.placeholder hs h, (Arena.Extends.refl _).push _⟩, ⟨.error, span⟩,
    Arena.get?_push_next .., by simp [ExprForm.IsPrimary]⟩

/-- What is reported at a token has a placeholder, behind the token or in front of it. -/
lemma ensures_faulty (hI : I.Settled) (hs : I.holds s) (span : Span) (m : Message)
    (args : List String) (advances : Bool) :
    Ensures env (s.report span m args) (do
      if advances then advance
      errorExpr span) fun id t => I.Reaches s t ∧ t.nodes.Has id ExprForm.IsPrimary := by
  have hsilent := ParseState.silent_report (hI.tentative hs) span m args
  have hreported : I.Reaches s (s.report span m args) := by
    have hexprs : (s.report span m args).nodes.exprs = s.nodes.exprs := by
      rw [(s.report_frame span m args).1]
    exact ⟨I.step hs (.report s span m args) hexprs, hexprs ▸ .refl _⟩
  cases advances with
  | false => exact (ensures_errorExpr hI hreported.holds hsilent).mono fun _ _ ht =>
      ⟨hreported.trans ht.1, ht.2⟩
  | true =>
    have htaken := hreported.trans (preserves_advance _ hreported.holds () _ rfl)
    exact .advance <| (ensures_errorExpr hI htaken.holds (hsilent.advance env.src)).mono
      fun _ _ ht => ⟨htaken.trans ht.1, ht.2⟩

@[grind ←]
lemma preserves_allocType (form : TypeForm) (span : Span) : Preserves I (allocType form span) := by
  rintro s hs _ _ ⟨⟩
  exact ⟨I.step hs (.alloc s (.type ⟨form, span⟩)) rfl, .refl _⟩

@[grind ←]
lemma preserves_allocPattern (form : PatternForm) (span : Span) :
    Preserves I (allocPattern form span) := by
  rintro s hs _ _ ⟨⟩
  exact ⟨I.step hs (.alloc s (.pattern ⟨form, span⟩)) rfl, .refl _⟩

@[grind ←]
lemma preserves_allocDecl (node : DeclNode) : Preserves I (allocDecl node) := by
  rintro s hs _ _ ⟨⟩
  exact ⟨I.step hs (.alloc s (.decl node)) rfl, .refl _⟩

@[grind ←]
lemma preserves_typeFrom (start : Nat) (form : TypeForm) : Preserves I (typeFrom start form) := by
  unfold typeFrom
  grind

@[grind ←]
lemma preserves_patternFrom (start : Nat) (form : PatternForm) :
    Preserves I (patternFrom start form) := by
  unfold patternFrom
  grind

@[grind ←]
lemma preserves_intern (text : String) : Preserves I (intern text) :=
  .step (fun s => .intern s text) fun _ => rfl

@[grind ←]
lemma preserves_name (text : String) (span : Span) : Preserves I (name text span) := by
  unfold name
  grind

@[grind ←]
lemma preserves_missingName : Preserves I missingName := by
  unfold missingName
  grind

@[grind ←]
lemma preserves_identifier : Preserves I identifier := by
  unfold identifier
  grind

@[grind ←]
lemma preserves_dottedName : Preserves I dottedName := by
  unfold dottedName dottedNameRound
  grind

@[grind ←]
lemma preserves_label? : Preserves I label? := by
  unfold label?
  grind

/-! ## Lists -/

section

variable {element : Rule α}

@[grind ←]
lemma preserves_list (close : Kind) (h : Preserves I element) :
    Preserves I (list close element) := by
  unfold list listRound
  grind

@[grind ←]
lemma preserves_behind (k : Kind) (h : Preserves I element) : Preserves I (behind k element) := by
  unfold behind
  grind

@[grind ←]
lemma preserves_separated (separator : Kind) (h : Preserves I element) :
    Preserves I (separated separator element) := by
  unfold separated separatedRound
  grind

end

/-! ## Nesting and tentative readings -/

/-- Where the depth allows it, a rule goes one level deeper. -/
lemma ensures_deeper {fallback : Span → Rule α} {body : Rule α} {P : α → ParseState → Prop}
    (hdepth : s.depth < env.settings.maxDepth) (hP : ∀ a t depth, P a t → P a { t with depth })
    (hbody : Ensures env { s with depth := s.depth + 1 } body fun a t => I.Reaches s t ∧ P a t) :
    Ensures env s (nested fallback body) fun a t => I.Reaches s t ∧ P a t := by
  change Ensures env s (if env.settings.maxDepth ≤ s.depth then _ else _ : Rule α) _
  rw [if_neg (Nat.not_le.2 hdepth)]
  intro a t e
  obtain ⟨_, u, hdeeper, e⟩ := bind_eq_some.1 e
  cases hdeeper
  obtain ⟨b, u, hrun, e⟩ := bind_eq_some.1 e
  cases e
  obtain ⟨hu, ha⟩ := hbody a u hrun
  exact ⟨⟨I.step hu.holds (.shallower u) rfl, hu.exprs⟩, hP a u _ ha⟩

/-- Past the depth allowed the fault is reported; otherwise the rule goes one level deeper. -/
lemma ensures_nested {fallback : Span → Rule α} {body : Rule α} {P : α → ParseState → Prop}
    (hs : I.holds s) (hP : ∀ a t depth, P a t → P a { t with depth })
    (hfallback : ∀ span u, u = s.reportDepth s.lexer.span env.settings.maxDepth → I.holds u →
      Ensures env u (fallback span) fun a t => I.Reaches u t ∧ P a t)
    (hbody : ∀ u, I.holds u → Ensures env u body fun a t => I.Reaches u t ∧ P a t) :
    Ensures env s (nested fallback body) fun a t => I.Reaches s t ∧ P a t := by
  obtain hdepth | hdepth := Nat.lt_or_ge s.depth env.settings.maxDepth
  · have hdeeper := I.step hs (.deeper hdepth) rfl
    exact ensures_deeper hdepth hP fun a t e =>
      (hbody _ hdeeper a t e).imp_left fun ht => ⟨ht.holds, ht.exprs⟩
  · change Ensures env s (if env.settings.maxDepth ≤ s.depth then _ else _ : Rule α) _
    rw [if_pos hdepth]
    intro a t e
    have hframe := s.reportDepth_frame s.lexer.span env.settings.maxDepth
    have hu := I.step hs (.reportDepth s s.lexer.span) (by rw [hframe.1])
    obtain ⟨ht, ha⟩ := hfallback s.lexer.span _ rfl hu a t e
    exact ⟨⟨ht.holds, hframe.1 ▸ ht.exprs⟩, ha⟩

@[grind ←]
lemma preserves_nested {fallback : Span → Rule α} {body : Rule α}
    (hfallback : ∀ span, Preserves I (fallback span)) (hbody : Preserves I body) :
    Preserves I (nested fallback body) := by
  intro s hs
  refine (ensures_nested (P := fun _ _ => True) hs (fun _ _ _ => id) ?_ ?_).mono fun _ _ => And.left
  · exact fun span u _ hu => (hfallback span u hu).mono fun _ _ ht => ⟨ht, trivial⟩
  · exact fun u hu => (hbody u hu).mono fun _ _ ht => ⟨ht, trivial⟩

/-- Past the depth allowed no fault is reported for now, and a placeholder is allocated. -/
lemma makes_nested_errorExpr (hI : I.Settled) {body : Rule ExprId} {P : ExprForm → Prop}
    (hP : ∀ form : ExprForm, form.IsPrimary → P form) (hbody : Makes I P body) :
    Makes I P (nested errorExpr body) := by
  refine fun s hs => ensures_nested (P := fun id t => t.nodes.Has id P) hs (fun _ _ _ h => h)
    (fun span u e hu => ?_) hbody
  have hsilent : u.Silent span.start := e ▸ ParseState.silent_reportDepth (hI.tentative hs) _ _ _
  exact (ensures_errorExpr hI hu hsilent).mono fun id t ht =>
    ⟨ht.1, ht.2.elim fun node hnode => ⟨node, hnode.1, hP _ hnode.2⟩⟩

@[grind ←]
lemma preserves_nested_errorExpr (hI : I.Settled) {body : Rule ExprId} (hbody : Preserves I body) :
    Preserves I (nested errorExpr body) := by
  intro s hs
  refine (ensures_nested (P := fun _ _ => True) hs (fun _ _ _ => id) (fun span u e hu => ?_)
    fun u hu => (hbody u hu).mono fun _ _ ht => ⟨ht, trivial⟩).mono fun _ _ => And.left
  have hsilent : u.Silent span.start := e ▸ ParseState.silent_reportDepth (hI.tentative hs) _ _ _
  exact (ensures_errorExpr hI hu hsilent).mono fun id t ht => ⟨ht.1, trivial⟩

/-- The body of an attempt allocates no expression. -/
@[grind ←]
lemma preserves_attempt (hI : I.Settled) {body : Rule (Option α)}
    (h : ∀ K : Invariant env, Preserves K body) : Preserves I (attempt body) := by
  intro s hs a t e
  obtain ⟨result, u, hrun, hend⟩ := attempt_eq_some e
  obtain ⟨⟨htries, hexprs⟩, -⟩ := h (.attempt env s) _ ⟨.refl, rfl⟩ result u hrun
  obtain ⟨b, -, hok, -, rfl⟩ | ⟨-, -, rfl⟩ := hend
  · refine ⟨hI.turn hs (.commit htries hok) hexprs, ?_⟩
    change s.nodes.exprs.Extends u.nodes.exprs
    rw [hexprs]
    exact .refl _
  · have back : (s.giveUp u).nodes = s.nodes := by
      rw [(Inside.of_tries (hI.tentative hs) htries).giveUp_eq (hI.tentative hs)]
    refine ⟨hI.turn hs (.giveUp htries) (by rw [back]), ?_⟩
    rw [back]
    exact .refl _

@[grind ←]
lemma preserves_enclosedBy (hI : I.Settled) (owner : Option String) {body : Rule α}
    (h : Preserves I body) : Preserves I (enclosedBy owner body) := by
  have enclose (owner : Option String) :
      Preserves I (modify fun s : ParseState => { s with enclosingType := owner }) :=
    .turn hI (fun s => .enclose s owner) fun _ => rfl
  exact .bind .get fun s => .bind (enclose owner) fun _ => .bind h fun a =>
    .bind (enclose s.enclosingType) fun _ => .pure a

end Rule

end CangjieSyntax
