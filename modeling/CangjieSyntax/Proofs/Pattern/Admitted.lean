import CangjieSyntax.Proofs.Invariant.Grammar
import CangjieSyntax.Proofs.Limits

/-!
# Patterns and their places

One rule reads the patterns of a `case`, of a `catch`, of a declaration of variables and of a loop. It
hands on where the pattern stands to all parts of it, and each form is left to the places that admit
it. So a pattern that is read without a fault is built, at every depth, of forms that its place admits.
-/

namespace CangjieSyntax

variable {env : Env} {s s₀ t u : ParseState} {nodes others : Nodes} {place : PatternPlace}
  {id : PatternId} {α β : Type}

/-! ## Going on outside attempts -/

/-- Outside attempts, a parse has gone on: nodes have been added, and faults have been met. -/
structure ParseState.Builds (s t : ParseState) : Prop where
  settled : t.tentative = {}
  nodes : s.nodes.Extends t.nodes
  errorCount : s.errorCount ≤ t.errorCount

namespace ParseState.Builds

lemma refl (h : s.tentative = {}) : s.Builds s :=
  ⟨h, .refl _, le_rfl⟩

lemma trans (h : s.Builds t) (h' : t.Builds u) : s.Builds u :=
  ⟨h'.settled, h.nodes.trans h'.nodes, h.errorCount.trans h'.errorCount⟩

/-- Where no fault has been met behind a place, none has been met up to it. -/
lemma clean (h₀ : s₀.Builds s) (h : s.Builds t) (hclean : t.errorCount = s₀.errorCount) :
    s.errorCount = s₀.errorCount :=
  Nat.le_antisymm (hclean ▸ h.errorCount) h₀.errorCount

lemma of_step (hs : s.tentative = {}) (hstep : Step env s t) : s.Builds t := by
  refine ⟨hstep.settled hs, ?_, hstep.grows.errorCount⟩
  cases hstep with
  | advance => exact (s.advance_frame env.src).1 ▸ .refl _
  | report span m args => exact (s.report_frame span m args).1 ▸ .refl _
  | reportDepth span => exact (s.reportDepth_frame span _).1 ▸ .refl _
  | alloc node => exact (Nodes.Extends.refl _).add node
  | intern | deeper | shallower => exact .refl _

lemma of_turn (hs : s.tentative = {}) (hturn : Turn env s t) : s.Builds t := by
  have settled := hturn.settled hs
  cases hturn with
  | unmute | joinGreater | remember | enclose => exact ⟨settled, .refl _, le_rfl⟩
  | commit htries ok =>
    have inside := Inside.of_tries hs htries
    have context := inside.context
    simp only [ParseState.context, Prod.mk.injEq] at context
    obtain ⟨-, -, -, -, errorCount, -⟩ := context
    exact ⟨settled, inside.nodes, errorCount.ge⟩
  | giveUp htries =>
    refine ⟨settled, ?_, ?_⟩
    all_goals rw [(Inside.of_tries hs htries).giveUp_eq hs]
    exact .refl _

end ParseState.Builds

/-- The states that a parse comes to outside attempts from a given one on. -/
def Invariant.builds (env : Env) (s : ParseState) : Invariant env where
  holds := s.Builds
  step h hstep _ := h.trans (.of_step h.settled hstep)

lemma Invariant.allows_builds (form : ExprForm) : (Invariant.builds env s).Allows form := by
  intro t span h
  have hstep : Step env t _ := .alloc t (.expr ⟨form, span⟩)
  exact h.trans (.of_step h.settled hstep)

lemma Invariant.settled_builds (env : Env) (s : ParseState) : (Invariant.builds env s).Settled where
  tentative h := h.settled
  turn h hturn _ := h.trans (.of_turn h.settled hturn)
  plain form _ := allows_builds form
  placeholder hs _ := allows_builds .error _ _ hs

/-- Outside attempts, a rule goes on. -/
def GoesOn (env : Env) (r : Rule α) : Prop :=
  ∀ s, Preserves (Invariant.builds env s) r

lemma GoesOn.ensures {r : Rule α} (h : GoesOn env r) (hs : s.tentative = {}) :
    Ensures env s r fun _ t => s.Builds t :=
  fun a t e => (h s s (.refl hs) a t e).holds

namespace Rule

/-- All rules that are called by name go on. -/
lemma goesOn_callTo (nesting : Nat) (g : Nonterminal α) : GoesOn env (callTo nesting g) := by
  intro s
  have settled := Invariant.settled_builds env s
  refine preserves_callTo settled (fun form _ _ _ => Invariant.allows_builds form) ?_ ?_ nesting g
  · exact fun call htype => makes_nameExpr settled htype fun _ _ => Invariant.allows_builds _
  · exact fun nesting hcall =>
      (makes_quote settled hcall fun _ => Invariant.allows_builds _).makesAt _

end Rule

/-- What holds of nodes still does when others have been added. -/
def Nodes.Lasts (K : Nodes → Prop) : Prop :=
  ∀ ⦃nodes others : Nodes⦄, nodes.Extends others → K nodes → K others

/-! ## Rules that give something -/

/-- From a state on, a rule goes on, and what it yields has a property if no fault has been met since
an earlier state. -/
def Gives (env : Env) (s₀ : ParseState) (Q : Nodes → α → Prop) (s : ParseState) (r : Rule α) : Prop :=
  Ensures env s r fun a t => s.Builds t ∧ (t.errorCount = s₀.errorCount → Q t.nodes a)

namespace Gives

variable {Q R : Nodes → α → Prop} {P : Nodes → β → Prop} {r : Rule α} {k : α → Rule β}

lemma bind (h₀ : s₀.Builds s) (h : Gives env s₀ R s r)
    (hk : ∀ a t, s₀.Builds t → s.Builds t → (t.errorCount = s₀.errorCount → R t.nodes a) →
      Gives env s₀ P t (k a)) : Gives env s₀ P s (r >>= k) := by
  refine Ensures.bind h fun a t ht => ?_
  exact Ensures.mono (fun b u hu => ⟨ht.1.trans hu.1, hu.2⟩) (hk a t (h₀.trans ht.1) ht.1 ht.2)

/-- A rule of whose result nothing need be known. -/
lemma skip (h₀ : s₀.Builds s) (h : GoesOn env r)
    (hk : ∀ a t, s₀.Builds t → s.Builds t → Gives env s₀ P t (k a)) :
    Gives env s₀ P s (r >>= k) := by
  refine Ensures.bind (h.ensures h₀.settled) fun a t ht => ?_
  exact Ensures.mono (fun b u hu => ⟨ht.trans hu.1, hu.2⟩) (hk a t (h₀.trans ht) ht)

/-- What is known of nodes that last is known behind such a rule as well. -/
lemma keep {K : Nodes → Prop} (h₀ : s₀.Builds s) (h : GoesOn env r) (hK : Nodes.Lasts K)
    (hs : s.errorCount = s₀.errorCount → K s.nodes)
    (hk : ∀ a t, s₀.Builds t → (t.errorCount = s₀.errorCount → K t.nodes) →
      Gives env s₀ P t (k a)) : Gives env s₀ P s (r >>= k) :=
  .skip h₀ h fun a t ht₀ ht => hk a t ht₀ fun clean => hK ht.nodes (hs (h₀.clean ht clean))

lemma view {f : Source → ParseState → α} (h : Gives env s₀ P s (k (f env.src s))) :
    Gives env s₀ P s (Rule.view f >>= k) :=
  h

lemma pure {a : α} (h₀ : s₀.Builds s) (ha : s.errorCount = s₀.errorCount → Q s.nodes a) :
    Gives env s₀ Q s (Pure.pure a : Rule α) :=
  Ensures.pure ⟨.refl h₀.settled, ha⟩

/-- A loop of which each round gives what the next one needs, or what is asked. -/
lemma loop {step : β → Rule (β ⊕ α)} {b : β} (h₀ : s₀.Builds s)
    (hb : s.errorCount = s₀.errorCount → P s.nodes b)
    (hstep : ∀ b t, s₀.Builds t → (t.errorCount = s₀.errorCount → P t.nodes b) →
      Gives env s₀ (fun nodes => Sum.elim (P nodes) (Q nodes)) t (step b)) :
    Gives env s₀ Q s (Rule.loop step b) := by
  refine Ensures.loop_invariant
    (R := fun b t => s.Builds t ∧ (t.errorCount = s₀.errorCount → P t.nodes b)) ?_
    ⟨.refl h₀.settled, hb⟩
  rintro b t ⟨ht, hb⟩
  refine Ensures.mono (fun next u hu => ?_) (hstep b t (h₀.trans ht) hb)
  cases next <;> exact ⟨ht.trans hu.1, hu.2⟩

/-- A rule that has met a fault gives whatever is asked. -/
lemma of_fault (h : Ensures env s r fun _ t => s.Builds t ∧ s₀.errorCount < t.errorCount) :
    Gives env s₀ Q s r :=
  Ensures.mono (fun _ _ ht => ⟨ht.1, fun clean => absurd clean (Nat.ne_of_gt ht.2)⟩) h

/-- Where a parse without diagnostics runs such a rule, what it yields has the property. -/
lemma of_clean {pre : Multiset Part} {post : α → Multiset Part} {a : α} (h : Gives env s Q s r)
    (hs : Reachable env s) (hreads : Reads (.reachable env) pre r post)
    (hrun : r env s = some (a, t)) (hclean : t.diagnostics = #[]) : Q t.nodes a := by
  have ht : Reachable env t := (hreads s hs a t hrun).1
  obtain ⟨builds, holds⟩ := h a t hrun
  have hcount := ht.diagnostics_eq_empty.1 hclean
  have hle := builds.errorCount
  exact holds (by omega)

end Gives

/-! ## Patterns that a place admits -/

/-- At every depth, the pattern is of a form that its place admits. -/
inductive Nodes.Admits (nodes : Nodes) (place : PatternPlace) : PatternId → Prop
  | wildcard {id : PatternId} {span : Span} (h : nodes.patterns.get? id = some ⟨.wildcard, span⟩) :
    Admits nodes place id
  | binding {id : PatternId} {name : Name} {span : Span}
    (h : nodes.patterns.get? id = some ⟨.binding name, span⟩) : Admits nodes place id
  | tuple {id : PatternId} {items : List PatternId} {span : Span}
    (h : nodes.patterns.get? id = some ⟨.tuple items, span⟩)
    (hitems : ∀ item ∈ items, Admits nodes place item) : Admits nodes place id
  | typeAnnotated {id : PatternId} {name : Option Name} {types : List TypeId} {span : Span}
    (h : nodes.patterns.get? id = some ⟨.typeAnnotated name types, span⟩)
    (hplace : place.allowsAnnotation) : Admits nodes place id
  | constant {id : PatternId} {values : List ExprId} {span : Span}
    (h : nodes.patterns.get? id = some ⟨.constant values, span⟩) (hne : values ≠ [])
    (hplace : place.allowsRefutable) : Admits nodes place id
  | variant {id : PatternId} {variants : List VariantPattern} {span : Span}
    (h : nodes.patterns.get? id = some ⟨.variant variants, span⟩) (hne : variants ≠ [])
    (hplace : place.allowsRefutable)
    (hargs : ∀ v ∈ variants, ∀ arg ∈ v.args, Admits nodes place arg) : Admits nodes place id

lemma Nodes.Admits.grow (h : nodes.Admits place id) (hext : nodes.Extends others) :
    others.Admits place id := by
  have get {id : PatternId} {node : PatternNode} (h : nodes.patterns.get? id = some node) :
      others.patterns.get? id = some node := hext.patterns.get?_eq h
  induction h with
  | wildcard h => exact .wildcard (get h)
  | binding h => exact .binding (get h)
  | tuple h _ ih => exact .tuple (get h) ih
  | typeAnnotated h hplace => exact .typeAnnotated (get h) hplace
  | constant h hne hplace => exact .constant (get h) hne hplace
  | variant h hne hplace _ ih => exact .variant (get h) hne hplace ih

lemma Nodes.lasts_admits (place : PatternPlace) (ids : List PatternId) :
    Nodes.Lasts fun nodes => ∀ id ∈ ids, nodes.Admits place id :=
  fun _ _ hext h id hid => (h id hid).grow hext

/-! ### Alternations -/

namespace PatternForm

/-- The pattern stands for values. -/
def isConstant : PatternForm → Bool
  | constant _ => true
  | _ => false

/-- The pattern stands for variants, or is a name, which may be one. -/
def isVariant : PatternForm → Bool
  | variant _ | binding _ => true
  | _ => false

/-- The pattern is no placeholder, and stands for something if it stands for values or variants. -/
def Full : PatternForm → Prop
  | error => False
  | constant values => values ≠ []
  | variant variants => variants ≠ []
  | _ => True

variable {form : PatternForm} {span : Span} {ps : List PatternNode} {p : PatternNode}

lemma constants_ne_nil (hfull : form.Full) (h : form.isConstant) : form.constants ≠ [] := by
  cases form with
  | constant values => exact hfull
  | _ => exact nomatch h

lemma variants_ne_nil (hfull : form.Full) (h : form.isVariant) : form.variants span ≠ [] := by
  cases form with
  | variant variants => exact hfull
  | binding name => exact List.cons_ne_nil _ _
  | _ => exact nomatch h

lemma constants_of_isVariant (h : form.isVariant) : form.constants = [] := by
  cases form with
  | variant | binding => rfl
  | _ => exact nomatch h

lemma not_isVariant (h : form.isConstant) : ¬ form.isVariant := by
  cases form with
  | constant => exact Bool.false_ne_true
  | _ => exact nomatch h

lemma variants_of_isConstant (h : form.isConstant) : form.variants span = [] := by
  cases form with
  | constant => rfl
  | _ => exact nomatch h

/-- What may stand in an alternation and is no placeholder stands for values or for variants. -/
lemma isAlternative_iff (hfull : form.Full) :
    form.isAlternative ↔ form.isConstant ∨ form.isVariant := by
  cases form with
  | error => exact hfull.elim
  | _ => simp [isAlternative, isConstant, isVariant]

lemma flatMap_ne_nil {f : PatternNode → List α} (hp : p ∈ ps) (h : f p ≠ []) : ps.flatMap f ≠ [] :=
  fun hnil => h (List.flatMap_eq_nil_iff.1 hnil p hp)

section

variable (hfull : ∀ p ∈ ps, p.form.Full)

include hfull

/-- Values make one pattern for all of them. -/
lemma alternation?_of_isConstant (hne : ps ≠ []) (h : ∀ p ∈ ps, p.form.isConstant) :
    alternation? ps = some (.constant (ps.flatMap (·.form.constants))) := by
  obtain ⟨p, hp⟩ := List.exists_mem_of_ne_nil ps hne
  have halternatives : ps.all (·.form.isAlternative) :=
    List.all_eq_true.2 fun p hp => (isAlternative_iff (hfull p hp)).2 (.inl (h p hp))
  have hvariants : ps.flatMap (fun p => p.form.variants p.span) = [] :=
    List.flatMap_eq_nil_iff.2 fun p hp => variants_of_isConstant (h p hp)
  have hvalues : ps.flatMap (·.form.constants) ≠ [] :=
    flatMap_ne_nil hp (constants_ne_nil (hfull p hp) (h p hp))
  unfold alternation?
  simp only [halternatives, hvariants, Bool.not_true, Bool.false_eq_true, if_false]

/-- Variants make one pattern for all of them, and names count as variants. -/
lemma alternation?_of_isVariant (hne : ps ≠ []) (h : ∀ p ∈ ps, p.form.isVariant) :
    alternation? ps = some (.variant (ps.flatMap fun p => p.form.variants p.span)) := by
  obtain ⟨p, hp⟩ := List.exists_mem_of_ne_nil ps hne
  have halternatives : ps.all (·.form.isAlternative) :=
    List.all_eq_true.2 fun p hp => (isAlternative_iff (hfull p hp)).2 (.inr (h p hp))
  have hvalues : ps.flatMap (·.form.constants) = [] :=
    List.flatMap_eq_nil_iff.2 fun p hp => constants_of_isVariant (h p hp)
  have hvariants : ps.flatMap (fun p => p.form.variants p.span) ≠ [] :=
    flatMap_ne_nil hp (variants_ne_nil (hfull p hp) (h p hp))
  unfold alternation?
  simp only [halternatives, hvalues, Bool.not_true, Bool.false_eq_true, if_false]

/-- Nothing is made of values and variants together, or of anything else. -/
lemma alternation?_eq_none (hconstants : ¬ ∀ p ∈ ps, p.form.isConstant)
    (hvariants : ¬ ∀ p ∈ ps, p.form.isVariant) : alternation? ps = none := by
  unfold alternation?
  dsimp only
  split
  case isTrue => rfl
  case isFalse halternatives =>
    rw [Bool.not_eq_true', Bool.not_eq_false, List.all_eq_true] at halternatives
    have sort (p : PatternNode) (hp : p ∈ ps) := (isAlternative_iff (hfull p hp)).1 (halternatives p hp)
    push Not at hconstants hvariants
    obtain ⟨p, hp, hconstant⟩ := hconstants
    obtain ⟨q, hq, hvariant⟩ := hvariants
    have hsome : ps.flatMap (·.form.constants) ≠ [] := flatMap_ne_nil hq <|
      constants_ne_nil (hfull q hq) ((sort q hq).resolve_right hvariant)
    have hsome' : ps.flatMap (fun p => p.form.variants p.span) ≠ [] := flatMap_ne_nil hp <|
      variants_ne_nil (hfull p hp) ((sort p hp).resolve_left hconstant)
    split
    case h_1 hnil _ => exact absurd hnil hsome
    case h_2 hnil _ => exact absurd hnil hsome'
    case h_3 hnil _ => exact absurd hnil hsome
    case h_4 => rfl

end

end PatternForm

namespace Nodes.Admits

lemma full (h : nodes.Admits place id) :
    ∃ node, nodes.patterns.get? id = some node ∧ node.form.Full := by
  cases h with
  | wildcard h | binding h | tuple h | typeAnnotated h => exact ⟨_, h, trivial⟩
  | constant h hne | variant h hne => exact ⟨_, h, hne⟩

/-- The arguments of all variants that a pattern stands for. -/
lemma args {node : PatternNode} (h : nodes.Admits place id)
    (hnode : nodes.patterns.get? id = some node) :
    ∀ v ∈ node.form.variants node.span, ∀ arg ∈ v.args, nodes.Admits place arg := by
  cases h with
  | variant h hne hplace hargs =>
    obtain rfl := Option.some.inj (h.symm.trans hnode)
    exact hargs
  | binding h =>
    obtain rfl := Option.some.inj (h.symm.trans hnode)
    intro v hv arg harg
    rw [List.eq_of_mem_singleton hv] at harg
    exact nomatch harg
  | wildcard h | tuple h | typeAnnotated h | constant h =>
    obtain rfl := Option.some.inj (h.symm.trans hnode)
    exact nofun

variable {ids : List PatternId}

lemma full_filterMap (h : ∀ id ∈ ids, nodes.Admits place id) :
    ∀ p ∈ ids.filterMap nodes.patterns.get?, p.form.Full := by
  intro p hp
  obtain ⟨id, hid, hget⟩ := List.mem_filterMap.1 hp
  obtain ⟨node, hnode, hfull⟩ := (h id hid).full
  exact Option.some.inj (hnode.symm.trans hget) ▸ hfull

lemma filterMap_ne_nil (hne : ids ≠ []) (h : ∀ id ∈ ids, nodes.Admits place id) :
    ids.filterMap nodes.patterns.get? ≠ [] := by
  obtain ⟨id, hid⟩ := List.exists_mem_of_ne_nil ids hne
  obtain ⟨node, hnode, -⟩ := (h id hid).full
  exact List.ne_nil_of_mem (List.mem_filterMap.2 ⟨id, hid, hnode⟩)

/-- An alternation of patterns that a place admits is one itself. -/
lemma alternation {form : PatternForm} {span : Span} (hplace : place.allowsRefutable)
    (hne : ids ≠ []) (h : ∀ id ∈ ids, nodes.Admits place id)
    (hform : PatternForm.alternation? (ids.filterMap nodes.patterns.get?) = some form)
    (hext : nodes.Extends others) (hid : others.patterns.get? id = some ⟨form, span⟩) :
    others.Admits place id := by
  have hfull := full_filterMap h
  have hsome := filterMap_ne_nil hne h
  set ps := ids.filterMap nodes.patterns.get?
  obtain ⟨p, hp⟩ := List.exists_mem_of_ne_nil ps hsome
  by_cases hconstants : ∀ p ∈ ps, p.form.isConstant
  · obtain rfl := Option.some.inj
      ((PatternForm.alternation?_of_isConstant hfull hsome hconstants).symm.trans hform)
    refine .constant hid (PatternForm.flatMap_ne_nil hp ?_) hplace
    exact PatternForm.constants_ne_nil (hfull p hp) (hconstants p hp)
  by_cases hvariants : ∀ p ∈ ps, p.form.isVariant
  · obtain rfl := Option.some.inj
      ((PatternForm.alternation?_of_isVariant hfull hsome hvariants).symm.trans hform)
    refine .variant hid (PatternForm.flatMap_ne_nil hp ?_) hplace fun v hv arg harg => ?_
    · exact PatternForm.variants_ne_nil (hfull p hp) (hvariants p hp)
    · obtain ⟨q, hq, hv⟩ := List.mem_flatMap.1 hv
      obtain ⟨one, hone, hget⟩ := List.mem_filterMap.1 hq
      exact ((h one hone).args hget v hv arg harg).grow hext
  · exact nomatch (PatternForm.alternation?_eq_none hfull hconstants hvariants).symm.trans hform

end Nodes.Admits

namespace Rule

variable {call : Call}

/-- Within the depth allowed a rule is run one level deeper. -/
lemma nested_eq_some {fallback : Span → Rule α} {body : Rule α} {a : α}
    (hdepth : s.depth < env.settings.maxDepth) :
    nested fallback body env s = some (a, t)
      ↔ ∃ u, body env { s with depth := s.depth + 1 } = some (a, u)
        ∧ { u with depth := u.depth - 1 } = t := by
  change (if _ then _ else _ : Rule α) env s = _ ↔ _
  rw [if_neg (Nat.not_le.2 hdepth)]
  constructor
  · intro e
    obtain ⟨_, _, ⟨⟩, e⟩ := bind_eq_some.1 e
    obtain ⟨_, u, hrun, e⟩ := bind_eq_some.1 e
    cases e
    exact ⟨u, hrun, rfl⟩
  · rintro ⟨u, hrun, rfl⟩
    exact bind_eq_some.2 ⟨(), _, rfl, bind_eq_some.2 ⟨a, u, hrun, rfl⟩⟩

/-- A pattern with no parts, or with admitted ones. -/
lemma gives_allocPattern {Q : Nodes → PatternId → Prop} {form : PatternForm} {span : Span}
    (h₀ : s₀.Builds s) (h : s.errorCount = s₀.errorCount → ∀ others id, s.nodes.Extends others →
      others.patterns.get? id = some ⟨form, span⟩ → Q others id) :
    Gives env s₀ Q s (allocPattern form span) := by
  rintro _ _ ⟨⟩
  have hstep : Step env s _ := .alloc s (.pattern ⟨form, span⟩)
  have builds := ParseState.Builds.of_step h₀.settled hstep
  exact ⟨builds, fun clean => h clean _ _ builds.nodes (Arena.get?_push_next _ _)⟩

lemma gives_patternFrom {Q : Nodes → PatternId → Prop} {form : PatternForm} (start : Nat)
    (h₀ : s₀.Builds s) (h : s.errorCount = s₀.errorCount → ∀ others id span,
      s.nodes.Extends others → others.patterns.get? id = some ⟨form, span⟩ → Q others id) :
    Gives env s₀ Q s (patternFrom start form) :=
  .view (gives_allocPattern h₀ fun clean others id hext hid => h clean others id _ hext hid)

/-- A report and whatever goes on behind it. -/
lemma gives_reported {Q : Nodes → α → Prop} {r : Rule α} {span : Span} {m : Message}
    {args : List String} (h₀ : s₀.Builds s) (hr : GoesOn env r) :
    Gives env s₀ Q s (do reportAt span m args; r) := by
  have hstep : Step env s (s.report span m args) := .report s span m args
  have builds := ParseState.Builds.of_step h₀.settled hstep
  have counted := ParseState.errorCount_report h₀.settled span m args
  refine .of_fault (Ensures.mono (fun a t ht => ?_) (hr.ensures builds.settled) :
    Ensures env (s.report span m args) r _)
  have := ht.errorCount
  have := h₀.errorCount
  exact ⟨builds.trans ht, by omega⟩

lemma goesOn_errorPattern (span : Span) : GoesOn env (errorPattern span) :=
  fun _ => preserves_allocPattern _ _

lemma gives_invalidPattern {Q : Nodes → PatternId → Prop} (span : Span) (what : String)
    (h₀ : s₀.Builds s) : Gives env s₀ Q s (invalidPattern span what) :=
  gives_reported h₀ (goesOn_errorPattern span)

lemma gives_refutablePattern {Q : Nodes → PatternId → Prop} {form : PatternForm} (span : Span)
    (h₀ : s₀.Builds s) (h : s.errorCount = s₀.errorCount → place.allowsRefutable → ∀ others id,
      s.nodes.Extends others → others.patterns.get? id = some ⟨form, span⟩ → Q others id) :
    Gives env s₀ Q s (refutablePattern place form span) := by
  unfold refutablePattern
  split
  case isTrue hplace => exact gives_allocPattern h₀ fun clean => h clean hplace
  case isFalse => exact gives_invalidPattern _ _ h₀

section

variable (place) (hcall : ∀ {α : Type} (g : Nonterminal α), GoesOn env (call g)) (h₀ : s₀.Builds s)

include hcall h₀

lemma gives_wildcardPattern :
    Gives env s₀ (·.Admits place) s (wildcardPattern call place) := by
  refine .view (.skip h₀ (fun _ => preserves_advance) fun _ t ht _ => .view ?_)
  split
  case isTrue hcolon =>
    have htypes : GoesOn env (patternTypes call place) := fun s =>
      preserves_patternTypes (fun g => hcall g s) place
    refine .skip ht htypes fun types u hu _ => gives_patternFrom _ hu fun _ others id span _ hid => ?_
    exact .typeAnnotated hid (Bool.and_eq_true _ _ ▸ hcolon).1
  case isFalse => exact gives_patternFrom _ ht fun _ others id span _ hid => .wildcard hid

lemma gives_constantPattern :
    Gives env s₀ (·.Admits place) s (constantPattern call place) := by
  refine .view (.skip h₀ (hcall .unary) fun value t ht _ => .view ?_)
  exact gives_refutablePattern _ ht fun _ hplace others id _ hid =>
    .constant hid (List.cons_ne_nil _ _) hplace

end

section

variable (place) (hcall : ∀ {α : Type} (g : Nonterminal α), GoesOn env (call g)) (h₀ : s₀.Builds s)
  (hpattern : ∀ t, s₀.Builds t → Gives env s₀ (·.Admits place) t (call (.pattern place)))

include h₀ hpattern

/-- A round that reads one more pattern. -/
lemma gives_another {items : List PatternId} {k : PatternId → Rule β} {Q : Nodes → β → Prop}
    (hitems : s.errorCount = s₀.errorCount → ∀ item ∈ items, s.nodes.Admits place item)
    (hk : ∀ item t, s₀.Builds t → s.Builds t → (t.errorCount = s₀.errorCount →
      ∀ one ∈ items ++ [item], t.nodes.Admits place one) → Gives env s₀ Q t (k item)) :
    Gives env s₀ Q s (call (.pattern place) >>= k) := by
  refine .bind h₀ (hpattern s h₀) fun item t ht₀ ht hitem => hk item t ht₀ ht fun clean => ?_
  refine List.forall_mem_append.2 ⟨fun one hone => ?_, fun one hone => ?_⟩
  · exact (hitems (h₀.clean ht clean) one hone).grow ht.nodes
  · exact List.eq_of_mem_singleton hone ▸ hitem clean

/-- The elements of a tuple, one of which is read in each round. -/
lemma gives_patternElements :
    Gives env s₀ (fun nodes elements => ∀ item ∈ elements.1, nodes.Admits place item) s
      (patternElements call place) := by
  refine .loop (P := fun nodes elements => ∀ item ∈ elements.1, nodes.Admits place item) h₀ nofun ?_
  rintro ⟨items, trailingComma⟩ t ht hitems
  refine .view ?_
  split
  · exact .pure ht hitems
  · refine gives_another place ht hpattern hitems fun item u hu₀ _ hrow => ?_
    refine .keep hu₀ (fun _ => preserves_optional _) (Nodes.lasts_admits place _) hrow ?_
    intro comma v hv₀ hrow
    refine .view ?_
    split
    · exact .pure hv₀ hrow
    · exact .pure hv₀ hrow

/-- The arguments of a variant, one of which is read in each round. -/
lemma gives_patternList (close : Kind) :
    Gives env s₀ (fun nodes items => ∀ item ∈ items, nodes.Admits place item) s
      (list close (call (.pattern place))) := by
  refine .loop (P := fun nodes items => ∀ item ∈ items, nodes.Admits place item) h₀ nofun ?_
  intro items t ht hitems
  refine .view ?_
  split
  · exact .pure ht hitems
  · refine gives_another place ht hpattern hitems fun item u hu₀ _ hrow => ?_
    refine .keep hu₀ (fun _ => preserves_optional _) (Nodes.lasts_admits place _) hrow ?_
    intro comma v hv₀ hrow
    split
    · exact .pure hv₀ hrow
    · exact .pure hv₀ hrow

lemma gives_tuplePattern : Gives env s₀ (·.Admits place) s (tuplePattern call place) := by
  refine .view (.skip h₀ (fun _ => preserves_advance) fun _ t ht₀ _ => ?_)
  refine .skip ht₀ (fun _ => preserves_optional _) fun empty u hu₀ _ => ?_
  split
  · refine .view ?_
    split
    case isTrue hplace =>
      have hunit (span : Span) : GoesOn env (allocExpr .unit span) := fun s =>
        preserves_allocExpr (Invariant.allows_builds .unit) span
      refine .skip hu₀ (hunit _) fun unit v hv₀ _ => gives_allocPattern hv₀ fun _ others id _ hid => ?_
      exact .constant hid (List.cons_ne_nil _ _) hplace
    case isFalse => exact gives_invalidPattern _ _ hu₀
  · refine .bind hu₀ (gives_patternElements place hu₀ hpattern) fun elements v hv₀ _ hitems => ?_
    obtain ⟨items, trailingComma⟩ := elements
    refine .keep hv₀ (fun _ => preserves_require _) (Nodes.lasts_admits place _) hitems ?_
    intro _ w hw₀ hitems
    split
    case h_1 =>
      exact .pure hw₀ fun clean => hitems clean _ List.mem_cons_self
    case h_2 =>
      refine gives_patternFrom _ hw₀ fun clean others id span hext hid => ?_
      exact .tuple hid (Nodes.lasts_admits place items hext (hitems clean))

lemma gives_variantPattern (start : Nat) (path : List Name) (typeArgs : List TypeId) :
    Gives env s₀ (·.Admits place) s (variantPattern call place start path typeArgs) := by
  unfold variantPattern
  extract_lets rest
  have hrest (args : List PatternId) (t : ParseState) (ht₀ : s₀.Builds t)
      (hargs : t.errorCount = s₀.errorCount → ∀ arg ∈ args, t.nodes.Admits place arg) :
      Gives env s₀ (·.Admits place) t (rest args) := by
    refine .view (gives_refutablePattern _ ht₀ fun clean hplace others id hext hid => ?_)
    refine .variant hid (List.cons_ne_nil _ _) hplace fun v hv arg harg => ?_
    rw [List.eq_of_mem_singleton hv] at harg
    exact (hargs clean arg harg).grow hext
  clear_value rest
  refine .skip h₀ (fun _ => preserves_optional _) fun opened t ht₀ _ => ?_
  split
  · refine .bind ht₀ (gives_patternList place ht₀ hpattern _) fun args u hu₀ _ hargs => ?_
    exact .keep hu₀ (fun _ => preserves_require _) (Nodes.lasts_admits place args) hargs
      fun _ v hv₀ hargs => hrest args v hv₀ hargs
  · exact hrest [] t ht₀ nofun

include hcall

lemma gives_namePattern : Gives env s₀ (·.Admits place) s (namePattern call place) := by
  refine .view (.skip h₀ (fun _ => preserves_dottedName) fun path t ht₀ _ => .view ?_)
  extract_lets rest
  have hrest (typeArgs : List TypeId) (u : ParseState) (hu₀ : s₀.Builds u) :
      Gives env s₀ (·.Admits place) u (rest typeArgs) := by
    dsimp only [rest]
    split
    case h_1 name =>
      refine .view ?_
      split
      case isTrue hcolon =>
        have htypes : GoesOn env (patternTypes call place) := fun s =>
          preserves_patternTypes (fun g => hcall g s) place
        refine .skip hu₀ htypes fun types v hv₀ _ => ?_
        refine gives_patternFrom _ hv₀ fun _ others id span _ hid => ?_
        exact .typeAnnotated hid (Bool.and_eq_true _ _ ▸ hcolon).1
      case isFalse =>
        refine .view ?_
        split
        · exact gives_variantPattern place hu₀ hpattern _ _ _
        · exact gives_patternFrom _ hu₀ fun _ others id span _ hid => .binding hid
    case h_2 => exact gives_variantPattern place hu₀ hpattern _ _ _
  clear_value rest
  split
  · exact .skip ht₀ (fun s => preserves_typeArguments (hcall .type s)) fun typeArgs u hu₀ _ =>
      hrest typeArgs u hu₀
  · exact hrest [] t ht₀

lemma gives_singlePattern : Gives env s₀ (·.Admits place) s (singlePattern call place) := by
  refine .view ?_
  split
  · exact gives_wildcardPattern place hcall h₀
  split
  · exact gives_tuplePattern place h₀ hpattern
  split
  · exact gives_constantPattern place hcall h₀
  split
  · exact gives_namePattern place hcall h₀ hpattern
  · refine .view (gives_reported h₀ ?_)
    split
    · exact goesOn_errorPattern _
    · exact fun _ => .bind preserves_advance fun _ => preserves_allocPattern _ _

/-- The patterns behind the first one, one of which is read in each round. -/
lemma gives_alternatives {first : PatternId}
    (hfirst : s.errorCount = s₀.errorCount → s.nodes.Admits place first) :
    Gives env s₀ (fun nodes rest => ∀ id ∈ first :: rest, nodes.Admits place id) s
      (loop (alternativesRound call place) []) := by
  refine .loop (P := fun nodes rest => ∀ id ∈ first :: rest, nodes.Admits place id) h₀ ?_ ?_
  · exact fun clean id hid => List.eq_of_mem_singleton hid ▸ hfirst clean
  · intro rest t ht hrest
    refine .keep ht (fun _ => preserves_optional _) (Nodes.lasts_admits place _) hrest ?_
    intro more u hu₀ hrest
    split
    · refine .bind hu₀ (gives_singlePattern place hcall hu₀ hpattern) fun one v hv₀ hv hone => ?_
      refine .pure hv₀ fun clean id hid => ?_
      rw [← List.cons_append, List.mem_append] at hid
      obtain hid | hid := hid
      · exact (hrest (hu₀.clean hv clean) id hid).grow hv.nodes
      · exact List.eq_of_mem_singleton hid ▸ hone clean
    · exact .pure hu₀ hrest

lemma gives_plainPattern : Gives env s₀ (·.Admits place) s (plainPattern call place) := by
  refine .view (.bind h₀ (gives_singlePattern place hcall h₀ hpattern) fun first t ht₀ _ hfirst => ?_)
  refine .view ?_
  split
  · exact .pure ht₀ hfirst
  · refine .bind ht₀ (gives_alternatives place hcall ht₀ hpattern hfirst) fun rest u hu₀ _ hrest => ?_
    refine .view ?_
    split
    · exact gives_invalidPattern _ _ hu₀
    case isFalse hplace =>
      rw [Bool.not_eq_true', Bool.not_eq_false] at hplace
      refine .view ?_
      split
      case h_1 form hform =>
        refine gives_allocPattern hu₀ fun clean others id hext hid => ?_
        exact .alternation hplace (List.cons_ne_nil _ _) (hrest clean) hform hext hid
      case h_2 => exact gives_invalidPattern _ _ hu₀

/-- Past the depth allowed a fault is met. -/
lemma gives_pattern : Gives env s₀ (·.Admits place) s (pattern call place) := by
  obtain hdepth | hdepth := Nat.lt_or_ge s.depth env.settings.maxDepth
  · have hdeeper := ParseState.Builds.of_step h₀.settled (.deeper hdepth)
    intro id t e
    obtain ⟨u, hrun, rfl⟩ := (nested_eq_some hdepth).1 e
    have hinner := gives_plainPattern place hcall (h₀.trans hdeeper) hpattern id u hrun
    exact ⟨⟨hinner.1.settled, hinner.1.nodes, hinner.1.errorCount⟩, hinner.2⟩
  · have hstep : Step env s (s.reportDepth s.lexer.span env.settings.maxDepth) :=
      .reportDepth s s.lexer.span
    have builds := ParseState.Builds.of_step h₀.settled hstep
    have counted := ParseState.errorCount_reportDepth h₀.settled s.lexer.span env.settings.maxDepth
    refine .of_fault fun id t e => ?_
    change (if _ then _ else _ : Rule PatternId) env s = _ at e
    rw [if_pos hdepth] at e
    have hplaceholder : GoesOn env (errorPattern s.lexer.span) := goesOn_errorPattern _
    have ht := hplaceholder.ensures builds.settled id t e
    have := ht.errorCount
    have := h₀.errorCount
    exact ⟨builds.trans ht, by omega⟩

end

/-- Outside attempts, every pattern that is read without a fault is built of forms that its place
admits. -/
theorem gives_callTo_pattern (nesting : Nat) (place : PatternPlace) (h₀ : s₀.Builds s) :
    Gives env s₀ (·.Admits place) s (callTo nesting (.pattern place)) := by
  induction nesting generalizing s with
  | zero => exact fun _ _ e => nomatch e
  | succ nesting ih => exact gives_pattern place (goesOn_callTo nesting) h₀ fun _ => ih

/-- Wherever a parse without diagnostics reads a pattern, it is built of forms that its place admits. -/
theorem admits_of_diagnostics_eq_empty {nesting : Nat} (hs : Reachable env s)
    (hrun : callTo nesting (.pattern place) env s = some (id, t)) (hclean : t.diagnostics = #[]) :
    t.nodes.Admits place id :=
  (gives_callTo_pattern nesting place (.refl hs.settled)).of_clean hs
    ((obeys_callTo (Region.settled_reachable env) nesting).pattern place) hrun hclean

end Rule

end CangjieSyntax
