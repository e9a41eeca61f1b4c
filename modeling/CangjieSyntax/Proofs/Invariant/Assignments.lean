import CangjieSyntax.Proofs.Invariant.Chains
import CangjieSyntax.Proofs.Pattern.Admitted

/-!
# Targets of assignments

An assignment is built around whatever stands in front of its operator, and what cannot be assigned
to is reported. Where nothing is reported, then, each target is a variable, the wildcard, a member,
an element or an optional chain, or is made of such by parentheses and tuples. How an optional chain
ends is not looked at: a call behind a question mark is let pass, while one without is not.
-/

namespace CangjieSyntax

variable {env : Env} {s t : ParseState} {nodes others : Nodes} {id target : ExprId} {depth : Nat}

/-! ## What can be assigned to -/

/-- A variable, the wildcard, a member or an element. -/
def ExprForm.isPlace : ExprForm → Bool
  | .identifier .. | .wildcard | .field .. | .index .. => true
  | _ => false

namespace Nodes

/-- Behind its parentheses, and in each element if it is a tuple, the expression is a place or an
optional chain, which may end in any link. -/
inductive Assignable (nodes : Nodes) : ExprId → Prop where
  | place {id : ExprId} (h : nodes.Has id fun form => form.isPlace = true) : nodes.Assignable id
  | chain {id inner target : ExprId} (h : nodes.Has id fun form => form = .optionalChain inner)
      (hlinks : nodes.Links inner target) : nodes.Assignable id
  | parenthesized {id inner : ExprId} (h : nodes.Has id fun form => form = .parenthesized inner)
      (hinner : nodes.Assignable inner) : nodes.Assignable id
  | tuple {id : ExprId} {items : List ExprId} (h : nodes.Has id fun form => form = .tuple items)
      (hitems : ∀ item ∈ items, nodes.Assignable item) : nodes.Assignable id

lemma has_of_exprForm {form : ExprForm} (h : nodes.exprForm id = form) (hform : form ≠ .error) :
    nodes.Has id fun found => found = form := by
  unfold exprForm at h
  cases hnode : nodes.exprs.get? id with
  | none => exact absurd (hnode ▸ h).symm hform
  | some node => exact ⟨node, hnode, by simpa [hnode] using h⟩

/-- The expressions of a list are all assignable if each of them is found to be. -/
lemma mapM_all_eq_some {f : ExprId → Option Bool} {items : List ExprId} :
    (items.mapM f).map (fun found => found.all (·)) = some true
      ↔ ∀ item ∈ items, f item = some true := by
  induction items with
  | nil => simp
  | cons item items ih =>
    rw [List.mapM_cons, List.forall_mem_cons, ← ih]
    cases f item with
    | none => simp
    | some found => cases items.mapM f <;> cases found <;> simp

/-- What is assignable still is when expressions have been added. -/
lemma isAssignableTo_grow (hext : nodes.exprs.Extends others.exprs)
    (h : nodes.isAssignableTo depth id = some true) :
    others.isAssignableTo depth id = some true := by
  induction depth generalizing id with
  | zero => exact nomatch h
  | succ depth ih =>
    have same : others.exprForm id = nodes.exprForm id := by
      cases hnode : nodes.exprs.get? id with
      | none => simp [isAssignableTo, exprForm, hnode] at h
      | some node => simp [exprForm, hnode, hext.get?_eq hnode]
    unfold isAssignableTo at h ⊢
    rw [same]
    generalize nodes.exprForm id = form at h
    cases form
    case tuple items =>
      exact mapM_all_eq_some.2 fun item hitem => ih (mapM_all_eq_some.1 h item hitem)
    case parenthesized inner => exact ih h
    all_goals exact h

/-- The last link of what an optional link stands in goes on from something. -/
lemma Opens.links (h : nodes.Opens id) : ∃ target, nodes.Links id target := by
  obtain ⟨link, hspine, node, hnode, hoptional⟩ := h
  obtain rfl | ⟨target, hlinks, -⟩ := hspine.cases_head
  · cases hform : node.form with
    | field target | call target | index target | trailingLambda target =>
      exact ⟨target, node, hnode, by rw [hform]; rfl⟩
    | _ =>
      rw [hform] at hoptional
      exact nomatch hoptional
  · exact ⟨target, hlinks⟩

/-- Where each optional chain has an optional link in it, what is found to be assignable is. -/
lemma assignable_of_isAssignableTo
    (hchain : ∀ id inner, (nodes.Has id fun form => form = .optionalChain inner) →
      nodes.Opens inner)
    (h : nodes.isAssignableTo depth id = some true) : nodes.Assignable id := by
  induction depth generalizing id with
  | zero => exact nomatch h
  | succ depth ih =>
    have place {form : ExprForm} (hform : nodes.exprForm id = form) (hne : form ≠ .error)
        (hplace : form.isPlace = true) : nodes.Assignable id := by
      obtain ⟨node, hnode, rfl⟩ := has_of_exprForm hform hne
      exact .place ⟨node, hnode, hplace⟩
    unfold isAssignableTo at h
    split at h
    case h_1 items hform =>
      exact .tuple (has_of_exprForm hform (by simp)) fun item hitem =>
        ih (mapM_all_eq_some.1 h item hitem)
    case h_2 inner hform => exact .parenthesized (has_of_exprForm hform (by simp)) (ih h)
    case h_7 inner hform =>
      have hid := has_of_exprForm hform (by simp)
      obtain ⟨target, hlinks⟩ := (hchain id inner hid).links
      exact .chain hid hlinks
    case h_3 hform => exact place hform (by simp) rfl
    case h_4 hform => exact place hform (by simp) rfl
    case h_5 hform => exact place hform (by simp) rfl
    case h_6 hform => exact place hform (by simp) rfl
    case h_8 => cases h

/-- The target of each assignment has been found to be assignable. -/
def Targeted (nodes : Nodes) : Prop :=
  ∀ id op target value, (nodes.Has id fun form => form = .assign op target value) →
    ∃ depth, nodes.isAssignableTo depth target = some true

lemma Targeted.of_exprs (h : nodes.Targeted) (e : others.exprs = nodes.exprs) :
    others.Targeted := by
  have hback : others.exprs.Extends nodes.exprs := e ▸ .refl _
  intro id op target value hid
  obtain ⟨depth, hfound⟩ := h id op target value (hid.grow hback)
  exact ⟨depth, isAssignableTo_grow (e ▸ .refl _) hfound⟩

/-- An expression may be added if it is no assignment, or one to an assignable target. -/
lemma Targeted.add {form : ExprForm} (h : nodes.Targeted) (span : Span)
    (hform : ∀ op target value, form = .assign op target value →
      ∃ depth, nodes.isAssignableTo depth target = some true) :
    (nodes.add (.expr ⟨form, span⟩)).Targeted := by
  have hext : nodes.exprs.Extends (nodes.exprs.push ⟨form, span⟩) := (Arena.Extends.refl _).push _
  rintro id op target value ⟨node, hnode, e⟩
  have hfound : ∃ depth, nodes.isAssignableTo depth target = some true := by
    obtain ⟨-, rfl⟩ | hold := get?_add_expr hnode
    · exact hform op target value e
    · exact h id op target value ⟨node, hold, e⟩
  obtain ⟨depth, hfound⟩ := hfound
  exact ⟨depth, isAssignableTo_grow hext hfound⟩

end Nodes

/-! ## Steps -/

/-- As long as a parse has met no fault, the targets of its assignments are assignable. -/
structure ParseState.Assigning (env : Env) (s : ParseState) : Prop where
  reachable : Reachable env s
  targeted : s.errorCount = 0 → s.nodes.Targeted

namespace ParseState.Assigning

lemma step (h : s.Assigning env) (hstep : Step env s t) (e : t.nodes.exprs = s.nodes.exprs) :
    t.Assigning env := by
  refine ⟨h.reachable.step hstep, fun clean => (h.targeted ?_).of_exprs e⟩
  exact Nat.eq_zero_of_le_zero (clean ▸ hstep.grows.errorCount)

lemma turn (h : s.Assigning env) (hturn : Turn env s t) (e : t.nodes.exprs = s.nodes.exprs) :
    t.Assigning env := by
  refine ⟨h.reachable.turn hturn, fun clean => (h.targeted ?_).of_exprs e⟩
  exact Nat.eq_zero_of_le_zero (clean ▸ (Builds.of_turn h.reachable.settled hturn).errorCount)

lemma alloc {form : ExprForm} (h : s.Assigning env) (span : Span)
    (hform : s.errorCount = 0 → ∀ op target value, form = .assign op target value →
      ∃ depth, s.nodes.isAssignableTo depth target = some true) :
    { s with nodes := s.nodes.add (.expr ⟨form, span⟩) : ParseState }.Assigning env :=
  ⟨h.reachable.step (.alloc s _), fun clean => (h.targeted clean).add span (hform clean)⟩

end ParseState.Assigning

namespace Invariant

/-- The states of a parse with such targets. -/
def assigning (env : Env) : Invariant env where
  holds s := s.Assigning env
  step h hstep e := h.step hstep e

lemma allows_assigning {form : ExprForm}
    (hform : ∀ op target value, form ≠ .assign op target value) : (assigning env).Allows form :=
  fun _ span h => h.alloc span fun _ op target value e => absurd e (hform op target value)

lemma settled_assigning (env : Env) : (assigning env).Settled where
  tentative h := h.reachable.settled
  turn h hturn e := h.turn hturn e
  plain _ hform := allows_assigning hform.2.2.2.2.1
  placeholder h _ := @allows_assigning env .error nofun _ _ h

end Invariant

/-! ## Rules -/

namespace Rule

section

variable {call : Call}
  (hcall : ∀ {α : Type} (g : Nonterminal α), Preserves (Invariant.assigning env) (call g))
  (hgoes : ∀ {α : Type} (g : Nonterminal α), GoesOn env (call g))

include hcall hgoes

/-- The value of an assignment is read, and the assignment built, behind a target that is assignable
if no fault has been met. -/
lemma ensures_value {g : Nonterminal ExprId} {op : AssignOp} (start : Nat) (hs : s.Assigning env)
    (htarget : s.errorCount = 0 → ∃ depth, s.nodes.isAssignableTo depth target = some true) :
    Ensures env s (do let value ← call g; exprFrom start (.assign op target value))
      fun _ t => (Invariant.assigning env).Reaches s t := by
  intro _ u e
  obtain ⟨value, t, hvalue, e⟩ := bind_eq_some.1 e
  cases e
  have ht := hcall g s hs value t hvalue
  have hbuilds := (hgoes g).ensures hs.reachable.settled value t hvalue
  refine ⟨ht.holds.alloc _ fun clean _ _ _ e => ?_, ht.exprs.push _⟩
  cases e
  obtain ⟨depth, hfound⟩ := htarget (Nat.eq_zero_of_le_zero (clean ▸ hbuilds.errorCount))
  exact ⟨depth, Nodes.isAssignableTo_grow ht.exprs hfound⟩

omit hcall hgoes in
lemma ensures_isAssignable : Ensures env s (isAssignable target) fun found t =>
    t = s ∧ s.nodes.isAssignableTo (target.index + 1) target = some found := by
  intro found t e
  obtain ⟨_, hfound, e⟩ := Option.map_eq_some_iff.1 e
  cases e
  exact ⟨rfl, hfound⟩

omit hcall hgoes in
lemma reaches_report (hs : s.Assigning env) (span : Span) (m : Message) (args : List String) :
    (Invariant.assigning env).Reaches s (s.report span m args)
      ∧ 0 < (s.report span m args).errorCount := by
  refine ⟨preserves_reportAt span m args s hs () _ rfl, ?_⟩
  rw [ParseState.errorCount_report hs.reachable.settled]
  exact Nat.succ_pos _

variable (hbinary : ∀ above, Preserves (Invariant.assigning env) (binary call above))

include hbinary

/-- A target that is not assignable is reported before the value is read. -/
lemma preserves_statement_assigning : Preserves (Invariant.assigning env) (statement call) := by
  have hI := Invariant.settled_assigning env
  refine fun s hs => .view ((hbinary _ s hs).bind fun target t ht => ?_)
  refine (preserves_operatorKind hI t ht.holds).bind fun k u hu => .mono (fun _ _ => ht.trans) ?_
  split
  · exact .pure hu
  refine (preserves_advance u hu.holds).bind fun _ v hv => ?_
  refine .mono (fun _ _ => (hu.trans hv).trans) (ensures_isAssignable.bind fun found w hfound => ?_)
  obtain ⟨rfl, hfound⟩ := hfound
  cases found with
  | true => exact ensures_value hcall hgoes s.start hv.holds fun _ => ⟨_, hfound⟩
  | false =>
    refine (preserves_find _ w hv.holds).bind fun span x hx => .reportAt ?_
    obtain ⟨hy, reported⟩ := reaches_report hx.holds span .invalidAssignmentTarget []
    refine .mono (fun _ _ => (hx.trans hy).trans) (ensures_value hcall hgoes s.start hy.holds ?_)
    exact fun clean => absurd clean (Nat.ne_of_gt reported)

/-- As a value, every assignment is reported. -/
lemma preserves_expression_assigning : Preserves (Invariant.assigning env) (expression call) := by
  have hI := Invariant.settled_assigning env
  refine fun s hs => .view ((hbinary _ s hs).bind fun target t ht => ?_)
  refine (preserves_operatorKind hI t ht.holds).bind fun k u hu => .mono (fun _ _ => ht.trans) ?_
  split
  · exact .pure hu
  refine .report ?_
  obtain ⟨hv, reported⟩ := reaches_report hu.holds u.lexer.span .assignmentOnlyAsStatement []
  have hadvance : Step env _ _ := .advance (u.report u.lexer.span .assignmentOnlyAsStatement [])
  have hw := preserves_advance _ hv.holds () _ rfl
  refine .mono (fun _ _ => ((hu.trans hv).trans hw).trans) ?_
  refine .advance (ensures_value hcall hgoes s.start hw.holds fun clean => absurd clean ?_)
  exact Nat.ne_of_gt (reported.trans_le hadvance.grows.errorCount)

end

/-- In every state of a parse, the targets of assignments are assignable if no fault has been met. -/
lemma preserves_assigning (nesting : Nat) {α : Type} (g : Nonterminal α) :
    Preserves (Invariant.assigning env) (callTo nesting g) := by
  have hI := Invariant.settled_assigning env
  have hform (form : ExprForm) (h : ∀ op target value, form ≠ .assign op target value) :
      (Invariant.assigning env).Allows form := Invariant.allows_assigning h
  refine preserves_callTo_of_assignments hI (fun form _ h _ _ => hform form h) ?_ ?_ ?_ nesting g
  · exact fun call htype => makes_nameExpr hI htype fun _ _ => hform _ nofun
  · exact fun nesting hcall => (makes_quote hI hcall fun _ => hform _ nofun).makesAt _
  · intro nesting hcall hbinary
    have hgoes {α : Type} (g : Nonterminal α) : GoesOn env (callTo nesting g) :=
      goesOn_callTo nesting g
    exact ⟨preserves_statement_assigning hcall hgoes hbinary,
      preserves_expression_assigning hcall hgoes hbinary⟩

end Rule

/-! ## Whole parses -/

/-- All targets of assignments are assignable. -/
def Nodes.Assigned (nodes : Nodes) : Prop :=
  ∀ id op target value, (nodes.Has id fun form => form = .assign op target value) →
    nodes.Assignable target

lemma Nodes.Targeted.assigned (h : nodes.Targeted)
    (hchain : ∀ id inner, (nodes.Has id fun form => form = .optionalChain inner) →
      nodes.Opens inner) : nodes.Assigned := by
  intro id op target value hid
  obtain ⟨depth, hfound⟩ := h id op target value hid
  exact assignable_of_isAssignableTo hchain hfound

/-- Where a parse of a text reports nothing, all targets of assignments are assignable. -/
theorem parse_assigns (bytes : ByteArray) (settings : Settings) :
    (∀ p, parseFile bytes settings = some p → p.diagnostics = #[] → p.tree.nodes.Assigned)
      ∧ ∀ offset p, parseExpression bytes offset settings = some p → p.diagnostics = #[] →
        p.nodes.Assigned := by
  have hI (src : Source) := Invariant.settled_assigning ⟨src, settings, true⟩
  have hcall (src : Source) (nesting : Nat) {α : Type} (g : Nonterminal α) :
      Preserves (Invariant.assigning ⟨src, settings, true⟩) (Rule.callTo nesting g) :=
    Rule.preserves_assigning nesting g
  have hempty : ({} : Nodes).Targeted := fun id op target value ⟨_, hnode, _⟩ => nomatch hnode
  refine ⟨fun p h hclean => ?_, fun offset p h hclean => ?_⟩
  · refine Nodes.Targeted.assigned ?_ (wrapped_of_parseFile h).chain
    obtain ⟨src, t, -, ht, hnodes, hlog⟩ | ⟨span, -, hlog⟩ :=
      Invariant.of_parseFile hI hcall h fun src _ => ⟨.file _, fun _ => hempty⟩
    · exact hnodes ▸ ht.targeted (ht.reachable.errorCount_eq_zero (hlog ▸ hclean))
    · exact absurd (hlog ▸ hclean) (settings.encodingFault_ne_empty span)
  · refine Nodes.Targeted.assigned ?_ (wrapped_of_parseExpression h).chain
    obtain ⟨src, t, -, ht, hnodes, hlog⟩ | ⟨span, -, hlog⟩ :=
      Invariant.of_parseExpression hI hcall h fun src _ _ => ⟨.expression _, fun _ => hempty⟩
    · exact hnodes ▸ ht.targeted (ht.reachable.errorCount_eq_zero (hlog ▸ hclean))
    · exact absurd (hlog ▸ hclean) (settings.encodingFault_ne_empty span)

/-- A call behind a question mark passes for a target, and one without does not. -/
example : (parseExpression "a?.f() = 1".toUTF8 0 {}).map (·.diagnostics.size) = some 0
    ∧ (parseExpression "a.f() = 1".toUTF8 0 {}).map (·.diagnostics.size) = some 1 := by
  decide +kernel

end CangjieSyntax
