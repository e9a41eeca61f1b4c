import CangjieSyntax.Proofs.Invariant.Grammar
import CangjieSyntax.Proofs.Parse

/-!
# Optional chains in trees

A question mark in front of a link makes an optional chain of all the links that are read in a row,
and one node is allocated around them behind the last one. Up to then an optional link has no chain
around it. What holds all along is that each optional link is on the spine of some chain, or of what
one of the chains under way has come to. Lists of arguments and the like are read inside a chain, so
that several chains are under way at a time.
-/

namespace CangjieSyntax

open ExprForm (IsLink IsPrimary)

variable {env : Env} {s t u : ParseState} {nodes others : Nodes} {pending : List ExprId}
  {id target operand : ExprId} {form : ExprForm} {isOptional : Bool}

/-! ## Chains in an arena -/

namespace ExprForm

/-- The expression is no optional chain. -/
def IsBare (form : ExprForm) : Prop :=
  ∀ inner, form ≠ .optionalChain inner

lemma isChained_of_isOptional (h : form.isOptional = true) : form.isChained = true := by
  cases form with
  | field | call | index | trailingLambda => rfl
  | _ => exact nomatch h

lemma target?_of_not_isChained (h : form.isChained = false) : form.target? = none := by
  cases form with
  | field | call | index | trailingLambda => exact nomatch h
  | _ => rfl

lemma IsPrimary.isBare (h : form.IsPrimary) : form.IsBare := by
  rintro inner rfl
  exact nomatch h.2.2.2.2

end ExprForm

namespace Nodes

variable {chain : ExprId}

/-- There is an optional link on the spine of an expression. -/
def Opens (nodes : Nodes) (id : ExprId) : Prop :=
  ∃ link, nodes.Spine id link ∧ nodes.Has link fun form => form.isOptional = true

/-- No link goes on from an optional chain, each optional chain has an optional link on its spine,
and each optional link is on the spine of an optional chain or of a pending expression. -/
structure Wrapped (nodes : Nodes) (pending : List ExprId) : Prop where
  target : ∀ id target, nodes.Links id target → nodes.Has target ExprForm.IsBare
  chain : ∀ id inner, (nodes.Has id fun form => form = .optionalChain inner) → nodes.Opens inner
  link : ∀ id, (nodes.Has id fun form => form.isOptional = true) →
    (∃ chain, nodes.Wraps chain id) ∨ ∃ operand ∈ pending, nodes.Spine operand id

/-! ### Growth -/

section

variable (hext : nodes.exprs.Extends others.exprs)

include hext

lemma Links.grow (h : nodes.Links id target) : others.Links id target := by
  obtain ⟨node, hnode, htarget⟩ := h
  exact ⟨node, hext.get?_eq hnode, htarget⟩

lemma Spine.grow (h : nodes.Spine id target) : others.Spine id target := by
  induction h with
  | refl => exact .refl
  | tail _ hlink ih => exact ih.tail (hlink.grow hext)

lemma Wraps.grow (h : nodes.Wraps chain id) : others.Wraps chain id := by
  obtain ⟨node, inner, hnode, hform, hspine⟩ := h
  exact ⟨node, inner, hext.get?_eq hnode, hform, Spine.grow hext hspine⟩

lemma Opens.grow (h : nodes.Opens id) : others.Opens id := by
  obtain ⟨link, hspine, hlink⟩ := h
  exact ⟨link, Spine.grow hext hspine, hlink.grow hext⟩

/-- New expressions put no optional link on the spine of one that was there before. -/
lemma Wrapped.opens_iff (h : nodes.Wrapped pending) {P : ExprForm → Prop} (hid : nodes.Has id P) :
    others.Opens id ↔ nodes.Opens id := by
  refine ⟨fun hopens => ?_, Opens.grow hext⟩
  obtain ⟨link, hspine, hlink⟩ := hopens
  have contains {id : ExprId} {P : ExprForm → Prop} (hid : nodes.Has id P) :
      nodes.Contains (.expr id) := by
    obtain ⟨node, hnode, -⟩ := hid
    exact ⟨.expr node, by rw [get?, hnode]; rfl⟩
  obtain ⟨hspine, _, hnode⟩ := hspine.restrict (fun _ _ => hext.get?_eq)
    (fun id target hlinks => contains (h.target id target hlinks)) (contains hid)
  obtain ⟨node, hnode, -⟩ := Option.map_eq_some_iff.1 hnode
  obtain ⟨_, hlink, hoptional⟩ := hlink
  cases (hext.get?_eq hnode).symm.trans hlink
  exact ⟨link, hspine, node, hnode, hoptional⟩

end

lemma Wrapped.of_exprs (h : nodes.Wrapped pending) (e : others.exprs = nodes.exprs) :
    others.Wrapped pending := by
  have hext : nodes.exprs.Extends others.exprs := e ▸ .refl _
  have hback : others.exprs.Extends nodes.exprs := e ▸ .refl _
  refine ⟨fun id target hlinks => ?_, fun id inner hid => ?_, fun id hid => ?_⟩
  · exact (h.target id target (hlinks.grow hback)).grow hext
  · exact (h.chain id inner (hid.grow hback)).grow hext
  · refine (h.link id (hid.grow hback)).imp ?_ ?_
    · exact fun ⟨chain, hwraps⟩ => ⟨chain, hwraps.grow hext⟩
    · exact fun ⟨operand, hmem, hspine⟩ => ⟨operand, hmem, Spine.grow hext hspine⟩

/-- What is pending may be so no longer if no optional link is on its spine. -/
lemma Wrapped.close (h : nodes.Wrapped (operand :: pending)) (hopens : ¬ nodes.Opens operand) :
    nodes.Wrapped pending := by
  refine ⟨h.target, h.chain, fun id hid => (h.link id hid).imp_right ?_⟩
  rintro ⟨other, hmem, hspine⟩
  obtain rfl | hmem := List.mem_cons.1 hmem
  · exact absurd ⟨id, hspine, hid⟩ hopens
  · exact ⟨other, hmem, hspine⟩

lemma Wrapped.push (h : nodes.Wrapped pending) (operand : ExprId) :
    nodes.Wrapped (operand :: pending) := by
  refine ⟨h.target, h.chain, fun id hid => (h.link id hid).imp_right ?_⟩
  exact fun ⟨other, hmem, hspine⟩ => ⟨other, List.mem_cons_of_mem _ hmem, hspine⟩

/-! ### One more expression -/

section

variable {span : Span} (h : nodes.Wrapped pending)

include h

/-- A new expression keeps to the rules if its own links do, and if what was pending is on the spine
of a chain, or of what is pending now. -/
lemma Wrapped.add {pending' : List ExprId}
    (htarget : ∀ target, form.target? = some target → nodes.Has target ExprForm.IsBare)
    (hchain : ∀ inner, form = .optionalChain inner → nodes.Opens inner)
    (hnew : form.isOptional = true → nodes.exprs.next ∈ pending')
    (hpending : ∀ operand ∈ pending, (∃ chain, (nodes.add (.expr ⟨form, span⟩)).Wraps chain operand)
      ∨ ∃ other ∈ pending', (nodes.add (.expr ⟨form, span⟩)).Spine other operand) :
    (nodes.add (.expr ⟨form, span⟩)).Wrapped pending' := by
  have hext := ((Extends.refl nodes).add (.expr ⟨form, span⟩)).exprs
  refine ⟨fun id target hlinks => ?_, fun id inner hid => ?_, fun id hid => ?_⟩
  · obtain ⟨node, hnode, hform⟩ := hlinks
    obtain ⟨-, rfl⟩ | hold := get?_add_expr hnode
    · exact (htarget target hform).grow hext
    · exact (h.target id target ⟨node, hold, hform⟩).grow hext
  · obtain ⟨node, hnode, hform⟩ := hid
    obtain ⟨-, rfl⟩ | hold := get?_add_expr hnode
    · exact (hchain inner hform).grow hext
    · exact (h.chain id inner ⟨node, hold, hform⟩).grow hext
  · obtain ⟨node, hnode, hform⟩ := hid
    obtain ⟨rfl, rfl⟩ | hold := get?_add_expr hnode
    · exact .inr ⟨_, hnew hform, .refl⟩
    · obtain ⟨chain, hwraps⟩ | ⟨operand, hmem, hspine⟩ := h.link id ⟨node, hold, hform⟩
      · exact .inl ⟨chain, hwraps.grow hext⟩
      · have hspine := Spine.grow hext hspine
        refine (hpending operand hmem).imp ?_ ?_
        · rintro ⟨chain, node, inner, hchain, hform, path⟩
          exact ⟨chain, node, inner, hchain, hform, path.trans hspine⟩
        · exact fun ⟨other, hother, path⟩ => ⟨other, hother, path.trans hspine⟩

lemma Wrapped.add_unchained (hform : form.isChained = false) :
    (nodes.add (.expr ⟨form, span⟩)).Wrapped pending := by
  apply h.add
  · exact fun target e => nomatch (ExprForm.target?_of_not_isChained hform).symm.trans e
  · rintro inner rfl
    exact nomatch hform
  · exact fun e => nomatch hform.symm.trans (ExprForm.isChained_of_isOptional e)
  · exact fun operand hmem => .inr ⟨operand, hmem, .refl⟩

end

section

variable {span : Span} (h : nodes.Wrapped (operand :: pending))

include h

/-- A link is pending in the place of what it goes on from. -/
lemma Wrapped.add_link (hform : form.IsLink operand isOptional)
    (hoperand : nodes.Has operand ExprForm.IsBare) :
    (nodes.add (.expr ⟨form, span⟩)).Wrapped (nodes.exprs.next :: pending) := by
  apply h.add
  · intro target e
    cases hform.1.symm.trans e
    exact hoperand
  · rintro inner rfl
    exact nomatch hform.1
  · exact fun _ => List.mem_cons_self
  · refine fun other hmem => .inr ?_
    obtain rfl | hmem := List.mem_cons.1 hmem
    · exact ⟨_, List.mem_cons_self, .single ⟨_, Arena.get?_push_next .., hform.1⟩⟩
    · exact ⟨other, List.mem_cons_of_mem _ hmem, .refl⟩

/-- An optional chain settles what is pending. -/
lemma Wrapped.add_chain (hopens : nodes.Opens operand) :
    (nodes.add (.expr ⟨.optionalChain operand, span⟩)).Wrapped pending := by
  apply h.add
  · exact fun target e => nomatch e
  · rintro inner ⟨⟩
    exact hopens
  · exact fun e => nomatch e
  · intro other hmem
    obtain rfl | hmem := List.mem_cons.1 hmem
    · exact .inl ⟨_, _, _, Arena.get?_push_next .., rfl, .refl⟩
    · exact .inr ⟨other, hmem, .refl⟩

/-- An optional link is on the spine of a new link if it is one, or if there was one before. -/
lemma Wrapped.opens_next (hform : form.IsLink operand isOptional)
    (hoperand : nodes.Has operand ExprForm.IsBare) :
    (nodes.add (.expr ⟨form, span⟩)).Opens nodes.exprs.next
      ↔ nodes.Opens operand ∨ isOptional = true := by
  have hext := ((Extends.refl nodes).add (.expr ⟨form, span⟩)).exprs
  have hnext : (nodes.add (.expr ⟨form, span⟩)).exprs.get? nodes.exprs.next = some ⟨form, span⟩ :=
    Arena.get?_push_next ..
  rw [← h.opens_iff hext hoperand]
  constructor
  · rintro ⟨link, hspine, node, hlink, hoptional⟩
    obtain rfl | ⟨c, ⟨_, hc, htarget⟩, hspine⟩ := hspine.cases_head
    · cases hnext.symm.trans hlink
      exact .inr (hform.2.symm.trans hoptional)
    · cases hnext.symm.trans hc
      cases hform.1.symm.trans htarget
      exact .inl ⟨link, hspine, node, hlink, hoptional⟩
  · rintro (⟨link, hspine, hlink⟩ | rfl)
    · exact ⟨link, .head ⟨_, hnext, hform.1⟩ hspine, hlink⟩
    · exact ⟨_, .refl, _, hnext, hform.2⟩

end

lemma not_opens_of_isPrimary (hid : nodes.Has id IsPrimary) : ¬ nodes.Opens id := by
  obtain ⟨node, hnode, hform⟩ := hid
  have hchained : node.form.isChained = false := hform.2.2.2.2
  rintro ⟨link, hspine, other, hlink, hoptional⟩
  obtain rfl | ⟨c, ⟨_, hc, htarget⟩, -⟩ := hspine.cases_head
  · cases hnode.symm.trans hlink
    exact nomatch hchained.symm.trans (ExprForm.isChained_of_isOptional hoptional)
  · cases hnode.symm.trans hc
    exact nomatch (ExprForm.target?_of_not_isChained hchained).symm.trans htarget

end Nodes

/-! ## Chains under way -/

/-- The states outside attempts in which chains are wrapped but for those under way. -/
def Invariant.wrapping (env : Env) (pending : List ExprId) : Invariant env where
  holds s := s.tentative = {} ∧ s.nodes.Wrapped pending
  step h hstep e := ⟨hstep.settled h.1, h.2.of_exprs e⟩

lemma Invariant.allows_wrapping (env : Env) (pending : List ExprId)
    (hform : form.isChained = false) : (Invariant.wrapping env pending).Allows form :=
  fun _ _ hs => ⟨hs.1, hs.2.add_unchained hform⟩

lemma Invariant.settled_wrapping (env : Env) (pending : List ExprId) :
    (Invariant.wrapping env pending).Settled where
  tentative h := h.1
  turn h hturn e := ⟨hturn.settled h.1, h.2.of_exprs e⟩
  plain _ hform := Invariant.allows_wrapping env pending hform.2.2.2.1
  placeholder h _ := Invariant.allows_wrapping env pending rfl _ _ h

namespace Rule

variable {call : Call} {state : ExprId × Bool} {start : Nat}

/-- The token behind a question mark is the next to be current. -/
lemma kind_advance {p : Punctuation} (hs : s.tentative = {})
    (hpeek : s.peek env.src = .mark p) : (s.advance env.src).kind = .mark p := by
  have hknown : (s.lexer.scan env.src).kind ≠ .unknown := by
    rw [show (s.lexer.scan env.src).kind = .mark p from hpeek]
    exact nofun
  have hsettled : (s.advance env.src).tentative = {} := (@Step.advance env s).settled hs
  obtain ⟨tentative, errorCount, muted, -, -, -, e⟩ := s.advance_eq env.src
  rw [ParseState.kind_of_settled hsettled, e]
  exact (Lexer.kind_scanKnown hknown).trans hpeek

/-- Behind a question mark that makes a link optional there is one. -/
lemma atOptionalLink_announces (call : Call) (operand : ExprId) (start : Nat)
    (hs : s.tentative = {}) : Ensures env s atOptionalLink fun isOptional t => t = s ∧
      (isOptional = true → link? call operand start true true (s.advance env.src).kind ≠ none) := by
  rintro _ _ ⟨⟩
  refine ⟨rfl, fun hoptional => ?_⟩
  obtain ⟨-, hlink⟩ := Bool.and_eq_true_iff.1 hoptional
  split at hlink
  case h_5 => exact nomatch hlink
  all_goals
    rename_i hpeek
    rw [kind_advance hs hpeek]
    exact Option.some_ne_none _

/-- What a chain has come to, and whether an optional link is among its links so far. All chains are
wrapped but for the pending ones and this one. -/
structure Chaining (env : Env) (pending : List ExprId) (s : ParseState) (state : ExprId × Bool)
    (t : ParseState) : Prop where
  reaches : (Invariant.wrapping env (state.1 :: pending)).Reaches s t
  bare : t.nodes.Has state.1 ExprForm.IsBare
  opens : t.nodes.Opens state.1 ↔ state.2 = true

/-- What is read inside a chain leaves it as it is. -/
lemma Chaining.trans (h : Chaining env pending s state t)
    (hreaches : (Invariant.wrapping env (state.1 :: pending)).Reaches t u) :
    Chaining env pending s state u :=
  ⟨h.reaches.trans hreaches, hreaches.has h.bare,
    (h.reaches.holds.2.opens_iff hreaches.exprs h.bare).trans h.opens⟩

section

variable (hcall : ∀ (pending : List ExprId) {α : Type} (g : Nonterminal α),
    Preserves (Invariant.wrapping env pending) (call g))
  (htype : ∀ K : Invariant env, Preserves K (call .type))

include hcall htype

/-- A link goes on from what a chain has come to. -/
lemma ensures_link? {sameLine : Bool} {k : Kind} {r : Rule ExprId}
    (h : Chaining env pending s state t)
    (hlink : link? call state.1 start isOptional sameLine k = some r) :
    Ensures env t r fun id u => Chaining env pending s (id, state.2 || isOptional) u := by
  have hI := Invariant.settled_wrapping env (state.1 :: pending)
  have hbuilds := builds_link? hI (hcall _) htype state.1 start isOptional hlink
  refine (hbuilds t h.reaches.holds).mono fun id u hu => ?_
  obtain ⟨v, ⟨form, span⟩, hv, hform, rfl, rfl⟩ := hu
  obtain ⟨hreaches, hbare, hopens⟩ := h.trans hv
  obtain ⟨⟨hsettled, hwrapped⟩, hexprs⟩ := hreaches
  refine ⟨⟨⟨hsettled, hwrapped.add_link hform hbare⟩, hexprs.push _⟩, ?_, ?_⟩
  · refine ⟨_, Arena.get?_push_next .., ?_⟩
    rintro inner rfl
    exact nomatch hform.1
  · rw [hwrapped.opens_next hform hbare, hopens, Bool.or_eq_true]

/-- A round of a chain goes on by a link, or ends the chain. -/
lemma ensures_chaining (h : Chaining env pending s state t) :
    Ensures env t (chainRound call start state)
      (Sum.elim (Chaining env pending s) fun _ => (Invariant.wrapping env pending).Reaches s) := by
  obtain ⟨operand, hasOptional⟩ := state
  have hoptional := @atOptionalLink_announces env t call operand start h.reaches.holds.1
  refine hoptional.bind fun isOptional t' ⟨e, hnext⟩ => ?_
  subst e
  extract_lets whole rest
  have hrest (u : ParseState) (hu : Chaining env pending s (operand, hasOptional) u)
      (hnext : isOptional = true → link? call operand start true true u.kind ≠ none) :
      Ensures env u (rest ())
        (Sum.elim (Chaining env pending s) fun _ => (Invariant.wrapping env pending).Reaches s) := by
    refine .view (.view ?_)
    split
    case h_1 r hr => exact (ensures_link? hcall htype hu hr).bind fun id v hv => .pure hv
    case h_2 hnone =>
      have hplain : isOptional = false := by
        cases isOptional with
        | false => rfl
        | true => exact absurd hnone (hnext rfl)
      obtain ⟨⟨⟨hsettled, hwrapped⟩, hexprs⟩, -, hopens⟩ := hu
      have hflag : whole = hasOptional :=
        (congrArg (hasOptional || ·) hplain).trans (Bool.or_false hasOptional)
      split
      case isTrue hwhole =>
        rintro _ _ ⟨⟩
        have hlinked := hopens.2 (hflag.symm.trans hwhole)
        exact ⟨⟨hsettled, hwrapped.add_chain hlinked⟩, hexprs.push _⟩
      case isFalse hwhole =>
        have hunlinked := fun hlinked => hwhole (hflag.trans (hopens.1 hlinked))
        exact .pure ⟨⟨hsettled, hwrapped.close hunlinked⟩, hexprs⟩
  clear_value rest
  split
  case isTrue hoptional =>
    exact .advance (hrest _ (h.trans (preserves_advance t' h.reaches.holds () _ rfl)) hnext)
  case isFalse hno => exact hrest t' h fun hoptional => absurd hoptional hno

/-- Chains are wrapped as soon as they are read. -/
lemma preserves_chain_wrapping (pending : List ExprId) :
    Preserves (Invariant.wrapping env pending) (chain call) := by
  have hI := Invariant.settled_wrapping env pending
  have hname := makes_nameExpr hI htype fun name typeArgs =>
    @Invariant.allows_wrapping (.identifier name typeArgs) env pending rfl
  have hquote := makes_quote hI (hcall _) fun parts =>
    @Invariant.allows_wrapping (.quote parts) env pending rfl
  have hprimary := makes_primary hI (hcall _) htype hname (hquote.makesAt _)
  intro s hs
  refine .view ((hprimary s hs).bind fun operand t ht => ?_)
  obtain ⟨hreaches, hprimary⟩ := ht
  refine Ensures.loop_invariant (fun state t ht => ensures_chaining hcall htype ht) ⟨?_, ?_, ?_⟩
  · exact ⟨⟨hreaches.holds.1, hreaches.holds.2.push operand⟩, hreaches.exprs⟩
  · obtain ⟨node, hnode, hform⟩ := hprimary
    exact ⟨node, hnode, hform.isBare⟩
  · simp [Nodes.not_opens_of_isPrimary hprimary]

lemma preserves_binary_wrapping (pending : List ExprId) (above : Nat) :
    Preserves (Invariant.wrapping env pending) (binary call above) :=
  preserves_binary (Invariant.settled_wrapping env pending) (hcall pending) htype
    (fun _ _ => Invariant.allows_wrapping env pending rfl)
    (fun _ _ _ => Invariant.allows_wrapping env pending rfl)
    (preserves_chain_wrapping hcall htype pending) above

end

/-- All rules keep chains wrapped, whatever chains are under way. -/
lemma preserves_wrapping {α : Type} (nesting : Nat) (pending : List ExprId) (g : Nonterminal α) :
    Preserves (Invariant.wrapping env pending) (callTo nesting g) := by
  induction nesting generalizing α pending with
  | zero => exact .endless
  | succ nesting ih =>
    have hI := Invariant.settled_wrapping env pending
    have hcall (pending : List ExprId) {α : Type} (g : Nonterminal α) :
        Preserves (Invariant.wrapping env pending) (callTo nesting g) := ih pending g
    have htype (K : Invariant env) : Preserves K (callTo nesting .type) :=
      preserves_callTo_type nesting K
    have hunary := preserves_unary hI (hcall pending)
      (fun _ _ => Invariant.allows_wrapping env pending rfl)
      (preserves_chain_wrapping hcall htype pending)
    have hassign (op : AssignOp) (target value : ExprId) :
        (Invariant.wrapping env pending).Allows (.assign op target value) :=
      Invariant.allows_wrapping env pending rfl
    have hbinary := preserves_binary_wrapping hcall htype pending
    exact preserves_ofNonterminal hI (hcall pending) htype
      (preserves_statement hI (hcall pending) hassign hbinary)
      (preserves_expression hI (hcall pending) hassign hbinary) hbinary hunary g

end Rule

/-! ## Whole parses -/

/-- Below some roots, every optional link is on the spine of one optional chain, which is reached as
well, and there is no other chain around it. Each optional chain has an optional link on its spine,
and no link goes on from an optional chain, wherever they are. -/
structure Nodes.Chained (nodes : Nodes) (roots : Multiset NodeRef) : Prop where
  one_chain : ∀ id, nodes.Reaches roots (.expr id) →
    (nodes.Has id fun form => form.isOptional = true) → ∃ chain,
      nodes.Reaches roots (.expr chain) ∧ nodes.Wraps chain id
        ∧ ∀ other, nodes.Wraps other id → other = chain
  opens : ∀ id inner, (nodes.Has id fun form => form = .optionalChain inner) → nodes.Opens inner
  bare : ∀ id target, nodes.Links id target → nodes.Has target ExprForm.IsBare

/-- Where nothing is pending, the chains below what is held are as they should be. -/
lemma Nodes.Wrapped.chained {excused : Prop} {held : Multiset Part} (h : nodes.Wrapped [])
    (hold : Holds nodes excused held) : nodes.Chained (refs held) := by
  refine ⟨fun id hreaches hid => ?_, h.chain, h.target⟩
  obtain ⟨chain, hwraps⟩ | ⟨_, hmem, -⟩ := h.link id hid
  · obtain ⟨hchain, honce⟩ := hold.accounts.wraps_once hreaches hwraps
    exact ⟨chain, hchain, hwraps, honce⟩
  · exact nomatch hmem

lemma Nodes.Wrapped.empty : ({} : Nodes).Wrapped [] := by
  have none (id : ExprId) : ({} : Nodes).exprs.get? id = none := rfl
  refine ⟨fun id target hlinks => ?_, fun id inner hid => ?_, fun id hid => ?_⟩
  · obtain ⟨node, hnode, -⟩ := hlinks
    exact nomatch (none id).symm.trans hnode
  · obtain ⟨node, hnode, -⟩ := hid
    exact nomatch (none id).symm.trans hnode
  · obtain ⟨node, hnode, -⟩ := hid
    exact nomatch (none id).symm.trans hnode

section

variable {bytes : ByteArray} {settings : Settings}

/-- At the end of a parse no chain is under way. -/
lemma wrapped_of_parseFile {p : FileParse} (h : parseFile bytes settings = some p) :
    p.tree.nodes.Wrapped [] := by
  have hI (src : Source) := Invariant.settled_wrapping ⟨src, settings, true⟩ []
  have hcall (src : Source) (nesting : Nat) {α : Type} (g : Nonterminal α) :
      Preserves (Invariant.wrapping ⟨src, settings, true⟩ []) (Rule.callTo nesting g) :=
    Rule.preserves_wrapping nesting [] g
  obtain ⟨src, t, -, ht, hnodes, -⟩ | ⟨span, hnodes, -⟩ :=
    Invariant.of_parseFile hI hcall h fun _ _ => ⟨rfl, .empty⟩
  · exact hnodes ▸ ht.2
  · exact hnodes ▸ .empty

lemma wrapped_of_parseExpression {offset : Nat} {p : ExprParse}
    (h : parseExpression bytes offset settings = some p) : p.nodes.Wrapped [] := by
  have hI (src : Source) := Invariant.settled_wrapping ⟨src, settings, true⟩ []
  have hcall (src : Source) (nesting : Nat) {α : Type} (g : Nonterminal α) :
      Preserves (Invariant.wrapping ⟨src, settings, true⟩ []) (Rule.callTo nesting g) :=
    Rule.preserves_wrapping nesting [] g
  obtain ⟨src, t, -, ht, hnodes, -⟩ | ⟨span, hnodes, -⟩ :=
    Invariant.of_parseExpression hI hcall h fun _ _ _ => ⟨rfl, .empty⟩
  · exact hnodes ▸ ht.2
  · exact hnodes ▸ Nodes.Wrapped.empty.add_unchained rfl

end

/-- In every result, of any text and with any settings, each optional link that is reached is on the
spine of exactly one optional chain, each optional chain has an optional link on its spine, and no
chain is the target or the callee of a link. -/
theorem parse_chained (bytes : ByteArray) (settings : Settings) :
    (∀ p, parseFile bytes settings = some p → p.tree.nodes.Chained p.tree.roots)
      ∧ ∀ offset p, parseExpression bytes offset settings = some p →
        p.nodes.Chained {.expr p.expr} := by
  refine ⟨fun p h => ?_, fun offset p h => ?_⟩
  · have hold : Holds p.tree.nodes (p.diagnostics ≠ #[]) (parts p.tree) := by
      obtain ⟨⟨_, names⟩, hinto, rfl⟩ := Option.map_eq_some_iff.1 h
      exact holds_parseFileInto hinto
    rw [← refs_tree]
    exact (wrapped_of_parseFile h).chained hold
  · exact (wrapped_of_parseExpression h).chained (holds_parseExpression h)

/-- A chain inside the arguments of another one, and a chain that breaks off inside an element. -/
theorem parse_chained_of_nested :
    (∃ p, parseFile "let x = a?.b(c?[d].e, f) \x7b => (g?.h).i \x7d".toUTF8 {} = some p
      ∧ p.diagnostics = #[] ∧ p.tree.nodes.Chained p.tree.roots)
      ∧ ∃ p, parseExpression "a.b?(c)[d?.".toUTF8 0 {} = some p
        ∧ (p.diagnostics.size, p.expr) = (1, ⟨8⟩) ∧ p.nodes.Chained {.expr p.expr} := by
  have file : (parseFile "let x = a?.b(c?[d].e, f) \x7b => (g?.h).i \x7d".toUTF8 {}).map
      (fun p => p.diagnostics.size) = some 0 := by decide +kernel
  have expression : (parseExpression "a.b?(c)[d?.".toUTF8 0 {}).map
      (fun p => (p.diagnostics.size, p.expr)) = some (1, ⟨8⟩) := by decide +kernel
  obtain ⟨p, hp, size⟩ := Option.map_eq_some_iff.1 file
  obtain ⟨q, hq, fault⟩ := Option.map_eq_some_iff.1 expression
  have clean := Array.eq_empty_of_size_eq_zero size
  exact ⟨⟨p, hp, clean, (parse_chained _ _).1 p hp⟩, q, hq, fault, (parse_chained _ _).2 0 q hq⟩

end CangjieSyntax
