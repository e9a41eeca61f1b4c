import CangjieSyntax.Proofs.Tree.Parts

/-!
# Forests

The nodes below some roots form a forest if every child has its node, children of one sort lie in
front of their parents, and every node that is reached is mentioned just once, by the roots or by a
node that is reached as well. `Accounts` is the invariant behind it: a set of live nodes such that
the roots and the children of all live nodes together are the live nodes, each of them once. It
holds for the roots side by side, so that it can be kept while a tree is built from below.

Live are also all optional chains around live links. No node takes a link away from its chain, so
that whatever chain there is around a link that is reached is reached as well.
-/

namespace CangjieSyntax

namespace NodeRef

/-- The sort of the node at a place. -/
def sort : NodeRef → NodeSort
  | expr _ => .expr
  | type _ => .type
  | pattern _ => .pattern
  | decl _ => .decl

/-- The number of a place among those of its sort. -/
def index : NodeRef → Nat
  | expr id => id.index
  | type id => id.index
  | pattern id => id.index
  | decl id => id.index

end NodeRef

lemma mem_refs {ps : Multiset Part} {r : NodeRef} : r ∈ refs ps ↔ .node r ∈ ps := by
  rw [refs, Multiset.mem_filterMap]
  constructor
  · rintro ⟨p, hp, e⟩
    cases p <;> cases e
    exact hp
  · intro h
    exact ⟨.node r, h, rfl⟩

namespace ExprForm

/-- What a link goes on from: its target or its callee. -/
def target? : ExprForm → Option ExprId
  | .field target .. | .index target .. => some target
  | .call callee .. | .trailingLambda callee .. => some callee
  | _ => none

lemma mem_parts_of_target? {form : ExprForm} {target : ExprId} (h : form.target? = some target) :
    .node (.expr target) ∈ parts form := by
  cases form with
  | field | call | index | trailingLambda =>
    cases h
    simp [parts]
  | _ => exact nomatch h

end ExprForm

namespace Nodes

/-- The node at a place. -/
def get? (nodes : Nodes) : NodeRef → Option Node
  | .expr id => (nodes.exprs.get? id).map .expr
  | .type id => (nodes.types.get? id).map .type
  | .pattern id => (nodes.patterns.get? id).map .pattern
  | .decl id => (nodes.decls.get? id).map .decl

/-- Whether there is a node at a place. -/
def Contains (nodes : Nodes) (r : NodeRef) : Prop :=
  ∃ node, nodes.get? r = some node

/-- The places that the node at a place mentions, with multiplicity. -/
def children (nodes : Nodes) (r : NodeRef) : Multiset NodeRef :=
  (nodes.get? r).elim 0 fun node => refs (parts node)

/-- The place that a node gets when it is allocated. -/
def nextRef (nodes : Nodes) : Node → NodeRef
  | .expr _ => .expr nodes.exprs.next
  | .type _ => .type nodes.types.next
  | .pattern _ => .pattern nodes.patterns.next
  | .decl _ => .decl nodes.decls.next

/-- The nodes with one more. -/
def add (nodes : Nodes) : Node → Nodes
  | .expr node => { nodes with exprs := nodes.exprs.push node }
  | .type node => { nodes with types := nodes.types.push node }
  | .pattern node => { nodes with patterns := nodes.patterns.push node }
  | .decl node => { nodes with decls := nodes.decls.push node }

/-- The expression at a place is a link that goes on from another one. -/
def Links (nodes : Nodes) (id target : ExprId) : Prop :=
  ∃ node, nodes.exprs.get? id = some node ∧ node.form.target? = some target

/-- The places from one down along the targets and callees of links. -/
abbrev Spine (nodes : Nodes) : ExprId → ExprId → Prop :=
  Relation.ReflTransGen nodes.Links

/-- An optional chain has an expression on its spine. -/
def Wraps (nodes : Nodes) (chain id : ExprId) : Prop :=
  ∃ node inner, nodes.exprs.get? chain = some node ∧ node.form = .optionalChain inner
    ∧ nodes.Spine inner id

/-- One place lies below another one, or is the same. -/
abbrev Below (nodes : Nodes) : NodeRef → NodeRef → Prop :=
  Relation.ReflTransGen fun p c => c ∈ nodes.children p

variable {nodes : Nodes} {node : Node} {r c : NodeRef} {roots : Multiset NodeRef}
  {chain id target : ExprId}

lemma children_of_get? (h : nodes.get? r = some node) : nodes.children r = refs (parts node) := by
  rw [children, h, Option.elim_some]

lemma contains_of_mem_children (h : c ∈ nodes.children r) : nodes.Contains r := by
  cases e : nodes.get? r with
  | none => simp [children, e] at h
  | some node => exact ⟨node, e⟩

/-! ## One more node -/

lemma get?_add_nextRef : (nodes.add node).get? (nodes.nextRef node) = some node := by
  cases node <;> simp [add, nextRef, get?]

lemma get?_nextRef : nodes.get? (nodes.nextRef node) = none := by
  cases node <;> simp [nextRef, get?, Arena.get?, Arena.next, Arena.size]

/-- A new node leaves all others as they are. -/
lemma get?_add_of_get? {other : Node} (h : nodes.get? r = some other) :
    (nodes.add node).get? r = some other := by
  have old {s : NodeSort} {α : Type} {a : Arena s α} {id : NodeId s} {x y : α}
      (hx : a.get? id = some x) : (a.push y).get? id = some x := by
    rw [Arena.get?_push_of_lt, hx]
    rw [Arena.get?, Array.getElem?_eq_some_iff] at hx
    exact hx.1
  cases node <;> cases r <;> simp only [add, get?, Option.map_eq_some_iff] at h ⊢
  all_goals
    obtain ⟨x, hx, rfl⟩ := h
    first
      | exact ⟨x, hx, rfl⟩
      | exact ⟨x, old hx, rfl⟩

lemma get?_exprs_add {old : ExprNode} (h : nodes.exprs.get? id = some old) :
    (nodes.add node).exprs.get? id = some old := by
  have hold : nodes.get? (.expr id) = some (.expr old) := by
    rw [get?, h]
    rfl
  obtain ⟨_, hadd, e⟩ := Option.map_eq_some_iff.1 (get?_add_of_get? hold)
  cases e
  exact hadd

/-- What is there behind a new node is the node itself or was there before. -/
lemma get?_add {other : Node} (h : (nodes.add node).get? r = some other) :
    (r = nodes.nextRef node ∧ other = node) ∨ nodes.get? r = some other := by
  have old {s : NodeSort} {α : Type} {a : Arena s α} {id : NodeId s} {x y : α}
      (hx : (a.push y).get? id = some x) : (id = a.next ∧ x = y) ∨ a.get? id = some x := by
    rw [Arena.get?, Arena.push, Array.getElem?_push] at hx
    split at hx
    case isTrue e =>
      left
      cases id
      exact ⟨congrArg NodeId.mk e, (Option.some.inj hx).symm⟩
    case isFalse => exact .inr hx
  cases node <;> cases r <;> simp only [add, nextRef, get?, Option.map_eq_some_iff] at h ⊢
  all_goals
    obtain ⟨x, hx, rfl⟩ := h
    first
      | exact .inr ⟨x, hx, rfl⟩
      | obtain ⟨rfl, rfl⟩ | hx := old hx
        · exact .inl ⟨rfl, rfl⟩
        · exact .inr ⟨x, hx, rfl⟩

lemma Contains.add (h : nodes.Contains r) : (nodes.add node).Contains r := by
  obtain ⟨other, h⟩ := h
  exact ⟨other, get?_add_of_get? h⟩

lemma children_add (h : nodes.Contains r) : (nodes.add node).children r = nodes.children r := by
  obtain ⟨other, h⟩ := h
  rw [children_of_get? h, children_of_get? (get?_add_of_get? h)]

lemma nextRef_above (h : nodes.Contains c) (e : c.sort = (nodes.nextRef node).sort) :
    c.index < (nodes.nextRef node).index := by
  have below {s : NodeSort} {α : Type} {a : Arena s α} {id : NodeId s} {x : α}
      (hx : a.get? id = some x) : id.index < a.next.index := by
    rw [Arena.get?, Array.getElem?_eq_some_iff] at hx
    exact hx.1
  obtain ⟨other, h⟩ := h
  cases node <;> cases c <;> cases e
  all_goals
    simp only [get?, Option.map_eq_some_iff] at h
    obtain ⟨x, hx, rfl⟩ := h
    exact below hx

/-! ## Spines -/

lemma mem_children_expr {expr : ExprNode} (h : nodes.exprs.get? id = some expr)
    (hpart : .node r ∈ parts expr.form) : r ∈ nodes.children (.expr id) := by
  have hnode : nodes.get? (.expr id) = some (.expr expr) := by
    rw [get?, h]
    rfl
  rw [children_of_get? hnode]
  exact mem_refs.2 hpart

lemma Links.mem_children (h : nodes.Links id target) :
    .expr target ∈ nodes.children (.expr id) := by
  obtain ⟨expr, hexpr, htarget⟩ := h
  exact mem_children_expr hexpr (ExprForm.mem_parts_of_target? htarget)

lemma Spine.below (h : nodes.Spine id target) : nodes.Below (.expr id) (.expr target) := by
  induction h with
  | refl => exact .refl
  | tail _ hlink ih => exact ih.tail hlink.mem_children

/-- A chain holds the last link on its spine, which all others lie below. -/
lemma Wraps.exists_inner (h : nodes.Wraps chain id) :
    ∃ inner, .expr inner ∈ nodes.children (.expr chain) ∧ nodes.Spine inner id := by
  obtain ⟨expr, inner, hexpr, hform, hspine⟩ := h
  refine ⟨inner, mem_children_expr hexpr ?_, hspine⟩
  rw [hform]
  simp [parts]

/-- The spine down from a place that is there is not changed by new nodes. -/
lemma Spine.restrict {others : Nodes}
    (hagree : ∀ id node, nodes.exprs.get? id = some node → others.exprs.get? id = some node)
    (htargets : ∀ id target, nodes.Links id target → nodes.Contains (.expr target))
    (hid : nodes.Contains (.expr id)) (h : others.Spine id target) :
    nodes.Spine id target ∧ nodes.Contains (.expr target) := by
  induction h using Relation.ReflTransGen.head_induction_on with
  | refl => exact ⟨.refl, hid⟩
  | @head id next hlink _ ih =>
    have hlink : nodes.Links id next := by
      obtain ⟨node, hnode, htarget⟩ := hlink
      obtain ⟨_, hold⟩ := hid
      obtain ⟨old, hold, -⟩ := Option.map_eq_some_iff.1 hold
      cases (hagree id old hold).symm.trans hnode
      exact ⟨node, hold, htarget⟩
    exact (ih (htargets id next hlink)).imp_left (.head hlink)

section

variable (hcontains : ∀ r, ∀ c ∈ nodes.children r, nodes.Contains c)

include hcontains

lemma Contains.of_below (h : nodes.Contains r) (path : nodes.Below r c) : nodes.Contains c := by
  induction path with
  | refl => exact h
  | tail _ hc => exact hcontains _ _ hc

lemma Wraps.contains (h : nodes.Wraps chain id) : nodes.Contains (.expr id) := by
  obtain ⟨inner, hinner, hspine⟩ := h.exists_inner
  exact (hcontains _ _ hinner).of_below hcontains (Spine.below hspine)

/-- A chain behind a new node is the new one, or was there before. -/
lemma Wraps.of_add (h : (nodes.add node).Wraps chain id) :
    .expr chain = nodes.nextRef node ∨ nodes.Wraps chain id := by
  obtain ⟨expr, inner, hexpr, hform, hspine⟩ := h
  have hadd : (nodes.add node).get? (.expr chain) = some (.expr expr) := by
    rw [get?, hexpr]
    rfl
  refine (get?_add hadd).imp And.left fun hold => ?_
  obtain ⟨old, hold, e⟩ := Option.map_eq_some_iff.1 hold
  cases e
  have hinner : .expr inner ∈ nodes.children (.expr chain) := by
    refine mem_children_expr hold ?_
    rw [hform]
    simp [parts]
  have hspine := hspine.restrict (fun _ _ => get?_exprs_add)
    (fun _ _ hlink => hcontains _ _ hlink.mem_children) (hcontains _ _ hinner)
  exact ⟨expr, inner, hold, hform, hspine.1⟩

end

/-! ## Live nodes -/

/-- The mentioned places head separate trees: there are live nodes such that the mentioned places
and the children of all live nodes together are the live nodes, each of them once. Chains around
live nodes are live. -/
def Accounts (nodes : Nodes) (mentioned : Multiset NodeRef) : Prop :=
  ∃ live : Multiset NodeRef,
    live.Nodup ∧ (∀ r ∈ live, nodes.Contains r) ∧ mentioned + live.bind nodes.children = live
      ∧ ∀ chain id, nodes.Wraps chain id → .expr id ∈ live → .expr chain ∈ live

lemma Accounts.zero : nodes.Accounts 0 :=
  ⟨0, Multiset.nodup_zero, by simp, by simp, by simp⟩

lemma Accounts.contains (h : nodes.Accounts roots) (hr : r ∈ roots) : nodes.Contains r := by
  obtain ⟨live, -, hlive, e, -⟩ := h
  apply hlive
  rw [← e]
  exact Multiset.mem_add.2 (.inl hr)

/-- The children of a head can take its place, unless it is a chain. -/
lemma Accounts.uncover (hr : ∀ chain id, nodes.Wraps chain id → .expr chain ≠ r)
    (h : nodes.Accounts (r ::ₘ roots)) : nodes.Accounts (nodes.children r + roots) := by
  obtain ⟨live, hnodup, hlive, e, hchains⟩ := h
  have hmem : r ∈ live := by
    rw [← e]
    simp
  obtain ⟨rest, rfl⟩ := Multiset.exists_cons_of_mem hmem
  refine ⟨rest, (Multiset.nodup_cons.1 hnodup).2, fun q hq => hlive q (by simp [hq]), ?_, ?_⟩
  · rw [Multiset.cons_bind, Multiset.cons_add, Multiset.cons_inj_right] at e
    rw [← add_assoc, add_comm roots] at e
    exact e
  · intro chain id hwraps hid
    have hlive := hchains chain id hwraps (Multiset.mem_cons_of_mem hid)
    exact (Multiset.mem_cons.1 hlive).resolve_left (hr chain id hwraps)

/-- A head can be given up together with the tree below it. -/
lemma Accounts.drop {given : Multiset NodeRef} (h : nodes.Accounts (given + roots)) :
    nodes.Accounts roots := by
  obtain ⟨live, hnodup, hlive, e, hchains⟩ := h
  -- while the tree is given up, a link below its head may be live without the chain around it
  replace hchains : ∀ chain id, nodes.Wraps chain id → .expr id ∈ live →
      (∀ q ∈ given, ¬ nodes.Below q (.expr id)) → .expr chain ∈ live :=
    fun chain id hwraps hid _ => hchains chain id hwraps hid
  -- each step gives up one live node, so that the number of live nodes bounds the steps
  induction hn : Multiset.card live using Nat.strong_induction_on generalizing given live with
  | _ n ih =>
    rcases Multiset.empty_or_exists_mem given with rfl | ⟨r, hr⟩
    · rw [zero_add] at e
      refine ⟨live, hnodup, hlive, e, fun chain id hwraps hid => ?_⟩
      exact hchains chain id hwraps hid fun q hq => absurd hq (Multiset.notMem_zero q)
    · obtain ⟨given, rfl⟩ := Multiset.exists_cons_of_mem hr
      have hr : r ∈ live := by
        rw [← e]
        simp
      obtain ⟨rest, rfl⟩ := Multiset.exists_cons_of_mem hr
      rw [Multiset.cons_bind, Multiset.cons_add, Multiset.cons_add, Multiset.cons_inj_right] at e
      have e' : nodes.children r + given + roots + rest.bind nodes.children = rest :=
        calc nodes.children r + given + roots + rest.bind nodes.children
            = given + roots + (nodes.children r + rest.bind nodes.children) := by ac_rfl
          _ = rest := e
      refine ih (Multiset.card rest) ?_ rest (Multiset.nodup_cons.1 hnodup).2
        (fun q hq => hlive q (by simp [hq])) e' ?_ rfl
      · rw [← hn, Multiset.card_cons]
        exact Nat.lt_succ_self _
      · intro chain id hwraps hid hbelow
        have hr : ¬ nodes.Below r (.expr id) := by
          intro path
          obtain rfl | ⟨c, hc, path⟩ := path.cases_head
          · exact (Multiset.nodup_cons.1 hnodup).1 hid
          · exact hbelow c (by simp [hc]) path
        have hchain := hchains chain id hwraps (Multiset.mem_cons_of_mem hid) fun q hq => by
          obtain rfl | hq := Multiset.mem_cons.1 hq
          · exact hr
          · exact hbelow q (by simp [hq])
        obtain ⟨inner, hinner, hspine⟩ := hwraps.exists_inner
        refine (Multiset.mem_cons.1 hchain).resolve_left fun e => hr ?_
        exact .head (e ▸ hinner) (Spine.below hspine)

/-- A new node takes the place of its children. -/
lemma Accounts.add (hcontains : ∀ r, ∀ c ∈ nodes.children r, nodes.Contains c)
    (h : nodes.Accounts (refs (parts node) + roots)) :
    (nodes.add node).Accounts (nodes.nextRef node ::ₘ roots) := by
  obtain ⟨live, hnodup, hlive, e, hchains⟩ := h
  -- No node stands at the new place, so that it is not among the live ones.
  have hnew : nodes.nextRef node ∉ live := by
    intro hmem
    obtain ⟨other, h⟩ := hlive _ hmem
    simp [get?_nextRef] at h
  have hsame : live.bind (nodes.add node).children = live.bind nodes.children :=
    Multiset.bind_congr fun r hr => children_add (hlive r hr)
  refine ⟨nodes.nextRef node ::ₘ live, Multiset.nodup_cons.2 ⟨hnew, hnodup⟩, ?_, ?_, ?_⟩
  · intro r hr
    rcases Multiset.mem_cons.1 hr with rfl | hr
    · exact ⟨node, get?_add_nextRef⟩
    · exact (hlive r hr).add
  · rw [Multiset.cons_bind, hsame, children_of_get? get?_add_nextRef, Multiset.cons_add,
      Multiset.cons_inj_right]
    rw [← add_assoc, add_comm roots]
    exact e
  · intro chain id hwraps hid
    obtain hchain | hwraps := hwraps.of_add hcontains
    · exact Multiset.mem_cons.2 (.inl hchain)
    · obtain ⟨other, hother⟩ := hwraps.contains hcontains
      refine Multiset.mem_cons_of_mem (hchains chain id hwraps ?_)
      refine (Multiset.mem_cons.1 hid).resolve_left fun e => ?_
      rw [e, get?_nextRef] at hother
      exact nomatch hother

/-! ## Forests -/

/-- The places that are reached from some roots. -/
inductive Reaches (nodes : Nodes) (roots : Multiset NodeRef) : NodeRef → Prop
  | root {r : NodeRef} : r ∈ roots → Reaches nodes roots r
  | child {r c : NodeRef} : Reaches nodes roots r → c ∈ nodes.children r → Reaches nodes roots c

/-- The places that are mentioned by the roots, or by the node at a place. -/
def mentions (nodes : Nodes) (roots : Multiset NodeRef) : Option NodeRef → Multiset NodeRef
  | none => roots
  | some r => nodes.children r

/-- The nodes below some roots form a forest: no place is dangling, shared or below itself. -/
structure Forest (nodes : Nodes) (roots : Multiset NodeRef) : Prop where
  /-- Every child of any node has its node, also of a node that is not reached. -/
  child_contains : ∀ r, ∀ c ∈ nodes.children r, nodes.Contains c
  /-- Children lie in front of their parents. -/
  child_lt : ∀ r, ∀ c ∈ nodes.children r, c.sort = r.sort → c.index < r.index
  root_contains : ∀ r ∈ roots, nodes.Contains r
  /-- A place that is reached is mentioned once, in one place that is reached itself. -/
  mentioned_once : ∀ r, nodes.Reaches roots r → ∃ holder : Option NodeRef,
    (∀ p ∈ holder, nodes.Reaches roots p) ∧ (nodes.mentions roots holder).count r = 1 ∧
      ∀ other : Option NodeRef, (∀ p ∈ other, nodes.Reaches roots p) →
        r ∈ nodes.mentions roots other → other = holder
  /-- No place that is reached lies below itself. -/
  acyclic : ∀ r, nodes.Reaches roots r →
    ¬ Relation.TransGen (fun p c => c ∈ nodes.children p) r r

lemma Reaches.mem_live {live : Multiset NodeRef} (e : roots + live.bind nodes.children = live)
    (h : nodes.Reaches roots r) : r ∈ live := by
  induction h with
  | root hr =>
    rw [← e]
    exact Multiset.mem_add.2 (.inl hr)
  | child _ hc ih =>
    rw [← e]
    exact Multiset.mem_add.2 (.inr (Multiset.mem_bind.2 ⟨_, ih, hc⟩))

lemma Reaches.of_path (h : nodes.Reaches roots r)
    (path : Relation.ReflTransGen (fun p c => c ∈ nodes.children p) r c) :
    nodes.Reaches roots c := by
  induction path with
  | refl => exact h
  | tail _ hc ih => exact .child ih hc

/-- What two different holders mention counts twice. -/
lemma mentions_add_le {live : Multiset NodeRef} {h k : Option NodeRef} (hne : h ≠ k)
    (hh : ∀ p ∈ h, p ∈ live) (hk : ∀ p ∈ k, p ∈ live) :
    nodes.mentions roots h + nodes.mentions roots k ≤ roots + live.bind nodes.children := by
  have one {p : NodeRef} (hp : p ∈ live) : nodes.children p ≤ live.bind nodes.children := by
    obtain ⟨rest, rfl⟩ := Multiset.exists_cons_of_mem hp
    rw [Multiset.cons_bind]
    exact Multiset.le_add_right _ _
  cases h with
  | none =>
    cases k with
    | none => exact absurd rfl hne
    | some q => exact add_le_add_right (one (hk q rfl)) roots
  | some p =>
    cases k with
    | none =>
      rw [add_comm]
      exact add_le_add_right (one (hh p rfl)) roots
    | some q =>
      obtain ⟨rest, rfl⟩ := Multiset.exists_cons_of_mem (hh p rfl)
      obtain hq | hq := Multiset.mem_cons.1 (hk q rfl)
      · exact absurd (congrArg some hq.symm) hne
      obtain ⟨rest, rfl⟩ := Multiset.exists_cons_of_mem hq
      refine Multiset.le_iff_exists_add.2 ⟨roots + rest.bind nodes.children, ?_⟩
      rw [Multiset.cons_bind, Multiset.cons_bind, mentions, mentions]
      ac_rfl

/-- What mentions a place, of the live places or the roots, is the only one that does. -/
lemma holder_unique {live : Multiset NodeRef} {h k : Option NodeRef} (hnodup : live.Nodup)
    (e : roots + live.bind nodes.children = live) (hh : ∀ p ∈ h, p ∈ live)
    (hk : ∀ p ∈ k, p ∈ live) (hrh : r ∈ nodes.mentions roots h)
    (hrk : r ∈ nodes.mentions roots k) : k = h := by
  by_contra hne
  -- All mentions together are the live places, so that none of them is there twice.
  have hle : nodes.mentions roots h + nodes.mentions roots k ≤ live := by
    rw [← e]
    exact mentions_add_le (Ne.symm hne) hh hk
  have hle := Multiset.count_le_of_le r hle
  rw [Multiset.count_add] at hle
  have hone := Multiset.nodup_iff_count_le_one.1 hnodup r
  have := Multiset.one_le_count_iff_mem.2 hrh
  have := Multiset.one_le_count_iff_mem.2 hrk
  omega

/-- What is reached is mentioned by the roots, or by a place that is reached itself. -/
lemma Reaches.holder (hr : nodes.Reaches roots r) : ∃ h : Option NodeRef,
    (∀ p ∈ h, nodes.Reaches roots p) ∧ r ∈ nodes.mentions roots h := by
  cases hr with
  | root hr => exact ⟨none, by simp, hr⟩
  | @child p _ hp hr => exact ⟨some p, by simpa using hp, hr⟩

/-- Roots with separate trees below them are the roots of a forest. -/
theorem Accounts.forest (h : nodes.Accounts roots)
    (child_contains : ∀ r, ∀ c ∈ nodes.children r, nodes.Contains c)
    (child_lt : ∀ r, ∀ c ∈ nodes.children r, c.sort = r.sort → c.index < r.index) :
    nodes.Forest roots := by
  have root_contains : ∀ r ∈ roots, nodes.Contains r := fun r hr => h.contains hr
  obtain ⟨live, hnodup, -, e, -⟩ := h
  have live_of {h : Option NodeRef} (hh : ∀ p ∈ h, nodes.Reaches roots p) : ∀ p ∈ h, p ∈ live :=
    fun p hp => (hh p hp).mem_live e
  have unique {r : NodeRef} {h k : Option NodeRef} (hh : ∀ p ∈ h, nodes.Reaches roots p)
      (hk : ∀ p ∈ k, nodes.Reaches roots p) (hrh : r ∈ nodes.mentions roots h)
      (hrk : r ∈ nodes.mentions roots k) : k = h :=
    holder_unique hnodup e (live_of hh) (live_of hk) hrh hrk
  refine ⟨child_contains, child_lt, root_contains, ?_, ?_⟩
  · intro r hr
    obtain ⟨h, hh, hrh⟩ := hr.holder
    refine ⟨h, hh, ?_, fun k hk hrk => unique hh hk hrh hrk⟩
    have hle : nodes.mentions roots h ≤ live := by
      rw [← e]
      cases h with
      | none => exact Multiset.le_add_right _ _
      | some p =>
        obtain ⟨rest, rfl⟩ := Multiset.exists_cons_of_mem (live_of hh p rfl)
        rw [Multiset.cons_bind]
        exact le_trans (Multiset.le_add_right _ _) (Multiset.le_add_left _ _)
    exact Multiset.count_eq_one_of_mem (Multiset.nodup_of_le hle hnodup) hrh
  · intro r hr
    -- A loop through a place passes what mentions it, which is reached in fewer steps.
    induction hr with
    | @root r hr =>
      intro hloop
      obtain ⟨p, hrp, hpr⟩ := Relation.TransGen.tail'_iff.1 hloop
      have hp := Reaches.of_path (.root hr) hrp
      have e : some p = none := unique (by simp) (by simpa using hp) hr hpr
      exact nomatch e
    | @child p r hp hr ih =>
      intro hloop
      have hreach : nodes.Reaches roots r := .child hp hr
      obtain ⟨q, hrq, hqr⟩ := Relation.TransGen.tail'_iff.1 hloop
      have hq := Reaches.of_path hreach hrq
      have e : some q = some p := unique (by simpa using hp) (by simpa using hq) hr hqr
      cases e
      exact ih (.head' hr hrq)

/-! ## Chains that are reached -/

lemma Wraps.not_links (h : nodes.Wraps chain id) : ¬ nodes.Links chain target := by
  rintro ⟨node, hnode, htarget⟩
  obtain ⟨chain, inner, hchain, hform, -⟩ := h
  rw [hnode] at hchain
  cases hchain
  rw [hform] at htarget
  exact nomatch htarget

section

variable {live : Multiset NodeRef}
  (below : ∀ p ∈ live, ∀ c ∈ nodes.children p, c ∈ live)

include below

lemma Spine.mem_live {start : ExprId} (hstart : .expr start ∈ live)
    (h : nodes.Spine start target) : .expr target ∈ live := by
  induction h with
  | refl => exact hstart
  | tail _ hlink ih => exact below _ ih _ hlink.mem_children

/-- Where no child is shared, two chains around an expression are one: from the expression up, both
spines lead through the same links. -/
lemma Wraps.unique {other : ExprId}
    (unique : ∀ p ∈ live, ∀ q ∈ live, ∀ c ∈ nodes.children p, c ∈ nodes.children q → q = p)
    (h : nodes.Wraps chain id) (hlive : .expr chain ∈ live) (hother : nodes.Wraps other id)
    (hother_live : .expr other ∈ live) : other = chain := by
  obtain ⟨inner, hinner, hspine⟩ := h.exists_inner
  obtain ⟨inner', hinner', hspine'⟩ := hother.exists_inner
  have hinner_live := below _ hlive _ hinner
  have hinner_live' := below _ hother_live _ hinner'
  have hchain {c : ExprId} : ¬ nodes.Links chain c := h.not_links
  have hchain' {c : ExprId} : ¬ nodes.Links other c := hother.not_links
  clear h hother
  induction hspine with
  | refl =>
    obtain rfl | ⟨q, hq, hlink⟩ := hspine'.cases_tail
    · exact NodeRef.expr.inj (unique _ hlive _ hother_live _ hinner hinner')
    · have hq := Spine.mem_live below hinner_live' hq
      cases unique _ hlive _ hq _ hinner hlink.mem_children
      exact absurd hlink hchain
  | tail hp hlink ih =>
    have hp := Spine.mem_live below hinner_live hp
    obtain rfl | ⟨q, hq, hlink'⟩ := hspine'.cases_tail
    · cases unique _ hother_live _ hp _ hinner' hlink.mem_children
      exact absurd hlink hchain'
    · have hq_live := Spine.mem_live below hinner_live' hq
      cases unique _ hp _ hq_live _ hlink.mem_children hlink'.mem_children
      exact ih hq

end

/-- Whatever chain there is around an expression that is reached is reached as well, and it is the
only one. -/
theorem Accounts.wraps_once (h : nodes.Accounts roots) (hid : nodes.Reaches roots (.expr id))
    (hwraps : nodes.Wraps chain id) :
    nodes.Reaches roots (.expr chain) ∧ ∀ other, nodes.Wraps other id → other = chain := by
  obtain ⟨live, hnodup, -, e, hchains⟩ := h
  have below : ∀ p ∈ live, ∀ c ∈ nodes.children p, c ∈ live := by
    intro p hp c hc
    rw [← e]
    exact Multiset.mem_add.2 (.inr (Multiset.mem_bind.2 ⟨p, hp, hc⟩))
  have unique : ∀ p ∈ live, ∀ q ∈ live, ∀ c ∈ nodes.children p, c ∈ nodes.children q → q = p := by
    intro p hp q hq c hpc hqc
    exact Option.some.inj (holder_unique hnodup e (by simpa using hp) (by simpa using hq) hpc hqc)
  have above {p c : NodeRef} (hp : p ∈ live) (hpc : c ∈ nodes.children p)
      (hc : nodes.Reaches roots c) : nodes.Reaches roots p := by
    obtain ⟨h, hh, hch⟩ := hc.holder
    have hsome : some p = h := holder_unique hnodup e (fun q hq => (hh q hq).mem_live e)
      (by simpa using hp) hch hpc
    exact hh p hsome.symm
  have hlive (chain : ExprId) (hwraps : nodes.Wraps chain id) : .expr chain ∈ live :=
    hchains chain id hwraps (hid.mem_live e)
  refine ⟨?_, fun other hother => ?_⟩
  · obtain ⟨inner, hinner, hspine⟩ := hwraps.exists_inner
    have hinner_live := below _ (hlive chain hwraps) _ hinner
    refine above (hlive chain hwraps) hinner ?_
    -- From the expression up, each link holds what is reached already.
    clear hinner hwraps hlive
    induction hspine using Relation.ReflTransGen.head_induction_on with
    | refl => exact hid
    | head hlink _ ih =>
      exact above hinner_live hlink.mem_children (ih (below _ hinner_live _ hlink.mem_children))
  · exact hwraps.unique below unique (hlive chain hwraps) hother (hlive other hother)

end Nodes

end CangjieSyntax
