import CangjieSyntax.Proofs.Grammar.Steps
import CangjieSyntax.Proofs.Layout.Marks
import CangjieSyntax.Proofs.Token.Errors

/-!
# Nodes one behind the other

`Laid nodes lo hi ms` says that the nodes among the marks stand one behind the other between two
offsets, and that nothing was missing. A node is nested if its parts are laid inside its span.
-/

namespace CangjieSyntax

variable {nodes others : Nodes} {lo hi lo' hi' mid : Nat} {ms ms' : List Mark} {r r' : NodeRef}
  {node : Node} {src : Source}

/-- The nodes of some marks stand one behind the other between two offsets. -/
inductive Laid (nodes : Nodes) : Nat → Nat → List Mark → Prop
  | nil {lo hi : Nat} : Laid nodes lo hi []
  | node {lo hi : Nat} {r : NodeRef} {node : Node} {ms : List Mark} (h : nodes.get? r = some node)
    (le_start : lo ≤ node.span.start) (stop_le : node.span.stop ≤ hi)
    (rest : Laid nodes node.span.stop hi ms) : Laid nodes lo hi (.node r :: ms)
  | token {lo hi : Nat} {ms : List Mark} (h : lo ≤ hi) (rest : Laid nodes lo hi ms) :
    Laid nodes lo hi (.token :: ms)
  | span {lo hi : Nat} {ms : List Mark} (s : Span) (rest : Laid nodes lo hi ms) :
    Laid nodes lo hi (.span s :: ms)
  | edge {lo hi : Nat} {ms : List Mark} (pos : Nat) (rest : Laid nodes lo hi ms) :
    Laid nodes lo hi (.edge pos :: ms)

/-- What is there stays there, and the others may have more. -/
def Nodes.Grows (nodes others : Nodes) : Prop :=
  ∀ r node, nodes.get? r = some node → others.get? r = some node

/-- The node at one place lies inside the node at another one. -/
def Nodes.Within (nodes : Nodes) (r r' : NodeRef) : Prop :=
  ∃ node node', nodes.get? r = some node ∧ nodes.get? r' = some node'
    ∧ node'.span.start ≤ node.span.start ∧ node.span.stop ≤ node'.span.stop

namespace Nodes.Grows

lemma refl (nodes : Nodes) : nodes.Grows nodes :=
  fun _ _ h => h

lemma trans {more : Nodes} (h : nodes.Grows others) (h' : others.Grows more) : nodes.Grows more :=
  fun r node hr => h' r node (h r node hr)

lemma add (nodes : Nodes) (node : Node) : nodes.Grows (nodes.add node) :=
  fun _ _ hr => get?_add_of_get? hr

lemma within (h : nodes.Grows others) (hw : nodes.Within r r') : others.Within r r' := by
  obtain ⟨node, node', hr, hr', hstart, hstop⟩ := hw
  exact ⟨node, node', h _ _ hr, h _ _ hr', hstart, hstop⟩

end Nodes.Grows

namespace Laid

/-- More room is left around. -/
lemma mono (h : Laid nodes lo hi ms) (hlo : lo' ≤ lo) (hhi : hi ≤ hi') :
    Laid nodes lo' hi' ms := by
  induction h generalizing lo' with
  | nil => exact .nil
  | node hr le_start stop_le _ ih =>
    exact .node hr (Nat.le_trans hlo le_start) (Nat.le_trans stop_le hhi) (ih (Nat.le_refl _) hhi)
  | token h _ ih => exact .token (by omega) (ih hlo hhi)
  | span s _ ih => exact .span s (ih hlo hhi)
  | edge pos _ ih => exact .edge pos (ih hlo hhi)

lemma grow (h : Laid nodes lo hi ms) (hgrows : nodes.Grows others) : Laid others lo hi ms := by
  induction h with
  | nil => exact .nil
  | node hr le_start stop_le _ ih => exact .node (hgrows _ _ hr) le_start stop_le ih
  | token h _ ih => exact .token h ih
  | span s _ ih => exact .span s ih
  | edge pos _ ih => exact .edge pos ih

/-- What is laid behind something else is laid together with it. -/
lemma append (h : Laid nodes lo mid ms) (h' : Laid nodes lo' hi ms') (hlo : lo ≤ lo')
    (hmid : mid ≤ lo') (hhi : mid ≤ hi) : Laid nodes lo hi (ms ++ ms') := by
  induction h with
  | nil => exact h'.mono hlo (Nat.le_refl _)
  | node hr le_start stop_le _ ih =>
    exact .node hr le_start (Nat.le_trans stop_le hhi) (ih (Nat.le_trans stop_le hmid) hmid hhi)
  | token h _ ih => exact .token (Nat.le_trans h hhi) (ih hlo hmid hhi)
  | span s _ ih => exact .span s (ih hlo hmid hhi)
  | edge pos _ ih => exact .edge pos (ih hlo hmid hhi)

lemma tail {m : Mark} (h : Laid nodes lo hi (m :: ms)) : Laid nodes lo hi ms := by
  cases h with
  | node hr le_start _ rest =>
    exact rest.mono (Nat.le_trans le_start (Span.start_le_stop _)) (Nat.le_refl _)
  | token _ rest | span _ rest | edge _ rest => exact rest

/-- Some of the marks may be left out. -/
lemma sublist (h : Laid nodes lo hi ms) (hsub : ms'.Sublist ms) : Laid nodes lo hi ms' := by
  induction hsub generalizing lo with
  | slnil => exact h
  | cons m _ ih => exact ih h.tail
  | cons_cons m _ ih =>
    cases h with
    | node hr le_start stop_le rest => exact .node hr le_start stop_le (ih rest)
    | token hle rest => exact .token hle (ih rest)
    | span s rest => exact .span s (ih rest)
    | edge pos rest => exact .edge pos (ih rest)

/-- What is no node may lie anywhere. -/
lemma hold (h : Laid nodes lo hi ms) (h' : ∀ lo, Laid nodes lo hi ms') :
    Laid nodes lo hi (ms ++ ms') := by
  induction h with
  | nil => exact h' _
  | node hr le_start stop_le _ ih => exact .node hr le_start stop_le (ih h')
  | token hle _ ih => exact .token hle (ih h')
  | span s _ ih => exact .span s (ih h')
  | edge pos _ ih => exact .edge pos (ih h')

/-- Spans are laid anywhere. -/
lemma of_spans (h : ∀ m ∈ ms, ∃ s, m = .span s) : Laid nodes lo hi ms := by
  induction ms with
  | nil => exact .nil
  | cons m ms ih =>
    obtain ⟨s, rfl⟩ := h m List.mem_cons_self
    exact .span s (ih fun m hm => h m (List.mem_cons_of_mem _ hm))

lemma not_fault (h : Laid nodes lo hi ms) : Mark.fault ∉ ms := by
  induction h with
  | nil => simp
  | node _ _ _ _ ih | token _ _ ih | span _ _ ih | edge _ _ ih => simp [ih]

/-- Where something has been read, the offsets are in order. -/
lemma le_of_begun (h : Laid nodes lo hi ms) (hms : Begun ms) : lo ≤ hi := by
  induction h with
  | nil => exact nomatch hms
  | node _ le_start stop_le _ _ =>
    exact Nat.le_trans le_start (Nat.le_trans (Span.start_le_stop _) stop_le)
  | token h _ _ => exact h
  | span _ _ ih | edge _ _ ih => exact ih (by simpa using hms)

/-- A node that is laid. -/
lemma bounds (h : Laid nodes lo hi ms) (hm : Mark.node r ∈ ms) : ∃ node,
    nodes.get? r = some node ∧ lo ≤ node.span.start ∧ node.span.stop ≤ hi := by
  induction h with
  | nil => exact nomatch hm
  | node hr le_start stop_le _ ih =>
    rcases List.mem_cons.1 hm with hm | hm
    · cases hm
      exact ⟨_, hr, le_start, stop_le⟩
    · obtain ⟨node, hnode, hlo, hhi⟩ := ih hm
      exact ⟨node, hnode, Nat.le_trans le_start (Nat.le_trans (Span.start_le_stop _) hlo), hhi⟩
  | token _ _ ih | span _ _ ih | edge _ _ ih => exact ih (by simpa using hm)

/-- The node of the only mark. -/
lemma single (h : nodes.get? r = some node) (hlo : lo ≤ node.span.start)
    (hhi : node.span.stop ≤ hi) : Laid nodes lo hi [.node r] :=
  .node h hlo hhi .nil

end Laid

/-! ## Marks in the place of others -/

/-- A mark that may stand in the place of another one: that of a node inside the other node. -/
inductive Mark.Within (nodes : Nodes) : Mark → Mark → Prop
  | same (m : Mark) : Within nodes m m
  | node {r r' : NodeRef} (h : nodes.Within r r') : Within nodes (.node r) (.node r')

/-- Nodes may be replaced by nodes inside them. -/
lemma Laid.replace (h : Laid nodes lo hi ms) (hms : List.Forall₂ (Mark.Within nodes) ms' ms) :
    Laid nodes lo hi ms' := by
  induction h generalizing ms' with
  | nil =>
    cases hms
    exact .nil
  | node hr le_start stop_le rest ih =>
    cases hms with
    | cons hm hrest =>
      cases hm with
      | same => exact .node hr le_start stop_le (ih hrest)
      | node hw =>
        obtain ⟨a, b, ha, hb, hstart, hstop⟩ := hw
        obtain rfl := Option.some.inj (hr.symm.trans hb)
        exact .node ha (Nat.le_trans le_start hstart) (Nat.le_trans hstop stop_le)
          ((ih hrest).mono hstop (Nat.le_refl _))
  | token h _ ih =>
    cases hms with
    | cons hm hrest =>
      cases hm
      exact .token h (ih hrest)
  | span s _ ih =>
    cases hms with
    | cons hm hrest =>
      cases hm
      exact .span s (ih hrest)
  | edge pos _ ih =>
    cases hms with
    | cons hm hrest =>
      cases hm
      exact .edge pos (ih hrest)

/-- The first node may be replaced by what is laid inside it. -/
lemma Laid.splice (h : Laid nodes lo hi (.node r :: ms)) (hr : nodes.get? r = some node)
    (hparts : Laid nodes node.span.start node.span.stop ms') : Laid nodes lo hi (ms' ++ ms) := by
  cases h with
  | node hr' le_start stop_le rest =>
    obtain rfl := Option.some.inj (hr.symm.trans hr')
    exact (hparts.mono le_start (Nat.le_refl _)).append rest
      (Nat.le_trans le_start (Span.start_le_stop _)) (Nat.le_refl _) stop_le

/-! ## Whole arenas -/

/-- A mark is at a valid place. -/
def Mark.Valid (src : Source) : Mark → Prop
  | .span s => s.Valid src
  | .edge pos => src.isBoundary pos
  | _ => True

/-- All spans in a node are valid. -/
structure Node.Valid (src : Source) (node : Node) : Prop where
  span : node.span.Valid src
  marks : ∀ m ∈ marks node, m.Valid src

/-- The parts of a node are laid inside its span, in one of the orders in which they are read. -/
def Node.Nested (nodes : Nodes) (node : Node) : Prop :=
  ∃ reading ∈ node.readings, Laid nodes node.span.start node.span.stop reading

namespace Nodes

/-- All spans in the nodes are valid. -/
def Valid (src : Source) (nodes : Nodes) : Prop :=
  ∀ r node, nodes.get? r = some node → node.Valid src

/-- All nodes are nested. -/
def Nested (nodes : Nodes) : Prop :=
  ∀ r node, nodes.get? r = some node → node.Nested nodes

lemma Valid.add (h : nodes.Valid src) (hnode : node.Valid src) : (nodes.add node).Valid src := by
  intro r other hr
  obtain ⟨-, rfl⟩ | hold := get?_add hr
  · exact hnode
  · exact h r other hold

lemma Nested.add (h : nodes.Nested) (hnode : node.Nested nodes) : (nodes.add node).Nested := by
  have grow {other : Node} (hother : other.Nested nodes) : other.Nested (nodes.add node) := by
    obtain ⟨reading, hmem, hlaid⟩ := hother
    exact ⟨reading, hmem, hlaid.grow (.add nodes node)⟩
  intro r other hr
  obtain ⟨-, rfl⟩ | hold := get?_add hr
  · exact grow hnode
  · exact grow (h r other hold)

end Nodes

end CangjieSyntax
