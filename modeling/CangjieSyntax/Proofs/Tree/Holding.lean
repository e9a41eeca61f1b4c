import CangjieSyntax.Proofs.Tree.Forest

/-!
# What is held

While a tree is built, the places, names and marks that its pieces mention are held by the rules
that have read them. `Holds` says that the nodes so far are well formed, that what is held heads
separate trees among them, and that placeholders and missing names are excused. Allocating a node
turns its parts into its place; opening a node turns its place into its parts; what is no place may
be held any number of times.

Whatever is held may be given up where declarations may be lost. Where none may, all declarations
lie below what is held, as long as nothing is excused; then only names and types may be given up.
-/

namespace CangjieSyntax

/-- Placeholders and missing names stand only where they are excused. -/
def Part.Good (excused : Prop) : Part → Prop
  | node _ => True
  | name text => text = "" → excused
  | fault => excused

lemma Part.Good.mono {excused excused' : Prop} {p : Part} (imp : excused → excused')
    (h : p.Good excused) : p.Good excused' := by
  cases p with
  | node ref => trivial
  | name text => exact fun e => imp (h e)
  | fault => exact imp h

/-- No declaration lies below the part: it is no place, or the place of a type. -/
def Part.Spare : Part → Prop
  | node ref => ref.sort = .type
  | _ => True

/-- Values whose parts are all spare. -/
class SpareParts (α : Type) [HasParts α] : Prop where
  spare : ∀ a : α, ∀ p ∈ parts a, p.Spare

section

variable {α β : Type} [HasParts α] [HasParts β]

lemma spare_of_add {ps qs : Multiset Part} (hps : ∀ p ∈ ps, p.Spare) (hqs : ∀ p ∈ qs, p.Spare) :
    ∀ p ∈ ps + qs, p.Spare :=
  fun p hp => (Multiset.mem_add.1 hp).elim (hps p) (hqs p)

instance : SpareParts Name := ⟨fun _ _ hp => Multiset.mem_singleton.1 hp ▸ trivial⟩
instance : SpareParts TypeId := ⟨fun _ _ hp => Multiset.mem_singleton.1 hp ▸ rfl⟩
instance : SpareParts Bool := ⟨fun _ _ hp => absurd hp (Multiset.notMem_zero _)⟩

instance [SpareParts α] [SpareParts β] : SpareParts (α × β) :=
  ⟨fun a => spare_of_add (SpareParts.spare a.1) (SpareParts.spare a.2)⟩

instance [SpareParts α] : SpareParts (Option α) where
  spare
    | none => fun _ hp => absurd hp (Multiset.notMem_zero _)
    | some a => SpareParts.spare a

instance [SpareParts α] : SpareParts (List α) where
  spare l := by
    induction l with
    | nil => exact fun _ hp => absurd hp (Multiset.notMem_zero _)
    | cons a l ih =>
      rw [parts_cons]
      exact spare_of_add (SpareParts.spare a) ih

end

instance : SpareParts PathSegment :=
  ⟨fun s => spare_of_add (SpareParts.spare s.name) (SpareParts.spare s.args)⟩

instance : SpareParts TypeElement :=
  ⟨fun e => spare_of_add (SpareParts.spare e.label) (SpareParts.spare e.type)⟩

instance : SpareParts LambdaParam :=
  ⟨fun p => spare_of_add (SpareParts.spare p.name) (SpareParts.spare p.type)⟩

instance : SpareParts PackageHeader := ⟨fun h => SpareParts.spare h.path⟩

instance : SpareParts TypeForm where
  spare
    | .error => fun _ hp => Multiset.mem_singleton.1 hp ▸ trivial
    | .builtin _ => fun _ hp => absurd hp (Multiset.notMem_zero _)
    | .named segments => SpareParts.spare segments
    | .tuple elements => SpareParts.spare elements
    | .arrow params result => spare_of_add (SpareParts.spare params) (SpareParts.spare result)
    | .optional inner | .parenthesized inner => SpareParts.spare inner

/-- Patterns of values or of variants have at least one. -/
def Node.Proper : Node → Prop
  | .pattern ⟨.constant values, _⟩ => values ≠ []
  | .pattern ⟨.variant variants, _⟩ => variants ≠ []
  | _ => True

/-- Nodes whose children are there and lie in front of them, and whose placeholders and missing
names are excused. -/
structure Nodes.WellFormed (nodes : Nodes) (excused : Prop) : Prop where
  child_contains : ∀ r, ∀ c ∈ nodes.children r, nodes.Contains c
  child_lt : ∀ r, ∀ c ∈ nodes.children r, c.sort = r.sort → c.index < r.index
  good : ∀ r node, nodes.get? r = some node → ∀ p ∈ parts node, p.Good excused
  proper : ∀ r node, nodes.get? r = some node → node.Proper

/-- All declarations are reached from some roots. -/
def Nodes.Complete (nodes : Nodes) (roots : Multiset NodeRef) : Prop :=
  ∀ id, nodes.Contains (.decl id) → nodes.Reaches roots (.decl id)

/-- The nodes are well formed, the held places head separate trees among them, and the other held
parts are as they should be. Unless declarations may be lost, all of them lie in these trees. -/
structure Holds (nodes : Nodes) (excused : Prop) (held : Multiset Part) (lossy : Prop := True) :
    Prop where
  wellFormed : nodes.WellFormed excused
  accounts : nodes.Accounts (refs held)
  good : ∀ p ∈ held, p.Good excused
  complete : lossy ∨ excused ∨ nodes.Complete (refs held)

/-- What is left of some parts when others of them are given up: these are spare, or a fault among
the parts pays for them. -/
def Sheds (held left : Multiset Part) : Prop :=
  ∃ given, held = given + left ∧ (.fault ∈ held ∨ ∀ p ∈ given, p.Spare)

lemma refs_add (ps qs : Multiset Part) : refs (ps + qs) = refs ps + refs qs :=
  Multiset.filterMap_add _ _ _

lemma refs_node (r : NodeRef) : refs {.node r} = {r} := rfl

/-! ## All declarations -/

namespace Nodes

variable {nodes : Nodes} {node : Node} {r : NodeRef} {roots given : Multiset NodeRef}

/-- Below types there are only types. -/
lemma Reaches.sort_eq_type (h : nodes.Reaches roots r) (hroots : ∀ q ∈ roots, q.sort = .type) :
    r.sort = .type := by
  induction h with
  | root hr => exact hroots _ hr
  | @child p c _ hc ih =>
    cases p with
    | type id =>
      obtain ⟨_, hnode⟩ := contains_of_mem_children hc
      rw [children_of_get? hnode] at hc
      obtain ⟨node, -, rfl⟩ := Option.map_eq_some_iff.1 hnode
      exact SpareParts.spare node.form _ (mem_refs.1 hc)
    | _ => exact nomatch ih

lemma Reaches.of_add (h : nodes.Reaches (given + roots) r) :
    nodes.Reaches given r ∨ nodes.Reaches roots r := by
  induction h with
  | root hr => exact (Multiset.mem_add.1 hr).imp .root .root
  | child _ hc ih => exact ih.imp (.child · hc) (.child · hc)

namespace Complete

lemma drop (hgiven : ∀ q ∈ given, q.sort = .type) (h : nodes.Complete (given + roots)) :
    nodes.Complete roots :=
  fun id hid => (h id hid).of_add.resolve_left fun hreaches =>
    nomatch hreaches.sort_eq_type hgiven

/-- Declarations below a node that is none itself lie below its children. -/
lemma uncover (hr : r.sort ≠ .decl) (h : nodes.Complete (r ::ₘ roots)) :
    nodes.Complete (nodes.children r + roots) := by
  have below {q : NodeRef} (hq : nodes.Reaches (r ::ₘ roots) q) :
      q = r ∨ nodes.Reaches (nodes.children r + roots) q := by
    induction hq with
    | root hq => exact (Multiset.mem_cons.1 hq).imp_right fun hq => .root (by simp [hq])
    | child _ hc ih =>
      obtain rfl | hp := ih
      · exact .inr (.root (by simp [hc]))
      · exact .inr (.child hp hc)
  exact fun id hid => (below (h id hid)).resolve_left fun e => hr (e ▸ rfl)

lemma add (h : nodes.Complete (refs (parts node) + roots)) :
    (nodes.add node).Complete (nodes.nextRef node ::ₘ roots) := by
  have below {q : NodeRef} (hq : nodes.Reaches (refs (parts node) + roots) q) :
      (nodes.add node).Reaches (nodes.nextRef node ::ₘ roots) q := by
    induction hq with
    | root hq =>
      obtain hq | hq := Multiset.mem_add.1 hq
      · refine .child (.root (Multiset.mem_cons_self _ _)) ?_
        rwa [children_of_get? get?_add_nextRef]
      · exact .root (Multiset.mem_cons_of_mem hq)
    | child _ hc ih => exact .child ih (by rwa [children_add (contains_of_mem_children hc)])
  rintro id ⟨other, hother⟩
  obtain ⟨hnew, -⟩ | hold := get?_add hother
  · exact .root (hnew ▸ Multiset.mem_cons_self _ _)
  · exact below (h id ⟨other, hold⟩)

end Complete

end Nodes

namespace Sheds

variable {held left rest : Multiset Part}

lemma of_eq (e : held = left) : Sheds held left :=
  ⟨0, by rw [zero_add, e], .inr fun _ hp => absurd hp (Multiset.notMem_zero _)⟩

/-- Parts that are all spare may be given up, and any of them kept. -/
lemma of_le (hspare : ∀ p ∈ held, p.Spare) (hle : left ≤ held) : Sheds held left := by
  obtain ⟨given, rfl⟩ := Multiset.le_iff_exists_add.1 hle
  exact ⟨given, add_comm _ _, .inr fun p hp => hspare p (Multiset.mem_add.2 (.inr hp))⟩

/-- A fault pays for whatever is given up. -/
lemma of_fault (hfault : .fault ∈ held) (hle : left ≤ held) : Sheds held left := by
  obtain ⟨given, rfl⟩ := Multiset.le_iff_exists_add.1 hle
  exact ⟨given, add_comm _ _, .inl hfault⟩

lemma add_right (h : Sheds held left) (rest : Multiset Part) :
    Sheds (held + rest) (left + rest) := by
  obtain ⟨given, rfl, hgiven⟩ := h
  refine ⟨given, add_assoc _ _ _, hgiven.imp_left fun hfault => ?_⟩
  exact Multiset.mem_add.2 (.inl hfault)

lemma add {held' left' : Multiset Part} (h : Sheds held left) (h' : Sheds held' left') :
    Sheds (held + held') (left + left') := by
  obtain ⟨given, rfl, hgiven⟩ := h
  obtain ⟨given', rfl, hgiven'⟩ := h'
  refine ⟨given + given', add_add_add_comm _ _ _ _, ?_⟩
  rw [Multiset.mem_add, Multiset.mem_add, Multiset.mem_add]
  obtain hfault | hspare := hgiven
  · exact .inl (.inl (Multiset.mem_add.1 hfault))
  · obtain hfault | hspare' := hgiven'
    · exact .inl (.inr (Multiset.mem_add.1 hfault))
    · exact .inr (spare_of_add hspare hspare')

lemma map {α β : Type} [HasParts α] [HasParts β] {f : α → β}
    (h : ∀ a, Sheds (parts a) (parts (f a))) (l : List α) :
    Sheds (parts l) (parts (l.map f)) := by
  induction l with
  | nil => exact .of_eq rfl
  | cons a l ih =>
    rw [List.map_cons, parts_cons, parts_cons]
    exact (h a).add ih

end Sheds

namespace Holds

variable {nodes : Nodes} {excused excused' lossy : Prop} {held given left : Multiset Part}

/-- Nothing is there at first. -/
lemma empty (excused : Prop) : Holds {} excused 0 lossy := by
  have none (r : NodeRef) : Nodes.get? {} r = none := by
    cases r <;> rfl
  have no_children (r : NodeRef) : Nodes.children {} r = 0 := by
    rw [Nodes.children, none]
    rfl
  refine ⟨⟨?_, ?_, ?_, ?_⟩, .zero, by simp, .inr (.inr fun id hid => ?_)⟩
  · intro r c hc
    simp [no_children] at hc
  · intro r c hc
    simp [no_children] at hc
  · intro r node h
    simp [none] at h
  · intro r node h
    simp [none] at h
  · obtain ⟨node, h⟩ := hid
    simp [none] at h

lemma mono (imp : excused → excused') (h : Holds nodes excused held lossy) :
    Holds nodes excused' held lossy := by
  obtain ⟨⟨contains, lt, good, proper⟩, accounts, held_good, complete⟩ := h
  exact ⟨⟨contains, lt, fun r node hr p hp => (good r node hr p hp).mono imp, proper⟩, accounts,
    fun p hp => (held_good p hp).mono imp, complete.imp_right (Or.imp_left imp)⟩

lemma of_eq (h : Holds nodes excused held lossy) (e : given = held) :
    Holds nodes excused given lossy :=
  e ▸ h

/-- What is held may be given up if it is spare, or if declarations may be lost. -/
lemma drop (hgiven : lossy ∨ excused ∨ ∀ p ∈ given, p.Spare)
    (h : Holds nodes excused (given + held) lossy) : Holds nodes excused held lossy := by
  have accounts := h.accounts
  have complete := h.complete
  rw [refs_add] at accounts complete
  refine ⟨h.wellFormed, accounts.drop, fun p hp => h.good p (Multiset.mem_add.2 (.inr hp)), ?_⟩
  obtain hlossy | hexcused | hspare := hgiven
  · exact .inl hlossy
  · exact .inr (.inl hexcused)
  · exact complete.imp_right (Or.imp_right (.drop fun q hq => hspare _ (mem_refs.1 hq)))

/-- Where declarations may be lost, anything that is held may be given up. -/
lemma lose (hlossy : lossy) (hle : given ≤ held) (h : Holds nodes excused held lossy) :
    Holds nodes excused given lossy := by
  obtain ⟨rest, rfl⟩ := Multiset.le_iff_exists_add.1 hle
  rw [add_comm] at h
  exact h.drop (.inl hlossy)

lemma weaken (hle : given ≤ held) (h : Holds nodes excused held) : Holds nodes excused given :=
  h.lose trivial hle

lemma shed (hsheds : Sheds held left) (h : Holds nodes excused held lossy) :
    Holds nodes excused left lossy := by
  obtain ⟨given, rfl, hgiven⟩ := hsheds
  exact h.drop (.inr (hgiven.imp_left fun hfault => h.good .fault hfault))

/-- What is no place may be held as well if it is as it should be. -/
lemma also (h : Holds nodes excused held lossy) (hrefs : refs given = 0)
    (hgood : ∀ p ∈ given, p.Good excused) : Holds nodes excused (given + held) lossy := by
  have same : refs (given + held) = refs held := by rw [refs_add, hrefs, zero_add]
  refine ⟨h.wellFormed, same ▸ h.accounts, ?_, same ▸ h.complete⟩
  intro p hp
  obtain hp | hp := Multiset.mem_add.1 hp
  · exact hgood p hp
  · exact h.good p hp

/-- What is held and no place may be held once more. -/
lemma again (h : Holds nodes excused held lossy) (hle : given ≤ held) (hrefs : refs given = 0) :
    Holds nodes excused (given + held) lossy :=
  h.also hrefs fun p hp => h.good p (Multiset.mem_of_le hle hp)

/-- A new node turns its parts into its place. -/
lemma add {node : Node} (hproper : node.Proper)
    (h : Holds nodes excused (parts node + held) lossy) :
    Holds (nodes.add node) excused ({.node (nodes.nextRef node)} + held) lossy := by
  obtain ⟨⟨contains, lt, good, proper⟩, accounts, held_good, complete⟩ := h
  rw [refs_add] at accounts complete
  -- the children of the new node are live, so that they lie in front of it
  have live (c : NodeRef) (hc : c ∈ refs (parts node)) : nodes.Contains c :=
    accounts.contains (Multiset.mem_add.2 (.inl hc))
  have split (r c : NodeRef) (hc : c ∈ (nodes.add node).children r) :
      (r = nodes.nextRef node ∧ c ∈ refs (parts node)) ∨ c ∈ nodes.children r := by
    obtain ⟨other, hr⟩ := Nodes.contains_of_mem_children hc
    rw [Nodes.children_of_get? hr] at hc
    obtain ⟨rfl, rfl⟩ | hr := Nodes.get?_add hr
    · exact .inl ⟨rfl, hc⟩
    · rw [Nodes.children_of_get? hr]
      exact .inr hc
  refine ⟨⟨?_, ?_, ?_, ?_⟩, ?_, ?_, ?_⟩
  · intro r c hc
    obtain ⟨rfl, hparts⟩ | hold := split r c hc
    · exact (live c hparts).add
    · exact (contains r c hold).add
  · intro r c hc e
    obtain ⟨rfl, hparts⟩ | hold := split r c hc
    · exact Nodes.nextRef_above (live c hparts) e
    · exact lt r c hold e
  · intro r other hr p hp
    obtain ⟨rfl, rfl⟩ | hr := Nodes.get?_add hr
    · exact held_good p (Multiset.mem_add.2 (.inl hp))
    · exact good r other hr p hp
  · intro r other hr
    obtain ⟨rfl, rfl⟩ | hr := Nodes.get?_add hr
    · exact hproper
    · exact proper r other hr
  · rw [refs_add, refs_node]
    exact accounts.add contains
  · intro p hp
    obtain hp | hp := Multiset.mem_add.1 hp
    · rw [Multiset.mem_singleton] at hp
      subst hp
      trivial
    · exact held_good p (Multiset.mem_add.2 (.inr hp))
  · rw [refs_add, refs_node]
    exact complete.imp_right (Or.imp_right .add)

/-- A node that is neither an optional chain nor a declaration may be opened: its parts are held in
its place. -/
lemma uncover {r : NodeRef} {node : Node} (hr : nodes.get? r = some node) (hsort : r.sort ≠ .decl)
    (hnode : ∀ inner span, node ≠ .expr ⟨.optionalChain inner, span⟩)
    (h : Holds nodes excused ({.node r} + held) lossy) :
    Holds nodes excused (parts node + held) lossy := by
  refine ⟨h.wellFormed, ?_, ?_, ?_⟩
  · have accounts := h.accounts
    rw [refs_add, refs_node] at accounts
    rw [refs_add, ← Nodes.children_of_get? hr]
    refine accounts.uncover fun chain id hwraps e => ?_
    obtain ⟨⟨_, span⟩, inner, hchain, rfl, -⟩ := hwraps
    subst e
    rw [Nodes.get?, hchain] at hr
    exact hnode inner span (Option.some.inj hr).symm
  · intro p hp
    obtain hp | hp := Multiset.mem_add.1 hp
    · exact h.wellFormed.good r node hr p hp
    · exact h.good p (Multiset.mem_add.2 (.inr hp))
  · have complete := h.complete
    rw [refs_add, refs_node] at complete
    rw [refs_add, ← Nodes.children_of_get? hr]
    exact complete.imp_right (Or.imp_right (.uncover hsort))

lemma contains {r : NodeRef} (h : Holds nodes excused held lossy) (hr : .node r ∈ held) :
    nodes.Contains r :=
  h.accounts.contains (mem_refs.2 hr)

/-- The held places are the roots of a forest. -/
lemma forest (h : Holds nodes excused held lossy) : nodes.Forest (refs held) :=
  h.accounts.forest h.wellFormed.child_contains h.wellFormed.child_lt

end Holds

end CangjieSyntax
