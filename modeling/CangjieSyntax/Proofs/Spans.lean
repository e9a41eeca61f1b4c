import CangjieSyntax.Proofs.Layout.File

/-!
# Spans

The spans of a parse lie inside the text, between characters, whatever has been reported. In a parse
without diagnostics the parts of each node lie inside it, one behind the other.
-/

namespace CangjieSyntax

variable {env : Env} {src : Source} {settings : Settings} {bytes : ByteArray} {s t : ParseState} {α : Type}

/-! ## What a run gives -/

/-- The states of a parse, all of them with their offsets between characters. -/
abbrev Ground.reachable (env : Env) : Ground env :=
  (Region.reachable env).ground

lemma Ground.settled_reachable (env : Env) : (Ground.reachable env).Settled :=
  (Region.settled_reachable env).ground

lemma Nodes.get?_empty (r : NodeRef) : ({} : Nodes).get? r = none := by
  cases r <;> rfl

namespace ParseState.Fresh

variable (h : s.Fresh env.src) (hprevStop : env.src.isBoundary s.prevStop)

include h

lemma nodes : s.nodes = {} := by
  cases h <;> rfl

lemma log : s.log = #[] := by
  cases h <;> rfl

include hprevStop

lemma mem_ground : (Ground.reachable env).mem s := by
  refine ⟨h.reachable, ?_⟩
  cases h with
  | file names => exact ⟨.ofSource env.src, hprevStop, Nat.le_refl _⟩
  | expression offset =>
    refine ⟨.seek hprevStop _ rfl, hprevStop, ?_⟩
    exact Nat.le_min.2 ⟨Nat.le_refl _, Source.le_size_of_isBoundary hprevStop⟩

/-- In front of a text nothing is held. -/
lemma arranged : Arranged env s.lexer.start s [] where
  base := (h.mem_ground hprevStop).2.lexer.start
  le_start := Nat.le_refl _
  nodes r node hr := by
    rw [h.nodes, Nodes.get?_empty] at hr
    exact nomatch hr
  reports d hd := by
    rw [h.log] at hd
    exact nomatch hd
  valid _ hm := nomatch hm
  laid _ := by
    refine ⟨fun r node hr => ?_, .nil⟩
    rw [h.nodes, Nodes.get?_empty] at hr
    exact nomatch hr

/-- A rule that is run on a text lays out what it yields. -/
lemma laidOut_runFrom [HasMarks α] {rule : Call → Rule α} {a : α}
    (hrule : ∀ {call}, LaysOut (Ground.reachable env) call →
      Places (Ground.reachable env) (rule call))
    (hrun : Rule.runFrom env rule s = some (a, t)) :
    (Ground.reachable env).mem t ∧ ∃ lo, Arranged env lo t (marks a) := by
  have hJ := Ground.settled_reachable env
  have hlays : Lays (Ground.reachable env) s.lexer.start []
      (do Rule.begin; rule (Rule.callTo env.nesting)) marks :=
    .skip (fun _ => .skip Rule.takes_advance fun _ => Rule.places_unmute hJ _)
      fun _ => hrule (Rule.laysOut_callTo hJ _) _
  obtain ⟨ht, -, harranged⟩ := hlays s (h.mem_ground hprevStop) a t hrun
  exact ⟨ht, _, harranged (h.arranged hprevStop)⟩

end ParseState.Fresh

/-! ## Valid spans -/

/-- All spans of a parsed file are valid. -/
structure FileParse.Valid (src : Source) (p : FileParse) : Prop where
  nodes : p.tree.nodes.Valid src
  /-- Those of the package header and of the imports. -/
  tree : ∀ m ∈ marks p.tree, m.Valid src
  diagnostics : ∀ d ∈ p.diagnostics, d.Valid src

/-- All spans of a parsed expression are valid. -/
structure ExprParse.Valid (src : Source) (p : ExprParse) : Prop where
  nodes : p.nodes.Valid src
  next : src.isBoundary p.next
  diagnostics : ∀ d ∈ p.diagnostics, d.Valid src

/-- A file that is filled in marks the same places. -/
lemma Settings.valid_locate {log : Log} (h : ∀ d ∈ log, d.Valid src) :
    ∀ d ∈ settings.locate log, d.Valid src := by
  intro d hd
  unfold locate at hd
  split at hd
  · obtain ⟨e, he, rfl⟩ := Array.mem_map.1 hd
    exact h e he
  · exact h d hd

/-- What has been reported marks valid places only. -/
lemma Arranged.diagnostics {lo : Nat} {held : List Mark} (h : Arranged env lo t held)
    (ht : t.Footed env) : ∀ d ∈ settings.locate t.diagnostics, d.Valid env.src := by
  refine Settings.valid_locate fun d hd => ?_
  have hmem : d ∈ t.lexer.log ++ t.log := by
    simpa [ParseState.diagnostics, Log.sorted] using hd
  exact (Array.mem_append.1 hmem).elim (ht.lexer.log d) (h.reports d)

lemma Source.valid_parseFile {names names' : NameTable} {p : FileParse}
    (h : src.parseFile settings names = some (p, names')) : p.Valid src := by
  obtain ⟨⟨tree, t⟩, hrun, e⟩ := Option.map_eq_some_iff.1 h
  cases e
  have hfresh : ParseState.Fresh src { ParseState.ofSource src with names } := .file names
  obtain ⟨⟨-, ht⟩, lo, harranged⟩ := hfresh.laidOut_runFrom Source.isBoundary_zero
    (Rule.places_file (Ground.settled_reachable _)) hrun
  exact ⟨harranged.nodes, harranged.valid, harranged.diagnostics ht⟩

lemma Source.valid_parseExpression {offset : Nat} {p : ExprParse} (hoffset : src.isBoundary offset)
    (h : src.parseExpression offset settings = some p) : p.Valid src := by
  obtain ⟨⟨expr, t⟩, hrun, rfl⟩ := Option.map_eq_some_iff.1 h
  have hfresh : ParseState.Fresh src { ParseState.ofSource src with
      lexer := (Lexer.ofSource src).seek src offset, prevStop := offset } := .expression offset
  obtain ⟨⟨-, ht⟩, lo, harranged⟩ := hfresh.laidOut_runFrom hoffset
    (Rule.places_statement (Ground.settled_reachable _)) hrun
  exact ⟨harranged.nodes, ht.prevStop, harranged.diagnostics ht⟩

/-- One node stops where another one starts, or in front of it. -/
def Nodes.Precedes (nodes : Nodes) (r r' : NodeRef) : Prop :=
  ∀ node node', nodes.get? r = some node → nodes.get? r' = some node' →
    node.span.stop ≤ node'.span.start

/-- The children among some marks, in their order. -/
def childRefs (ms : List Mark) : List NodeRef :=
  ms.filterMap Mark.ref?

/-- The children of a node lie inside it, apart from each other and one behind the other. -/
structure Node.Orderly (nodes : Nodes) (node : Node) : Prop where
  inside : ∀ r ∈ childRefs (marks node), ∃ child, nodes.get? r = some child
    ∧ node.span.start ≤ child.span.start ∧ child.span.stop ≤ node.span.stop
  disjoint : (childRefs (marks node)).Pairwise fun r r' =>
    nodes.Precedes r r' ∨ nodes.Precedes r' r
  /-- The order is that of the fields, where annotations come first; only the accessors of a property
  may stand the other way round. -/
  ordered : ∃ reading ∈ node.readings, (childRefs reading).Pairwise nodes.Precedes

section

variable {nodes : Nodes} {node : Node} {lo hi : Nat} {ms : List Mark}

lemma mem_childRefs {r : NodeRef} : r ∈ childRefs ms ↔ Mark.node r ∈ ms := by
  refine List.mem_filterMap.trans ⟨fun ⟨m, hm, hr⟩ => ?_, fun hm => ⟨_, hm, rfl⟩⟩
  cases m <;> cases hr
  exact hm

/-- Of what is laid each node stands in front of the next ones. -/
lemma Laid.pairwise (h : Laid nodes lo hi ms) : (childRefs ms).Pairwise nodes.Precedes := by
  induction h with
  | nil => exact .nil
  | node hr _ _ rest ih =>
    refine .cons (fun r' hr' node node' hnode hnode' => ?_) ih
    obtain rfl := Option.some.inj (hr.symm.trans hnode)
    obtain ⟨other, hother, hlo, -⟩ := rest.bounds (mem_childRefs.1 hr')
    obtain rfl := Option.some.inj (hother.symm.trans hnode')
    exact hlo
  | token _ _ ih | span _ _ ih | edge _ _ ih => exact ih

/-- What is laid inside a node in one of its readings is in order. -/
lemma Node.Nested.orderly (h : node.Nested nodes) : node.Orderly nodes := by
  obtain ⟨reading, hreading, hlaid⟩ := h
  have hperm := Node.reading_perm hreading
  refine ⟨fun r hr => ?_, ?_, reading, hreading, hlaid.pairwise⟩
  · exact hlaid.bounds (hperm.mem_iff.2 (mem_childRefs.1 hr))
  · refine ((hperm.filterMap Mark.ref?).pairwise_iff fun h => h.symm).1 ?_
    exact hlaid.pairwise.imp .inl

end

/-- In front of the rule that is run, the first token has been looked at. -/
lemma ParseState.Fresh.ensures_begin (h : s.Fresh env.src)
    (hprevStop : env.src.isBoundary s.prevStop) :
    Ensures env s Rule.begin fun _ t => (Ground.reachable env).mem t := by
  intro a t e
  have hlays : Lays (Ground.reachable env) 0 [] Rule.begin fun _ => [] :=
    .skip Rule.takes_advance fun _ => Rule.places_unmute (Ground.settled_reachable env) 0
  exact (hlays s (h.mem_ground hprevStop) a t e).1

lemma Source.nested_parseFile {names names' : NameTable} {p : FileParse}
    (h : src.parseFile settings names = some (p, names')) (hclean : p.diagnostics = #[]) :
    p.tree.nodes.Nested := by
  obtain ⟨⟨tree, t⟩, hrun, e⟩ := Option.map_eq_some_iff.1 h
  cases e
  have hfresh : ParseState.Fresh src { ParseState.ofSource src with names } := .file names
  obtain ⟨⟨ht, -⟩, lo, harranged⟩ := hfresh.laidOut_runFrom Source.isBoundary_zero
    (Rule.places_file (Ground.settled_reachable _)) hrun
  exact (harranged.laid fun hexcused => diagnostics_of_excused settings ht hexcused hclean).1

/-- Behind an expression that is read without reports, no token of something else has been taken. -/
lemma Source.nested_parseExpression {offset : Nat} {p : ExprParse} (hoffset : src.isBoundary offset)
    (h : src.parseExpression offset settings = some p) (hclean : p.diagnostics = #[]) :
    p.nodes.Nested ∧ ∃ node, p.nodes.exprs.get? p.expr = some node ∧ node.span.stop = p.next := by
  obtain ⟨⟨expr, t⟩, hrun, rfl⟩ := Option.map_eq_some_iff.1 h
  have hfresh : ParseState.Fresh src { ParseState.ofSource src with
      lexer := (Lexer.ofSource src).seek src offset, prevStop := offset } := .expression offset
  obtain ⟨⟨ht, -⟩, lo, harranged⟩ := hfresh.laidOut_runFrom hoffset
    (Rule.places_statement (Ground.settled_reachable _)) hrun
  obtain ⟨hnested, hlaid⟩ := harranged.laid fun hexcused =>
    diagnostics_of_excused settings ht hexcused hclean
  let env : Env := { src, settings }
  have hends : Ensures env _ (do Rule.begin; Rule.statement (Rule.callTo env.nesting)) fun id t =>
      ∃ start, t.EndsWith start id :=
    (hfresh.ensures_begin hoffset).bind fun _ u hu =>
      (Rule.ends_statement (Rule.laysOut_callTo (Ground.settled_reachable env) _) hu).mono
        fun _ _ ht => ⟨_, ht⟩
  obtain ⟨_, node, hnode, hle, -⟩ := hends expr t hrun
  obtain ⟨node', hnode', -, hle'⟩ := hlaid.bounds List.mem_cons_self
  obtain rfl : node' = .expr node :=
    Option.some.inj (hnode'.symm.trans (Nodes.get?_expr_eq_some.2 hnode))
  exact ⟨hnested, node, hnode, Nat.le_antisymm hle' hle⟩

end CangjieSyntax
