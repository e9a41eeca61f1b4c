import CangjieSyntax.Parse
import CangjieSyntax.Proofs.Grammar.File
import CangjieSyntax.Proofs.Source.Boundary

/-!
# What a parse gives

The nodes of a parse are well formed and the places that its result mentions head separate trees
among them, with placeholders and missing names only where something is reported. So every tree is a
forest, and a parse without diagnostics has no placeholder and no missing name.
-/

namespace CangjieSyntax

variable {env : Env} {s t : ParseState} {α : Type}

lemma parseFile_of_ofBytes {bytes : ByteArray} {src : Source}
    (h : Source.ofBytes bytes = .ok src) (settings : Settings) :
    parseFile bytes settings = (src.parseFile settings .empty).map Prod.fst := by
  rw [parseFile, parseFileInto, h]

/-- Parsing a text as an expression from a place between two of its characters on. -/
lemma parseExpression_of_isBoundary {text : String} {offset : Nat}
    (h : (Source.ofString text).isBoundary offset) (settings : Settings) :
    parseExpression text.toUTF8 offset settings
      = (Source.ofString text).parseExpression offset settings := by
  have hle : offset ≤ text.toUTF8.size := Source.le_size_of_isBoundary h
  have hdecoded : (do
      let src ← Source.ofBytes text.toUTF8
      if src.isBoundary offset then return src else .error ⟨offset, 1⟩ : Except Span Source)
        = .ok (Source.ofString text) := by
    rw [Source.ofBytes_toUTF8]
    exact if_pos h
  rw [parseExpression, Nat.min_eq_left hle]
  dsimp only
  rw [hdecoded]

/-- A rule that is run outside attempts stays in any region of such states that the first token is
in, and holds what it yields from there on. -/
lemma Rule.runFrom_keeps_behind [HasParts α] {J : Region env} (hJ : J.Settled) {rule : Call → Rule α}
    {a : α} (hrule : ∀ call, Obeys J call → Yields J (rule call)) (hs : J.mem (s.advance env.src))
    (h : Rule.runFrom env rule s = some (a, t)) :
    J.mem t ∧ Keeps J.loses 0 (parts a) (s.advance env.src) t := by
  have hrun : Yields J (do Rule.unmute; rule (Rule.callTo env.nesting)) :=
    .skip (Rule.quiet_unmute hJ) fun _ => hrule _ (Rule.obeys_callTo hJ env.nesting)
  exact hrun _ hs a t h

lemma Rule.runFrom_keeps [HasParts α] {J : Region env} (hJ : J.Settled) {rule : Call → Rule α} {a : α}
    (hrule : ∀ call, Obeys J call → Yields J (rule call)) (hs : J.mem s)
    (h : Rule.runFrom env rule s = some (a, t)) : J.mem t ∧ Keeps J.loses 0 (parts a) s t := by
  obtain ⟨hfirst, hadvance⟩ := Rule.quiet_advance s hs () (s.advance env.src) rfl
  obtain ⟨ht, hkeeps⟩ := Rule.runFrom_keeps_behind hJ hrule hfirst h
  exact ⟨ht, hadvance.trans hkeeps⟩

/-- Whatever has been reported is among the diagnostics. -/
lemma diagnostics_of_excused (settings : Settings) (ht : Reachable env t) (h : t.Excused) :
    settings.locate t.diagnostics ≠ #[] := by
  have reported := h.resolve_right (by rw [ht.settled]; exact Bool.false_ne_true)
  have size : (settings.locate t.diagnostics).size = t.lexer.log.size + t.log.size := by
    unfold Settings.locate ParseState.diagnostics Log.sorted
    split <;> simp [Log.inFile]
  intro e
  rw [e] at size
  obtain hlog | hlog := reported
  · exact hlog (Array.eq_empty_of_size_eq_zero (by simp at size; omega))
  · exact hlog (Array.eq_empty_of_size_eq_zero (by simp at size; omega))

/-- Behind a rule that is run on a text without nodes. -/
lemma Rule.runFrom_holds [HasParts α] {rule : Call → Rule α} {a : α} (settings : Settings)
    (hrule : ∀ call, Obeys (.reachable env) call → Yields (.reachable env) (rule call))
    (hs : Reachable env s) (hnodes : s.nodes = {}) (h : Rule.runFrom env rule s = some (a, t)) :
    Holds t.nodes (settings.locate t.diagnostics ≠ #[]) (parts a) := by
  obtain ⟨ht, hkeeps⟩ := Rule.runFrom_keeps (Region.settled_reachable env) hrule hs h
  have start : Holds s.nodes s.Excused (0 + 0) := by
    rw [hnodes]
    exact .empty _
  exact ((hkeeps.holds 0 start).of_eq (add_zero _).symm).mono (diagnostics_of_excused settings ht)

lemma Settings.encodingFault_ne_empty (settings : Settings) (span : Span) :
    settings.encodingFault span ≠ #[] := by
  unfold Settings.encodingFault Settings.locate
  split <;> simp [Log.inFile]

/-- What the tree of a file mentions is held among its nodes. -/
theorem holds_parseFileInto {bytes : ByteArray} {settings : Settings} {names names' : NameTable}
    {p : FileParse} (h : parseFileInto bytes settings names = some (p, names')) :
    Holds p.tree.nodes (p.diagnostics ≠ #[]) (parts p.tree) := by
  unfold parseFileInto at h
  split at h
  case h_1 src _ =>
    obtain ⟨⟨tree, t⟩, hrun, e⟩ := Option.map_eq_some_iff.1 h
    cases e
    have hs : Reachable ⟨src, settings, true⟩ { ParseState.ofSource src with names } := .file names
    have hold : Holds t.nodes _ (parts tree) := Rule.runFrom_holds settings
      (fun _ => Rule.yields_file (Region.settled_reachable _)) hs rfl hrun
    exact hold
  case h_2 =>
    cases h
    exact .empty _

/-- What a parsed expression is made of is held among its nodes. -/
theorem holds_parseExpression {bytes : ByteArray} {offset : Nat} {settings : Settings}
    {p : ExprParse} (h : parseExpression bytes offset settings = some p) :
    Holds p.nodes (p.diagnostics ≠ #[]) (parts p.expr) := by
  unfold parseExpression at h
  dsimp only at h
  split at h
  case h_1 src _ =>
    obtain ⟨⟨expr, t⟩, hrun, rfl⟩ := Option.map_eq_some_iff.1 h
    exact Rule.runFrom_holds settings (fun _ => Rule.yields_statement (Region.settled_reachable _))
      (.expression _) rfl hrun
  case h_2 span _ =>
    cases h
    have excused := settings.encodingFault_ne_empty span
    have fault : Holds {} (settings.encodingFault span ≠ #[])
        (parts (Node.expr ⟨.error, span⟩) + 0) := by
      refine (Holds.empty _).also rfl fun p hp => ?_
      rw [Multiset.mem_singleton.1 hp]
      exact excused
    have proper : (Node.expr ⟨.error, span⟩).Proper := trivial
    exact (fault.add proper).of_eq (add_zero _).symm

/-! ## Forests -/

/-- The places where the trees of a file are rooted: its items and its main function. -/
def FileTree.roots (tree : FileTree) : Multiset NodeRef :=
  ((tree.items ++ tree.main.toList).map NodeRef.decl : List NodeRef)

/-- Values none of which holds a place. -/
lemma refs_parts_list [HasParts α] {l : List α} (h : ∀ a ∈ l, refs (parts a) = 0) :
    refs (parts l) = 0 := by
  induction l with
  | nil => rfl
  | cons a l ih =>
    rw [parts_cons, refs_add, h a (by simp), ih fun b hb => h b (by simp [hb])]
    rfl

lemma refs_parts_option [HasParts α] {o : Option α} (h : ∀ a : α, refs (parts a) = 0) :
    refs (parts o) = 0 := by
  cases o with
  | none => rfl
  | some a => exact h a

/-- A header holds names only. -/
lemma refs_header (header : PackageHeader) : refs (parts header) = 0 :=
  refs_parts_list fun _ _ => rfl

/-- An import holds names only. -/
lemma refs_import (decl : ImportDecl) : refs (parts decl) = 0 := by
  change refs (parts decl.module + parts decl.items) = 0
  rw [refs_add, refs_parts_option fun _ => rfl, refs_parts_list, zero_add]
  intro item _
  change refs (parts item.path + parts item.newName) = 0
  rw [refs_add, refs_parts_list fun _ _ => rfl, refs_parts_option fun _ => rfl, zero_add]

/-- Declarations hold their own places. -/
lemma refs_decls (ids : List DeclId) :
    refs (parts ids) = (ids.map NodeRef.decl : List NodeRef) := by
  induction ids with
  | nil => rfl
  | cons id ids ih =>
    rw [parts_cons, refs_add, ih, List.map_cons, ← Multiset.cons_coe]
    rfl

lemma refs_tree (tree : FileTree) : refs (parts tree) = tree.roots := by
  change refs (parts tree.package + parts tree.imports + parts tree.items + parts tree.main) = _
  rw [refs_add, refs_add, refs_add, refs_parts_option refs_header,
    refs_parts_list fun decl _ => refs_import decl, refs_decls, zero_add, zero_add]
  unfold FileTree.roots
  cases tree.main with
  | none => simp [refs]
  | some id =>
    rw [List.map_append, ← Multiset.coe_add]
    rfl

/-- In every result the trees below the items and the main function, or below the expression, are
a forest. -/
theorem parse_forest (bytes : ByteArray) (settings : Settings) :
    (∀ p, parseFile bytes settings = some p → p.tree.nodes.Forest p.tree.roots)
      ∧ ∀ offset p, parseExpression bytes offset settings = some p →
        p.nodes.Forest {.expr p.expr} := by
  refine ⟨fun p h => ?_, fun offset p h => ?_⟩
  · obtain ⟨⟨_, names⟩, hinto, rfl⟩ := Option.map_eq_some_iff.1 h
    rw [← refs_tree]
    exact (holds_parseFileInto hinto).forest
  · exact (holds_parseExpression h).forest

/-- A function with a call in it, and a sum. -/
theorem parse_forest_of_function :
    (∃ p, parseFile "func f(x: A) \x7b g<B>(x) \x7d".toUTF8 {} = some p
      ∧ p.tree.items = [⟨0⟩] ∧ p.tree.nodes.Forest p.tree.roots)
      ∧ ∃ p, parseExpression "a + b".toUTF8 0 {} = some p
        ∧ p.expr = ⟨2⟩ ∧ p.nodes.Forest {.expr p.expr} := by
  have file : (parseFile "func f(x: A) \x7b g<B>(x) \x7d".toUTF8 {}).map
      (fun p => p.tree.items) = some [⟨0⟩] := by decide +kernel
  have expression : (parseExpression "a + b".toUTF8 0 {}).map (fun p => p.expr) = some ⟨2⟩ := by
    decide +kernel
  obtain ⟨p, hp, items⟩ := Option.map_eq_some_iff.1 file
  obtain ⟨q, hq, expr⟩ := Option.map_eq_some_iff.1 expression
  exact ⟨⟨p, hp, items, (parse_forest _ _).1 p hp⟩, q, hq, expr, (parse_forest _ _).2 0 q hq⟩

/-! ## Placeholders -/

/-- No node is a placeholder, and no node has a name without a text. -/
structure Nodes.Faultless (nodes : Nodes) : Prop where
  exprs : ∀ id node, nodes.exprs.get? id = some node → node.form ≠ .error
  types : ∀ id node, nodes.types.get? id = some node → node.form ≠ .error
  patterns : ∀ id node, nodes.patterns.get? id = some node → node.form ≠ .error
  decls : ∀ id node, nodes.decls.get? id = some node → node.form ≠ .error
  names : ∀ r node, nodes.get? r = some node → .name "" ∉ parts node

/-- Where nothing is excused there is no placeholder and no missing name. -/
lemma Holds.faultless {nodes : Nodes} {excused : Prop} {held : Multiset Part}
    (h : Holds nodes excused held) (hnot : ¬ excused) : nodes.Faultless := by
  have good (r : NodeRef) (node : Node) (hr : nodes.get? r = some node) : .fault ∉ parts node :=
    fun hp => hnot (h.wellFormed.good r node hr .fault hp)
  refine ⟨?_, ?_, ?_, ?_, ?_⟩
  · intro id node hid e
    refine good (.expr id) (.expr node) (by simp [Nodes.get?, hid]) ?_
    change _ ∈ parts node.form
    rw [e]
    exact Multiset.mem_singleton_self _
  · intro id node hid e
    refine good (.type id) (.type node) (by simp [Nodes.get?, hid]) ?_
    change _ ∈ parts node.form
    rw [e]
    exact Multiset.mem_singleton_self _
  · intro id node hid e
    refine good (.pattern id) (.pattern node) (by simp [Nodes.get?, hid]) ?_
    change _ ∈ parts node.form
    rw [e]
    exact Multiset.mem_singleton_self _
  · intro id node hid e
    refine good (.decl id) (.decl node) (by simp [Nodes.get?, hid]) ?_
    change _ ∈ parts node.form + parts node.annotations
    rw [e]
    exact Multiset.mem_add.2 (.inl (Multiset.mem_singleton_self _))
  · exact fun r node hr hp => hnot (h.wellFormed.good r node hr _ hp rfl)

/-- A parse without diagnostics has no placeholder and no missing name. -/
theorem no_silent_fault (bytes : ByteArray) (settings : Settings) :
    (∀ p, parseFile bytes settings = some p → p.diagnostics = #[] →
      p.tree.nodes.Faultless ∧ .name "" ∉ parts p.tree)
      ∧ ∀ offset p, parseExpression bytes offset settings = some p → p.diagnostics = #[] →
        p.nodes.Faultless := by
  refine ⟨fun p h e => ?_, fun offset p h e => ?_⟩
  · obtain ⟨⟨_, names⟩, hinto, rfl⟩ := Option.map_eq_some_iff.1 h
    have hold := holds_parseFileInto hinto
    exact ⟨hold.faultless (not_not_intro e), fun hp => hold.good _ hp rfl e⟩
  · exact (holds_parseExpression h).faultless (not_not_intro e)

/-- A function and an expression that are read without diagnostics. -/
theorem no_silent_fault_of_function :
    (∃ p, parseFile "func f(x: A) \x7b g<B>(x) \x7d".toUTF8 {} = some p
      ∧ p.tree.nodes.Faultless ∧ .name "" ∉ parts p.tree)
      ∧ ∃ p, parseExpression "(a, b) = c".toUTF8 0 {} = some p ∧ p.nodes.Faultless := by
  have file : (parseFile "func f(x: A) \x7b g<B>(x) \x7d".toUTF8 {}).map
      (fun p => p.diagnostics.size) = some 0 := by decide +kernel
  have expression : (parseExpression "(a, b) = c".toUTF8 0 {}).map
      (fun p => p.diagnostics.size) = some 0 := by decide +kernel
  obtain ⟨p, hp, size⟩ := Option.map_eq_some_iff.1 file
  obtain ⟨q, hq, size'⟩ := Option.map_eq_some_iff.1 expression
  have clean := Array.eq_empty_of_size_eq_zero size
  have clean' := Array.eq_empty_of_size_eq_zero size'
  exact ⟨⟨p, hp, (no_silent_fault _ _).1 p hp clean⟩, q, hq, (no_silent_fault _ _).2 0 q hq clean'⟩

end CangjieSyntax
