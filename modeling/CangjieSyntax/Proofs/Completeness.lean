import CangjieSyntax.Proofs.Termination

/-!
# No declaration is lost

Where nothing is reported and no token is the keyword of a property, every declaration that has been
read is part of the tree. The accessors of a property are the one place where declarations are lost:
a second `get` or `set` takes the place of the first one, whose block is dropped in silence.
-/

namespace CangjieSyntax

variable {env : Env} {s t : ParseState} {α : Type}

lemma Lexer.not_admits_property {src : Source} {l : Lexer} (h : ¬ l.Meets src (.keyword .kwProp)) :
    ¬ l.Admits src (.keyword .kwProp) :=
  not_or_intro nofun h

/-- All declarations that a rule has read lie below what it yields, unless something is excused. -/
lemma ParseState.Fresh.complete_runFrom [HasParts α] {rule : Call → Rule α} {a : α}
    (settings : Settings) (h : s.Fresh env.src) (hnone : ¬ s.lexer.Meets env.src (.keyword .kwProp))
    (hrule : ∀ call, Obeys (.behind env s.lexer) call → Yields (.behind env s.lexer) (rule call))
    (hrun : Rule.runFrom env rule s = some (a, t)) (hclean : settings.locate t.diagnostics = #[]) :
    t.nodes.Complete (refs (parts a)) := by
  obtain ⟨ht, hkeeps⟩ :=
    Rule.runFrom_keeps_behind (Region.settled_behind env s.lexer) hrule h.behind.mem hrun
  have start : Holds (s.advance env.src).nodes (s.advance env.src).Excused (0 + 0) False := by
    have hnodes : s.nodes = {} := by
      cases h with
      | file names => rfl
      | expression offset => rfl
    rw [(s.advance_frame env.src).1, hnodes]
    exact .empty _
  have hold := hkeeps.holds_of (Lexer.not_admits_property hnone) 0 start
  have hexcused : ¬ t.Excused := fun hexcused =>
    diagnostics_of_excused settings ht.1 hexcused hclean
  have hcomplete := (hold.complete.resolve_left id).resolve_left hexcused
  rwa [add_zero] at hcomplete

/-- Nothing that is parsed without a report is dropped from the tree, where no token is the keyword
of a property: every declaration is reached from the items and the main function of a file, and from
an expression. -/
theorem parse_complete (bytes : ByteArray) (settings : Settings) :
    (∀ p, parseFile bytes settings = some p → p.diagnostics = #[] →
      (∀ src, Source.ofBytes bytes = .ok src →
        ¬ (Lexer.ofSource src).Meets src (.keyword .kwProp)) →
      p.tree.nodes.Complete p.tree.roots)
      ∧ ∀ offset p, parseExpression bytes offset settings = some p → p.diagnostics = #[] →
        (∀ src, Source.ofBytes bytes = .ok src →
          ¬ ((Lexer.ofSource src).seek src offset).Meets src (.keyword .kwProp)) →
        p.nodes.Complete {.expr p.expr} := by
  refine ⟨fun p h hclean hnone => ?_, fun offset p h hclean hnone => ?_⟩
  · unfold parseFile parseFileInto at h
    split at h
    case h_1 src hsrc =>
      obtain ⟨⟨_, names⟩, hinto, rfl⟩ := Option.map_eq_some_iff.1 h
      obtain ⟨⟨tree, t⟩, hrun, e⟩ := Option.map_eq_some_iff.1 hinto
      cases e
      have hfresh : ParseState.Fresh src { ParseState.ofSource src with names := .empty } :=
        .file .empty
      have hcomplete := hfresh.complete_runFrom settings (hnone src hsrc)
        (fun _ => Rule.yields_file (Region.settled_behind _ _)) hrun hclean
      rw [← refs_tree]
      exact hcomplete
    case h_2 =>
      obtain ⟨⟨_, names⟩, hinto, rfl⟩ := Option.map_eq_some_iff.1 h
      cases hinto
      exact absurd hclean (settings.encodingFault_ne_empty _)
  · unfold parseExpression at h
    dsimp only at h
    split at h
    case h_1 src hsrc =>
      have hbytes := (Source.ofBytes_of_decoded hsrc).1
      rw [← Source.size_of_ofBytes hbytes] at h
      obtain ⟨⟨expr, t⟩, hrun, rfl⟩ := Option.map_eq_some_iff.1 h
      have hfresh : ParseState.Fresh src { ParseState.ofSource src with
          lexer := (Lexer.ofSource src).seek src (min offset src.size)
          prevStop := min offset src.size } := .expression _
      have hmeets := hnone src hbytes
      rw [← Lexer.seek_min] at hmeets
      exact hfresh.complete_runFrom settings hmeets
        (fun _ => Rule.yields_statement (Region.settled_behind _ _)) hrun hclean
    case h_2 span _ =>
      cases h
      exact absurd hclean (settings.encodingFault_ne_empty span)

/-- A function in the first of two `get` accessors is not a part of the tree, and nothing is
reported. -/
example :
    (parseFile "class C \x7bprop x: A \x7b get() \x7b func f() \x7b\x7d \x7d get() \x7b\x7d \x7d \x7d".toUTF8 {}).map
      (fun p => (p.diagnostics.size, p.tree.roots,
        (List.range p.tree.nodes.decls.size).map fun i => p.tree.nodes.children (.decl ⟨i⟩)))
      = some (0, {.decl ⟨2⟩}, [0, {.type ⟨0⟩}, {.decl ⟨1⟩}]) := by
  decide +kernel

end CangjieSyntax
