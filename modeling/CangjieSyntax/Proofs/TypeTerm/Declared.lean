import CangjieSyntax.Grammar.File
import CangjieSyntax.Proofs.TypeTerm.Types

/-!
# Types of variables

A file that declares one variable with the type that is written behind a colon. The variable is the
only item of the file, and its declared type is the one that is written.
-/

namespace CangjieSyntax

variable {env : Env} {s : ParseState} {rest : List Tile} {x : Ident}

/-- What stands in front of the declared type of a variable. -/
def Tile.declares (x : Ident) : List Tile :=
  [.keyword .kwLet, .name x, .mark .colon]

/-- A declaration is that of a variable with a name and a type, and without a value. -/
def Nodes.DeclaresAt (nodes : Nodes) (x : Ident) (t : TypeTerm) (id : DeclId) : Prop :=
  ∃ decl pattern type name span, nodes.decls.get? id = some decl
    ∧ decl.form = .varDecl .letVar pattern (some type) none
    ∧ nodes.patterns.get? pattern = some ⟨.binding name, span⟩ ∧ name.text = x.text
    ∧ t.IsAt nodes type

namespace Rule

variable {call : Call} {t : TypeTerm}

/-- A name in front of a colon is no longer path. -/
lemma walks_dottedName (h : s.Awaits env [] (.name x :: .mark .colon :: rest)) :
    Walks env [] s dottedName (.mark .colon :: rest) fun path _ =>
      ∃ name, path = [name] ∧ name.text = x.text := by
  refine (walks_identifier h).bind fun name t ht hname => .loop fun rounds => .loop_done ?_ rounds
  have hdot : (t.kind == .mark .dot && (t.peek env.src).isIdentifier) = false := by
    have hkind : t.kind = .mark .colon := ht.awaits.kind_eq
    rw [hkind]
    rfl
  refine .view ?_
  rw [hdot, if_neg Bool.false_ne_true]
  exact .pure ht.awaits ⟨[name], rfl, name, rfl, hname⟩

/-- A name in a declaration of variables is a binding. -/
lemma walks_namePattern (h : s.Awaits env [] (.name x :: .mark .colon :: rest)) :
    Walks env [] s (namePattern call .declaration) (.mark .colon :: rest) fun id u =>
      ∃ name span, u.nodes.patterns.get? id = some ⟨.binding name, span⟩ ∧ name.text = x.text := by
  refine .view ((walks_dottedName h).bind ?_)
  rintro _ t ht ⟨name, rfl, hname⟩
  have hkind : t.kind = .mark .colon := ht.awaits.kind_eq
  have hless : (t.kind == .mark .less && !t.lexer.flags.separated) = false := by
    rw [hkind]
    rfl
  have hparen : (t.kind == .mark .openParen) = false := by
    rw [hkind]
    rfl
  refine .view ?_
  rw [hless, if_neg Bool.false_ne_true, pure_bind]
  refine .view ?_
  have hplace : PatternPlace.declaration.allowsAnnotation = false := rfl
  rw [hplace, Bool.false_and, if_neg Bool.false_ne_true]
  refine .view ?_
  rw [hparen, if_neg Bool.false_ne_true]
  refine .view ((walks_allocPattern ht.awaits).mono fun id u _ e => ?_)
  exact ⟨name, _, e, hname⟩

lemma walks_plainPattern (h : s.Awaits env [] (.name x :: .mark .colon :: rest)) :
    Walks env [] s (plainPattern call .declaration) (.mark .colon :: rest) fun id u =>
      ∃ name span, u.nodes.patterns.get? id = some ⟨.binding name, span⟩ ∧ name.text = x.text := by
  have hkind : s.kind = (Tile.name x).kind := h.kind_eq
  have single : Walks env [] s (singlePattern call .declaration) (.mark .colon :: rest) fun id u =>
      ∃ name span, u.nodes.patterns.get? id = some ⟨.binding name, span⟩ ∧ name.text = x.text := by
    refine .view ?_
    rw [hkind, Tile.kind]
    cases x.raw with
    | true => exact walks_namePattern h
    | false => exact walks_namePattern h
  refine .view (single.bind fun id t ht hid => .view ?_)
  have hbar : (t.kind == .mark .bar) = false := by
    have hkind : t.kind = .mark .colon := ht.awaits.kind_eq
    rw [hkind]
    rfl
  rw [hbar, Bool.not_false, if_pos rfl]
  exact .pure ht.awaits hid

/-! ## Declarations -/

/-- A variable with its type, up to the end of the text. -/
lemma walks_varDecl {nesting : Nat} (h : s.Awaits env [] (Tile.declares x ++ t.tiles))
    (hdepth : s.depth + t.levels ≤ env.settings.maxDepth) :
    Walks env [] s (varDecl (callTo nesting) .letVar) [] fun form u => ∃ pattern type name span,
      form = .varDecl .letVar pattern (some type) none
        ∧ u.nodes.patterns.get? pattern = some ⟨.binding name, span⟩ ∧ name.text = x.text
        ∧ t.IsAt u.nodes type := by
  refine (walks_advance h).bind fun _ r hr _ => ?_
  have hlevels := t.levels_pos
  have pattern : Walks env [] r (callTo nesting (.pattern .declaration)) (.mark .colon :: t.tiles)
      fun id u => ∃ name span, u.nodes.patterns.get? id = some ⟨.binding name, span⟩
        ∧ name.text = x.text := by
    cases nesting with
    | zero => exact .endless
    | succ nesting =>
      refine walks_nested (fun id nodes => ∃ name span,
        nodes.patterns.get? id = some ⟨.binding name, span⟩ ∧ name.text = x.text) hr.awaits ?_ ?_
      · have := hr.depth
        omega
      · exact fun u hu _ _ => walks_plainPattern hu
  refine pattern.bind ?_
  rintro pattern u hu ⟨name, span, hpattern, hname⟩
  have type : Walks env [] u (typeBehind (callTo nesting) (.mark .colon)) [] fun type v =>
      ∃ id, type = some id ∧ t.IsAt v.nodes id := by
    refine (walks_optional hu.awaits).bind fun _ v hv e => ?_
    rw [e, if_pos rfl]
    have hdepth' := ((hr.trans hu).trans hv).depth
    have hread : t.ReadBy env (callTo nesting) v.depth := t.readBy_callTo (by omega)
    have hv' : v.Awaits env [] (t.tiles ++ []) := by
      rw [List.append_nil]
      exact hv.awaits
    refine (hread [] [] v hv' rfl List.mem_cons_self).bind fun id w hw hid => ?_
    exact .pure hw.awaits ⟨id, rfl, hid⟩
  refine type.bind ?_
  rintro _ v hv ⟨id, rfl, hid⟩
  have value : Walks env [] v (Rule.behind (.mark .equals) (callTo nesting .expression)) []
      fun value w => value = none ∧ w = v := by
    refine (walks_optional_of_ne (k := .mark .equals) hv.awaits fun e => nomatch e).bind ?_
    rintro _ w hw ⟨rfl, rfl⟩
    exact .pure hw.awaits ⟨rfl, rfl⟩
  refine value.bind ?_
  rintro _ w hw ⟨rfl, rfl⟩
  exact .pure hw.awaits
    ⟨pattern, id, name, span, rfl, hv.nodes.patterns.get?_eq hpattern, hname, hid⟩

/-- A declaration without annotations and modifiers. -/
lemma walks_declaration {nesting : Nat} (h : s.Awaits env [] (Tile.declares x ++ t.tiles))
    (hdepth : s.depth + t.levels ≤ env.settings.maxDepth) :
    Walks env [] s (declaration (callTo nesting) .topLevel) [] fun id u =>
      u.nodes.DeclaresAt x t id := by
  have hkind : s.kind = .keyword .kwLet := h.kind_eq
  have annotations : Walks env [] s (annotations (callTo nesting)) (Tile.declares x ++ t.tiles)
      fun found u => found = ([], none) ∧ u = s := by
    have hat : (s.kind == .mark .atSign) = false := by
      rw [hkind]
      rfl
    refine .loop fun rounds => .loop_done ?_ rounds
    refine .view ?_
    rw [hat, if_neg Bool.false_ne_true]
    exact .pure h ⟨_, rfl, rfl, rfl⟩
  have modifiers : Walks env [] s (modifiers DeclPlace.topLevel.disallowed)
      (Tile.declares x ++ t.tiles) fun _ u => u = s := by
    refine .loop fun rounds => .loop_done ?_ rounds
    refine .view ?_
    rw [ParseState.modifier?, hkind]
    exact .pure h ⟨_, rfl, rfl⟩
  refine .view (annotations.bind ?_)
  rintro _ _ - ⟨rfl, e⟩
  rw [e]
  refine modifiers.bind fun found _ _ e => ?_
  rw [e]
  have form : Walks env [] s (declarationForm (callTo nesting) .topLevel found) [] fun form u =>
      ∃ pattern type name span, form = .varDecl .letVar pattern (some type) none
        ∧ u.nodes.patterns.get? pattern = some ⟨.binding name, span⟩ ∧ name.text = x.text
        ∧ t.IsAt u.nodes type := by
    refine .view ?_
    rw [hkind]
    exact walks_varDecl h hdepth
  refine form.bind ?_
  rintro _ u hu ⟨pattern, type, name, span, rfl, hpattern, hname, htype⟩
  refine .view ((walks_allocDecl hu.awaits).mono fun id v hv e => ?_)
  exact ⟨_, pattern, type, name, span, e, rfl, hv.nodes.patterns.get?_eq hpattern, hname,
    htype.extend hv.nodes.types⟩

/-! ## Files -/

/-- At the end of the text an item has come to its end, however far it has gone. -/
lemma walks_endFileItem {start : Nat} (h : s.Awaits env [] []) :
    Walks env [] s (endFileItem start 0) [] fun _ u => u.nodes = s.nodes := by
  have hkind : s.kind = .endOfFile := h.kind_eq
  have skipped (must : Bool) : Walks env [] s (skipDeclaration must) [] fun _ u =>
      u.nodes = s.nodes := by
    have skip : Walks env [] s (loop skipDeclarationRound (0, must)) [] fun _ u => u = s := by
      refine .loop fun rounds => .loop_done ?_ rounds
      refine .view ?_
      rw [hkind, beq_self_eq_true, if_pos rfl]
      exact .pure h ⟨_, rfl, rfl⟩
    refine skip.bind fun _ _ _ e => ?_
    rw [e]
    rintro _ _ ⟨⟩
    exact ⟨⟨h.congr, rfl, rfl, .refl _⟩, rfl⟩
  have ended : Walks env [] s (atStatementEnd fun _ => false) [] fun ends u =>
      ends = true ∧ u = s := by
    have hsemicolon : (s.kind == .mark .semicolon) = false := by
      rw [hkind]
      rfl
    refine .view ?_
    rw [hsemicolon, if_neg Bool.false_ne_true]
    rintro _ _ ⟨⟩
    refine ⟨h.walked, ?_, rfl⟩
    rw [hkind]
    rfl
  refine .get ?_
  extract_lets progressed
  split
  · exact skipped _
  · refine ended.bind ?_
    rintro _ _ - ⟨rfl, rfl⟩
    exact .pure h rfl

/-- The item of a file that is a variable. -/
lemma walks_file {nesting : Nat} (h : s.Awaits env [] (Tile.declares x ++ t.tiles))
    (hdepth : s.depth + t.levels ≤ env.settings.maxDepth) :
    Walks env [] s (file (callTo nesting)) [] fun tree u =>
      ∃ id, tree = { items := [id] } ∧ u.nodes.DeclaresAt x t id := by
  have hkind : s.kind = .keyword .kwLet := h.kind_eq
  have item : Walks env [] s (placeItem (callTo nesting) {}) [] fun tree u =>
      ∃ id, tree = { items := [id] } ∧ u.nodes.DeclaresAt x t id := by
    have hclass : itemClass env.src s = .declaration := by
      have hkind : s.lexer.kind = .keyword .kwLet := h.lexer.kind
      have hword : s.lexer.isModifierWord = false := by
        rw [Lexer.isModifierWord, hkind]
        rfl
      rw [itemClass, Lexer.kindAfterModifiers, Lexer.steps, Lexer.kindAfterModifiers.go, hword,
        hkind]
      rfl
    refine .view ?_
    rw [hclass]
    refine (walks_declaration h hdepth).bind fun id u hu hid => .get ?_
    have hdeclares := hid
    obtain ⟨⟨_, _, _, _⟩, pattern, type, name, span, e, rfl, -⟩ := hid
    rw [e]
    exact .pure hu.awaits ⟨id, rfl, hdeclares⟩
  refine .loop fun rounds => ?_
  have round : Walks env [] s (fileRound (callTo nesting) {}) [] fun next u =>
      ∃ id, next = .inl { items := [id] } ∧ u.nodes.DeclaresAt x t id := by
    have hend : (s.kind == .endOfFile) = false := by
      rw [hkind]
      rfl
    have hsemicolon : (s.kind == .mark .semicolon) = false := by
      rw [hkind]
      rfl
    refine .view ?_
    rw [hend, if_neg Bool.false_ne_true, hsemicolon, if_neg Bool.false_ne_true]
    refine .get (item.bind ?_)
    rintro _ u hu ⟨id, rfl, hid⟩
    rw [h.errorCount]
    refine (walks_endFileItem hu.awaits).bind fun _ v hv e => ?_
    refine .pure hv.awaits ⟨id, rfl, ?_⟩
    rwa [e]
  refine .loop_next (round.mono ?_) rounds
  rintro _ u hu ⟨id, rfl, hid⟩
  refine ⟨_, rfl, fun rounds => .loop_done ?_ rounds⟩
  have hend : u.kind = .endOfFile := hu.awaits.kind_eq
  refine .view ?_
  rw [hend, beq_self_eq_true, if_pos rfl]
  exact .pure hu.awaits ⟨_, rfl, id, rfl, hid⟩

end Rule

end CangjieSyntax
