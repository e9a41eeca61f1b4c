import CangjieSyntax.Proofs.Termination
import CangjieSyntax.Proofs.TypeTerm.Declared
import CangjieSyntax.Proofs.TypeTerm.Values

/-!
# Function types read back

A function type is laid out with or without blanks between its tiles, except that none lies in front
of a `<`. It is found again as it was, in the place of a value and as the declared type of a
variable.
-/

namespace CangjieSyntax

variable {env : Env} {s : ParseState} {src : Source} {l : Lexer} {tiles : List Tile}
  {cs : List Char} {α : Type}

/-! ## Parses of a row -/

namespace Lexer.Before

variable (h : l.Before src tiles)

include h

/-- The tokens of a row are its tiles, and none of them closes a hole. -/
lemma kinds_scanAll (rounds : Nat) :
    ∀ t ∈ (scanAll.go src rounds l).1, t.1.kind ≠ .interpolationEnd := by
  induction rounds generalizing l tiles with
  | zero => exact List.forall_mem_nil _
  | succ rounds ih =>
    have hscan := h.scan
    rw [scanAll.go]
    cases tiles with
    | nil =>
      have hkind : (l.scan src).kind = .endOfFile := hscan.kind
      rw [if_pos hkind]
      refine List.forall_mem_singleton.2 ?_
      rw [token, hkind]
      rintro ⟨⟩
    | cons t tiles =>
      have hkind : t.kind ≠ .endOfFile ∧ t.kind ≠ .interpolationEnd := by
        cases t with
        | name x =>
          rw [Tile.kind]
          cases x.raw <;> exact ⟨by rintro ⟨⟩, by rintro ⟨⟩⟩
        | keyword k | mark p => exact ⟨by rintro ⟨⟩, by rintro ⟨⟩⟩
      have hkind' : (l.scan src).kind = t.kind := hscan.kind
      rw [hkind', if_neg hkind.1]
      refine List.forall_mem_cons.2 ⟨?_, ih hscan.before⟩
      rw [token, hkind']
      exact hkind.2

lemma sparesMembers : SparesMembers (l.Meets src) := by
  refine .inl ?_
  rintro ⟨t, ht, e⟩
  exact h.kinds_scanAll _ t ht e

end Lexer.Before

namespace ParseState.Fresh

variable (h : s.Fresh env.src) (hbefore : s.lexer.Before env.src tiles)

include h hbefore

/-- A parse that begins ahead of a row stands at its first tile. -/
lemma walks_begin : Walks env [] s Rule.begin tiles fun _ u =>
    u.depth = 0 ∧ u.tentative.limit = none := by
  have hscan := hbefore.scanKnown
  have hadvance : s.advance env.src = { s with
      lexer := s.lexer.scanKnown env.src, prevStop := s.lexer.pos, prevSpan := s.lexer.span
      prevKind := s.lexer.kind, tokenCount := s.tokenCount + 1 } := by
    refine Awaits.advance_eq_of_limit ?_ (hscan.before.log.trans hbefore.log.symm)
    cases h <;> exact fun _ h => nomatch h
  rintro _ _ ⟨⟩
  dsimp only
  rw [hadvance]
  have hlexer : (s.lexer.scanKnown env.src).Awaits env.src (tiles ++ []) := by
    rwa [List.append_nil]
  cases h with
  | file names =>
    exact ⟨⟨⟨hlexer, rfl, rfl, rfl, rfl, rfl, fun _ h => nomatch h⟩, rfl, rfl, .refl _⟩, rfl, rfl⟩
  | expression offset =>
    exact ⟨⟨⟨hlexer, rfl, rfl, rfl, rfl, rfl, fun _ h => nomatch h⟩, rfl, rfl, .refl _⟩, rfl, rfl⟩

/-- A rule that takes a whole row and comes to an end has nothing to report. -/
lemma runFrom_row {rule : Call → Rule α} {post : α → ParseState → Prop}
    (hreturns : ∀ {J : Region env} {allowed : Kind → Prop} {call : Call},
      SparesMembers allowed → Responds J allowed call → Returns J 0 (rule call))
    (hrule : ∀ t : ParseState, t.Awaits env [] tiles → t.depth = 0 → t.tentative.limit = none →
      Walks env [] t (rule (Rule.callTo env.nesting)) [] post) :
    ∃ a u, Rule.runFrom env rule s = some (a, u) ∧ u.diagnostics = #[] ∧ post a u := by
  obtain ⟨⟨a, u⟩, hrun⟩ := Option.isSome_iff_exists.1
    (h.isSome_runFrom hbefore.sparesMembers hreturns)
  have hwalks : Walks env [] s (do Rule.begin; rule (Rule.callTo env.nesting)) [] post :=
    (h.walks_begin hbefore).bind fun _ t ht ⟨hdepth, hlimit⟩ => hrule t ht.awaits hdepth hlimit
  obtain ⟨hu, ha⟩ := hwalks a u hrun
  refine ⟨a, u, hrun, ?_, ha⟩
  rw [ParseState.diagnostics, hu.awaits.lexer.before.log, hu.awaits.log]
  simp [Log.sorted]

end ParseState.Fresh

lemma Settings.locate_empty (settings : Settings) : settings.locate #[] = #[] := by
  rw [locate]
  split
  · simp [Log.inFile]
  · rfl

variable {settings : Settings}

/-- At the start of a text that is a row, the lexer is ahead of it. -/
lemma Row.before_seek (h : Row tiles src.text.toList) :
    ((Lexer.ofSource src).seek src 0).Before src tiles := by
  have hpos : ((Lexer.ofSource src).seek src 0).pos = 0 := Nat.zero_min _
  exact ⟨rfl, rfl, _, h, hpos ▸ Source.ahead_zero⟩

/-- A text that is a row, all of which is taken as a statement, is parsed with nothing reported. -/
lemma Row.parseExpression (good : ExprId → Nodes → Prop) (h : Row tiles src.text.toList)
    (hrule : ∀ s : ParseState, s.Awaits ⟨src, settings, true⟩ [] tiles → s.depth = 0 →
      s.tentative.limit = none → ∀ nesting, Walks ⟨src, settings, true⟩ [] s
        (Rule.statement (Rule.callTo nesting)) [] fun id u => good id u.nodes) :
    ∃ p, src.parseExpression 0 settings = some p ∧ p.diagnostics = #[] ∧ good p.expr p.nodes := by
  have hfresh : ParseState.Fresh (Env.mk src settings true).src { ParseState.ofSource src with
      lexer := (Lexer.ofSource src).seek src 0, prevStop := 0 } := .expression 0
  obtain ⟨id, u, hrun, hlog, hid⟩ := hfresh.runFrom_row h.before_seek
    (fun _ h => Rule.returns_statement h.opens) fun s hs hdepth hlimit =>
      hrule s hs hdepth hlimit _
  refine ⟨_, congrArg (Option.map _) hrun, ?_, hid⟩
  show settings.locate u.diagnostics = #[]
  rw [hlog, Settings.locate_empty]

/-! ## Function types -/

variable {row : List (List Char × Tile)} {params : List (Labelled TypeTerm)} {result t : TypeTerm}

namespace Rule

open TypeTerm

/-- A function type by itself is a statement. -/
lemma walks_statement {nesting : Nat} (h : s.Awaits env [] (arrow params result).tiles)
    (hlimit : s.tentative.limit = none)
    (hdepth : s.depth + (arrow params result).levels < env.settings.maxDepth)
    (hbudget : (arrow params result).longestArgs ≤ env.settings.budget) :
    Walks env [] s (statement (callTo nesting)) [] fun id u => ∃ type span,
      u.nodes.exprs.get? id = some ⟨.typeValue type, span⟩
        ∧ (arrow params result).IsAt u.nodes type := by
  have hend : Tile.front ([] ++ []) ∈ Kind.behindValue := List.mem_cons_self
  have h : s.Awaits env [] ((arrow params result).tiles ++ []) := by
    rwa [List.append_nil]
  rw [levels] at hdepth
  rw [longestArgs] at hbudget
  refine .view (walks_unassigned ?_ hend)
  refine walks_operand (fun id nodes => ∃ type span,
    nodes.exprs.get? id = some ⟨.typeValue type, span⟩ ∧ (arrow params result).IsAt nodes type)
    h (by omega) hend fun u hu hudepth htentative => ?_
  refine walks_arrowChain hu ((congrArg Tentative.limit htentative).trans hlimit) hend
    (fun p hp => ?_) (fun p hp => ?_) ?_
  · have := levels_le_levelsOfParams p hp
    exact p.type.readBy_callTo (by omega)
  · have := levels_le_levelsOfParams p hp
    have := longestArgs_le_longestArgsOfParams p hp
    exact p.type.valuedBy_callTo (by omega) (by omega)
  · exact result.readBy_callTo (by omega)

end Rule

namespace TypeTerm

/-- A function type in the place of a value. -/
lemma parseExpression_arrow (hrow : Row (arrow params result).tiles src.text.toList)
    (hdepth : (arrow params result).levels < settings.maxDepth)
    (hbudget : (arrow params result).longestArgs ≤ settings.budget) :
    ∃ p, src.parseExpression 0 settings = some p ∧ p.diagnostics = #[] ∧ ∃ type span,
      p.nodes.exprs.get? p.expr = some ⟨.typeValue type, span⟩
        ∧ (arrow params result).IsAt p.nodes type :=
  hrow.parseExpression (fun id nodes => ∃ type span,
      nodes.exprs.get? id = some ⟨.typeValue type, span⟩ ∧ (arrow params result).IsAt nodes type)
    fun s hs hdepth' hlimit nesting =>
      Rule.walks_statement hs hlimit (by rwa [hdepth', Nat.zero_add]) hbudget

/-- A type as the declared type of a variable. -/
lemma parseFile_declares {x : Ident} (hrow : Row (Tile.declares x ++ t.tiles) src.text.toList)
    (hmark : src.startsWith 0 Source.byteOrderMark = false)
    (hdepth : t.levels ≤ settings.maxDepth) :
    ∃ f names, src.parseFile settings .empty = some (f, names) ∧ f.diagnostics = #[] ∧ ∃ id,
      f.tree.package = none ∧ f.tree.imports = [] ∧ f.tree.main = none ∧ f.tree.items = [id]
        ∧ f.tree.nodes.DeclaresAt x t id := by
  have hpos : (Lexer.ofSource src).pos = 0 := by
    rw [Lexer.ofSource, hmark]
    rfl
  have hbefore : (Lexer.ofSource src).Before src (Tile.declares x ++ t.tiles) :=
    ⟨rfl, rfl, _, hrow, hpos ▸ Source.ahead_zero⟩
  have hfresh : ParseState.Fresh (Env.mk src settings true).src
      { ParseState.ofSource src with names := .empty } := .file .empty
  obtain ⟨tree, u, hrun, hlog, id, rfl, hid⟩ := hfresh.runFrom_row hbefore
    (fun hspares h => Rule.returns_file h hspares) fun s hs hdepth' _ =>
      Rule.walks_file hs (by rwa [hdepth', Nat.zero_add])
  refine ⟨_, _, congrArg (Option.map _) hrun, ?_, id, rfl, rfl, rfl, rfl, hid⟩
  show settings.locate u.diagnostics = #[]
  rw [hlog, Settings.locate_empty]

end TypeTerm

/-- The name of a variable. -/
def Ident.x : Ident where
  text := "x"
  starts := by decide +kernel
  parts := by decide +kernel
  free _ := by decide +kernel

/-- A type in the declaration of a variable. -/
lemma Row.declares (h : Row t.tiles cs) :
    Row (Tile.declares .x ++ t.tiles) ("let x: ".toList ++ cs) := by
  have blank : ' ' ∈ Tile.blanks := by decide
  have hless : t.tiles.head? ≠ some (.mark .less) := by
    simpa using t.head?_ne_less []
  have colon : Row (.mark .colon :: t.tiles) (':' :: ' ' :: cs) :=
    (h.blank_cons blank hless).cons_tile (by decide : .colon ∈ Tile.marks)
      fun u _ => Tile.touches_of_extensions rfl u
  have name : Row (.name .x :: .mark .colon :: t.tiles) ('x' :: ':' :: ' ' :: cs) := by
    refine colon.cons_tile trivial ?_
    rintro _ ⟨⟩
    exact Tile.name_touches (by decide)
  have row : Row (Tile.declares .x ++ t.tiles)
      ([] ++ ((Tile.keyword .kwLet).chars ++ ' ' :: 'x' :: ':' :: ' ' :: cs)) := by
    refine .cons (fun _ h => nomatch h) (fun e => nomatch e) trivial ?_
      (name.blank_cons blank (fun e => nomatch e))
    rintro _ ⟨⟩
    exact Tile.endsAt_blank _ _ blank
  exact row

/-- Parsing a text as an expression from its start on. -/
lemma parseExpression_toUTF8 (text : String) (settings : Settings) :
    parseExpression text.toUTF8 0 settings = (Source.ofString text).parseExpression 0 settings :=
  parseExpression_of_isBoundary Source.ahead_zero.isBoundary settings

/-- A function type reads the same as a value and as a type, if the nesting allows for it and each
list of type arguments keeps within the budget: as it is written, with nothing reported. -/
theorem parse_functionType {text : String}
    (hrow : row.map Prod.snd = (TypeTerm.arrow params result).tiles) (hspaced : Tile.Spaced row)
    (htext : text.toList = Tile.laidOut row)
    (hdepth : (TypeTerm.arrow params result).levels < settings.maxDepth)
    (hbudget : (TypeTerm.arrow params result).longestArgs ≤ settings.budget) :
    (∃ p, parseExpression text.toUTF8 0 settings = some p ∧ p.diagnostics = #[] ∧ ∃ type span,
        p.nodes.exprs.get? p.expr = some ⟨.typeValue type, span⟩
          ∧ (TypeTerm.arrow params result).IsAt p.nodes type)
      ∧ ∃ f, parseFile ("let x: " ++ text).toUTF8 settings = some f ∧ f.diagnostics = #[] ∧ ∃ id,
        f.tree.package = none ∧ f.tree.imports = [] ∧ f.tree.main = none ∧ f.tree.items = [id]
          ∧ f.tree.nodes.DeclaresAt .x (.arrow params result) id := by
  have written : Row (TypeTerm.arrow params result).tiles text.toList :=
    htext ▸ TypeTerm.row_tiles _ hrow hspaced
  constructor
  · rw [parseExpression_toUTF8]
    exact TypeTerm.parseExpression_arrow written hdepth hbudget
  · have hlist :
        (Source.ofString ("let x: " ++ text)).text.toList = "let x: ".toList ++ text.toList :=
      String.toList_append
    have hmark :
        (Source.ofString ("let x: " ++ text)).startsWith 0 Source.byteOrderMark = false := by
      have hbyte : (Source.ofString ("let x: " ++ text)).byteAt 0 = some 0x6C := by
        have hahead :
            (Source.ofString ("let x: " ++ text)).Ahead 0 ("let x: ".toList ++ text.toList) :=
          hlist ▸ Source.ahead_zero
        exact hahead.byteAt 0
      rw [Source.byteOrderMark, Source.startsWith, hbyte]
      rfl
    obtain ⟨f, names, hparse, hdeclares⟩ :=
      TypeTerm.parseFile_declares (hlist ▸ written.declares) hmark (Nat.le_of_lt hdepth)
    refine ⟨f, ?_, hdeclares⟩
    rw [parseFile, parseFileInto, Source.ofBytes_toUTF8]
    exact congrArg (Option.map Prod.fst) hparse

/-- A function type with type arguments, optionals, labels and a name between backquotes. -/
def TypeTerm.visitor : TypeTerm :=
  let name (text : String) (starts : text.toList.head?.any Unicode.isIdentifierStart)
      (parts : text.toList.all Unicode.isIdentifierPart)
      (free : Keyword.ofText? text = none ∧ text ≠ "_") : Ident :=
    ⟨text, false, starts, parts, fun _ => free⟩
  let plain (x : Ident) : TypeTerm := .path ⟨x, []⟩ []
  let a := name "a" (by decide +kernel) (by decide +kernel) (by decide +kernel)
  let é := name "é" (by decide +kernel) (by decide +kernel) (by decide +kernel)
  let int := name "Int64" (by decide +kernel) (by decide +kernel) (by decide +kernel)
  let map := name "Map" (by decide +kernel) (by decide +kernel) (by decide +kernel)
  let raw : Ident := ⟨"class", true, by decide +kernel, by decide +kernel, fun e => nomatch e⟩
  .arrow
    [⟨some a, .path ⟨map, [plain int, .tuple (plain a) []]⟩ [⟨raw, []⟩]⟩,
     ⟨none, .optional (.optional (.arrow [⟨some é, plain a⟩, ⟨none, .unit⟩] (plain raw)))⟩,
     ⟨none, .parens (.path ⟨map, [.path ⟨map, [plain a]⟩ []]⟩ [])⟩]
    (.path ⟨a, []⟩ [⟨map, [.optional (plain int)]⟩])

/-- A layout with a blank in front of each arrow. -/
def TypeTerm.visitorRow : List (List Char × Tile) :=
  visitor.tiles.map fun t => (if t = .mark .thinArrow then [' '] else [], t)

def TypeTerm.visitorText : String :=
  "(a:Map<Int64,(a,)>.`class`,??(é:a,()) ->`class`,(Map<Map<a>>)) ->a.Map<?Int64>"

/-- A function type with no token to spare in the budget. -/
theorem parse_functionType_of_visitor :
    TypeTerm.visitorRow.map Prod.snd = TypeTerm.visitor.tiles
      ∧ Tile.Spaced TypeTerm.visitorRow
      ∧ TypeTerm.visitorText.toList = Tile.laidOut TypeTerm.visitorRow
      ∧ TypeTerm.visitor.levels < 6 ∧ TypeTerm.visitor.longestArgs ≤ 8
      ∧ (∃ p, parseExpression TypeTerm.visitorText.toUTF8 0 { maxDepth := 6, budget := 8 } = some p
        ∧ p.diagnostics = #[]
        ∧ ∃ type span, p.nodes.exprs.get? p.expr = some ⟨.typeValue type, span⟩
          ∧ TypeTerm.visitor.IsAt p.nodes type)
      ∧ ∃ f, parseFile ("let x: " ++ TypeTerm.visitorText).toUTF8 { maxDepth := 6, budget := 8 }
          = some f
        ∧ f.diagnostics = #[] ∧ ∃ id, f.tree.package = none ∧ f.tree.imports = []
          ∧ f.tree.main = none ∧ f.tree.items = [id]
          ∧ f.tree.nodes.DeclaresAt .x TypeTerm.visitor id := by
  have hrow : TypeTerm.visitorRow.map Prod.snd = TypeTerm.visitor.tiles := by decide +kernel
  have hspaced : Tile.Spaced TypeTerm.visitorRow := by decide +kernel
  have htext : TypeTerm.visitorText.toList = Tile.laidOut TypeTerm.visitorRow := by decide +kernel
  have hdepth : TypeTerm.visitor.levels < 6 := by decide +kernel
  have hbudget : TypeTerm.visitor.longestArgs ≤ 8 := by decide +kernel
  exact ⟨hrow, hspaced, htext, hdepth, hbudget,
    parse_functionType hrow hspaced htext hdepth hbudget⟩

end CangjieSyntax
