import CangjieSyntax.Proofs.Chain.Roundtrip
import CangjieSyntax.Proofs.Grammar.Operand

/-!
# Imports spread out

An import is written as a tree: a dotted path ends in a name, in another name for what it names, in
a star for all behind it, or in a group of trees in braces. What it brings in is told leaf by leaf,
each with the whole path that leads to it, and that is what is read of it.
-/

namespace CangjieSyntax

/-- A dotted path with one name on it or more. -/
structure DottedPath where
  first : Ident
  others : List Ident

/-- What one path of an import brings in: what it names, or all behind it. -/
structure Imported where
  path : List String
  wildcard : Bool := false
  newName : Option String := none
  deriving DecidableEq

/-- An import as it is written. A comma may stand behind the last member of a group. -/
inductive ImportTree where
  | one (path : DottedPath) (newName : Option Ident)
  | all (path : DottedPath)
  | group (path : DottedPath) (first : ImportTree) (others : List ImportTree) (comma : Bool)

namespace DottedPath

def texts (p : DottedPath) : List String :=
  p.first.text :: p.others.map Ident.text

/-- Names, each behind a point. -/
def tilesBehind (others : List Ident) : List Tile :=
  others.flatMap fun x => [.mark .dot, .name x]

def tiles (p : DottedPath) : List Tile :=
  .name p.first :: tilesBehind p.others

end DottedPath

/-- What an item of an import brings in. -/
def ImportItem.imported (item : ImportItem) : Imported where
  path := item.path.map Name.text
  wildcard := item.wildcard
  newName := item.newName.map Name.text

namespace ImportTree

/-- Another name behind the keyword, where there is one. -/
def renamingTiles : Option Ident → List Tile
  | some x => [.keyword .kwAs, .name x]
  | none => []

mutual

def tiles : ImportTree → List Tile
  | one path newName => path.tiles ++ renamingTiles newName
  | all path => path.tiles ++ [.mark .dot, .mark .star]
  | group path first others comma => path.tiles ++ .mark .dot :: .mark .openBrace ::
    (first.tiles ++ (tilesBehind others ++ (TypeTerm.trailing comma ++ [.mark .closeBrace])))

/-- Some trees, each behind a comma. -/
def tilesBehind : List ImportTree → List Tile
  | [] => []
  | t :: others => .mark .comma :: (t.tiles ++ tilesBehind others)

end

mutual

/-- What a tree brings in behind some path, leaf by leaf. -/
def leaves : ImportTree → List String → List Imported
  | one path newName, leading =>
    [{ path := leading ++ path.texts, newName := newName.map Ident.text }]
  | all path, leading => [{ path := leading ++ path.texts, wildcard := true }]
  | group path first others _, leading =>
    first.leaves (leading ++ path.texts) ++ leavesOf others (leading ++ path.texts)

def leavesOf : List ImportTree → List String → List Imported
  | [], _ => []
  | t :: others, leading => t.leaves leading ++ leavesOf others leading

end

/-- What holds of a tree if it holds of the members of its group holds of every tree. -/
theorem induct {P : ImportTree → Prop} (one : ∀ path newName, P (.one path newName))
    (all : ∀ path, P (.all path))
    (group : ∀ path first others comma, (∀ t ∈ first :: others, P t) →
      P (.group path first others comma)) (t : ImportTree) : P t := by
  refine @ImportTree.rec P (fun ts => ∀ t ∈ ts, P t) one all ?_ (fun _ h => nomatch h)
    (fun _ _ h hs => List.forall_mem_cons.2 ⟨h, hs⟩) t
  intro path first others comma hfirst hothers
  exact group path first others comma (List.forall_mem_cons.2 ⟨hfirst, hothers⟩)

end ImportTree

/-! ## Imports as rows of tiles -/

namespace Tile

variable {n : Nat}

lemma leads_path (p : DottedPath) : Leads n p.tiles n := by
  have behind (others : List Ident) : Leads n (DottedPath.tilesBehind others) n := by
    induction others with
    | nil => exact .nil
    | cons x others ih => exact .mark (by decide) (.name x ih)
  exact .name p.first (behind p.others)

/-- A group closes the brace that it opens. -/
lemma leads_import (t : ImportTree) : Leads n t.tiles n := by
  induction t using ImportTree.induct generalizing n with
  | one path newName =>
    have another : Leads n (ImportTree.renamingTiles newName) n := by
      cases newName with
      | none => exact .nil
      | some x => exact .keyword .kwAs (.name x .nil)
    exact (leads_path path).append another
  | all path => exact (leads_path path).append (.mark (by decide) (.mark (by decide) .nil))
  | group path first others comma ih =>
    obtain ⟨hfirst, hothers⟩ := List.forall_mem_cons.1 ih
    have behind : Leads (n + 1) (ImportTree.tilesBehind others) (n + 1) := by
      clear hfirst ih
      induction others with
      | nil => exact .nil
      | cons t others ih =>
        obtain ⟨ht, hothers⟩ := List.forall_mem_cons.1 hothers
        exact .mark (by decide) (ht.append (ih hothers))
    have closing : Leads (n + 1) (TypeTerm.trailing comma ++ [.mark .closeBrace]) n := by
      cases comma with
      | false => exact .closing .nil
      | true => exact .mark (by decide) (.closing .nil)
    exact (leads_path path).append
      (.mark (by decide) (.opening (hfirst.append (behind.append closing))))

end Tile

variable {env : Env} {s : ParseState} {rest : List Shape} {nesting : Nat} {leading : List Name}

/-- The kinds of the tokens that stand behind a path of an import. -/
def Kind.importEnds : List Kind :=
  [.endOfFile, .mark .comma, .mark .closeBrace]

namespace Rule

/-! ## Paths -/

/-- Each round takes one point with the name behind it, as long as there are such. -/
lemma crosses_dottedNameRounds (others : List Ident) {path : List Name}
    (h : s.Stands env ((DottedPath.tilesBehind others).map Tile.shape ++ rest))
    (hrest : (Shape.front rest == .mark .dot && (Shape.front rest.tail).isIdentifier) = false)
    (rounds : Nat) :
    Crosses env ((DottedPath.tilesBehind others).map Tile.shape ++ rest) s
      (loopUpTo dottedNameRound rounds path) rest
      fun found _ => found.map Name.text = path.map Name.text ++ others.map Ident.text := by
  induction others generalizing s path rounds with
  | nil =>
    have hstop : (s.kind == .mark .dot && (s.peek env.src).isIdentifier) = false := by
      cases rest with
      | nil => rw [h.kind_eq]; rfl
      | cons p rest => rwa [h.kind_eq, h.peek_eq]
    refine .loop_done ?_ rounds
    refine .view ?_
    rw [hstop, if_neg Bool.false_ne_true]
    exact .pure h ⟨path, rfl, (List.append_nil _).symm⟩
  | cons x others ih =>
    have h : s.Stands env (.mark .dot :: x.shape ::
        ((DottedPath.tilesBehind others).map Tile.shape ++ rest)) := h
    have hnext : (s.kind == .mark .dot && (s.peek env.src).isIdentifier) = true := by
      rw [h.kind_eq, h.peek_eq]
      obtain e | e := x.kind_shape <;> rw [Shape.front, Shape.front, e] <;> rfl
    have round : Crosses env (.mark .dot :: x.shape ::
        ((DottedPath.tilesBehind others).map Tile.shape ++ rest)) s (dottedNameRound path)
        ((DottedPath.tilesBehind others).map Tile.shape ++ rest)
        fun next _ => ∃ n : Name, next = .inl (path ++ [n]) ∧ n.text = x.text := by
      refine .view ?_
      rw [hnext, if_pos rfl]
      refine (crosses_advance h).bind fun _ t ht _ => ?_
      refine (crosses_identifier ht.stands (isIdentifier_name x)).bind fun n u hu hn => ?_
      exact .pure hu.stands ⟨n, rfl, hn⟩
    refine .loop_next (round.mono ?_) rounds
    rintro _ t ht ⟨n, rfl, hn⟩
    refine ⟨_, rfl, fun rounds => (ih ht.stands rounds).mono ?_⟩
    intro found u _ hfound
    simpa [hn] using hfound

lemma crosses_dottedName (p : DottedPath) (h : s.Stands env (p.tiles.map Tile.shape ++ rest))
    (hrest : (Shape.front rest == .mark .dot && (Shape.front rest.tail).isIdentifier) = false) :
    Crosses env (p.tiles.map Tile.shape ++ rest) s dottedName rest
      fun path _ => path.map Name.text = p.texts := by
  have h : s.Stands env (p.first.shape ::
      ((DottedPath.tilesBehind p.others).map Tile.shape ++ rest)) := h
  refine (crosses_identifier h (isIdentifier_name p.first)).bind fun n t ht hn => ?_
  refine .loop fun rounds => (crosses_dottedNameRounds p.others ht.stands hrest rounds).mono ?_
  intro path u _ hpath
  rw [hpath, List.map_singleton, hn]
  rfl

/-! ## Trees -/

/-- Wherever a path of an import may end behind a tree, its leaves are read. -/
def ReadsLeaves (env : Env) (t : ImportTree) : Prop :=
  ∀ ⦃s : ParseState⦄ ⦃rest : List Shape⦄ ⦃leading : List Name⦄ (nesting : Nat),
    s.Stands env (t.tiles.map Tile.shape ++ rest) → Shape.front rest ∈ Kind.importEnds →
    Crosses env (t.tiles.map Tile.shape ++ rest) s (callTo nesting (.importPaths leading)) rest
      fun items _ => items.map ImportItem.imported = t.leaves (leading.map Name.text)

section

variable {t : ImportTree} {others : List ImportTree} {groups : List (List ImportItem)}

/-- A tree is neither the end of a group nor that of the text. -/
lemma goesOn_import (t : ImportTree) (rest : List Shape) :
    (Shape.front (t.tiles.map Tile.shape ++ rest) == .mark .closeBrace
      || Shape.front (t.tiles.map Tile.shape ++ rest) == .endOfFile) = false := by
  have name (x : Ident) : (x.shape.kind == .mark .closeBrace || x.shape.kind == .endOfFile)
      = false := by
    obtain e | e := x.kind_shape <;> rw [e] <;> rfl
  cases t with
  | one path _ | all path | group path _ _ _ => exact name path.first

/-- A member of a group, with a comma behind it. -/
lemma crosses_importMember (hreads : ReadsLeaves env t)
    (h : s.Stands env (t.tiles.map Tile.shape ++ .mark .comma :: rest)) :
    Crosses env (t.tiles.map Tile.shape ++ .mark .comma :: rest) s
      (listRound (.mark .closeBrace) (callTo nesting (.importPaths leading)) groups) rest
      fun next _ => ∃ items : List ImportItem, next = .inl (groups ++ [items])
        ∧ items.map ImportItem.imported = t.leaves (leading.map Name.text) := by
  have hcomma : Kind.mark .comma ∈ Kind.importEnds := by decide
  refine .view ?_
  rw [h.kind_eq, goesOn_import, if_neg Bool.false_ne_true]
  refine (hreads nesting h hcomma).bind fun items u hu hitems => ?_
  refine (crosses_optional hu.stands).bind ?_
  rintro _ v hv rfl
  exact .pure hv.stands ⟨items, rfl, hitems⟩

/-- The members of a group, up to the brace that closes it. -/
lemma crosses_importMembers {comma : Bool} (hreads : ∀ u ∈ t :: others, ReadsLeaves env u)
    (h : s.Stands env (t.tiles.map Tile.shape ++ ((ImportTree.tilesBehind others).map Tile.shape
      ++ ((TypeTerm.trailing comma).map Tile.shape ++ .mark .closeBrace :: rest))))
    (rounds : Nat) :
    Crosses env (t.tiles.map Tile.shape ++ ((ImportTree.tilesBehind others).map Tile.shape
      ++ ((TypeTerm.trailing comma).map Tile.shape ++ .mark .closeBrace :: rest))) s
      (loopUpTo (listRound (.mark .closeBrace) (callTo nesting (.importPaths leading))) rounds
        groups) (.mark .closeBrace :: rest)
      fun found _ => ∃ more, found = groups ++ more ∧ more.flatten.map ImportItem.imported
        = ImportTree.leavesOf (t :: others) (leading.map Name.text) := by
  have hclose : Kind.mark .closeBrace ∈ Kind.importEnds := by decide
  induction others generalizing t s groups rounds with
  | nil =>
    have ht := hreads t List.mem_cons_self
    cases comma with
    | false =>
      have h : s.Stands env (t.tiles.map Tile.shape ++ .mark .closeBrace :: rest) := h
      have noComma : Shape.front (.mark .closeBrace :: rest) ≠ .mark .comma := by
        rintro ⟨⟩
      refine .loop_done ?_ rounds
      refine .view ?_
      rw [h.kind_eq, goesOn_import, if_neg Bool.false_ne_true]
      refine (ht nesting h hclose).bind fun items u hu hitems => ?_
      refine (crosses_optional_of_ne hu.stands noComma).bind ?_
      rintro _ _ - ⟨rfl, rfl⟩
      refine .pure hu.stands ⟨_, rfl, [items], rfl, ?_⟩
      simpa [ImportTree.leavesOf] using hitems
    | true =>
      have h : s.Stands env (t.tiles.map Tile.shape
          ++ .mark .comma :: .mark .closeBrace :: rest) := h
      refine .loop_next ((crosses_importMember ht h).mono ?_) rounds
      rintro _ u hu ⟨items, rfl, hitems⟩
      refine ⟨_, rfl, fun rounds => .loop_done ?_ rounds⟩
      refine .view ?_
      rw [hu.stands.kind_eq]
      refine .pure hu.stands ⟨_, rfl, [items], rfl, ?_⟩
      simpa [ImportTree.leavesOf] using hitems
  | cons next others ih =>
    obtain ⟨ht, hothers⟩ := List.forall_mem_cons.1 hreads
    rw [ImportTree.tilesBehind, List.map_cons, List.map_append, List.cons_append,
      List.append_assoc] at h ⊢
    refine .loop_next ((crosses_importMember ht h).mono ?_) rounds
    rintro _ u hu ⟨items, rfl, hitems⟩
    refine ⟨_, rfl, fun rounds => (ih hothers hu.stands rounds).mono ?_⟩
    rintro _ v - ⟨more, rfl, hmore⟩
    refine ⟨items :: more, List.append_assoc .., ?_⟩
    rw [List.flatten_cons, List.map_append, hitems, hmore]
    rfl

end

/-- Another name, where it is written. -/
lemma crosses_newName (newName : Option Ident)
    (h : s.Stands env ((ImportTree.renamingTiles newName).map Tile.shape ++ rest))
    (hrest : Shape.front rest ∈ Kind.importEnds) :
    Crosses env ((ImportTree.renamingTiles newName).map Tile.shape ++ rest) s
      (behind (.keyword .kwAs) identifier) rest
      fun found _ => found.map Name.text = newName.map Ident.text := by
  cases newName with
  | none =>
    have ends : ∀ k ∈ Kind.importEnds, k ≠ .keyword .kwAs := by decide
    refine (crosses_optional_of_ne h (ends _ hrest)).bind ?_
    rintro _ _ - ⟨rfl, rfl⟩
    exact .pure h rfl
  | some x =>
    refine (crosses_optional (p := (Tile.keyword .kwAs).shape) h).bind ?_
    rintro _ t ht rfl
    refine Crosses.bind (crosses_identifier ht.stands (isIdentifier_name x)) fun n u hu hn => ?_
    exact .pure hu.stands (congrArg some hn)

/-- The leaves of a tree are read one after the other. -/
lemma readsLeaves (t : ImportTree) : ReadsLeaves env t := by
  have dotless : ∀ k ∈ .keyword .kwAs :: Kind.importEnds, (k == .mark .dot) = false := by decide
  induction t using ImportTree.induct with
  | one path newName =>
    intro s rest leading nesting h hrest
    have hdot : (Shape.front ((ImportTree.renamingTiles newName).map Tile.shape ++ rest)
        == .mark .dot) = false := by
      cases newName with
      | none => exact dotless _ (List.mem_cons_of_mem _ hrest)
      | some x => rfl
    have hpath : (Shape.front ((ImportTree.renamingTiles newName).map Tile.shape ++ rest)
        == .mark .dot && (Shape.front ((ImportTree.renamingTiles newName).map Tile.shape
          ++ rest).tail).isIdentifier) = false := by
      rw [hdot, Bool.false_and]
    rw [ImportTree.tiles, List.map_append, List.append_assoc] at h ⊢
    cases nesting with
    | zero => exact .endless
    | succ nesting =>
      refine .view ((crosses_dottedName path h hpath).bind fun names t ht hnames => .view ?_)
      rw [ht.stands.kind_eq, hdot]
      change Crosses _ _ _ (do
        let newName ← behind (.keyword .kwAs) identifier
        let span ← spanFrom s.start
        return [ImportItem.mk (leading ++ names) false newName span]) _ _
      refine (crosses_newName newName ht.stands hrest).bind fun found u hu hfound => ?_
      refine .view (.pure hu.stands ?_)
      rw [List.map_singleton, ImportItem.imported, List.map_append, hnames, hfound]
      rfl
  | all path =>
    intro s rest leading nesting h hrest
    rw [ImportTree.tiles, List.map_append, List.append_assoc] at h ⊢
    cases nesting with
    | zero => exact .endless
    | succ nesting =>
      refine .view ((crosses_dottedName path h rfl).bind fun names t ht hnames => .view ?_)
      have ht' : t.Stands env (.mark .dot :: .mark .star :: rest) := ht.stands
      rw [ht'.kind_eq, ht'.peek_eq]
      change Crosses _ _ _ (do
        advance
        advance
        let span ← spanFrom s.start
        return [ImportItem.mk (leading ++ names) true none span]) _ _
      refine (crosses_advance ht').bind fun _ u hu _ => ?_
      refine (crosses_advance hu.stands).bind fun _ v hv _ => ?_
      refine .view (.pure hv.stands ?_)
      rw [List.map_singleton, ImportItem.imported, List.map_append, hnames]
      rfl
  | group path first others comma ih =>
    intro s rest leading nesting h hrest
    have htiles : (ImportTree.group path first others comma).tiles.map Tile.shape ++ rest
        = path.tiles.map Tile.shape ++ .mark .dot :: .mark .openBrace :: (first.tiles.map Tile.shape
          ++ ((ImportTree.tilesBehind others).map Tile.shape
            ++ ((TypeTerm.trailing comma).map Tile.shape ++ .mark .closeBrace :: rest))) := by
      simp only [ImportTree.tiles, List.map_append, List.map_cons, List.append_assoc,
        List.cons_append, List.map_nil, List.nil_append]
      rfl
    rw [htiles] at h ⊢
    cases nesting with
    | zero => exact .endless
    | succ nesting =>
      refine .view ((crosses_dottedName path h rfl).bind fun names t ht hnames => .view ?_)
      rw [ht.stands.kind_eq, ht.stands.peek_eq]
      change Crosses _ _ _ (do
        advance
        advance
        let groups ← list (.mark .closeBrace) (callTo nesting (.importPaths (leading ++ names)))
        require (.mark .closeBrace)
        return groups.flatten) _ _
      refine (crosses_advance ht.stands).bind fun _ u hu _ => ?_
      refine (crosses_advance hu.stands).bind fun _ v hv _ => ?_
      refine Crosses.bind (.loop fun rounds => crosses_importMembers ih hv.stands rounds) ?_
      rintro groups w hw ⟨_, rfl, hgroups⟩
      refine (crosses_require hw.stands).bind fun _ x hx _ => .pure hx.stands ?_
      rw [hgroups, List.map_append, hnames]
      rfl

/-! ## Files -/

/-- An import of one tree, up to the end of the text. -/
lemma crosses_importDecl (t : ImportTree)
    (h : s.Stands env ((Tile.keyword .kwImport).shape :: t.tiles.map Tile.shape)) :
    Crosses env ((Tile.keyword .kwImport).shape :: t.tiles.map Tile.shape) s
      (importDecl (callTo nesting)) [] fun d _ => d.module = none ∧ d.modifiers = .none
        ∧ d.items.map ImportItem.imported = t.leaves [] := by
  have hkind : s.kind = .keyword .kwImport := h.kind_eq
  have modifiers : Crosses env ((Tile.keyword .kwImport).shape :: t.tiles.map Tile.shape) s
      (modifiers []) ((Tile.keyword .kwImport).shape :: t.tiles.map Tile.shape)
      fun found u => found = .none ∧ u = s := by
    refine .loop fun rounds => .loop_done ?_ rounds
    refine .view ?_
    rw [ParseState.modifier?, hkind]
    exact .pure h ⟨_, rfl, rfl, rfl⟩
  have module : Crosses env ((Tile.keyword .kwImport).shape :: t.tiles.map Tile.shape) s
      (behind (.keyword .kwFrom) identifier)
      ((Tile.keyword .kwImport).shape :: t.tiles.map Tile.shape)
      fun found u => found = none ∧ u = s := by
    have hne : Kind.keyword .kwImport ≠ .keyword .kwFrom := by decide
    refine (crosses_optional_of_ne h hne).bind ?_
    rintro _ _ - ⟨rfl, rfl⟩
    exact .pure h ⟨rfl, rfl⟩
  have items (u : ParseState) (hu : u.Stands env (t.tiles.map Tile.shape ++ [])) :
      Crosses env (t.tiles.map Tile.shape ++ []) u
        (separated (.mark .comma) (callTo nesting (.importPaths []))) []
        fun items _ => items.flatten.map ImportItem.imported = t.leaves [] := by
    refine (readsLeaves t nesting hu List.mem_cons_self).bind fun items v hv hitems => ?_
    refine .loop fun rounds => .loop_done ?_ rounds
    have hne : Kind.endOfFile ≠ .mark .comma := by decide
    refine (crosses_optional_of_ne hv.stands hne).bind ?_
    rintro _ _ - ⟨rfl, rfl⟩
    refine .pure hv.stands ⟨_, rfl, ?_⟩
    rw [List.flatten_singleton, hitems]
    rfl
  refine .view (modifiers.bind ?_)
  rintro _ _ - ⟨rfl, rfl⟩
  refine module.bind ?_
  rintro _ _ - ⟨rfl, rfl⟩
  refine (crosses_require h).bind fun _ u hu _ => ?_
  have hu : u.Stands env (t.tiles.map Tile.shape ++ []) := (List.append_nil _).symm ▸ hu.stands
  rw [← List.append_nil (t.tiles.map Tile.shape)]
  refine (items u hu).bind fun found v hv hfound => .view (.pure hv.stands ⟨rfl, rfl, hfound⟩)

/-- At the end of the text an item that has taken some tokens has come to its end. -/
lemma crosses_endFileItem {start : Nat} (h : s.Stands env []) (hstart : start < s.start) :
    Crosses env [] s (endFileItem start 0) [] fun _ u => u = s := by
  have hprogress : (s.start != start) = true := bne_iff_ne.2 (Nat.ne_of_gt hstart)
  have ended : Crosses env [] s (atStatementEnd fun _ => false) []
      fun ends u => ends = true ∧ u = s := by
    refine .view ?_
    rw [h.kind_eq]
    rintro _ _ ⟨⟩
    exact ⟨h.crossed, rfl, rfl⟩
  refine .get ?_
  dsimp only
  rw [hprogress, h.errorCount]
  refine ended.bind ?_
  rintro _ _ - ⟨rfl, rfl⟩
  exact .pure h rfl

/-- A file with nothing in it but an import. -/
lemma crosses_file (t : ImportTree)
    (h : s.Stands env ((Tile.keyword .kwImport).shape :: t.tiles.map Tile.shape)) :
    Crosses env ((Tile.keyword .kwImport).shape :: t.tiles.map Tile.shape) s
      (file (callTo nesting)) [] fun tree _ => ∃ d : ImportDecl, tree = { imports := [d] }
        ∧ d.module = none ∧ d.modifiers = .none
        ∧ d.items.map ImportItem.imported = t.leaves [] := by
  have hkind : s.kind = .keyword .kwImport := h.kind_eq
  have hclass : itemClass env.src s = .import := by
    have hkind : s.lexer.kind = .keyword .kwImport := by
      rwa [ParseState.kind, h.tentative] at hkind
    have hword : s.lexer.isModifierWord = false := by
      rw [Lexer.isModifierWord, hkind]
      rfl
    rw [itemClass, Lexer.kindAfterModifiers, Lexer.steps, Lexer.kindAfterModifiers.go, hword, hkind]
    rfl
  have item : Crosses env ((Tile.keyword .kwImport).shape :: t.tiles.map Tile.shape) s
      (placeItem (callTo nesting) {}) [] fun tree _ => ∃ d : ImportDecl,
        tree = { imports := [d] } ∧ d.module = none ∧ d.modifiers = .none
          ∧ d.items.map ImportItem.imported = t.leaves [] := by
    refine .view ?_
    rw [hclass]
    refine (crosses_importDecl t h).bind fun d u hu hd => .pure hu.stands ⟨d, rfl, hd⟩
  have round : Crosses env ((Tile.keyword .kwImport).shape :: t.tiles.map Tile.shape) s
      (fileRound (callTo nesting) {}) [] fun next _ => ∃ d : ImportDecl,
        next = .inl { imports := [d] } ∧ d.module = none ∧ d.modifiers = .none
          ∧ d.items.map ImportItem.imported = t.leaves [] := by
    have goesOn : (s.kind == .endOfFile) = false ∧ (s.kind == .mark .semicolon) = false := by
      rw [hkind]
      exact ⟨rfl, rfl⟩
    refine .view ?_
    rw [goesOn.1, if_neg Bool.false_ne_true, goesOn.2, if_neg Bool.false_ne_true]
    refine .get (item.bind ?_)
    rintro _ u hu ⟨d, rfl, hd⟩
    have hstart : s.start < u.start := by
      have := hu.start
      rw [List.length_cons, List.length_nil] at this
      omega
    rw [h.errorCount]
    refine (crosses_endFileItem hu.stands hstart).bind fun _ v hv _ => ?_
    exact .pure hv.stands ⟨d, rfl, hd⟩
  refine .loop fun rounds => .loop_next (round.mono ?_) rounds
  rintro _ u hu ⟨d, rfl, hd⟩
  refine ⟨_, rfl, fun rounds => .loop_done ?_ rounds⟩
  refine .view ?_
  rw [hu.stands.kind_eq]
  exact .pure hu.stands ⟨_, rfl, d, rfl, hd⟩

end Rule

/-- The tiles of code let a parse come to its end. -/
lemma Tile.spare (tiles : List Tile) : Shape.Spare (tiles.map shape) := by
  refine .inl fun p hp => ?_
  obtain ⟨t, -, rfl⟩ := List.mem_map.1 hp
  cases t with
  | name x =>
    obtain e | e := x.kind_shape
    · exact fun e' => nomatch e.symm.trans e'
    · exact fun e' => nomatch e.symm.trans e'
  | keyword k | mark p => exact fun e => nomatch e

/-- A text that starts with an ASCII character starts with no byte order mark. -/
lemma Source.startsWith_byteOrderMark {src : Source} {c : Char} {cs : List Char}
    (htext : src.text.toList = c :: cs) (hc : c.utf8Size = 1) :
    src.startsWith 0 byteOrderMark = false := by
  have hbyte : src.byteAt 0 = some c.val.toUInt8 := by
    have hahead : src.Ahead 0 (c :: cs) := htext ▸ ahead_zero
    have := hahead.byteAt 0
    rwa [encoded_cons, String.utf8EncodeChar_eq_singleton hc] at this
  have hne : c.val.toUInt8 ≠ 0xEF := by
    rw [Char.utf8Size_eq_one_iff, UInt32.le_iff_toNat_le] at hc
    have hle : c.val.toNat ≤ 127 := hc
    intro e
    have hnat : c.val.toUInt8.toNat = 239 := congrArg UInt8.toNat e
    rw [UInt32.toNat_toUInt8] at hnat
    omega
  rw [byteOrderMark, startsWith, hbyte, beq_eq_false_iff_ne.2 (fun e => hne (Option.some.inj e)),
    Bool.false_and]

/-- What an import starts with, blanks included, is ASCII. -/
lemma Tile.OnLine.head_import {row : List (List Char × Tile)} {tiles : List Tile}
    (hline : OnLine row) (hrow : row.map Prod.snd = .keyword .kwImport :: tiles) :
    ∃ c cs, laidOut row = c :: cs ∧ c.utf8Size = 1 := by
  have blank : ∀ c ∈ blanks, c.utf8Size = 1 := List.all_iff_forall_prop.1 rfl
  obtain ⟨⟨gap, _⟩, row, rfl, rfl, -⟩ := List.map_eq_cons_iff.1 hrow
  cases gap with
  | cons c gap =>
    have hgap := hline.gaps _ List.mem_cons_self c List.mem_cons_self
    exact ⟨c, _, rfl, blank c hgap.1⟩
  | nil => exact ⟨'i', _, rfl, rfl⟩

/-- An import with groups, one in the other, is spread out: each leaf of it is an item, in order,
with all of the path that leads to it, and with its star or other name. -/
theorem parse_import {settings : Settings} {text : String} {row : List (List Char × Tile)}
    (t : ImportTree) (hrow : row.map Prod.snd = .keyword .kwImport :: t.tiles)
    (hline : Tile.OnLine row) (htext : text.toList = Tile.laidOut row) :
    ∃ f, parseFile text.toUTF8 settings = some f ∧ f.diagnostics = #[]
      ∧ f.tree.package = none ∧ f.tree.items = [] ∧ f.tree.main = none
      ∧ ∃ d, f.tree.imports = [d] ∧ d.module = none ∧ d.modifiers = .none
        ∧ d.items.map ImportItem.imported = t.leaves [] := by
  have leads : Tile.Leads 0 (.keyword .kwImport :: t.tiles) 0 :=
    .keyword .kwImport (Tile.leads_import t)
  have hlist : (Source.ofString text).text.toList = Tile.laidOut row := htext
  have hspelled : Shape.Spelled [.code 0] [.code 0]
      ((Tile.keyword .kwImport).shape :: t.tiles.map Tile.shape)
      (Source.ofString text).text.toList [] := by
    rw [hlist]
    exact leads.spelled hrow hline
  obtain ⟨c, cs, hstart, hsize⟩ := hline.head_import hrow
  have hoffers := hspelled.offers_file
    (Source.startsWith_byteOrderMark (hlist.trans hstart) hsize)
  have hspares := hoffers.sparesMembers (Tile.spare (.keyword .kwImport :: t.tiles))
  let env : Env := ⟨Source.ofString text, settings, true⟩
  have hfresh : ParseState.Fresh env.src { ParseState.ofSource env.src with names := .empty } :=
    .file .empty
  obtain ⟨tree, u, hrun, hlog, -, d, rfl, hd⟩ :=
    Rule.runFrom_crosses hfresh hoffers (List.cons_ne_nil _ _) hspares
      (fun hspares h => Rule.returns_file h hspares) fun s hs _ _ => Rule.crosses_file t hs
  have hparse : parseFile text.toUTF8 settings
      = some ⟨{ imports := [d], nodes := u.nodes }, settings.locate u.diagnostics⟩ := by
    rw [parseFile, parseFileInto, Source.ofBytes_toUTF8]
    change ((Rule.runFrom env Rule.file _).map _).map Prod.fst = _
    rw [hrun]
    rfl
  refine ⟨_, hparse, ?_, rfl, rfl, rfl, d, rfl, hd⟩
  show settings.locate u.diagnostics = #[]
  rw [hlog, Settings.locate_empty]

/-- A group in a group, with another name, a star and a comma behind the last member. -/
def ImportTree.visitor : ImportTree :=
  .group ⟨.x, [.accented]⟩ (.one ⟨.quoted, []⟩ (some .x))
    [.all ⟨.x, [.quoted]⟩, .group ⟨.accented, []⟩ (.one ⟨.x, []⟩ none) [] true] false

/-- A layout with a blank in front of each word. -/
def ImportTree.visitorRow : List (List Char × Tile) :=
  (.keyword .kwImport :: visitor.tiles).map fun t =>
    (match t with | .mark _ => [] | _ => [' '], t)

/-- An import of three leaves. -/
theorem parse_import_of_visitor :
    ImportTree.visitorRow.map Prod.snd = .keyword .kwImport :: ImportTree.visitor.tiles
      ∧ Tile.OnLine ImportTree.visitorRow
      ∧ " import x. é.\x7b `class` as x, x. `class`.*, é.\x7b x,\x7d\x7d".toList
        = Tile.laidOut ImportTree.visitorRow
      ∧ ImportTree.visitor.leaves [] = [⟨["x", "é", "class"], false, some "x"⟩,
        ⟨["x", "é", "x", "class"], true, none⟩, ⟨["x", "é", "é", "x"], false, none⟩]
      ∧ ∃ f, parseFile " import x. é.\x7b `class` as x, x. `class`.*, é.\x7b x,\x7d\x7d".toUTF8 {}
          = some f
        ∧ f.diagnostics = #[] ∧ f.tree.package = none ∧ f.tree.items = [] ∧ f.tree.main = none
        ∧ ∃ d, f.tree.imports = [d] ∧ d.module = none ∧ d.modifiers = .none
          ∧ d.items.map ImportItem.imported = ImportTree.visitor.leaves [] := by
  have hrow : ImportTree.visitorRow.map Prod.snd
      = .keyword .kwImport :: ImportTree.visitor.tiles := by decide +kernel
  have hline : Tile.OnLine ImportTree.visitorRow := by decide +kernel
  have htext : " import x. é.\x7b `class` as x, x. `class`.*, é.\x7b x,\x7d\x7d".toList
      = Tile.laidOut ImportTree.visitorRow := String.toList_ofList
  exact ⟨hrow, hline, htext, rfl, parse_import ImportTree.visitor hrow hline htext⟩

end CangjieSyntax
