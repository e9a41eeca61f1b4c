import CangjieSyntax.Grammar.Expressions
import CangjieSyntax.Proofs.TypeTerm.Meaning

/-!
# Types as operands

A written type that stands where a value must stand is a chain without operators. Behind it comes a
comma, a closing parenthesis or the end of the text, and none of them goes on with an operand. A
path is found as a name with its members, and the type arguments on it are read tentatively.
-/

namespace CangjieSyntax

variable {env : Env} {s : ParseState} {behind rest : List Tile}

/-- The kinds of the tokens that can stand behind a type in the place of a value. -/
def Kind.behindValue : List Kind :=
  [.endOfFile, .mark .comma, .mark .closeParen]

/-- The kinds of the tokens that show that type arguments stand in front of them, wherever they
themselves stand. -/
def Kind.behindArguments : List Kind :=
  .mark .dot :: .mark .openParen :: behindValue

/-- A name with its type arguments, if there are any, is at a place in some nodes. -/
def Nodes.NamesAt (nodes : Nodes) (x : Ident) (args : List TypeTerm) (id : ExprId) : Prop :=
  ∃ name ids span, nodes.exprs.get? id = some ⟨.identifier name ids, span⟩ ∧ name.text = x.text
    ∧ TypeTerm.AreAt nodes args ids

lemma Nodes.NamesAt.extend {nodes others : Nodes} {x : Ident} {args : List TypeTerm} {id : ExprId}
    (hext : nodes.Extends others) (h : nodes.NamesAt x args id) : others.NamesAt x args id := by
  obtain ⟨name, ids, span, e, hname, hids⟩ := h
  exact ⟨name, ids, span, hext.exprs.get?_eq e, hname, hids.extend hext.types⟩

namespace Rule

variable {call : Call} {p : ExprId → ParseState → Prop} {above : Nat} {tiles : List Tile}

/-! ## Operands -/

/-- Behind the last link a chain ends. -/
lemma walks_chainEnd {operand : ExprId} {start : Nat} (h : s.Awaits env behind rest)
    (hrest : Tile.front (rest ++ behind) ∈ Kind.behindValue) (rounds : Nat) :
    Walks env behind s (loopUpTo (chainRound call start) rounds (operand, false)) rest
      fun id u => id = operand ∧ u = s := by
  have ends : ∀ k ∈ Kind.behindValue, (k == .mark .question) = false ∧ k ≠ .mark .dot
      ∧ k ≠ .mark .openParen ∧ k ≠ .mark .openBracket ∧ k ≠ .mark .openBrace := by
    decide
  obtain ⟨hquestion, hdot, hparen, hbracket, hbrace⟩ := ends _ hrest
  refine .loop_done ?_ rounds
  refine .view ?_
  rw [h.kind_eq, hquestion, Bool.false_and, if_neg Bool.false_ne_true]
  refine .view (.view ?_)
  rw [h.kind_eq]
  split
  case h_1 link hlink =>
    unfold link? at hlink
    split at hlink
    case h_5 => exact nomatch hlink
    case h_1 e => exact absurd e hdot
    case h_2 e => exact absurd e hparen
    case h_3 e => exact absurd e hbracket
    case h_4 e => exact absurd e hbrace
  case h_2 => exact .pure h ⟨operand, rfl, rfl, rfl⟩

/-- What starts with a mark is a chain without links. -/
lemma walks_markChain {mark : Punctuation} (hkind : s.kind = .mark mark)
    (h : Walks env behind s (markExpr call mark) rest p)
    (hrest : Tile.front (rest ++ behind) ∈ Kind.behindValue) :
    Walks env behind s (chain call) rest p := by
  have primary : Walks env behind s (primary call) rest p := by
    refine .view ?_
    rw [hkind]
    exact h
  refine .view (primary.bind fun operand t ht hp => .loop fun rounds => ?_)
  refine (walks_chainEnd ht.awaits hrest rounds).mono ?_
  rintro _ _ - ⟨rfl, rfl⟩
  exact hp

/-- A chain is an operand if no operator stands in front of it. -/
lemma walks_unary (h : Walks env behind s (chain call) rest p) (hop : unaryOp? s.kind = none)
    (hrest : Tile.front (rest ++ behind) ∈ Kind.behindValue) :
    Walks env behind s (unary call) rest p := by
  have ends : ∀ k ∈ Kind.behindValue, stepOp? k = none := by decide
  refine .view ?_
  rw [hop]
  refine .view (h.bind fun operand t ht hp => ?_)
  refine .loop fun rounds => .loop_done ?_ rounds
  refine .view (.view ?_)
  rw [ht.awaits.kind_eq, ends _ hrest]
  exact .pure ht.awaits ⟨operand, rfl, hp⟩

/-- An operand without an operator behind it, one level deeper. -/
lemma walks_binary (good : ExprId → Nodes → Prop) (h : s.Awaits env behind tiles)
    (hdepth : s.depth < env.settings.maxDepth)
    (hrest : Tile.front (rest ++ behind) ∈ Kind.behindValue)
    (hoperand : ∀ t : ParseState, t.Awaits env behind tiles → t.depth = s.depth + 1 →
      t.tentative = s.tentative →
      Walks env behind t (unary call) rest fun id u => good id u.nodes) :
    Walks env behind s (binary call above) rest fun id u => good id u.nodes := by
  have ends : ∀ k ∈ Kind.behindValue, k ≠ .mark .greater ∧ k ≠ .keyword .kwAs
      ∧ k ≠ .keyword .kwIs ∧ k ≠ .mark .dotDot ∧ k ≠ .mark .dotDotEquals
      ∧ k.binaryOp? = none := by
    decide
  obtain ⟨hgreater, has, his, hdots, hequals, hop⟩ := ends _ hrest
  refine walks_nested good h hdepth fun t ht htdepth htentative => ?_
  refine .view ((hoperand t ht htdepth htentative).bind fun operand u hu hgood => ?_)
  refine .loop fun rounds => .loop_done ?_ rounds
  have operation : Walks env behind u (operation? call above t.start operand) rest
      fun id? v => id? = none ∧ v = u := by
    refine (walks_operatorKind hu.awaits hgreater).bind ?_
    rintro _ v hv ⟨rfl, rfl⟩
    split
    case h_1 e => exact absurd e has
    case h_2 e => exact absurd e his
    case h_3 e => exact absurd e hdots
    case h_4 e => exact absurd e hequals
    case h_5 =>
      rw [hop]
      exact .pure hv.awaits ⟨rfl, rfl⟩
  refine operation.bind ?_
  rintro _ v hv ⟨rfl, rfl⟩
  exact .pure hv.awaits ⟨operand, rfl, hgood⟩

/-- An expression behind which nothing is assigned. -/
lemma walks_unassigned {assigned : ExprId → AssignOp → Rule ExprId}
    (h : Walks env behind s (binary call above) rest p)
    (hrest : Tile.front (rest ++ behind) ∈ Kind.behindValue) :
    Walks env behind s (do
      let target ← binary call above
      match (← operatorKind).assignOp? with
      | none => return target
      | some op => assigned target op) rest p := by
  have ends : ∀ k ∈ Kind.behindValue, k ≠ .mark .greater ∧ k.assignOp? = none := by decide
  refine h.bind fun id t ht hid => ?_
  refine (walks_operatorKind ht.awaits (ends _ hrest).1).bind ?_
  rintro _ u hu ⟨rfl, rfl⟩
  rw [(ends _ hrest).2]
  exact .pure hu.awaits hid

/-! ## Paths -/

open TypeTerm

/-- In front of type arguments that touch what they belong to, an attempt is made to read them. -/
lemma opens_typeArguments {first : TypeTerm} {others : List TypeTerm}
    (h : s.Awaits env behind (argTiles (first :: others) ++ rest)) :
    (s.kind == .mark .less && !s.lexer.flags.separated
      && !(env.remembers && s.comparisons.contains s.start)) = true := by
  have hkind : s.kind = .mark .less := h.kind_eq
  rw [hkind, h.lexer.touches h.lexer.kind, h.comparisons, List.contains_nil, Bool.and_false]
  rfl

/-- Type arguments are read, and what stands behind them tells whether they are kept. -/
lemma walks_fittingArguments? {first : TypeTerm} {others : List TypeTerm} (fits : Bool)
    (h : s.Awaits env rest (argTiles (first :: others)))
    (hread : ∀ t ∈ first :: others, t.ReadBy env call s.depth)
    (hfits : ∀ u : ParseState, u.Awaits env rest [] →
      u.kind.allowsTypeArguments u.lexer.flags.lineBreak (!u.lexer.flags.separated) = fits) :
    Walks env rest s (fittingArguments? call) [] fun found u =>
      ∃ ids, found = (if fits then some ids else none) ∧ AreAt u.nodes (first :: others) ids := by
  have h : s.Awaits env rest (argTiles (first :: others) ++ []) := by
    rwa [List.append_nil]
  refine (walks_typeArguments h hread).bind fun ids u hu hids => .view ?_
  rw [hfits u hu.awaits]
  exact .pure hu.awaits ⟨ids, rfl, hids⟩

/-- Type arguments are read tentatively, and what stands behind them shows that they are none of a
comparison. -/
lemma walks_typeArguments? {args : List TypeTerm} (h : s.Awaits env [] (argTiles args ++ rest))
    (hlimit : s.tentative.limit = none) (hbudget : (argTiles args).length ≤ env.settings.budget)
    (hrest : Tile.front (rest ++ []) ∈ Kind.behindArguments)
    (hread : ∀ t ∈ args, t.ReadBy env call s.depth) :
    Walks env [] s (typeArguments? call) rest fun ids u => AreAt u.nodes args ids := by
  have ends : ∀ k ∈ Kind.behindArguments, k ≠ .mark .less
      ∧ ∀ lineBreak touches, k.allowsTypeArguments lineBreak touches = true := by
    decide
  obtain ⟨hless, hallows⟩ := ends _ hrest
  refine .read (.view ?_)
  cases args with
  | nil =>
    rw [argTiles, List.nil_append] at h
    rw [h.kind_eq, beq_eq_false_iff_ne.2 hless]
    exact .pure h trivial
  | cons first others =>
    rw [opens_typeArguments h]
    refine .view ?_
    have attempted : Walks env [] s (attempt (fittingArguments? call)) rest fun found u =>
        ∃ ids, found = .committed ids ∧ AreAt u.nodes (first :: others) ids := by
      refine walks_attempt (fun ids nodes => AreAt nodes (first :: others) ids) h hlimit hbudget ?_
      intro t ht hdepth
      refine walks_fittingArguments? true ht (hdepth ▸ hread) fun u hu => ?_
      rw [hu.kind_eq, List.nil_append, ← List.append_nil rest, hallows]
    refine attempted.bind ?_
    rintro _ u hu ⟨ids, rfl, hids⟩
    exact .pure hu.awaits hids

/-- A member of a path is a name. -/
lemma walks_memberName {x : Ident} (h : s.Awaits env behind (.name x :: rest)) :
    Walks env behind s memberName rest fun n _ => n.text = x.text := by
  have hvalue : s.kind.keywordText?.getD s.lexer.value = x.text := by
    rw [h.kind_eq, h.value_eq, List.cons_append, Tile.front, Tile.kind]
    cases x.raw <;> rfl
  refine .view ?_
  rw [h.kind_eq, List.cons_append, Tile.front, isIdentifier_name, Bool.true_or, if_pos rfl]
  refine .view (.view ?_)
  refine (walks_name h).bind ?_
  rintro n t ht ⟨htext, -⟩
  refine (walks_advance ht.awaits).bind fun _ u hu _ => ?_
  refine .pure hu.awaits (htext.trans ?_)
  rw [← hvalue, h.kind_eq]
  rfl

/-- What stands behind the type arguments on a path: a point or what stands behind the path. -/
lemma front_memberTiles (others : List (Segment TypeTerm))
    (hrest : Tile.front (rest ++ behind) ∈ Kind.behindValue) :
    Tile.front (memberTiles others ++ rest ++ behind) ∈ Kind.behindArguments := by
  cases others with
  | nil =>
    rw [memberTiles]
    exact List.mem_cons_of_mem _ (List.mem_cons_of_mem _ hrest)
  | cons first others =>
    rw [memberTiles]
    exact List.mem_cons_self

/-- A member is a link of a chain, with its type arguments. -/
lemma walks_memberRound {x : Ident} {args : List TypeTerm} {others : List (Segment TypeTerm)}
    {operand : ExprId} {segments : List PathSegment} (start : Nat)
    (h : s.Awaits env [] (.mark .dot :: .name x :: (argTiles args ++ (memberTiles others ++ rest))))
    (hlimit : s.tentative.limit = none) (hrest : Tile.front (rest ++ []) ∈ Kind.behindValue)
    (hoperand : s.nodes.Spells operand segments)
    (hbudget : (argTiles args).length ≤ env.settings.budget)
    (hread : ∀ t ∈ args, t.ReadBy env call s.depth) :
    Walks env [] s (chainRound call start (operand, false)) (memberTiles others ++ rest)
      fun next u => ∃ id segment, next = .inl (id, false)
        ∧ u.nodes.Spells id (segments ++ [segment]) ∧ segment.name.text = x.text
        ∧ AreAt u.nodes args segment.args := by
  have hkind : s.kind = .mark .dot := h.kind_eq
  have link : Walks env [] s (fieldLink call operand start false) (memberTiles others ++ rest)
      fun id u => ∃ segment : PathSegment, u.nodes.Spells id (segments ++ [segment])
        ∧ segment.name.text = x.text ∧ AreAt u.nodes args segment.args := by
    refine (walks_advance h).bind fun _ t ht _ => ?_
    refine (walks_memberName ht.awaits).bind fun n u hu hn => ?_
    have hu' := ht.trans hu
    have arguments := walks_typeArguments? hu.awaits
      ((congrArg Tentative.limit hu'.tentative).trans hlimit) hbudget
      (front_memberTiles others hrest) (hu'.depth ▸ hread)
    refine arguments.bind fun ids v hv hids => ?_
    refine (walks_exprFrom hv.awaits).mono ?_
    rintro id w hw ⟨span, e⟩
    have hext := (hu'.trans (hv.trans hw)).nodes
    exact ⟨⟨n, ids⟩, .field e (hoperand.extend hext), hn, hids.extend hw.nodes.types⟩
  have hquestion : (s.kind == .mark .question) = false := by
    rw [hkind]
    rfl
  refine .view ?_
  rw [hquestion, Bool.false_and, if_neg Bool.false_ne_true]
  refine .view (.view ?_)
  rw [hkind]
  refine link.bind ?_
  rintro id u hu ⟨segment, h⟩
  exact .pure hu.awaits ⟨id, segment, rfl, h⟩

/-- The members of a path are links of a chain. -/
lemma walks_members {others : List (Segment TypeTerm)} {operand : ExprId} {start : Nat}
    {segments : List PathSegment} (h : s.Awaits env [] (memberTiles others ++ rest))
    (hlimit : s.tentative.limit = none) (hrest : Tile.front (rest ++ []) ∈ Kind.behindValue)
    (hoperand : s.nodes.Spells operand segments)
    (hbudget : ∀ y ∈ others, (argTiles y.args).length ≤ env.settings.budget)
    (hread : ∀ y ∈ others, ∀ t ∈ y.args, t.ReadBy env call s.depth) (rounds : Nat) :
    Walks env [] s (loopUpTo (chainRound call start) rounds (operand, false)) rest fun id u =>
      ∃ more, u.nodes.Spells id (segments ++ more) ∧ MembersAt u.nodes others more := by
  induction others generalizing s operand segments rounds with
  | nil =>
    rw [memberTiles, List.nil_append] at h
    refine (walks_chainEnd h hrest rounds).mono ?_
    rintro id u - ⟨rfl, rfl⟩
    exact ⟨[], by rwa [List.append_nil], trivial⟩
  | cons second others ih =>
    obtain ⟨x, args⟩ := second
    obtain ⟨hbudget, hbudgets⟩ := List.forall_mem_cons.1 hbudget
    obtain ⟨hargs, hothers⟩ := List.forall_mem_cons.1 hread
    rw [memberTiles, List.cons_append, List.cons_append, List.append_assoc] at h
    have round := walks_memberRound start h hlimit hrest hoperand hbudget hargs
    refine .loop_next (round.mono ?_) rounds
    rintro _ u hu ⟨id, segment, rfl, hid, hname, hids⟩
    refine ⟨_, rfl, fun rounds => ?_⟩
    have rest := ih hu.awaits ((congrArg Tentative.limit hu.tentative).trans hlimit) hid hbudgets
      (hu.depth ▸ hothers) rounds
    refine rest.mono ?_
    rintro id v hv ⟨more, hid, hmore⟩
    rw [List.append_assoc, List.singleton_append] at hid
    exact ⟨segment :: more, hid, hname, hids.extend hv.nodes.types, hmore⟩

lemma walks_primaryName {x : Ident} (hkind : s.kind = (Tile.name x).kind)
    (h : Walks env behind s (nameExpr call) rest p) : Walks env behind s (primary call) rest p := by
  refine .view ?_
  rw [hkind, Tile.kind]
  cases x.raw with
  | true => exact h
  | false => exact h

/-- A name with its type arguments, if there are any. -/
lemma walks_nameExpr {x : Ident} {args : List TypeTerm}
    (h : s.Awaits env [] (.name x :: (argTiles args ++ rest))) (hlimit : s.tentative.limit = none)
    (hbudget : (argTiles args).length ≤ env.settings.budget)
    (hrest : Tile.front (rest ++ []) ∈ Kind.behindArguments)
    (hread : ∀ t ∈ args, t.ReadBy env call s.depth) :
    Walks env [] s (nameExpr call) rest fun id u => u.nodes.NamesAt x args id := by
  refine .view ((walks_identifier h).bind fun name t ht hname => ?_)
  have arguments := walks_typeArguments? ht.awaits
    ((congrArg Tentative.limit ht.tentative).trans hlimit) hbudget hrest (ht.depth ▸ hread)
  refine arguments.bind fun ids u hu hids => ?_
  refine (walks_exprFrom hu.awaits).mono ?_
  rintro id v hv ⟨span, e⟩
  exact ⟨name, ids, span, e, hname, hids.extend hv.nodes.types⟩

/-- A path is a chain of a name and its members. -/
lemma walks_pathChain {first : Segment TypeTerm} {others : List (Segment TypeTerm)}
    (h : s.Awaits env [] ((path first others).tiles ++ rest)) (hlimit : s.tentative.limit = none)
    (hrest : Tile.front (rest ++ []) ∈ Kind.behindValue)
    (hbudget : ∀ y ∈ first :: others, (argTiles y.args).length ≤ env.settings.budget)
    (hread : ∀ y ∈ first :: others, ∀ t ∈ y.args, t.ReadBy env call s.depth) :
    Walks env [] s (chain call) rest fun id u => (path first others).MeantBy env u.nodes id := by
  obtain ⟨hbudget, hbudgets⟩ := List.forall_mem_cons.1 hbudget
  obtain ⟨hargs, hothers⟩ := List.forall_mem_cons.1 hread
  rw [tiles, List.cons_append, List.append_assoc] at h
  have hkind : s.kind = (Tile.name first.name).kind := h.kind_eq
  have named := walks_nameExpr h hlimit hbudget (front_memberTiles others hrest) hargs
  refine .view ((walks_primaryName hkind named).bind ?_)
  rintro operand t ht ⟨name, ids, span, e, hname, hids⟩
  refine .loop fun rounds => ?_
  refine (walks_members ht.awaits ((congrArg Tentative.limit ht.tentative).trans hlimit) hrest
    (.name e) hbudgets (ht.depth ▸ hothers) rounds).mono ?_
  rintro id u hu ⟨more, hid, hmore⟩
  exact meantBy_path hid ⟨hname, hids.extend hu.nodes.types, hmore⟩

end Rule

end CangjieSyntax
