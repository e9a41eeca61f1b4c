import CangjieSyntax.Proofs.TypeTerm.Operands

/-!
# Types in the place of values

A written type that stands where a value must stand is read as an expression that means it. The
elements of a list in parentheses are read first, and an arrow behind them turns them into the
parameters of a function type.
-/

namespace CangjieSyntax

variable {env : Env} {s : ParseState} {rest : List Tile} {nodes others : Nodes}

namespace TypeTerm

/-- Where a value must stand and the nesting is so deep, what is read means the type that is
written. -/
def ValuedBy (env : Env) (call : Call) (depth : Nat) (t : TypeTerm) : Prop :=
  ∀ (rest : List Tile) (s : ParseState), s.Awaits env [] (t.tiles ++ rest) → s.depth = depth →
    s.tentative.limit = none → Tile.front (rest ++ []) ∈ Kind.behindValue →
    Walks env [] s (call .expression) rest fun id u => t.MeantBy env u.nodes id

/-- An element of a list in parentheses has the label that is written, and means the type behind
it. -/
def ElementMeans (env : Env) (nodes : Nodes) (p : Labelled TypeTerm)
    (element : Option Name × ExprId) : Prop :=
  element.1.map Name.text = p.label.map Ident.text ∧ p.type.MeantBy env nodes element.2

lemma ElementMeans.extend {p : Labelled TypeTerm} {element : Option Name × ExprId}
    (hext : nodes.Extends others) (h : ElementMeans env nodes p element) :
    ElementMeans env others p element :=
  ⟨h.1, h.2.extend hext⟩

/-- The elements of a list in parentheses, in order. -/
def ElementsMean (env : Env) (nodes : Nodes) : List (Labelled TypeTerm) →
    List (Option Name × ExprId) → Prop :=
  List.Forall₂ (ElementMeans env nodes)

lemma ElementsMean.extend {items : List (Labelled TypeTerm)}
    {elements : List (Option Name × ExprId)} (hext : nodes.Extends others)
    (h : ElementsMean env nodes items elements) : ElementsMean env others items elements :=
  h.imp fun _ _ h => h.extend hext

lemma ElementsMean.unlabelled {items : List (Labelled TypeTerm)}
    {elements : List (Option Name × ExprId)} (h : ElementsMean env nodes items elements)
    (hlabels : ∀ p ∈ items, p.label = none) : (elements.any fun e => e.1.isSome) = false := by
  induction h with
  | nil => rfl
  | cons hp _ ih =>
    obtain ⟨hlabel, hlabels⟩ := List.forall_mem_cons.1 hlabels
    have hnone := hp.1
    rw [hlabel, Option.map_none, Option.map_eq_none_iff] at hnone
    rw [List.any_cons, hnone, ih hlabels]
    rfl

/-- Elements without labels mean the types themselves. -/
lemma ElementsMean.values {ts : List TypeTerm} {elements : List (Option Name × ExprId)}
    (h : ElementsMean env nodes (ts.map (Labelled.mk none)) elements) :
    List.Forall₂ (fun t id => t.MeantBy env nodes id) ts (elements.map Prod.snd) := by
  rw [List.forall₂_map_right_iff]
  exact (List.forall₂_map_left_iff.1 h).imp fun _ _ h => h.2

lemma behindType_of_behindValue : ∀ k ∈ Kind.behindValue, k ∈ Kind.behindType := by
  decide

end TypeTerm

namespace Rule

open TypeTerm

variable {call : Call} {p : ExprId → ParseState → Prop} {start : Nat}

/-! ## Elements in parentheses -/

/-- An element is a type behind a label, or a value. -/
lemma walks_parenElement {item : Labelled TypeTerm}
    (h : s.Awaits env [] (labelledTiles item ++ rest)) (hlimit : s.tentative.limit = none)
    (hrest : Tile.front (rest ++ []) ∈ Kind.behindValue)
    (hread : item.type.ReadBy env call s.depth) (hvalue : item.type.ValuedBy env call s.depth) :
    Walks env [] s (parenElement call) rest fun element u =>
      ElementMeans env u.nodes item element := by
  have hbehind := behindType_of_behindValue _ hrest
  obtain ⟨label, t⟩ := item
  cases label with
  | none =>
    refine .view ((walks_noLabel h (noLabel h hbehind)).bind ?_)
    rintro _ r hr ⟨rfl, rfl⟩
    refine (hvalue rest r hr.awaits rfl hlimit hrest).bind fun id t ht hid => ?_
    exact .pure ht.awaits ⟨rfl, hid⟩
  | some x =>
    refine .view ((walks_labelled h).bind fun label r hr hlabel => ?_)
    cases label with
    | none => exact nomatch hlabel
    | some name =>
      refine (hread [] rest r hr.awaits hr.depth hbehind).bind fun type t ht htype => ?_
      refine (walks_exprFrom ht.awaits).bind ?_
      rintro id u hu ⟨span, e⟩
      exact .pure hu.awaits ⟨hlabel, meantBy_typeValue e (htype.extend hu.nodes.types)⟩

/-- A round that reads an element in parentheses. Without a comma behind it, or with the parenthesis
closed behind the comma, it is the last one. -/
lemma walks_parenElementsRound {item : Labelled TypeTerm} {done : List (Labelled TypeTerm)}
    {b : List (Option Name × ExprId) × Bool} {comma : Bool} {more : List Tile}
    (h : s.Awaits env [] (labelledTiles item ++ (trailing comma ++ more)))
    (hlimit : s.tentative.limit = none)
    (hmore : comma = false → Tile.front (more ++ []) ∈ Kind.behindValue
      ∧ Tile.front (more ++ []) ≠ .mark .comma)
    (hread : item.type.ReadBy env call s.depth) (hvalue : item.type.ValuedBy env call s.depth)
    (hdone : ElementsMean env s.nodes done b.1) :
    Walks env [] s (parenElementsRound call b) more fun next u => ∃ found,
      next = (if !comma || Tile.front (more ++ []) == .mark .closeParen then .inr (found, comma)
        else .inl (found, comma)) ∧ ElementsMean env u.nodes (done ++ [item]) found := by
  obtain ⟨elements, before⟩ := b
  have hbehind : Tile.front (trailing comma ++ more ++ []) ∈ Kind.behindValue := by
    cases comma with
    | true => exact (by decide : Kind.mark .comma ∈ Kind.behindValue)
    | false => exact (hmore rfl).1
  have hend : (s.kind == .endOfFile) = false := by
    obtain ⟨⟨head, tail, e, hopens⟩, -⟩ := flows_labelled item.type.flows item.label
    rw [labelledTiles, e, List.cons_append] at h
    exact (Bool.or_eq_false_iff.1 (goes_on h hopens (.inl rfl))).2
  refine .view ?_
  rw [hend, if_neg Bool.false_ne_true]
  refine (walks_parenElement h hlimit hbehind hread hvalue).bind fun element t ht helement => ?_
  have found : ElementsMean env t.nodes (done ++ [item]) (elements ++ [element]) :=
    List.rel_append (hdone.extend ht.nodes) (.cons helement .nil)
  cases comma with
  | true =>
    refine (walks_optional ht.awaits).bind fun _ u hu e => .view ?_
    rw [e, hu.awaits.kind_eq]
    split
    case isTrue hlast => exact .pure hu.awaits ⟨_, (if_pos hlast).symm, found.extend hu.nodes⟩
    case isFalse hlast => exact .pure hu.awaits ⟨_, (if_neg hlast).symm, found.extend hu.nodes⟩
  | false =>
    refine (walks_optional_of_ne ht.awaits (hmore rfl).2).bind ?_
    rintro _ u hu ⟨rfl, rfl⟩
    refine .view ?_
    rw [Bool.not_false, Bool.true_or, if_pos rfl]
    exact .pure hu.awaits ⟨_, rfl, found⟩

/-- The elements in parentheses are found in order, with the comma behind the last one. -/
lemma walks_parenElements {first : Labelled TypeTerm} {others : List (Labelled TypeTerm)}
    {comma : Bool} (h : s.Awaits env []
      (paramTiles (first :: others) ++ (trailing comma ++ .mark .closeParen :: rest)))
    (hlimit : s.tentative.limit = none)
    (hread : ∀ p ∈ first :: others, p.type.ReadBy env call s.depth)
    (hvalue : ∀ p ∈ first :: others, p.type.ValuedBy env call s.depth) :
    Walks env [] s (parenElements call) (.mark .closeParen :: rest) fun found u =>
      found.2 = comma ∧ ElementsMean env u.nodes (first :: others) found.1 := by
  rw [paramTiles_cons, List.append_assoc] at h
  have hlimit' {tiles : List Tile} {u : ParseState} (hu : Walked env [] tiles s u) :
      u.tentative.limit = none :=
    (congrArg Tentative.limit hu.tentative).trans hlimit
  refine .loop fun rounds => walks_rounds labelledTiles
    (fun done (b : List (Option Name × ExprId) × Bool) nodes => ElementsMean env nodes done b.1)
    (fun p _ => (flows_labelled p.type.flows p.label).1) ?_ ?_ (List.nil_append _).symm h.walked
    (by exact List.Forall₂.nil) rounds
  · intro done b u head more p hp hopens hu hdone
    have hu' : u.Awaits env [] (labelledTiles p ++ (trailing true ++ head :: more)) := hu.awaits
    have round := walks_parenElementsRound hu' (hlimit' hu) (by rintro ⟨⟩) (hu.depth ▸ hread p hp)
      (hu.depth ▸ hvalue p hp) hdone
    refine round.mono ?_
    rintro _ v hv ⟨found, rfl, hfound⟩
    have hclose := (Bool.or_eq_false_iff.1 (goes_on hv.awaits hopens (.inl rfl))).1
    rw [hv.awaits.kind_eq] at hclose
    rw [hclose, Bool.not_true, Bool.or_false, if_neg Bool.false_ne_true]
    exact ⟨_, rfl, hfound⟩
  · intro done b u p hp hu hdone e rounds
    have hclose : Tile.front (.mark .closeParen :: rest ++ []) ∈ Kind.behindValue
        ∧ Tile.front (.mark .closeParen :: rest ++ []) ≠ .mark .comma := by
      rw [List.cons_append, Tile.front, Tile.kind]
      decide
    have round := walks_parenElementsRound hu.awaits (hlimit' hu) (fun _ => hclose)
      (hu.depth ▸ hread p hp) (hu.depth ▸ hvalue p hp) hdone
    rw [← e] at round
    refine .loop_done (round.mono ?_) rounds
    rintro _ v - ⟨found, rfl, hfound⟩
    have hlast :
        (!comma || Tile.front (.mark .closeParen :: rest ++ []) == .mark .closeParen) = true :=
      Bool.or_true _
    rw [hlast, if_pos rfl]
    exact ⟨_, rfl, rfl, hfound⟩

/-! ## Lists in parentheses -/

/-- Behind its parameters, a function type is put together from what the elements mean. -/
lemma walks_functionType {params : List (Labelled TypeTerm)} {result : TypeTerm}
    {elements : List (Option Name × ExprId)}
    (h : s.Awaits env [] (.mark .thinArrow :: (result.tiles ++ rest)))
    (hrest : Tile.front (rest ++ []) ∈ Kind.behindType)
    (helements : ElementsMean env s.nodes params elements)
    (hresult : result.ReadBy env call s.depth) :
    Walks env [] s (functionType call start elements) rest fun id u => ∃ type span,
      u.nodes.exprs.get? id = some ⟨.typeValue type, span⟩
        ∧ (arrow params result).IsAt u.nodes type := by
  refine (walks_advance h).bind fun _ r hr _ => ?_
  have params : Walks env [] r (elementsToTypes elements) (result.tiles ++ rest) fun types u =>
      List.Forall₂ (fun (p : Labelled TypeTerm) (type : TypeElement) =>
        type.label.map Name.text = p.label.map Ident.text ∧ p.type.IsAt u.nodes type.type)
        params types := by
    refine .mapM (fun (p : Labelled TypeTerm) (type : TypeElement) nodes =>
      type.label.map Name.text = p.label.map Ident.text ∧ p.type.IsAt nodes type.type)
      hr.awaits hr.nodes (fun hext h => ⟨h.1, h.2.extend hext.types⟩) ?_
    refine helements.flip.imp fun element p h t ht hext => ?_
    obtain ⟨label, value⟩ := element
    refine (h.2 _ [] _ t ht hext).bind fun type u hu htype => ?_
    exact .pure hu.awaits ⟨h.1, htype⟩
  refine params.bind fun types t ht htypes => ?_
  have hread := hresult [] rest t ht.awaits (hr.trans ht).depth hrest
  refine hread.bind fun type u hu htype => .view ?_
  refine (walks_allocType hu.awaits).bind fun arrow v hv e => ?_
  refine (walks_allocExpr hv.awaits).mono fun id w hw e' => ?_
  have hext := (hu.trans (hv.trans hw)).nodes
  exact ⟨arrow, _, e', types, type, _, hw.nodes.types.get?_eq e,
    (paramsAt_iff.2 htypes).extend hext.types, htype.extend (hv.trans hw).nodes.types⟩

/-- Elements in parentheses are the parameters of a function type if an arrow stands behind them. -/
lemma walks_parenthesized {first : Labelled TypeTerm} {others : List (Labelled TypeTerm)}
    {comma : Bool} {more : List Tile}
    (h : s.Awaits env [] (.mark .openParen ::
      (paramTiles (first :: others) ++ (trailing comma ++ .mark .closeParen :: more))))
    (hlimit : s.tentative.limit = none)
    (hread : ∀ p ∈ first :: others, p.type.ReadBy env call s.depth)
    (hvalue : ∀ p ∈ first :: others, p.type.ValuedBy env call s.depth)
    (hk : ∀ elements u, Walked env [] more s u →
      ElementsMean env u.nodes (first :: others) elements →
      if Tile.front (more ++ []) = .mark .thinArrow then
        Walks env [] u (functionType call s.start elements) rest p
      else (∀ p ∈ first :: others, p.label = none)
        ∧ Walks env [] u (exprFrom s.start (parenForm elements comma)) rest p) :
    Walks env [] s (parenthesized call) rest p := by
  refine .view ((walks_advance h).bind fun _ r hr _ => ?_)
  have hclose : r.kind ≠ .mark .closeParen := by
    obtain ⟨⟨head, tail, e, hopens⟩, -⟩ := flows_labelled first.type.flows first.label
    have hr := hr.awaits
    rw [paramTiles_cons, labelledTiles, e] at hr
    exact beq_eq_false_iff_ne.1 (Bool.or_eq_false_iff.1 (goes_on hr hopens (.inl rfl))).1
  refine (walks_optional_of_ne hr.awaits (hr.awaits.kind_eq ▸ hclose)).bind ?_
  rintro _ r hr' ⟨rfl, rfl⟩
  rw [if_neg Bool.false_ne_true]
  have inside := walks_parenElements hr'.awaits
    ((congrArg Tentative.limit hr.tentative).trans hlimit) (hr.depth ▸ hread) (hr.depth ▸ hvalue)
  refine inside.bind ?_
  rintro ⟨elements, trailingComma⟩ t ht ⟨rfl, helements⟩
  refine (walks_require ht.awaits).bind fun _ u hu _ => .view ?_
  have hk := hk elements u ((hr.trans ht).trans hu) (helements.extend hu.nodes)
  rw [hu.awaits.kind_eq]
  split at hk
  case isTrue harrow =>
    rw [harrow, beq_self_eq_true, if_pos rfl]
    exact hk
  case isFalse harrow =>
    have hlabels := helements.unlabelled hk.1
    rw [beq_eq_false_iff_ne.2 harrow, if_neg Bool.false_ne_true, hlabels, if_neg Bool.false_ne_true]
    exact hk.2

/-- Several elements in parentheses make a tuple, and so does one with a comma behind it. -/
lemma parenForm_tuple {first : TypeTerm} {others : List TypeTerm}
    {elements : List (Option Name × ExprId)}
    (h : ElementsMean env nodes ((first :: others).map (Labelled.mk none)) elements) :
    parenForm elements others.isEmpty = .tuple (elements.map Prod.snd) := by
  cases h with
  | @cons _ element _ elements helement h =>
    cases others with
    | nil =>
      cases h
      rfl
    | cons second others =>
      cases h
      rfl

/-- Types in parentheses without an arrow behind them. -/
lemma walks_parensChain {t first : TypeTerm} {others : List TypeTerm} {comma : Bool}
    (h : s.Awaits env [] (parenTiles (first :: others) comma ++ rest))
    (hlimit : s.tentative.limit = none) (hrest : Tile.front (rest ++ []) ∈ Kind.behindValue)
    (hread : ∀ t ∈ first :: others, t.ReadBy env call s.depth)
    (hvalue : ∀ t ∈ first :: others, t.ValuedBy env call s.depth)
    (hmeans : ∀ id elements span nodes,
      nodes.exprs.get? id = some ⟨parenForm elements comma, span⟩ →
      ElementsMean env nodes ((first :: others).map (Labelled.mk none)) elements →
      t.MeantBy env nodes id) :
    Walks env [] s (chain call) rest fun id u => t.MeantBy env u.nodes id := by
  have noArrow : ∀ k ∈ Kind.behindValue, k ≠ .mark .thinArrow := by decide
  have hkind : s.kind = .mark .openParen := h.kind_eq
  refine walks_markChain hkind ?_ hrest
  rw [parenTiles, List.cons_append, List.append_assoc, List.append_assoc,
    List.singleton_append] at h
  refine walks_parenthesized h hlimit ?_ ?_ fun elements u hu helements => ?_
  · simpa using hread
  · simpa using hvalue
  · rw [if_neg (noArrow _ hrest)]
    refine ⟨by simp, (walks_exprFrom hu.awaits).mono ?_⟩
    rintro id v hv ⟨span, e⟩
    exact hmeans id elements span v.nodes e (helements.extend hv.nodes)

/-- Nothing in parentheses without an arrow behind them. -/
lemma walks_unitChain (h : s.Awaits env [] (unit.tiles ++ rest))
    (hrest : Tile.front (rest ++ []) ∈ Kind.behindValue) :
    Walks env [] s (chain call) rest fun id u => unit.MeantBy env u.nodes id := by
  have noArrow : ∀ k ∈ Kind.behindValue, k ≠ .mark .thinArrow := by decide
  have hkind : s.kind = .mark .openParen := h.kind_eq
  refine walks_markChain hkind ?_ hrest
  rw [tiles, List.cons_append, List.cons_append, List.nil_append] at h
  refine .view ((walks_advance h).bind fun _ r hr _ => ?_)
  refine (walks_optional hr.awaits).bind fun _ t ht e => ?_
  rw [e, if_pos rfl]
  refine .view ?_
  rw [ht.awaits.kind_eq, beq_eq_false_iff_ne.2 (noArrow _ hrest),
    if_neg Bool.false_ne_true]
  refine (walks_exprFrom ht.awaits).mono ?_
  rintro id u - ⟨span, e⟩
  exact meantBy_unit e

/-- An optional type stands for itself. -/
lemma walks_optionalChain {inner : TypeTerm}
    (h : s.Awaits env [] ((TypeTerm.optional inner).tiles ++ rest))
    (hrest : Tile.front (rest ++ []) ∈ Kind.behindValue)
    (hread : (TypeTerm.optional inner).ReadBy env call s.depth) :
    Walks env [] s (chain call) rest fun id u =>
      (TypeTerm.optional inner).MeantBy env u.nodes id := by
  have value : Walks env [] s (typeValue call) rest fun id u =>
      (TypeTerm.optional inner).MeantBy env u.nodes id := by
    refine .view ((hread [] rest s h rfl (behindType_of_behindValue _ hrest)).bind ?_)
    intro type t ht htype
    refine (walks_exprFrom ht.awaits).mono ?_
    rintro id u hu ⟨span, e⟩
    exact meantBy_typeValue e (htype.extend hu.nodes.types)
  obtain ⟨below, -, e⟩ | ⟨-, e⟩ := tiles_optional inner
  · have hkind : s.kind = .mark .questionQuestion := by
      rw [h.kind_eq, e]
      rfl
    exact walks_markChain hkind value hrest
  · have hkind : s.kind = .mark .question := by
      rw [h.kind_eq, e]
      rfl
    exact walks_markChain hkind value hrest

/-! ## Function types -/

/-- A function type in the place of a value. -/
lemma walks_arrowChain {params : List (Labelled TypeTerm)} {result : TypeTerm}
    (h : s.Awaits env [] ((arrow params result).tiles ++ rest)) (hlimit : s.tentative.limit = none)
    (hrest : Tile.front (rest ++ []) ∈ Kind.behindValue)
    (hread : ∀ p ∈ params, p.type.ReadBy env call s.depth)
    (hvalue : ∀ p ∈ params, p.type.ValuedBy env call s.depth)
    (hresult : result.ReadBy env call s.depth) :
    Walks env [] s (chain call) rest fun id u => ∃ type span,
      u.nodes.exprs.get? id = some ⟨.typeValue type, span⟩
        ∧ (arrow params result).IsAt u.nodes type := by
  have hkind : s.kind = .mark .openParen := h.kind_eq
  have hbehind := behindType_of_behindValue _ hrest
  refine walks_markChain hkind ?_ hrest
  rw [tiles, List.cons_append, List.append_assoc] at h
  cases params with
  | nil =>
    rw [paramTiles, List.nil_append] at h
    refine .view ((walks_advance h).bind fun _ r hr _ => ?_)
    refine (walks_optional hr.awaits).bind fun _ t ht e => ?_
    rw [e, if_pos rfl]
    have harrow : t.kind = .mark .thinArrow := ht.awaits.kind_eq
    refine .view ?_
    rw [harrow, beq_self_eq_true, if_pos rfl]
    exact walks_functionType ht.awaits hbehind .nil ((hr.trans ht).depth ▸ hresult)
  | cons first others =>
    have h : s.Awaits env [] (.mark .openParen ::
        (paramTiles (first :: others) ++ (trailing false
          ++ .mark .closeParen :: .mark .thinArrow :: (result.tiles ++ rest)))) := h
    refine walks_parenthesized h hlimit hread hvalue fun elements u hu helements => ?_
    exact walks_functionType hu.awaits hbehind helements (hu.depth ▸ hresult)

/-- A type that is a chain is an operand by itself, one level deeper. -/
lemma walks_operand {t : TypeTerm} (good : ExprId → Nodes → Prop)
    (h : s.Awaits env [] (t.tiles ++ rest)) (hdepth : s.depth < env.settings.maxDepth)
    (hrest : Tile.front (rest ++ []) ∈ Kind.behindValue)
    (hchain : ∀ u : ParseState, u.Awaits env [] (t.tiles ++ rest) → u.depth = s.depth + 1 →
      u.tentative = s.tentative → Walks env [] u (chain call) rest fun id v => good id v.nodes) :
    Walks env [] s (binary call Precedence.lowest.strength) rest fun id u => good id u.nodes := by
  refine walks_binary good h hdepth hrest fun u hu hudepth htentative => ?_
  refine walks_unary (hchain u hu hudepth htentative) ?_ hrest
  obtain ⟨⟨head, tail, e, hopens⟩, -⟩ := t.flows
  rw [hu.kind_eq, e]
  cases head with
  | name x =>
    rw [List.cons_append, List.cons_append, Tile.front, Tile.kind]
    cases x.raw <;> rfl
  | keyword k => exact hopens.elim
  | mark p =>
    have key : ∀ p ∈ [Punctuation.openParen, .question, .questionQuestion],
        unaryOp? (.mark p) = none := by
      decide
    exact key p hopens

end Rule

namespace TypeTerm

variable {depth nesting : Nat}

/-- One level deeper a type is read as a chain. -/
lemma ValuedBy.of_chain {t : TypeTerm} (hdepth : depth < env.settings.maxDepth)
    (h : ∀ (nesting : Nat) (rest : List Tile) (s : ParseState), s.Awaits env [] (t.tiles ++ rest) →
      s.depth = depth + 1 → s.tentative.limit = none →
      Tile.front (rest ++ []) ∈ Kind.behindValue →
      Walks env [] s (Rule.chain (Rule.callTo nesting)) rest fun id u => t.MeantBy env u.nodes id) :
    t.ValuedBy env (Rule.callTo nesting) depth := by
  intro rest s hs e hlimit hrest
  cases nesting with
  | zero => exact .endless
  | succ nesting =>
    refine .view (Rule.walks_unassigned ?_ hrest)
    refine Rule.walks_operand (fun id nodes => t.MeantBy env nodes id) hs (e ▸ hdepth) hrest ?_
    intro u hu hudepth htentative
    exact h nesting rest u hu (by rw [hudepth, e]) (by rw [htentative, hlimit]) hrest

lemma argTiles_length_le {members : List (Segment TypeTerm)} :
    ∀ y ∈ members, (argTiles y.args).length ≤ longestArgsOfMembers members := by
  induction members with
  | nil => exact fun _ h => nomatch h
  | cons x members ih =>
    refine List.forall_mem_cons.2 ⟨le_max_left _ _, fun y hy => (ih y hy).trans ?_⟩
    exact (le_max_right _ _).trans (le_max_right _ _)

lemma longestArgs_le_longestArgsOf {ts : List TypeTerm} :
    ∀ t ∈ ts, t.longestArgs ≤ longestArgsOf ts := by
  induction ts with
  | nil => exact fun _ h => nomatch h
  | cons t ts ih =>
    exact List.forall_mem_cons.2 ⟨le_max_left _ _, fun u hu => (ih u hu).trans (le_max_right _ _)⟩

lemma longestArgs_le_longestArgsOfParams {params : List (Labelled TypeTerm)} :
    ∀ p ∈ params, p.type.longestArgs ≤ longestArgsOfParams params := by
  induction params with
  | nil => exact fun _ h => nomatch h
  | cons p params ih =>
    exact List.forall_mem_cons.2 ⟨le_max_left _ _, fun q hq => (ih q hq).trans (le_max_right _ _)⟩

/-- Where a value must stand, what is read means the type that is written, if the nesting allows for
it and each list of type arguments keeps within the budget. -/
theorem valuedBy_callTo (t : TypeTerm) (hdepth : depth + t.levels < env.settings.maxDepth)
    (hbudget : t.longestArgs ≤ env.settings.budget) :
    t.ValuedBy env (Rule.callTo nesting) depth := by
  induction t using TypeTerm.induct generalizing depth nesting with
  | path first others ih =>
    rw [levels] at hdepth
    refine .of_chain (by omega) fun nesting rest s hs e hlimit hrest => ?_
    refine Rule.walks_pathChain hs hlimit hrest (fun y hy => ?_) fun y hy t ht => ?_
    · exact (argTiles_length_le y hy).trans hbudget
    · have hlevels := levels_le_levelsOfMembers y hy t ht
      rw [levelsOfMembers] at hlevels
      exact readBy_callTo t (by omega)
  | optional inner ih hbelow =>
    refine .of_chain (by omega) fun nesting rest s hs e hlimit hrest => ?_
    exact Rule.walks_optionalChain hs hrest (readBy_callTo _ (by omega))
  | parens inner ih =>
    rw [levels] at hdepth
    refine .of_chain (by omega) fun nesting rest s hs e hlimit hrest => ?_
    rw [tiles_parens] at hs
    refine Rule.walks_parensChain hs hlimit hrest ?_ ?_
      fun id elements span nodes hid helements => ?_
    · exact List.forall_mem_singleton.2 (readBy_callTo inner (by omega))
    · exact List.forall_mem_singleton.2 (ih (by omega) hbudget)
    · cases helements with
      | cons hinner hnone =>
        cases hnone
        exact meantBy_parens hid hinner.2
  | tuple first others ih =>
    rw [levels] at hdepth
    rw [longestArgs] at hbudget
    refine .of_chain (by omega) fun nesting rest s hs e hlimit hrest => ?_
    rw [tiles_tuple] at hs
    have hlevels : ∀ t ∈ first :: others, t.levels ≤ max first.levels (levelsOf others) :=
      levels_le_levelsOf
    have hargs : ∀ t ∈ first :: others,
        t.longestArgs ≤ max first.longestArgs (longestArgsOf others) :=
      longestArgs_le_longestArgsOf
    refine Rule.walks_parensChain hs hlimit hrest (fun t ht => ?_) (fun t ht => ?_)
      fun id elements span nodes hid helements => ?_
    · have := hlevels t ht
      exact readBy_callTo t (by omega)
    · have := hlevels t ht
      exact ih t ht (by omega) ((hargs t ht).trans hbudget)
    · rw [Rule.parenForm_tuple helements] at hid
      exact meantBy_tuple hid helements.values
  | unit =>
    rw [levels] at hdepth
    refine .of_chain (by omega) fun nesting rest s hs e hlimit hrest => ?_
    exact Rule.walks_unitChain hs hrest
  | arrow params result ihparams ihresult =>
    rw [levels] at hdepth
    rw [longestArgs] at hbudget
    refine .of_chain (by omega) fun nesting rest s hs e hlimit hrest => ?_
    refine (Rule.walks_arrowChain hs hlimit hrest (fun p hp => ?_) (fun p hp => ?_) ?_).mono ?_
    · have := levels_le_levelsOfParams p hp
      exact readBy_callTo p.type (by omega)
    · have := levels_le_levelsOfParams p hp
      have := longestArgs_le_longestArgsOfParams p hp
      exact ihparams p hp (by omega) (by omega)
    · exact readBy_callTo result (by omega)
    · rintro id u - ⟨type, span, hid, htype⟩
      exact meantBy_typeValue hid htype

end TypeTerm

end CangjieSyntax
