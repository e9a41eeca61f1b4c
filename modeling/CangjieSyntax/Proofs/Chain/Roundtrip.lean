import CangjieSyntax.Proofs.Chain.Basic
import CangjieSyntax.Proofs.Invariant.Rule

/-!
# Chains read back

Each round of a chain takes one link and hands on the expression it makes. So the rounds fold the
links from left to right, and whether one of them is optional decides what the last round makes of
the whole.
-/

namespace CangjieSyntax

variable {env : Env} {s : ParseState} {rest : List Shape} {nesting start : Nat} {target : ExprId}
  {isOptional hasOptional : Bool} {x : Ident}

namespace Rule

/-! ## Members -/

lemma crosses_memberName {p : Shape} (h : s.Stands env (p :: rest))
    (hname : (p.kind.isIdentifier || p.kind.isKeyword) = true) :
    Crosses env (p :: rest) s memberName rest
      fun n _ => n.text = p.kind.keywordText?.getD p.value := by
  refine .view ?_
  rw [h.kind_eq, Shape.front, if_pos hname]
  refine .view (.view ?_)
  rw [h.value_eq]
  refine (crosses_name h).bind fun n t ht hn => ?_
  exact (crosses_advance ht.stands).bind fun _ u hu _ => .pure hu.stands hn.1

lemma crosses_fieldLink {p : Shape} (h : s.Stands env (.mark .dot :: p :: rest))
    (hname : (p.kind.isIdentifier || p.kind.isKeyword) = true)
    (hless : Shape.front rest ≠ .mark .less) :
    Crosses env (.mark .dot :: p :: rest) s
      (fieldLink (callTo nesting) target start isOptional) rest
      fun id u => ∃ name span, u.nodes.exprs.get? id = some ⟨.field target name [] isOptional, span⟩
        ∧ name.text = p.kind.keywordText?.getD p.value := by
  refine (crosses_advance h).bind fun _ t ht _ => ?_
  refine (crosses_memberName ht.stands hname).bind fun n u hu hn => ?_
  refine (crosses_typeArguments? hu.stands hless).bind ?_
  rintro _ v hv ⟨rfl, rfl⟩
  refine (crosses_exprFrom hv.stands).mono ?_
  rintro id w - ⟨span, e⟩
  exact ⟨n, span, e, hn⟩

/-! ## Calls -/

/-- A name is an argument by itself. -/
lemma crosses_argument (h : s.Stands env (x.shape :: rest))
    (hdepth : s.depth < env.settings.maxDepth) (hrest : Shape.front rest ∈ Kind.closers) :
    Crosses env (x.shape :: rest) s (argument (callTo nesting)) rest
      fun a u => u.nodes.IsNameArgument x a := by
  have ends : ∀ k ∈ Kind.closers, (k == .mark .colon) = false := by decide
  have noLabel : Crosses env (x.shape :: rest) s label? (x.shape :: rest)
      fun name u => name = none ∧ u = s := by
    refine .view ?_
    rw [h.peek_eq, ends _ hrest, Bool.and_false, if_neg Bool.false_ne_true]
    exact .pure h ⟨rfl, rfl⟩
  have notInout : Shape.front (x.shape :: rest) ≠ .keyword .kwInout := by
    obtain e | e := x.kind_shape <;> rw [Shape.front, e] <;> rintro ⟨⟩
  refine .view (noLabel.bind ?_)
  rintro _ t - ⟨rfl, rfl⟩
  refine (crosses_optional_of_ne h notInout).bind ?_
  rintro _ u - ⟨rfl, rfl⟩
  refine (crosses_expressionName h hdepth hrest).bind fun value v hv hvalue => ?_
  exact .view (.pure hv.stands ⟨rfl, rfl, hvalue⟩)

/-- Each round takes one argument with the comma behind it. -/
lemma crosses_argumentsRounds (args : List Ident) {items : List Argument}
    (h : s.Stands env (x.shape :: (Link.shapesBehind args ++ .mark .closeParen :: rest)))
    (hdepth : s.depth < env.settings.maxDepth) (rounds : Nat) :
    Crosses env (x.shape :: (Link.shapesBehind args ++ .mark .closeParen :: rest)) s
      (loopUpTo (listRound (.mark .closeParen) (argument (callTo nesting))) rounds items)
      (.mark .closeParen :: rest)
      fun found u => ∃ more, found = items ++ more
        ∧ List.Forall₂ u.nodes.IsNameArgument (x :: args) more := by
  have hclose : Kind.mark .closeParen ∈ Kind.closers := by decide
  have hcomma : Kind.mark .comma ∈ Kind.closers := by decide
  have goesOn (x : Ident) : (x.shape.kind == .mark .closeParen || x.shape.kind == .endOfFile)
      = false := by
    obtain e | e := x.kind_shape <;> rw [e] <;> rfl
  induction args generalizing s x items rounds with
  | nil =>
    refine .loop_done ?_ rounds
    refine .view ?_
    rw [h.kind_eq, Shape.front, goesOn x, if_neg Bool.false_ne_true]
    refine (crosses_argument h hdepth hclose).bind fun a t ht ha => ?_
    have noComma : Shape.front (.mark .closeParen :: rest) ≠ .mark .comma := by
      rintro ⟨⟩
    refine (crosses_optional_of_ne ht.stands noComma).bind ?_
    rintro _ u - ⟨rfl, rfl⟩
    exact .pure ht.stands ⟨items ++ [a], rfl, [a], rfl, .cons ha .nil⟩
  | cons y args ih =>
    have round : Crosses env (x.shape :: .mark .comma :: y.shape ::
        (Link.shapesBehind args ++ .mark .closeParen :: rest)) s
        (listRound (.mark .closeParen) (argument (callTo nesting)) items)
        (y.shape :: (Link.shapesBehind args ++ .mark .closeParen :: rest))
        fun next u => ∃ a, next = .inl (items ++ [a]) ∧ u.nodes.IsNameArgument x a := by
      refine .view ?_
      rw [h.kind_eq, Shape.front, goesOn x, if_neg Bool.false_ne_true]
      refine (crosses_argument h hdepth hcomma).bind fun a t ht ha => ?_
      refine (crosses_optional ht.stands).bind ?_
      rintro _ u hu rfl
      exact .pure hu.stands ⟨a, rfl, ha.extend hu.nodes⟩
    refine .loop_next (round.mono ?_) rounds
    rintro _ t ht ⟨a, rfl, ha⟩
    refine ⟨items ++ [a], rfl, fun rounds => ?_⟩
    have hdepth' : t.depth < env.settings.maxDepth := by rwa [ht.depth]
    refine (ih ht.stands hdepth' rounds).mono ?_
    rintro _ u hu ⟨more, rfl, hmore⟩
    exact ⟨a :: more, List.append_assoc .., .cons (ha.extend hu.nodes) hmore⟩

lemma crosses_callLink (args : List Ident)
    (h : s.Stands env ((Link.call args).shapes ++ rest))
    (hdepth : s.depth < env.settings.maxDepth) :
    Crosses env ((Link.call args).shapes ++ rest) s
      (callLink (callTo nesting) target start isOptional) rest
      fun id u => u.nodes.IsLink target isOptional id (.call args) := by
  have list (t : ParseState)
      (ht : t.Stands env (Link.argShapes args ++ .mark .closeParen :: rest))
      (htdepth : t.depth = s.depth) :
      Crosses env (Link.argShapes args ++ .mark .closeParen :: rest) t
        (list (.mark .closeParen) (argument (callTo nesting))) (.mark .closeParen :: rest)
        fun found u => List.Forall₂ u.nodes.IsNameArgument args found := by
    refine .loop fun rounds => ?_
    cases args with
    | nil =>
      refine .loop_done ?_ rounds
      refine .view ?_
      rw [ht.kind_eq]
      exact .pure ht ⟨[], rfl, .nil⟩
    | cons x args =>
      refine (crosses_argumentsRounds args ht (by rwa [htdepth]) rounds).mono ?_
      rintro _ u - ⟨more, rfl, hmore⟩
      exact hmore
  rw [Link.shapes, List.cons_append, List.append_assoc] at h ⊢
  refine (crosses_advance h).bind fun _ t ht _ => ?_
  refine (list t ht.stands ht.depth).bind fun found u hu hfound => ?_
  refine (crosses_require hu.stands).bind fun _ v hv _ => ?_
  refine (crosses_exprFrom hv.stands).mono ?_
  rintro id w hw ⟨span, e⟩
  exact ⟨found, span, e, hfound.imp fun _ _ h => h.extend (hv.nodes.trans hw.nodes)⟩

/-! ## Elements -/

lemma crosses_indexLink
    (h : s.Stands env (.mark .openBracket :: x.shape :: .mark .closeBracket :: rest))
    (hdepth : s.depth < env.settings.maxDepth) :
    Crosses env (.mark .openBracket :: x.shape :: .mark .closeBracket :: rest) s
      (indexLink (callTo nesting) target start isOptional) rest
      fun id u => u.nodes.IsLink target isOptional id (.index x) := by
  have noRange : (x.shape.kind == .mark .dotDot || x.shape.kind == .mark .dotDotEquals)
      = false := by
    obtain e | e := x.kind_shape <;> rw [e] <;> rfl
  have hclose : Kind.mark .closeBracket ∈ Kind.closers := by decide
  refine (crosses_advance h).bind fun _ t ht _ => ?_
  have hdepth' : t.depth < env.settings.maxDepth := by rwa [ht.depth]
  refine .view ?_
  rw [ht.stands.kind_eq, Shape.front, noRange, if_neg Bool.false_ne_true]
  refine (crosses_expressionName ht.stands hdepth' hclose).bind fun found u hu hfound => ?_
  refine (crosses_require hu.stands).bind fun _ v hv _ => ?_
  refine (crosses_exprFrom hv.stands).mono ?_
  rintro id w hw ⟨span, e⟩
  exact ⟨found, span, e, hfound.extend (hv.nodes.trans hw.nodes)⟩

/-! ## Lambdas -/

/-- At an arrow there are no parameters, and the arrow is taken. -/
lemma ensures_noParams (call : Call) (h : s.kind = .mark .fatArrow) :
    Ensures env s (lambdaParams? call)
      fun result t => result = some [] ∧ t = s.advance env.src := by
  have params : Ensures env s (loop (lambdaParamsRound call) [])
      fun params t => params = some [] ∧ t = s := by
    refine Ensures.loop_invariant (R := fun params t => params = [] ∧ t = s) ?_ ⟨rfl, rfl⟩
    rintro _ _ ⟨rfl, rfl⟩
    refine .view ?_
    rw [h]
    exact .pure ⟨rfl, rfl⟩
  have arrow : Ensures env s (optional (.mark .fatArrow))
      fun taken t => taken = true ∧ t = s.advance env.src := by
    refine .view ?_
    rw [h, beq_self_eq_true, if_pos rfl]
    exact .advance (.pure ⟨rfl, rfl⟩)
  refine params.bind ?_
  rintro _ _ ⟨rfl, rfl⟩
  refine arrow.bind ?_
  rintro _ _ ⟨rfl, rfl⟩
  exact .pure ⟨rfl, rfl⟩

/-- The attempt to read parameters in front of an arrow takes the arrow and is kept. -/
lemma crosses_noParams (h : s.Stands env (.mark .fatArrow :: rest))
    (hbudget : 1 ≤ env.settings.budget) :
    Crosses env (.mark .fatArrow :: rest) s (attempt (lambdaParams? (callTo nesting))) rest
      fun found _ => found = .committed [] := by
  intro a t e
  obtain ⟨result, u, hrun, hend⟩ := attempt_eq_some e
  have hkind : (s.enterTentative env.settings.budget).kind = .mark .fatArrow := h.kind_eq
  obtain ⟨rfl, rfl⟩ := ensures_noParams (callTo nesting) hkind result u hrun
  have hlimit : ∀ limit ∈ (s.enterTentative env.settings.budget).tentative.limit,
      (s.enterTentative env.settings.budget).tokenCount + 1 ≤ limit := by
    rw [ParseState.enterTentative, h.tentative]
    rintro _ ⟨⟩
    exact Nat.add_le_add_left hbudget _
  rw [ParseState.Awaits.advance_eq_of_limit hlimit h.quiet] at hend
  obtain ⟨_, ⟨⟩, -, rfl, rfl⟩ | ⟨himpossible, -⟩ := hend
  · have hcommit : s.commit { s.enterTentative env.settings.budget with
        lexer := s.lexer.scanKnown env.src, prevStop := s.lexer.pos, prevSpan := s.lexer.span
        prevKind := s.lexer.kind, tokenCount := s.tokenCount + 1 } = s.advance env.src := by
      rw [h.advance_eq, h.offers.scanKnown_eq, ParseState.commit, ParseState.leaveTentative,
        ParseState.enterTentative, h.tentative]
      rfl
    exact ⟨hcommit ▸ h.crossed_advance, rfl⟩
  · obtain e | e := himpossible
    · cases e
    · rw [ParseState.enterTentative, h.tentative] at e
      cases e

/-- A lambda without parameters, with a name for its body. -/
lemma crosses_lambdaLink {spaced : Bool}
    (h : s.Stands env (.mark .openBrace :: .mark .fatArrow :: x.shape :: .mark .closeBrace :: rest))
    (hdepth : s.depth + 1 < env.settings.maxDepth) (hbudget : 1 ≤ env.settings.budget) :
    Crosses env (.mark .openBrace :: .mark .fatArrow :: x.shape :: .mark .closeBrace :: rest) s
      (lambdaLink (callTo nesting) target start isOptional) rest
      fun id u => u.nodes.IsLink target isOptional id (.lambda x spaced) := by
  have hclose : Kind.mark .closeBrace ∈ blockEnds := by decide
  have lambda : Crosses env
      (.mark .openBrace :: .mark .fatArrow :: x.shape :: .mark .closeBrace :: rest) s
      (lambda (callTo nesting) false) rest fun id u => ∃ body span,
        u.nodes.exprs.get? id = some ⟨.lambda [] body, span⟩
          ∧ u.nodes.IsNameBlock x body.items := by
    refine .view ((crosses_advance h).bind fun _ t ht _ => ?_)
    refine (crosses_noParams ht.stands hbudget).bind ?_
    rintro _ u hu rfl
    change Crosses _ _ _ (do
      let items ← allItems (callTo nesting)
      require (.mark .closeBrace)
      let span ← spanFrom s.start
      allocExpr (.lambda [] ⟨items, span⟩) span) _ _
    have hdepth' : u.depth + 1 < env.settings.maxDepth := by rwa [hu.depth, ht.depth]
    refine (crosses_allItemsName hu.stands hdepth' hclose).bind fun items v hv hitems => ?_
    refine (crosses_require hv.stands).bind fun _ w hw _ => .view ?_
    refine (crosses_allocExpr hw.stands).mono fun id z hz e => ?_
    exact ⟨_, _, e, hitems.extend (hw.nodes.trans hz.nodes)⟩
  refine lambda.bind ?_
  rintro id t ht ⟨body, span, e, hbody⟩
  refine (crosses_exprFrom ht.stands).mono ?_
  rintro id' u hu ⟨span', e'⟩
  exact ⟨id, body, span', span, e', hu.nodes.exprs.get?_eq e, hbody.extend hu.nodes⟩

/-! ## Links -/

/-- Where a link stands that may start there, it is the next one. -/
lemma crosses_link (nesting start : Nat) (target : ExprId) (isOptional : Bool) (l : Link)
    (h : s.Stands env (l.shapes ++ rest)) (hdepth : s.depth + 1 < env.settings.maxDepth)
    (hbudget : 1 ≤ env.settings.budget) (hless : Shape.front rest ≠ .mark .less) :
    ∃ r, link? (callTo nesting) target start isOptional true s.kind = some r
      ∧ Crosses env (l.shapes ++ rest) s r rest
        fun id u => u.nodes.IsLink target isOptional id l := by
  have hdepth' : s.depth < env.settings.maxDepth := Nat.lt_of_succ_lt hdepth
  rw [h.kind_eq]
  cases l with
  | member x =>
    have hname : (x.shape.kind.isIdentifier || x.shape.kind.isKeyword) = true
        ∧ x.shape.kind.keywordText?.getD x.shape.value = x.text := by
      obtain e | e := x.kind_shape <;> rw [e] <;> exact ⟨rfl, rfl⟩
    refine ⟨_, rfl, (crosses_fieldLink h hname.1 hless).mono ?_⟩
    rintro id u - ⟨name, span, e, htext⟩
    exact ⟨name, span, e, htext.trans hname.2⟩
  | keywordMember k => exact ⟨_, rfl, crosses_fieldLink h rfl hless⟩
  | call args => exact ⟨_, rfl, crosses_callLink args h hdepth'⟩
  | index x => exact ⟨_, rfl, crosses_indexLink h hdepth'⟩
  | lambda x spaced => exact ⟨_, rfl, crosses_lambdaLink h hdepth hbudget⟩

lemma crosses_atOptionalLink (l : ChainLink) (h : s.Stands env (l.shapes ++ rest)) :
    Crosses env (l.shapes ++ rest) s atOptionalLink (l.shapes ++ rest)
      fun isOptional u => isOptional = l.isOptional ∧ u = s := by
  obtain ⟨l, isOptional⟩ := l
  rintro _ _ ⟨⟩
  refine ⟨h.crossed, ?_, rfl⟩
  dsimp only
  rw [h.kind_eq]
  cases isOptional with
  | false => cases l <;> rfl
  | true => cases l <;> rw [h.peek_eq, h.lineBreak_eq] <;> rfl

/-- A round takes one link, with the question mark in front of it if it is optional. -/
lemma crosses_chainRound (l : ChainLink) (h : s.Stands env (l.shapes ++ rest))
    (hdepth : s.depth + 1 < env.settings.maxDepth) (hbudget : 1 ≤ env.settings.budget)
    (hless : Shape.front rest ≠ .mark .less) :
    Crosses env (l.shapes ++ rest) s (chainRound (callTo nesting) start (target, hasOptional)) rest
      fun next u => ∃ id, next = .inl (id, hasOptional || l.isOptional)
        ∧ u.nodes.IsLink target l.isOptional id l.link := by
  refine (crosses_atOptionalLink l h).bind ?_
  rintro _ t - ⟨rfl, rfl⟩
  obtain ⟨l, isOptional⟩ := l
  cases isOptional with
  | false =>
    obtain ⟨p, more, e⟩ : ∃ p more, (ChainLink.mk l false).shapes ++ rest = p :: more := by
      cases l <;> exact ⟨_, _, rfl⟩
    obtain ⟨r, hr, hlink⟩ := crosses_link nesting start target false l h hdepth hbudget hless
    refine .view (.view ?_)
    rw [ParseState.Stands.lineBreak_eq (e ▸ h), Bool.not_false, Bool.false_or, hr]
    exact hlink.bind fun id u hu hid => .pure hu.stands ⟨id, rfl, hid⟩
  | true =>
    have h' : ParseState.Stands env (.mark .question :: (l.shapes ++ rest)) _ := h
    refine (crosses_advance h').bind fun _ t ht _ => ?_
    have hdepth' : t.depth + 1 < env.settings.maxDepth := by rwa [ht.depth]
    obtain ⟨r, hr, hlink⟩ := crosses_link nesting start target true l ht.stands hdepth' hbudget
      hless
    refine .view (.view ?_)
    rw [Bool.true_or, hr]
    exact hlink.bind fun id u hu hid => .pure hu.stands ⟨id, rfl, hid⟩

lemma front_links_ne_less (links : List ChainLink) :
    Shape.front (links.flatMap ChainLink.shapes) ≠ .mark .less := by
  obtain - | ⟨⟨l, isOptional⟩, links⟩ := links
  · exact fun e => nomatch e
  · cases isOptional <;> cases l <;> exact fun e => nomatch e

/-- The rounds fold the links from left to right. -/
lemma crosses_chainRounds (links : List ChainLink)
    (h : s.Stands env (links.flatMap ChainLink.shapes))
    (hdepth : s.depth + 1 < env.settings.maxDepth) (hbudget : 1 ≤ env.settings.budget)
    (rounds : Nat) :
    Crosses env (links.flatMap ChainLink.shapes) s
      (loopUpTo (chainRound (callTo nesting) start) rounds (target, hasOptional)) []
      fun id u => ∃ last, u.nodes.Folds target links last
        ∧ if hasOptional || links.any ChainLink.isOptional then
          ∃ span, u.nodes.exprs.get? id = some ⟨.optionalChain last, span⟩ else id = last := by
  induction links generalizing s target hasOptional rounds with
  | nil =>
    refine (crosses_chainEnd h List.mem_cons_self rounds).mono ?_
    rintro id u - ⟨-, hid⟩
    rw [List.any_nil, Bool.or_false]
    exact ⟨target, .nil target, hid⟩
  | cons l links ih =>
    refine .loop_next ((crosses_chainRound l h hdepth hbudget (front_links_ne_less links)).mono ?_)
      rounds
    rintro _ t ht ⟨mid, rfl, hmid⟩
    refine ⟨_, rfl, fun rounds => ?_⟩
    have hdepth' : t.depth + 1 < env.settings.maxDepth := by rwa [ht.depth]
    refine (ih ht.stands hdepth' rounds).mono ?_
    rintro id u hu ⟨last, hlast, hid⟩
    rw [Bool.or_assoc, ← List.any_cons] at hid
    exact ⟨last, .cons (hmid.extend hu.nodes) hlast, hid⟩

/-- A name and the links behind it are one chain. -/
lemma crosses_chainLinks (links : List ChainLink)
    (h : s.Stands env (x.shape :: links.flatMap ChainLink.shapes))
    (hdepth : s.depth + 1 < env.settings.maxDepth) (hbudget : 1 ≤ env.settings.budget) :
    Crosses env (x.shape :: links.flatMap ChainLink.shapes) s (chain (callTo nesting)) []
      fun id u => ∃ first, u.nodes.IsName x first ∧ u.nodes.IsChain first links id := by
  refine .view ((crosses_primaryName h (front_links_ne_less links)).bind ?_)
  intro first t ht hfirst
  refine .loop fun rounds => ?_
  have hdepth' : t.depth + 1 < env.settings.maxDepth := by rwa [ht.depth]
  refine (crosses_chainRounds links ht.stands hdepth' hbudget rounds).mono ?_
  rintro id u hu hchain
  rw [Bool.false_or] at hchain
  exact ⟨first, hfirst.extend hu.nodes, hchain⟩

end Rule

/-! ## Parses -/

/-- What the rules see of a chain is tiles. -/
lemma Link.exists_tile (l : Link) : ∀ p ∈ l.shapes, ∃ t : Tile, t.shape = p := by
  have behind (args : List Ident) : ∀ p ∈ shapesBehind args, ∃ t : Tile, t.shape = p := by
    intro p hp
    obtain ⟨x, -, hx⟩ := List.mem_flatMap.1 hp
    obtain rfl | rfl := List.mem_pair.1 hx
    · exact ⟨.mark .comma, rfl⟩
    · exact ⟨.name x, rfl⟩
  have tiles (ts : List Tile) : ∀ p ∈ ts.map Tile.shape, ∃ t : Tile, t.shape = p := by
    intro p hp
    obtain ⟨t, -, rfl⟩ := List.mem_map.1 hp
    exact ⟨t, rfl⟩
  cases l with
  | member x => exact tiles [.mark .dot, .name x]
  | keywordMember k => exact tiles [.mark .dot, .keyword k]
  | index x => exact tiles [.mark .openBracket, .name x, .mark .closeBracket]
  | lambda x spaced => exact tiles [.mark .openBrace, .mark .fatArrow, .name x, .mark .closeBrace]
  | call args =>
    refine List.forall_mem_cons.2 ⟨⟨.mark .openParen, rfl⟩, List.forall_mem_append.2 ⟨?_, ?_⟩⟩
    · cases args with
      | nil => exact List.forall_mem_nil _
      | cons x args => exact List.forall_mem_cons.2 ⟨⟨.name x, rfl⟩, behind args⟩
    · exact tiles [.mark .closeParen]

lemma ChainLink.exists_tile (l : ChainLink) : ∀ p ∈ l.shapes, ∃ t : Tile, t.shape = p := by
  obtain ⟨l, isOptional⟩ := l
  cases isOptional with
  | false => exact l.exists_tile
  | true => exact List.forall_mem_cons.2 ⟨⟨.mark .question, rfl⟩, l.exists_tile⟩

/-- No token of a chain closes a hole. -/
lemma ChainLink.spare (x : Ident) (links : List ChainLink) :
    Shape.Spare (x.shape :: links.flatMap shapes) := by
  have tile (t : Tile) : t.shape.kind ≠ .interpolationEnd := by
    cases t with
    | name x =>
      obtain e | e := x.kind_shape
      · exact fun e' => nomatch e.symm.trans e'
      · exact fun e' => nomatch e.symm.trans e'
    | keyword k | mark p => exact fun e => nomatch e
  refine .inl (List.forall_mem_cons.2 ⟨tile (.name x), fun p hp => ?_⟩)
  obtain ⟨l, -, hl⟩ := List.mem_flatMap.1 hp
  obtain ⟨t, rfl⟩ := l.exists_tile p hl
  exact tile t

/-- A name with links behind it is read as the links say, from left to right and up to the end of
the text. All of it is one optional chain if and only if there is an optional link. -/
theorem parse_chain {settings : Settings} (x : Ident) (links : List ChainLink)
    (hdepth : 3 ≤ settings.maxDepth) (hbudget : 1 ≤ settings.budget) :
    ∃ p, parseExpression (ChainLink.text x links).toUTF8 0 settings = some p
      ∧ p.diagnostics = #[] ∧ p.next = (ChainLink.text x links).toUTF8.size
      ∧ ∃ first, p.nodes.IsName x first ∧ p.nodes.IsChain first links p.expr := by
  have offers := @Shape.Spelled.offers (.ofString (ChainLink.text x links)) _
    (ChainLink.spelled_text x links)
  refine parseExpression_crosses (fun id nodes => ∃ first, nodes.IsName x first
    ∧ nodes.IsChain first links id) offers (ChainLink.spare x links) (by omega)
    (Rule.unaryOp?_shape x) fun s hs hsdepth _ nesting => ?_
  refine Rule.crosses_chainLinks links hs ?_ hbudget
  rw [hsdepth]
  exact hdepth

lemma Ident.starts_accented : "é".toList.head?.any Unicode.isIdentifierStart := by decide +kernel

lemma Ident.parts_accented : "é".toList.all Unicode.isIdentifierPart := by decide +kernel

lemma Ident.free_accented : false = false → Keyword.ofText? "é" = none ∧ "é" ≠ "_" := by
  decide +kernel

/-- A name beyond ASCII. -/
def Ident.accented : Ident where
  text := "é"
  starts := starts_accented
  parts := parts_accented
  free := free_accented

lemma Ident.starts_quoted : "class".toList.head?.any Unicode.isIdentifierStart := by decide +kernel

lemma Ident.parts_quoted : "class".toList.all Unicode.isIdentifierPart := by decide +kernel

lemma Ident.free_quoted : true = false → Keyword.ofText? "class" = none ∧ "class" ≠ "_" := by
  rintro ⟨⟩

/-- A keyword that is a name between grave accents. -/
def Ident.quoted : Ident where
  text := "class"
  raw := true
  starts := starts_quoted
  parts := parts_quoted
  free := free_quoted

/-- A chain with every kind of link in it. -/
def ChainLink.visitor : List ChainLink :=
  [⟨.member .quoted, true⟩, ⟨.call [.x, .accented], false⟩, ⟨.index .accented, true⟩,
   ⟨.keywordMember .kwInit, false⟩, ⟨.call [], true⟩, ⟨.lambda .x true, false⟩,
   ⟨.lambda .x false, true⟩]

/-- A chain with no token to spare in the budget. -/
theorem parse_chain_of_visitor :
    3 ≤ 3 ∧ 1 ≤ 1
      ∧ ChainLink.text .x ChainLink.visitor
        = "x?.`class`(x,é)?[é].init?()\x7b => x \x7d?\x7b=>x\x7d"
      ∧ ∃ p, parseExpression (ChainLink.text .x ChainLink.visitor).toUTF8 0
          { maxDepth := 3, budget := 1 } = some p
        ∧ p.diagnostics = #[] ∧ p.next = (ChainLink.text .x ChainLink.visitor).toUTF8.size
        ∧ ∃ first, p.nodes.IsName .x first ∧ p.nodes.IsChain first ChainLink.visitor p.expr := by
  have hdepth : 3 ≤ 3 := Nat.le_refl 3
  have hbudget : 1 ≤ 1 := Nat.le_refl 1
  have htext : ChainLink.text .x ChainLink.visitor
      = "x?.`class`(x,é)?[é].init?()\x7b => x \x7d?\x7b=>x\x7d" := by decide +kernel
  exact ⟨hdepth, hbudget, htext, parse_chain .x ChainLink.visitor hdepth hbudget⟩

end CangjieSyntax
