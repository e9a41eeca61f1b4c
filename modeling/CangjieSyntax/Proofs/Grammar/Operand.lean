import CangjieSyntax.Proofs.Grammar.Shapes
import CangjieSyntax.Proofs.TypeTerm.Roundtrip

/-!
# Operands by themselves

A chain that no operator goes on with is an expression and a statement. Where a closing token stands
behind a name, the name is all of a chain, of an expression and of a block.
-/

namespace CangjieSyntax

variable {env : Env} {s : ParseState} {p : Shape} {shapes rest : List Shape} {above nesting : Nat}

/-- The kinds of some tokens that go on with no operand. -/
def Kind.closers : List Kind :=
  [.endOfFile, .mark .comma, .mark .closeParen, .mark .closeBracket, .mark .closeBrace,
   .interpolationEnd]

namespace Rule

variable {call : Call} {good : ExprId → ParseState → Prop}

/-! ## Ends -/

/-- Where no link follows, a chain ends. Links that may be skipped make one expression. -/
lemma crosses_chainEnd {operand : ExprId} {start : Nat} {hasOptional : Bool}
    (h : s.Stands env rest) (hrest : Shape.front rest ∈ Kind.closers) (rounds : Nat) :
    Crosses env rest s (loopUpTo (chainRound call start) rounds (operand, hasOptional)) rest
      fun id u => s.nodes.Extends u.nodes ∧ if hasOptional then
        ∃ span, u.nodes.exprs.get? id = some ⟨.optionalChain operand, span⟩ else id = operand := by
  have ends : ∀ k ∈ Kind.closers, (k == .mark .question) = false ∧ k ≠ .mark .dot
      ∧ k ≠ .mark .openParen ∧ k ≠ .mark .openBracket ∧ k ≠ .mark .openBrace := by
    decide
  obtain ⟨hquestion, hdot, hparen, hbracket, hbrace⟩ := ends _ hrest
  refine .loop_done ?_ rounds
  refine .view ?_
  rw [h.kind_eq, hquestion, Bool.false_and, if_neg Bool.false_ne_true]
  refine .view (.view ?_)
  rw [h.kind_eq]
  split
  case h_1 link hlink =>
    unfold link? at hlink
    split at hlink
    case h_5 => exact nomatch hlink
    case h_1 e => exact absurd e hdot
    case h_2 e => exact absurd e hparen
    case h_3 e => exact absurd e hbracket
    case h_4 e => exact absurd e hbrace
  case h_2 =>
    rw [Bool.or_false]
    cases hasOptional with
    | true =>
      rw [if_pos rfl]
      refine (crosses_exprFrom h).bind fun id t ht hid => ?_
      exact .pure ht.stands ⟨id, rfl, ht.nodes, hid⟩
    | false => exact .pure h ⟨operand, rfl, .refl _, rfl⟩

/-- What stands by itself is a chain. -/
lemma crosses_chain (hprimary : Crosses env shapes s (primary call) rest good)
    (hrest : Shape.front rest ∈ Kind.closers)
    (hgood : ∀ {id t u}, t.nodes.Extends u.nodes → good id t → good id u) :
    Crosses env shapes s (chain call) rest good := by
  refine .view (hprimary.bind fun operand t ht hp => .loop fun rounds => ?_)
  refine (crosses_chainEnd ht.stands hrest rounds).mono ?_
  rintro _ _ - ⟨hext, rfl⟩
  exact hgood hext hp

/-- A chain is an operand if no operator stands in front of it. -/
lemma crosses_unary (h : Crosses env shapes s (chain call) rest good) (hop : unaryOp? s.kind = none)
    (hrest : Shape.front rest ∈ Kind.closers) : Crosses env shapes s (unary call) rest good := by
  have ends : ∀ k ∈ Kind.closers, stepOp? k = none := by decide
  refine .view ?_
  rw [hop]
  refine .view (h.bind fun operand t ht hp => ?_)
  refine .loop fun rounds => .loop_done ?_ rounds
  refine .view (.view ?_)
  rw [ht.stands.kind_eq, ends _ hrest]
  exact .pure ht.stands ⟨operand, rfl, hp⟩

/-- An operand without an operator behind it, one level deeper. -/
lemma crosses_binary (good : ExprId → Nodes → Prop) (hdepth : s.depth < env.settings.maxDepth)
    (hrest : Shape.front rest ∈ Kind.closers)
    (hoperand : Crosses env shapes { s with depth := s.depth + 1 } (unary call) rest
      fun id u => good id u.nodes) :
    Crosses env shapes s (binary call above) rest fun id u => good id u.nodes := by
  have ends : ∀ k ∈ Kind.closers, k ≠ .mark .greater ∧ k ≠ .keyword .kwAs
      ∧ k ≠ .keyword .kwIs ∧ k ≠ .mark .dotDot ∧ k ≠ .mark .dotDotEquals
      ∧ k.binaryOp? = none := by
    decide
  obtain ⟨hgreater, has, his, hdots, hequals, hop⟩ := ends _ hrest
  refine crosses_nested good hdepth (.view (hoperand.bind fun operand u hu hgood => ?_))
  refine .loop fun rounds => .loop_done ?_ rounds
  have operation : Crosses env rest u (operation? call above s.start operand) rest
      fun id? v => id? = none ∧ v = u := by
    refine (crosses_operatorKind hu.stands hgreater).bind ?_
    rintro _ v hv ⟨rfl, rfl⟩
    split
    case h_1 e => exact absurd e has
    case h_2 e => exact absurd e his
    case h_3 e => exact absurd e hdots
    case h_4 e => exact absurd e hequals
    case h_5 =>
      rw [hop]
      exact .pure hv.stands ⟨rfl, rfl⟩
  refine operation.bind ?_
  rintro _ v hv ⟨rfl, rfl⟩
  exact .pure hv.stands ⟨operand, rfl, hgood⟩

/-- An operand behind which nothing is assigned. -/
lemma crosses_unassigned {assigned : ExprId → AssignOp → Rule ExprId}
    (h : Crosses env shapes s (binary call above) rest good)
    (hrest : Shape.front rest ∈ Kind.closers) :
    Crosses env shapes s (do
      let target ← binary call above
      match (← operatorKind).assignOp? with
      | none => return target
      | some op => assigned target op) rest good := by
  have ends : ∀ k ∈ Kind.closers, k ≠ .mark .greater ∧ k.assignOp? = none := by decide
  refine h.bind fun id t ht hid => ?_
  refine (crosses_operatorKind ht.stands (ends _ hrest).1).bind ?_
  rintro _ u hu ⟨rfl, rfl⟩
  rw [(ends _ hrest).2]
  exact .pure hu.stands hid

section

variable (good : ExprId → Nodes → Prop) (hdepth : s.depth < env.settings.maxDepth)
  (hrest : Shape.front rest ∈ Kind.closers) (hop : unaryOp? s.kind = none)
  (hchain : ∀ nesting, Crosses env shapes { s with depth := s.depth + 1 } (chain (callTo nesting))
    rest fun id u => good id u.nodes)

include hdepth hrest hop hchain

/-- A chain by itself is a statement, one level deeper. -/
lemma crosses_statement : Crosses env shapes s (statement (callTo nesting)) rest
    fun id u => good id u.nodes := by
  have unary := crosses_unary (hchain nesting) hop hrest
  exact .view (crosses_unassigned (crosses_binary good hdepth hrest unary) hrest)

/-- A chain by itself is an expression, one level deeper. -/
lemma crosses_expression : Crosses env shapes s (callTo nesting .expression) rest
    fun id u => good id u.nodes := by
  cases nesting with
  | zero => exact .endless
  | succ nesting =>
    have unary := crosses_unary (hchain nesting) hop hrest
    exact .view (crosses_unassigned (crosses_binary good hdepth hrest unary) hrest)

end

/-- A name without type arguments. -/
lemma crosses_typeArguments? (h : s.Stands env rest) (hless : Shape.front rest ≠ .mark .less) :
    Crosses env rest s (typeArguments? call) rest fun args t => args = [] ∧ t = s := by
  refine .read (.view ?_)
  rw [h.kind_eq, beq_eq_false_iff_ne.2 hless]
  exact .pure h ⟨rfl, rfl⟩

end Rule

/-! ## Names -/

lemma Ident.kind_shape (x : Ident) :
    x.shape.kind = .identifier ∨ x.shape.kind = .rawIdentifier := by
  rw [shape, Tile.shape, Tile.kind]
  cases x.raw with
  | true => exact .inr rfl
  | false => exact .inl rfl

/-- A name by itself is at a place in some nodes. -/
def Nodes.IsName (nodes : Nodes) (x : Ident) (id : ExprId) : Prop :=
  ∃ name span, nodes.exprs.get? id = some ⟨.identifier name [], span⟩ ∧ name.text = x.text

lemma Nodes.IsName.extend {nodes others : Nodes} {x : Ident} {id : ExprId}
    (hext : nodes.Extends others) (h : nodes.IsName x id) : others.IsName x id := by
  obtain ⟨name, span, e, hname⟩ := h
  exact ⟨name, span, hext.exprs.get?_eq e, hname⟩

/-- A block with nothing in it but a name. -/
def Nodes.IsNameBlock (nodes : Nodes) (x : Ident) (items : List BlockItem) : Prop :=
  ∃ id, items = [.expr id] ∧ nodes.IsName x id

lemma Nodes.IsNameBlock.extend {nodes others : Nodes} {x : Ident} {items : List BlockItem}
    (hext : nodes.Extends others) (h : nodes.IsNameBlock x items) : others.IsNameBlock x items := by
  obtain ⟨id, rfl, hid⟩ := h
  exact ⟨id, rfl, hid.extend hext⟩

namespace Rule

variable {x : Ident} {call : Call}

lemma unaryOp?_shape (x : Ident) : unaryOp? x.shape.kind = none := by
  obtain e | e := x.kind_shape <;> rw [e] <;> rfl

/-- A name is an operand wherever no type arguments stand behind it. -/
lemma crosses_primaryName (h : s.Stands env (x.shape :: rest))
    (hless : Shape.front rest ≠ .mark .less) :
    Crosses env (x.shape :: rest) s (primary call) rest fun id u => u.nodes.IsName x id := by
  have named : Crosses env (x.shape :: rest) s (nameExpr call) rest
      fun id u => u.nodes.IsName x id := by
    refine .view ((crosses_identifier h (isIdentifier_name x)).bind fun n t ht hn => ?_)
    refine (crosses_typeArguments? ht.stands hless).bind ?_
    rintro _ u hu ⟨rfl, rfl⟩
    refine (crosses_exprFrom ht.stands).mono ?_
    rintro id v - ⟨span, e⟩
    exact ⟨n, span, e, hn⟩
  have hkind : s.kind = x.shape.kind := h.kind_eq
  refine .view ?_
  obtain e | e := x.kind_shape
  · rw [hkind, e]
    exact named
  · rw [hkind, e]
    exact named

section

variable (h : s.Stands env (x.shape :: rest)) (hdepth : s.depth < env.settings.maxDepth)
  (hrest : Shape.front rest ∈ Kind.closers)

include h hrest

lemma crosses_chainName : Crosses env (x.shape :: rest) s (chain call) rest
    fun id u => u.nodes.IsName x id := by
  have ends : ∀ k ∈ Kind.closers, k ≠ .mark .less := by decide
  exact crosses_chain (crosses_primaryName h (ends _ hrest)) hrest fun hext hid => hid.extend hext

include hdepth

lemma crosses_expressionName : Crosses env (x.shape :: rest) s (callTo nesting .expression) rest
    fun id u => u.nodes.IsName x id :=
  crosses_expression (fun id nodes => nodes.IsName x id) hdepth hrest
    (h.kind_eq ▸ unaryOp?_shape x) fun _ => crosses_chainName h.congr hrest

lemma crosses_statementName : Crosses env (x.shape :: rest) s (callTo nesting .statement) rest
    fun id u => u.nodes.IsName x id := by
  cases nesting with
  | zero => exact .endless
  | succ nesting =>
    exact crosses_statement (fun id nodes => nodes.IsName x id) hdepth hrest
      (h.kind_eq ▸ unaryOp?_shape x) fun _ => crosses_chainName h.congr hrest

end

/-- The kinds of the tokens that end a block. -/
def blockEnds : List Kind :=
  [.mark .closeBrace, .interpolationEnd]

lemma closers_of_blockEnds : ∀ k ∈ blockEnds, k ∈ Kind.closers := by
  decide

/-- A name at the end of a block starts no declaration. -/
lemma crosses_atLocalDeclaration (h : s.Stands env (x.shape :: rest))
    (hrest : Shape.front rest ∈ blockEnds) :
    Crosses env (x.shape :: rest) s atLocalDeclaration (x.shape :: rest)
      fun declares u => declares = false ∧ u = s := by
  have hnext : (s.lexer.scan env.src).kind = Shape.front rest := h.peek_eq
  have modifier : s.lexer.atModifier env.src = false := by
    rw [blockEnds, List.mem_pair] at hrest
    rw [Lexer.atModifier]
    dsimp only
    rw [hnext]
    obtain e | e := hrest
    · rw [e]
      exact (congrArg _ (Bool.and_false _)).trans (Bool.and_false _)
    · rw [e]
      exact (congrArg _ (Bool.and_false _)).trans (Bool.and_false _)
  have hkind : s.kind = x.shape.kind := h.kind_eq
  rintro _ _ ⟨⟩
  refine ⟨h.crossed, ?_, rfl⟩
  dsimp only
  obtain e | e := x.kind_shape
  · rw [hkind, e]
    dsimp only
    rw [ParseState.atModifier, modifier, Bool.and_false]
  · rw [hkind, e]

lemma crosses_blockItemName (h : s.Stands env (x.shape :: rest))
    (hdepth : s.depth < env.settings.maxDepth) (hrest : Shape.front rest ∈ blockEnds) :
    Crosses env (x.shape :: rest) s (callTo nesting .blockItem) rest
      fun item u => u.nodes.IsNameBlock x [item] := by
  cases nesting with
  | zero => exact .endless
  | succ nesting =>
    refine (crosses_atLocalDeclaration h hrest).bind ?_
    rintro _ t ht ⟨rfl, rfl⟩
    rw [if_neg Bool.false_ne_true]
    refine (crosses_statementName h hdepth ?_).bind fun id u hu hid => ?_
    · exact closers_of_blockEnds _ hrest
    · exact .pure hu.stands ⟨id, rfl, hid⟩

/-- An item at the end of a block is followed by nothing. -/
lemma crosses_endItem {start : Nat} (h : s.Stands env rest) (hrest : Shape.front rest ∈ blockEnds)
    (hstart : start < s.start) (stop : Kind → Bool) :
    Crosses env rest s (endItem start 0 stop) rest fun _ u => u = s := by
  have ends : ∀ k ∈ blockEnds, (k == .mark .semicolon) = false ∧ k.endsItems = true := by decide
  obtain ⟨hsemicolon, hends⟩ := ends _ hrest
  have hprogress : (s.start != start) = true := bne_iff_ne.2 (Nat.ne_of_gt hstart)
  have atEnd : Crosses env rest s (atStatementEnd stop) rest fun ends u => ends = true ∧ u = s := by
    refine .view ?_
    rw [h.kind_eq, hsemicolon, if_neg Bool.false_ne_true]
    rintro _ _ ⟨⟩
    exact ⟨h.crossed, by rw [hends]; rfl, rfl⟩
  refine .get ?_
  dsimp only
  rw [hprogress, h.errorCount]
  refine atEnd.bind ?_
  rintro _ u hu ⟨rfl, rfl⟩
  exact .pure h rfl

/-- A name and then the end of the block. -/
lemma crosses_allItemsName (h : s.Stands env (x.shape :: rest))
    (hdepth : s.depth + 1 < env.settings.maxDepth) (hrest : Shape.front rest ∈ blockEnds) :
    Crosses env (x.shape :: rest) s (allItems (callTo nesting)) rest
      fun items u => u.nodes.IsNameBlock x items := by
  have hkind : s.kind = x.shape.kind := h.kind_eq
  have starts : (s.kind.endsItems || false) = false ∧ (s.kind == .mark .semicolon) = false := by
    obtain e | e := x.kind_shape <;> rw [hkind, e] <;> exact ⟨rfl, rfl⟩
  obtain ⟨hgoes, hsemicolon⟩ := starts
  have ends : ∀ k ∈ blockEnds, (k.endsItems || false) = true := by decide
  have item : Crosses env (x.shape :: rest) s (nested (fun span => return .expr (← errorExpr span))
      (callTo nesting .blockItem)) rest fun item u => u.nodes.IsNameBlock x [item] :=
    crosses_nested (fun item nodes => nodes.IsNameBlock x [item]) (Nat.lt_of_succ_lt hdepth)
      (crosses_blockItemName h.congr hdepth hrest)
  have last (item : BlockItem) (t : ParseState) (ht : t.Stands env rest)
      (hitem : t.nodes.IsNameBlock x [item]) (rounds : Nat) :
      Crosses env rest t (loopUpTo (itemsRound (callTo nesting) fun _ => false) rounds [item]) rest
        fun items u => u.nodes.IsNameBlock x items := by
    refine .loop_done ?_ rounds
    refine .view ?_
    dsimp only
    rw [ht.kind_eq, ends _ hrest]
    exact .pure ht ⟨[item], rfl, hitem⟩
  refine .loop fun rounds => .loop_next (?_ : Crosses _ _ _ _ rest _) rounds
  refine .view ?_
  dsimp only
  rw [hgoes, hsemicolon]
  refine .get (item.bind fun item t ht hitem => ?_)
  have hstart : s.start < t.start := by
    have := ht.start
    rw [List.length_cons] at this
    omega
  rw [h.errorCount]
  refine (crosses_endItem ht.stands hrest hstart _).bind ?_
  rintro _ u hu rfl
  exact .pure ht.stands ⟨[item], rfl, last item _ ht.stands hitem⟩

end Rule

/-! ## Texts that are one chain -/

/-- The tokens of a text let a parse come to its end. -/
def Shape.Spare (shapes : List Shape) : Prop :=
  (∀ p ∈ shapes, p.kind ≠ .interpolationEnd)
    ∨ ∀ p ∈ shapes, ∀ k : Keyword, k.declaresMembers → p.kind ≠ .keyword k

lemma Lexer.Offers.sparesMembers {src : Source} {l : Lexer} (h : l.Offers src shapes)
    (hspare : Shape.Spare shapes) : SparesMembers (l.Meets src) := by
  refine hspare.imp (fun hall hmeets => ?_) fun hall k hk hmeets => ?_
  · obtain e | ⟨p, hp, e⟩ := h.kind_mem hmeets
    · exact nomatch e
    · exact hall p hp e
  · obtain e | ⟨p, hp, e⟩ := h.kind_mem hmeets
    · exact nomatch e
    · exact hall p hp k hk e

/-- A text that is one chain is parsed up to its end, with nothing to report. -/
lemma parseExpression_crosses {text : String} {settings : Settings} {p : Shape}
    (good : ExprId → Nodes → Prop)
    (hoffers : (Lexer.inFront (.ofString text)).Offers (.ofString text) (p :: rest))
    (hspare : Shape.Spare (p :: rest)) (hdepth : 0 < settings.maxDepth)
    (hop : Rule.unaryOp? p.kind = none)
    (hchain : ∀ s : ParseState, s.Stands ⟨.ofString text, settings, true⟩ (p :: rest) →
      s.depth = 1 → s.lexer = (Lexer.inFront (.ofString text)).scan (.ofString text) →
      ∀ nesting, Crosses ⟨.ofString text, settings, true⟩ (p :: rest) s
        (Rule.chain (Rule.callTo nesting)) [] fun id u => good id u.nodes) :
    ∃ q, parseExpression text.toUTF8 0 settings = some q ∧ q.diagnostics = #[]
      ∧ q.next = text.toUTF8.size ∧ good q.expr q.nodes := by
  have hfresh : ParseState.Fresh (Source.ofString text) { ParseState.ofSource (.ofString text) with
      lexer := Lexer.inFront (.ofString text), prevStop := 0 } := .expression 0
  have hend : Shape.front [] ∈ Kind.closers := List.mem_cons_self
  have hstatement (t : ParseState) (ht : t.Stands ⟨.ofString text, settings, true⟩ (p :: rest))
      (htdepth : t.depth = 0)
      (htlexer : t.lexer = (Lexer.inFront (.ofString text)).scan (.ofString text)) (nesting : Nat) :
      Crosses ⟨.ofString text, settings, true⟩ (p :: rest) t
        (Rule.statement (Rule.callTo nesting)) [] fun id u => good id u.nodes :=
    Rule.crosses_statement good (by rwa [htdepth]) hend (ht.kind_eq ▸ hop) fun nesting =>
      hchain { t with depth := t.depth + 1 } ht.congr (congrArg (· + 1) htdepth) htlexer nesting
  have hmembers := hoffers.sparesMembers hspare
  obtain ⟨id, u, hrun, hlog, hstop, hid⟩ := Rule.runFrom_crosses hfresh hoffers
    (List.cons_ne_nil _ _) hmembers (fun _ h => Rule.returns_statement h.opens)
    fun t ht htdepth htlexer => hstatement t ht htdepth htlexer _
  rw [parseExpression_toUTF8]
  refine ⟨_, congrArg (Option.map _) hrun, ?_, hstop, hid⟩
  show settings.locate u.diagnostics = #[]
  rw [hlog, Settings.locate_empty]

end CangjieSyntax
