import CangjieSyntax.Proofs.Invariant.Grammar
import CangjieSyntax.Proofs.Layout.Footing
import CangjieSyntax.Proofs.TypeTerm.Roundtrip

/-!
# Type arguments of names

A `<` that touches the name in front of it opens type arguments or compares. What it opens is read
tentatively, however many brackets close together, and the token behind decides. In front of a
parenthesis the name is called with the type arguments. In front of another name the attempt is
given up; then the name has none, whatever the rest is read as.
-/

namespace CangjieSyntax

variable {env : Env} {s t u : ParseState} {rest : List Tile} {cs : List Char} {x : Ident}

/-! ## Rows of type arguments -/

/-- A name as it is written. -/
def Ident.written (x : Ident) : String :=
  .ofList (Tile.name x).chars

namespace TypeTerm

open Tile

/-- A type is written as a text, with or without blanks between its tiles, but none in front of a
`<`. -/
def WrittenAs (t : TypeTerm) (text : String) : Prop :=
  ∃ row, row.map Prod.snd = t.tiles ∧ Spaced row ∧ text.toList = laidOut row

variable {t : TypeTerm} {text : String} {ts : List TypeTerm} {texts : List String}

lemma WrittenAs.row_append (h : t.WrittenAs text) (hfollow : Follow rest) (hrest : Row rest cs) :
    Row (t.tiles ++ rest) (text.toList ++ cs) := by
  obtain ⟨row, hrow, hspaced, e⟩ := h
  rw [e]
  exact t.row_append hrow hspaced hfollow hrest

/-- Types behind commas make a row longer in front. -/
lemma row_tilesBehind (h : List.Forall₂ WrittenAs ts texts) (hfollow : Follow rest)
    (hrest : Row rest cs) :
    Row (tilesBehind ts ++ rest) (texts.flatMap (", ".toList ++ String.toList ·) ++ cs) := by
  induction h with
  | nil => exact hrest
  | @cons t text ts texts ht _ ih =>
    have behind := ht.row_append ((follow_tilesBehind ts).append hfollow) ih
    have blank := behind.blank_cons (by decide : ' ' ∈ blanks) (t.head?_ne_less _)
    have comma : Row (.mark .comma :: _) (',' :: _) :=
      blank.cons_tile (by decide : .comma ∈ Tile.marks) fun u _ => touches_of_extensions rfl u
    rwa [tilesBehind, List.flatMap_cons, List.cons_append, List.append_assoc, List.append_assoc]

/-- The first text, and each of the others behind a separator. -/
lemma toList_intercalate_cons (separator text : String) (texts : List String) :
    (separator.intercalate (text :: texts)).toList
      = text.toList ++ texts.flatMap (separator.toList ++ String.toList ·) := by
  rw [String.toList_intercalate, List.map_cons]
  induction texts generalizing text with
  | nil => simp
  | cons next texts ih =>
    rw [List.map_cons, List.intercalate_cons_cons, ih, List.flatMap_cons, List.append_assoc,
      List.append_assoc]

/-- Type arguments in angle brackets make a row longer in front. -/
lemma row_argTiles (hne : ts ≠ []) (h : List.Forall₂ WrittenAs ts texts) (hrest : Row rest cs) :
    Row (argTiles ts ++ rest) ('<' :: ((", ".intercalate texts).toList ++ '>' :: cs)) := by
  have close : Row (.mark .greater :: rest) ('>' :: cs) :=
    hrest.cons_tile (by decide : .greater ∈ Tile.marks) fun u _ => touches_of_extensions rfl u
  have hfollow : Follow (.mark .greater :: rest) := by
    rintro _ ⟨⟩
    exact ⟨_, by decide, rfl⟩
  cases h with
  | nil => exact absurd rfl hne
  | @cons t text ts texts ht hts =>
    have inside := ht.row_append ((follow_tilesBehind ts).append hfollow)
      (row_tilesBehind hts hfollow close)
    have less : Row (.mark .less :: _) ('<' :: _) :=
      inside.cons_tile (by decide : .less ∈ Tile.marks) fun u hu => by
        obtain ⟨⟨head, tail, e, hopens⟩, -⟩ := t.flows
        rw [e] at hu
        obtain rfl : head = u := Option.some.inj hu
        exact less_touches hopens
    rwa [argTiles, toList_intercalate_cons, List.cons_append, List.append_assoc, List.append_assoc,
      List.append_assoc]

end TypeTerm

/-! ## Calls -/

/-- A call of a name with type arguments is at a place in some nodes, and the argument of the call
is another name. -/
def Nodes.CallsAt (nodes : Nodes) (f : Ident) (ts : List TypeTerm) (x : Ident) (id : ExprId) :
    Prop :=
  ∃ callee argument span, nodes.exprs.get? id = some ⟨.call callee [argument] false, span⟩
    ∧ argument.name = none ∧ argument.inout = false ∧ nodes.NamesAt f ts callee
    ∧ nodes.NamesAt x [] argument.value

namespace Rule

open TypeTerm

variable {call : Call} {f : Ident} {ts : List TypeTerm} {tiles : List Tile} {nesting : Nat}

lemma unaryOp?_name (x : Ident) : unaryOp? (Tile.name x).kind = none := by
  rw [Tile.kind]
  cases x.raw <;> rfl

/-- What starts with a name is an operand, one level deeper. -/
lemma walks_nameOperand (good : ExprId → Nodes → Prop) (h : s.Awaits env [] (.name x :: tiles))
    (hdepth : s.depth < env.settings.maxDepth) (hrest : Tile.front (rest ++ []) ∈ Kind.behindValue)
    (hchain : ∀ u : ParseState, u.Awaits env [] (.name x :: tiles) → u.depth = s.depth + 1 →
      u.tentative = s.tentative → Walks env [] u (chain call) rest fun id v => good id v.nodes) :
    Walks env [] s (binary call Precedence.lowest.strength) rest fun id u => good id u.nodes :=
  walks_binary good h hdepth hrest fun u hu hdepth htentative =>
    walks_unary (hchain u hu hdepth htentative) (hu.kind_eq ▸ unaryOp?_name x) hrest

/-- A name by itself is an expression. -/
lemma walks_name_expression (h : s.Awaits env [] (.name x :: rest))
    (hlimit : s.tentative.limit = none) (hdepth : s.depth < env.settings.maxDepth)
    (hrest : Tile.front (rest ++ []) ∈ Kind.behindValue) :
    Walks env [] s (callTo nesting .expression) rest fun id u => u.nodes.NamesAt x [] id := by
  cases nesting with
  | zero => exact .endless
  | succ nesting =>
    refine .view (walks_unassigned ?_ hrest)
    refine walks_nameOperand (fun id nodes => nodes.NamesAt x [] id) h hdepth hrest ?_
    intro u hu _ htentative
    have hkind : u.kind = (Tile.name x).kind := hu.kind_eq
    have named : Walks env [] u (nameExpr (callTo nesting)) rest fun id v =>
        v.nodes.NamesAt x [] id :=
      walks_nameExpr hu ((congrArg Tentative.limit htentative).trans hlimit) (Nat.zero_le _)
        (List.mem_cons_of_mem _ (List.mem_cons_of_mem _ hrest)) (fun _ h => nomatch h)
    refine .view ((walks_primaryName hkind named).bind fun operand v hv hid => ?_)
    refine .loop fun rounds => (walks_chainEnd hv.awaits hrest rounds).mono ?_
    rintro id w - ⟨rfl, rfl⟩
    exact hid

/-- A name is an argument without a name of its own. -/
lemma walks_argument (h : s.Awaits env [] (.name x :: .mark .closeParen :: rest))
    (hvalue : Walks env [] s (call .expression) (.mark .closeParen :: rest) fun id u =>
      u.nodes.NamesAt x [] id) :
    Walks env [] s (argument call) (.mark .closeParen :: rest) fun argument u =>
      argument.name = none ∧ argument.inout = false ∧ u.nodes.NamesAt x [] argument.value := by
  have hcolon : (s.kind.isIdentifier && s.peek env.src == .mark .colon) = false := by
    rw [h.peek_eq, Bool.and_eq_false_iff]
    exact .inr rfl
  have hinout : Tile.front (.name x :: .mark .closeParen :: rest ++ []) ≠ .keyword .kwInout := by
    rw [List.cons_append, Tile.front, Tile.kind]
    cases x.raw <;> rintro ⟨⟩
  refine .view ((walks_noLabel h hcolon).bind ?_)
  rintro _ r hr ⟨rfl, rfl⟩
  refine (walks_optional_of_ne h hinout).bind ?_
  rintro _ r hr ⟨rfl, rfl⟩
  refine hvalue.bind fun id u hu hid => .view ?_
  exact .pure hu.awaits ⟨rfl, rfl, hid⟩

/-- An argument by itself is a list of them. -/
lemma walks_arguments (h : s.Awaits env [] (.name x :: .mark .closeParen :: rest))
    (hvalue : Walks env [] s (call .expression) (.mark .closeParen :: rest) fun id u =>
      u.nodes.NamesAt x [] id) :
    Walks env [] s (list (.mark .closeParen) (argument call)) (.mark .closeParen :: rest)
      fun args u => ∃ argument, args = [argument] ∧ argument.name = none
        ∧ argument.inout = false ∧ u.nodes.NamesAt x [] argument.value := by
  have hopen : (s.kind == .mark .closeParen || s.kind == .endOfFile) = false :=
    goes_on h trivial (.inl rfl)
  refine .loop (.loop_done (.view ?_))
  rw [hopen, if_neg Bool.false_ne_true]
  refine (walks_argument h hvalue).bind fun argument t ht hargument => ?_
  refine (walks_optional_of_ne (k := .mark .comma) ht.awaits (by rintro ⟨⟩)).bind ?_
  rintro _ _ _ ⟨rfl, rfl⟩
  exact .pure ht.awaits ⟨_, rfl, argument, rfl, hargument⟩

section

variable {callee : ExprId} (start : Nat)
  (h : s.Awaits env [] (.mark .openParen :: .name x :: .mark .closeParen :: rest))
  (hcallee : s.nodes.NamesAt f ts callee)
  (hvalue : ∀ u : ParseState, u.Awaits env [] (.name x :: .mark .closeParen :: rest) →
    u.depth = s.depth → u.tentative = s.tentative →
    Walks env [] u (call .expression) (.mark .closeParen :: rest) fun id v =>
      v.nodes.NamesAt x [] id)

include h hcallee hvalue

/-- A list of arguments calls what stands in front of it. -/
lemma walks_callLink :
    Walks env [] s (callLink call callee start false) rest fun id u =>
      u.nodes.CallsAt f ts x id := by
  refine (walks_advance h).bind fun _ r hr _ => ?_
  refine (walks_arguments hr.awaits (hvalue r hr.awaits hr.depth hr.tentative)).bind ?_
  rintro _ t ht ⟨argument, rfl, hname, hinout, hargument⟩
  refine (walks_require ht.awaits).bind fun _ u hu _ => (walks_exprFrom hu.awaits).mono ?_
  rintro id v hv ⟨span, e⟩
  have hext := (hu.trans hv).nodes
  exact ⟨callee, argument, span, e, hname, hinout,
    hcallee.extend ((hr.trans ht).nodes.trans hext), hargument.extend hext⟩

/-- A parenthesis on the line of the callee opens such a list. -/
lemma walks_callRound (hline : s.lexer.flags.lineBreak = false) :
    Walks env [] s (chainRound call start (callee, false)) rest fun next u =>
      ∃ id, next = .inl (id, false) ∧ u.nodes.CallsAt f ts x id := by
  have hkind : s.kind = .mark .openParen := h.kind_eq
  have hquestion : (s.kind == .mark .question) = false := by
    rw [hkind]
    rfl
  refine .view ?_
  rw [hquestion, Bool.false_and, if_neg Bool.false_ne_true]
  refine .view (.view ?_)
  rw [hkind, hline]
  refine (walks_callLink start h hcallee hvalue).bind fun id u hu hid => ?_
  exact .pure hu.awaits ⟨id, rfl, hid⟩

end

/-- A name with type arguments is called by the parenthesis behind them. -/
lemma walks_callChain
    (h : s.Awaits env [] (.name f :: (argTiles ts
      ++ .mark .openParen :: .name x :: .mark .closeParen :: rest)))
    (hlimit : s.tentative.limit = none) (hbudget : (argTiles ts).length ≤ env.settings.budget)
    (hrest : Tile.front (rest ++ []) ∈ Kind.behindValue)
    (hline : ∀ u : ParseState,
      u.Awaits env [] (.mark .openParen :: .name x :: .mark .closeParen :: rest) →
      u.lexer.flags.lineBreak = false)
    (hread : ∀ t ∈ ts, t.ReadBy env call s.depth)
    (hvalue : ∀ u : ParseState, u.Awaits env [] (.name x :: .mark .closeParen :: rest) →
      u.depth = s.depth → u.tentative.limit = none →
      Walks env [] u (call .expression) (.mark .closeParen :: rest) fun id v =>
        v.nodes.NamesAt x [] id) :
    Walks env [] s (chain call) rest fun id u => u.nodes.CallsAt f ts x id := by
  have hkind : s.kind = (Tile.name f).kind := h.kind_eq
  have hopen : Kind.mark .openParen ∈ Kind.behindArguments := by decide
  have named := walks_nameExpr h hlimit hbudget hopen hread
  refine .view ((walks_primaryName hkind named).bind fun callee t ht hcallee => ?_)
  have htlimit := (congrArg Tentative.limit ht.tentative).trans hlimit
  have hvalue (u : ParseState) (hu : u.Awaits env [] (.name x :: .mark .closeParen :: rest))
      (hdepth : u.depth = t.depth) (htentative : u.tentative = t.tentative) :=
    hvalue u hu (hdepth.trans ht.depth) ((congrArg Tentative.limit htentative).trans htlimit)
  have round := walks_callRound s.start ht.awaits hcallee hvalue (hline t ht.awaits)
  refine .loop fun rounds => .loop_next (round.mono ?_) rounds
  rintro _ u hu ⟨id, rfl, hid⟩
  refine ⟨_, rfl, fun rounds => (walks_chainEnd hu.awaits hrest rounds).mono ?_⟩
  rintro id v - ⟨rfl, rfl⟩
  exact hid

/-- A call of a name with type arguments is a statement. -/
lemma walks_callStatement
    (h : s.Awaits env [] (.name f :: (argTiles ts
      ++ [.mark .openParen, .name x, .mark .closeParen])))
    (hne : ts ≠ []) (hlimit : s.tentative.limit = none)
    (hbudget : (argTiles ts).length ≤ env.settings.budget)
    (hdepth : s.depth + levelsOf ts < env.settings.maxDepth)
    (hline : ∀ u : ParseState, u.Awaits env [] [.mark .openParen, .name x, .mark .closeParen] →
      u.lexer.flags.lineBreak = false) :
    Walks env [] s (statement (callTo nesting)) [] fun id u => u.nodes.CallsAt f ts x id := by
  have hpos : 0 < levelsOf ts := by
    obtain ⟨t, ts, rfl⟩ := List.exists_cons_of_ne_nil hne
    exact t.levels_pos.trans_le (le_max_left _ _)
  have hend : Tile.front ([] ++ []) ∈ Kind.behindValue := List.mem_cons_self
  refine .view (walks_unassigned ?_ hend)
  refine walks_nameOperand (fun id nodes => nodes.CallsAt f ts x id) h (by omega) hend ?_
  intro u hu hudepth htentative
  refine walks_callChain hu ((congrArg Tentative.limit htentative).trans hlimit) hbudget hend hline
    (fun t ht => ?_) fun v hv hvdepth hvlimit => ?_
  · have := levels_le_levelsOf t ht
    exact t.readBy_callTo (by omega)
  · have hclose : Kind.mark .closeParen ∈ Kind.behindValue := by decide
    exact walks_name_expression hv hvlimit (by omega) hclose

end Rule

/-! ## Comparisons -/

/-- No name that starts at an offset has type arguments. -/
def Nodes.BareAt (nodes : Nodes) (pos : Nat) : Prop :=
  ∀ id name ids span, nodes.exprs.get? id = some ⟨.identifier name ids, span⟩ →
    span.start = pos → ids = []

/-- Outside attempts a parse has come past an offset, and no name that starts there has type
arguments. -/
structure ParseState.Past (env : Env) (pos : Nat) (s : ParseState) : Prop where
  settled : s.tentative = {}
  footed : s.Footed env
  past : pos < s.lexer.start
  bare : s.nodes.BareAt pos

namespace ParseState.Past

variable {pos : Nat}

/-- Behind a token, a parse has come past all in front of its end. -/
lemma of_advance (hsettled : s.tentative = {}) (hfooted : s.Footed env) (hpos : pos < s.lexer.pos)
    (hbare : s.nodes.BareAt pos) : (s.advance env.src).Past env pos := by
  obtain ⟨hadvance, -⟩ := hfooted.advance
  refine ⟨Step.settled (.advance s) hsettled, hadvance, ?_, ?_⟩
  · have hstop := hadvance.prevStop_le
    rw [Footed.prevStop_advance] at hstop
    exact hpos.trans_le hstop
  · rw [(s.advance_frame env.src).1]
    exact hbare

variable (h : s.Past env pos)

include h

lemma step (hstep : Step env s t) (e : t.nodes.exprs = s.nodes.exprs) : t.Past env pos := by
  obtain ⟨hfooted, honward⟩ := hstep.footed h.footed
  refine ⟨hstep.settled h.settled, hfooted, h.past.trans_le honward.start, ?_⟩
  rw [Nodes.BareAt, e]
  exact h.bare

lemma turn (hturn : Turn env s t) (e : t.nodes.exprs = s.nodes.exprs) : t.Past env pos := by
  obtain ⟨hfooted, honward⟩ := hturn.footed h.settled h.footed
  refine ⟨hturn.settled h.settled, hfooted, h.past.trans_le honward.start, ?_⟩
  rw [Nodes.BareAt, e]
  exact h.bare

lemma alloc {form : ExprForm} {span : Span}
    (hform : ∀ name ids, form = .identifier name ids → span.start = pos → ids = []) :
    ParseState.Past env pos { s with nodes := s.nodes.add (.expr ⟨form, span⟩) } := by
  refine ⟨h.settled, h.footed.of_frame rfl rfl, h.past, fun id name ids span' hnode => ?_⟩
  obtain ⟨-, e⟩ | hold := Nodes.get?_add_expr hnode
  · obtain ⟨rfl, rfl⟩ := ExprNode.mk.inj e
    exact hform name ids rfl
  · exact h.bare id name ids span' hold

end ParseState.Past

/-- The states past an offset. -/
def Invariant.past (env : Env) (pos : Nat) : Invariant env where
  holds := ParseState.Past env pos
  step h hstep e := ParseState.Past.step h hstep e

namespace Rule

open ExprForm (IsOperand IsPrimary)
open TypeTerm

variable {pos nesting : Nat} {call : Call} {f : Ident} {ts : List TypeTerm}

lemma settled_past (env : Env) (pos : Nat) : (Invariant.past env pos).Settled where
  tentative h := h.settled
  turn h hturn e := ParseState.Past.turn h hturn e
  plain _ hform _ _ h := ParseState.Past.alloc h fun name ids e _ => hform.2.2.1 name ids e
  placeholder h _ := ParseState.Past.alloc h nofun

lemma allows_past (form : ExprForm) (h : ∀ name ids, form ≠ .identifier name ids) :
    (Invariant.past env pos).Allows form :=
  fun _ _ hs => ParseState.Past.alloc hs fun name ids e _ => absurd e (h name ids)

/-- Past an offset no name starts there. -/
lemma makes_nameExpr_past (htype : ∀ K : Invariant env, Preserves K (call .type)) :
    Makes (Invariant.past env pos) IsPrimary (nameExpr call) := by
  intro s hs
  refine .view ((preserves_identifier s hs).bind fun name t ht => ?_)
  refine (preserves_typeArguments? (settled_past env pos) htype t ht.holds).bind fun ids u hu => ?_
  rintro _ _ ⟨⟩
  have hreaches := ht.trans hu
  refine ⟨⟨ParseState.Past.alloc hreaches.holds fun _ _ _ e => ?_, hreaches.exprs.push _⟩, _,
    Arena.get?_push_next .., ?_⟩
  · exact absurd e (Nat.ne_of_gt hs.past)
  · simp [IsPrimary]

lemma preserves_past (nesting : Nat) {α : Type} (g : Nonterminal α) :
    Preserves (Invariant.past env pos) (callTo nesting g) :=
  preserves_callTo (settled_past env pos) (fun form h _ _ => allows_past form h)
    (fun _ => makes_nameExpr_past)
    (fun _ hcall => (makes_quote (settled_past env pos) hcall fun _ => allows_past _ nofun).makesAt _)
    nesting g

/-- Type arguments behind which none may stand are given up. -/
lemma ensures_typeArguments? {first : TypeTerm} {others : List TypeTerm}
    (h : s.Awaits env [] (argTiles (first :: others) ++ rest)) (hlimit : s.tentative.limit = none)
    (hbudget : (argTiles (first :: others)).length ≤ env.settings.budget)
    (hread : ∀ t ∈ first :: others, t.ReadBy env call s.depth)
    (hfits : ∀ u : ParseState, u.Awaits env rest [] →
      u.kind.allowsTypeArguments u.lexer.flags.lineBreak (!u.lexer.flags.separated) = false) :
    Ensures env s (typeArguments? call) fun ids _ => ids = [] := by
  have attempted : Ensures env s (attempt (fittingArguments? call)) fun found _ =>
      ∀ ids, found ≠ .committed ids := by
    intro found u e
    obtain ⟨result, t, hrun, hfound⟩ := attempt_eq_some e
    obtain ⟨-, ids, rfl, -⟩ := walks_fittingArguments? false (h.enterTentative hlimit hbudget) hread
      hfits result t hrun
    obtain ⟨b, hb, -⟩ | ⟨-, rfl, -⟩ := hfound
    · exact nomatch hb
    · split <;> nofun
  refine .read (.view ?_)
  rw [opens_typeArguments h]
  refine .view (attempted.bind fun found u hfound => ?_)
  cases found with
  | committed ids => exact absurd rfl (hfound ids)
  | rewound =>
    exact .behind fun _ _ => .pure rfl
  | exhausted =>
    refine .read ?_
    exact .behind fun _ _ => .pure rfl

/-- An identifier is taken. -/
lemma identifier_apply (h : s.kind.isIdentifier) : identifier env s
    = some (⟨s.lexer.value, s.lexer.span⟩,
      { s with names := s.names.insert s.lexer.value }.advance env.src) := by
  change (if s.kind.isIdentifier then _ else _ : Rule Name) env s = _
  rw [if_pos h]
  rfl

section

variable {first : TypeTerm} {others : List TypeTerm}
  (h : s.Awaits env [] (.name f :: (argTiles (first :: others) ++ rest)))
  (hsettled : s.tentative = {}) (hfooted : s.Footed env) (hpos : pos < s.lexer.pos)
  (hbare : s.nodes.BareAt pos)
  (hbudget : (argTiles (first :: others)).length ≤ env.settings.budget)
  (hfits : ∀ u : ParseState, u.Awaits env rest [] →
    u.kind.allowsTypeArguments u.lexer.flags.lineBreak (!u.lexer.flags.separated) = false)

include h hsettled hfooted hpos hbare hbudget hfits

/-- In front of what cannot stand behind type arguments, a name has none. -/
lemma ensures_nameExpr_past (htype : ∀ K : Invariant env, Preserves K (call .type))
    (hread : ∀ t ∈ first :: others, t.ReadBy env call s.depth) :
    Ensures env s (nameExpr call) fun id t =>
      (Invariant.past env pos).Reaches s t ∧ t.nodes.Has id IsOperand := by
  have hI := settled_past env pos
  have hkind : s.kind.isIdentifier := h.kind_eq ▸ isIdentifier_name f
  refine .view ?_
  intro id t e
  obtain ⟨name, u, hrun, e⟩ := bind_eq_some.1 e
  obtain ⟨hu, -⟩ := walks_identifier h name u hrun
  rw [identifier_apply hkind] at hrun
  have past : (Invariant.past env pos).Reaches s u := by
    cases hrun
    refine ⟨.of_advance hsettled (hfooted.of_frame rfl rfl) hpos hbare, ?_⟩
    rw [(ParseState.advance_frame env.src).1]
    exact .refl _
  have hlimit : u.tentative.limit = none := by
    rw [hu.tentative, hsettled]
  obtain ⟨ids, v, hrun, e⟩ := bind_eq_some.1 e
  obtain rfl : ids = [] :=
    ensures_typeArguments? hu.awaits hlimit hbudget (hu.depth ▸ hread) hfits ids v hrun
  have hv := past.trans (preserves_typeArguments? hI htype u past.holds _ v hrun)
  have named : Makes (Invariant.past env pos) IsOperand
      (exprFrom s.start (.identifier name [])) := by
    refine makes_exprFrom_plain hI ?_ ?_ s.start
    · simp [ExprForm.IsPlain]
    · simp [IsOperand]
  obtain ⟨ht, hid⟩ := named v hv.holds id t e
  exact ⟨hv.trans ht, hid⟩

/-- So is an operand that starts with such a name come past it. -/
lemma ensures_unary_past
    (hdepth : s.depth + levelsOf (first :: others) ≤ env.settings.maxDepth) :
    Ensures env s (unary (callTo nesting)) fun _ t => (Invariant.past env pos).Reaches s t := by
  have hI := settled_past env pos
  have htype (K : Invariant env) : Preserves K (callTo nesting .type) :=
    preserves_callTo_type nesting K
  have hkind : s.kind = (Tile.name f).kind := h.kind_eq
  have named := ensures_nameExpr_past h hsettled hfooted hpos hbare hbudget hfits htype
    fun t ht => by
      have := levels_le_levelsOf t ht
      exact t.readBy_callTo (by omega)
  have primary : Ensures env s (primary (callTo nesting)) fun id t =>
      (Invariant.past env pos).Reaches s t ∧ t.nodes.Has id IsOperand := by
    refine .view ?_
    rw [hkind, Tile.kind]
    cases f.raw with
    | true => exact named
    | false => exact named
  refine .view ?_
  rw [hkind, unaryOp?_name]
  have hchained (form : ExprForm) (hform : form.isChained = true) :
      (Invariant.past env pos).Allows form := by
    refine allows_past form ?_
    rintro name ids rfl
    cases hform
  have chain := ensures_chain hI (preserves_past nesting) htype hchained primary
  exact (ensures_steps hI chain).mono fun _ _ => And.left

/-- A statement that starts with such a name comes past it, whatever the rest of it is. -/
lemma ensures_statement_past
    (hdepth : s.depth + levelsOf (first :: others) < env.settings.maxDepth) :
    Ensures env s (statement (callTo nesting)) fun _ t => t.Past env pos := by
  have hI := settled_past env pos
  have hcall {α : Type} (g : Nonterminal α) :
      Preserves (Invariant.past env pos) (callTo nesting g) := preserves_past nesting g
  have htype (K : Invariant env) : Preserves K (callTo nesting .type) :=
    preserves_callTo_type nesting K
  have hdeeper : ParseState.Awaits env [] (.name f :: (argTiles (first :: others) ++ rest))
      { s with depth := s.depth + 1 } := h.congr
  have unary : Ensures env _ (unary (callTo nesting)) _ :=
    ensures_unary_past hdeeper hsettled (hfooted.of_frame rfl rfl) hpos hbare hbudget hfits
      (Nat.add_right_comm .. ▸ hdepth)
  have operations := ensures_operations hI hcall htype (fun _ _ _ => allows_past _ nofun)
    Precedence.lowest.strength unary
  have binary : Ensures env s (binary (callTo nesting) Precedence.lowest.strength) fun _ t =>
      (Invariant.past env pos).Reaches s t := by
    refine (ensures_deeper (P := fun _ _ => True) (by omega) (fun _ _ _ => id) ?_).mono
      fun _ _ => And.left
    exact operations.mono fun _ _ ht => ⟨⟨ht.holds, ht.exprs⟩, trivial⟩
  exact (ensures_statement hI hcall (fun _ _ _ => allows_past _ nofun) binary).mono
    fun _ _ ht => ht.holds

end

end Rule

/-! ## Whole texts -/

/-- Behind the first tile of a text something of it has been read. -/
lemma Lexer.Before.pos_pos {src : Source} {l : Lexer} {tile : Tile} (h : l.Before src rest)
    (hrow : Row (tile :: rest) src.text.toList) : 0 < l.pos := by
  obtain ⟨-, -, cs, hread, before, htext, hpos⟩ := h
  rw [hpos, Nat.pos_iff_ne_zero]
  intro hzero
  have hbefore : before = [] := by
    cases before with
    | nil => rfl
    | cons c before =>
      rw [Source.size_utf8Encode_cons] at hzero
      have := c.utf8Size_pos
      omega
  rw [hbefore, List.nil_append] at htext
  have hcount := congrArg List.length (hread.filter_eq.symm.trans (htext ▸ hrow.filter_eq))
  rw [List.flatMap_cons, List.length_append] at hcount
  have := List.length_pos_iff.2 (Tile.chars_ne_nil hrow.plain)
  omega

open Rule TypeTerm in
/-- From its start on, a text that starts with a name in front of what cannot stand behind type
arguments is read without giving that name any. -/
lemma ParseState.Fresh.ensures_bareAt {f : Ident} {first : TypeTerm} {others : List TypeTerm}
    {nesting : Nat} (hfresh : s.Fresh env.src) (hfooted : s.Footed env)
    (hbefore : s.lexer.Before env.src (.name f :: (argTiles (first :: others) ++ rest)))
    (hrow : Row (.name f :: (argTiles (first :: others) ++ rest)) env.src.text.toList)
    (hbudget : (argTiles (first :: others)).length ≤ env.settings.budget)
    (hdepth : levelsOf (first :: others) < env.settings.maxDepth)
    (hfits : ∀ u : ParseState, u.Awaits env rest [] →
      u.kind.allowsTypeArguments u.lexer.flags.lineBreak (!u.lexer.flags.separated) = false) :
    Ensures env s (do begin; statement (callTo nesting)) fun _ t => t.nodes.BareAt 0 := by
  have hstart : s.tentative = {} ∧ s.nodes = {} := by
    cases hfresh <;> exact ⟨rfl, rfl⟩
  have hstep : Step env s (s.advance env.src) := .advance s
  have hbare : (s.advance env.src).nodes.BareAt 0 := by
    rw [(s.advance_frame env.src).1, hstart.2]
    intro id name ids span hnode
    simp [Arena.get?] at hnode
  intro id u e
  obtain ⟨_, t, hbegin, hrun⟩ := bind_eq_some.1 e
  obtain ⟨ht, hzero, -⟩ := hfresh.walks_begin hbefore _ t hbegin
  have hpos := ht.awaits.lexer.before.pos_pos (by rwa [List.append_nil])
  cases hbegin
  exact (ensures_statement_past ht.awaits (hstep.settled hstart.1)
    (hfooted.advance.1.of_frame rfl rfl) hpos hbare hbudget hfits
    (by rwa [hzero, Nat.zero_add]) id u hrun).bare

namespace TypeTerm

section

variable {src : Source} {settings : Settings} {f y : Ident} {ts : List TypeTerm}
  {texts : List String} {tile : Tile}
  (htext : src.text.toList
    = (Tile.name f).chars ++ '<' :: ((", ".intercalate texts).toList ++ '>' :: cs))

include htext

/-- No line break lies in front of the token behind the type arguments if none is written there. -/
lemma lineBreak_behind_arguments {l : Lexer} (h : l.Awaits src (tile :: rest))
    (hrest : Row (tile :: rest) cs) (hline : ∀ d ∈ cs, d ∉ Tile.lineBreaks) :
    l.flags.lineBreak = false := by
  have htext : src.text.toList
      = ((Tile.name f).chars ++ '<' :: (", ".intercalate texts).toList) ++ '>' :: cs := by
    simpa using htext
  exact h.lineBreak_eq htext (by decide) hrest hline

variable (hne : ts ≠ []) (hwritten : List.Forall₂ WrittenAs ts texts)

include hne hwritten

/-- A name with type arguments and what is behind them. -/
lemma row_of_text (hrest : Row rest cs) :
    Row (.name f :: (argTiles ts ++ rest)) src.text.toList := by
  rw [htext]
  refine (row_argTiles hne hwritten hrest).cons_tile trivial fun u hu => ?_
  obtain ⟨t, ts, rfl⟩ := List.exists_cons_of_ne_nil hne
  rw [argTiles] at hu
  cases hu
  exact Tile.name_touches (by decide)

variable (hbudget : (argTiles ts).length ≤ settings.budget)
  (hdepth : levelsOf ts < settings.maxDepth)

include hbudget hdepth

/-- In front of a parenthesis they are the type arguments of a call. -/
lemma parseExpression_call (hcs : cs = '(' :: ((Tile.name x).chars ++ [')'])) :
    ∃ p, src.parseExpression 0 settings = some p ∧ p.diagnostics = #[]
      ∧ p.nodes.CallsAt f ts x p.expr := by
  have hclose : Row [.mark .closeParen] [')'] :=
    (Row.nil (fun _ h => nomatch h) : Row [] []).cons_tile (by decide : .closeParen ∈ Tile.marks)
      fun _ h => nomatch h
  have hname : Row [.name x, .mark .closeParen] ((Tile.name x).chars ++ [')']) := by
    refine hclose.cons_tile trivial ?_
    rintro _ ⟨⟩
    exact Tile.name_touches (by decide)
  have hrest : Row [.mark .openParen, .name x, .mark .closeParen] cs := by
    rw [hcs]
    exact hname.cons_tile (by decide : .openParen ∈ Tile.marks)
      fun u _ => Tile.touches_of_extensions rfl u
  have hline : ∀ d ∈ cs, d ∉ Tile.lineBreaks := by
    rw [hcs]
    refine List.forall_mem_cons.2 ⟨by decide, List.forall_mem_append.2 ⟨?_, ?_⟩⟩
    · exact Tile.not_mem_lineBreaks trivial
    · simp [Tile.lineBreaks]
  refine (row_of_text htext hne hwritten hrest).parseExpression
    (fun id nodes => nodes.CallsAt f ts x id) fun s hs hzero hlimit nesting => ?_
  exact Rule.walks_callStatement hs hne hlimit hbudget (by rwa [hzero, Nat.zero_add])
    fun u hu => lineBreak_behind_arguments htext hu.lexer hrest hline

/-- In front of a name they are none. -/
lemma parseExpression_comparison (hcs : cs = ' ' :: (Tile.name y).chars) :
    ∃ p, src.parseExpression 0 settings = some p ∧ p.nodes.BareAt 0 := by
  have hname : Row [.name y] ((Tile.name y).chars ++ []) :=
    (Row.nil (fun _ h => nomatch h) : Row [] []).cons_tile trivial fun _ h => nomatch h
  have hrest : Row [.name y] cs := by
    rw [List.append_nil] at hname
    rw [hcs]
    exact hname.blank_cons (by decide) (fun e => nomatch e)
  have hline : ∀ d ∈ cs, d ∉ Tile.lineBreaks := by
    rw [hcs]
    exact List.forall_mem_cons.2 ⟨by decide, Tile.not_mem_lineBreaks trivial⟩
  have hrow := row_of_text htext hne hwritten hrest
  obtain ⟨first, others, rfl⟩ := List.exists_cons_of_ne_nil hne
  let env : Env := ⟨src, settings, true⟩
  let s : ParseState := { ParseState.ofSource src with
    lexer := (Lexer.ofSource src).seek src 0, prevStop := 0 }
  have hfresh : ParseState.Fresh env.src s := .expression 0
  obtain ⟨⟨id, u⟩, hrun⟩ := Option.isSome_iff_exists.1
    (hfresh.isSome_runFrom hrow.before_seek.sparesMembers fun _ h => Rule.returns_statement h.opens)
  refine ⟨_, congrArg (Option.map _) hrun, ?_⟩
  have hfooted : s.Footed env :=
    ⟨.seek Source.isBoundary_zero _ rfl, Source.isBoundary_zero, Nat.zero_le _⟩
  have hfits (v : ParseState) (hv : v.Awaits env [.name y] []) : v.kind.allowsTypeArguments
      v.lexer.flags.lineBreak (!v.lexer.flags.separated) = false := by
    rw [hv.kind_eq, lineBreak_behind_arguments htext hv.lexer hrest hline, List.nil_append,
      Tile.front, Tile.kind]
    cases y.raw <;> rfl
  exact hfresh.ensures_bareAt hfooted hrow.before_seek hrow hbudget hdepth hfits id u hrun

end

end TypeTerm

/-- Type arguments of whatever shape, however many brackets close together, are those of a call in
front of a parenthesis, which is all that is read then, with nothing reported. In front of a name
there are none, and the `<` compares. The list with the bracket that closes it has fewer tokens than
the budget, and the depth allowed leaves room for one level around the types. -/
theorem parse_typeArguments {f x y : Ident} {ts : List TypeTerm} {texts : List String}
    {settings : Settings} (hne : ts ≠ []) (hwritten : List.Forall₂ TypeTerm.WrittenAs ts texts)
    (hbudget : (TypeTerm.argTiles ts).tail.length < settings.budget)
    (hdepth : TypeTerm.levelsOf ts + 1 ≤ settings.maxDepth) :
    (∃ p, parseExpression (f.written ++ "<" ++ ", ".intercalate texts ++ ">(" ++ x.written
          ++ ")").toUTF8 0 settings = some p
        ∧ p.diagnostics = #[] ∧ p.nodes.CallsAt f ts x p.expr)
      ∧ ∃ p, parseExpression (f.written ++ "<" ++ ", ".intercalate texts ++ "> "
          ++ y.written).toUTF8 0 settings = some p
        ∧ p.nodes.BareAt 0 := by
  have hbudget : (TypeTerm.argTiles ts).length ≤ settings.budget := by
    rw [List.length_tail] at hbudget
    omega
  constructor
  · rw [parseExpression_toUTF8]
    refine TypeTerm.parseExpression_call (f := f) (x := x) ?_ hne hwritten hbudget hdepth rfl
    simp [Ident.written, Source.ofString]
  · rw [parseExpression_toUTF8]
    refine TypeTerm.parseExpression_comparison (f := f) (y := y) ?_ hne hwritten hbudget hdepth rfl
    simp [Ident.written, Source.ofString]

/-- Types one in the other, the brackets of which close together. -/
def TypeTerm.nested : TypeTerm :=
  .path ⟨.x, [.path ⟨.x, [.path ⟨.x, []⟩ []]⟩ []]⟩ []

/-- Three brackets in a run, with no token and no level to spare. -/
theorem parse_typeArguments_of_visitor :
    [TypeTerm.visitor, .nested] ≠ []
      ∧ List.Forall₂ TypeTerm.WrittenAs [.visitor, .nested] [TypeTerm.visitorText, "x<x<x>>"]
      ∧ (TypeTerm.argTiles [.visitor, .nested]).tail.length < 55
      ∧ TypeTerm.levelsOf [.visitor, .nested] + 1 ≤ 6
      ∧ (∃ p, parseExpression (Ident.x.written ++ "<"
            ++ ", ".intercalate [TypeTerm.visitorText, "x<x<x>>"] ++ ">(" ++ Ident.x.written
            ++ ")").toUTF8 0 { maxDepth := 6, budget := 55 } = some p
          ∧ p.diagnostics = #[] ∧ p.nodes.CallsAt .x [.visitor, .nested] .x p.expr)
      ∧ ∃ p, parseExpression (Ident.x.written ++ "<"
            ++ ", ".intercalate [TypeTerm.visitorText, "x<x<x>>"] ++ "> "
            ++ Ident.x.written).toUTF8 0 { maxDepth := 6, budget := 55 } = some p
          ∧ p.nodes.BareAt 0 := by
  have hne : [TypeTerm.visitor, .nested] ≠ [] := List.cons_ne_nil _ _
  have hwritten : List.Forall₂ TypeTerm.WrittenAs [.visitor, .nested]
      [TypeTerm.visitorText, "x<x<x>>"] := by
    refine .cons ⟨TypeTerm.visitorRow, ?_⟩ (.cons ⟨TypeTerm.nested.tiles.map ([], ·), ?_⟩ .nil)
    · decide +kernel
    · decide +kernel
  have hbudget : (TypeTerm.argTiles [.visitor, .nested]).tail.length < 55 := by decide +kernel
  have hdepth : TypeTerm.levelsOf [.visitor, .nested] + 1 ≤ 6 := by decide +kernel
  exact ⟨hne, hwritten, hbudget, hdepth, parse_typeArguments hne hwritten hbudget hdepth⟩

end CangjieSyntax
