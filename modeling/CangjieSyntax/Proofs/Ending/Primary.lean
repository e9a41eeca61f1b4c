import CangjieSyntax.Proofs.Ending.Calls
import CangjieSyntax.Proofs.Ending.Rule
import CangjieSyntax.Proofs.Ending.Types
import CangjieSyntax.Proofs.Grammar.Primary

/-!
# Primary expressions are read to their end

Each of these rules takes the token it starts with before it calls another one.
-/

/-!
## Looking into expressions

The children of an expression that is held lie in front of it in the arena, so that its place is
depth enough to look at all that is below it.
-/

namespace CangjieSyntax

namespace Nodes

variable {nodes : Nodes} {excused : Prop} {depth : Nat} {id child : ExprId}

/-- The children of an expression are there, in front of it. -/
lemma WellFormed.exprChild (h : nodes.WellFormed excused) (hid : nodes.Contains (.expr id))
    (hchild : .node (.expr child) ∈ parts (nodes.exprForm id)) :
    nodes.Contains (.expr child) ∧ child.index < id.index := by
  obtain ⟨node, hnode⟩ := hid
  obtain ⟨expr, hexpr, rfl⟩ := Option.map_eq_some_iff.1 hnode
  have hform : nodes.exprForm id = expr.form := by
    rw [exprForm, hexpr]
    rfl
  have hmem : .expr child ∈ nodes.children (.expr id) := by
    rw [children_of_get? hnode, mem_refs]
    rw [hform] at hchild
    exact hchild
  exact ⟨h.child_contains _ _ hmem, h.child_lt _ _ hmem rfl⟩

lemma isSome_mapM {α β : Type} {f : α → Option β} {l : List α} (h : ∀ a ∈ l, (f a).isSome) :
    (l.mapM f).isSome := by
  induction l with
  | nil => rfl
  | cons a l ih =>
    obtain ⟨b, hb⟩ := Option.isSome_iff_exists.1 (h a (by simp))
    obtain ⟨bs, hbs⟩ := Option.isSome_iff_exists.1 (ih fun c hc => h c (by simp [hc]))
    rw [List.mapM_cons, hb, hbs]
    rfl

lemma WellFormed.isSome_exprPathTo (h : nodes.WellFormed excused)
    (hid : nodes.Contains (.expr id)) (hdepth : id.index < depth) :
    (nodes.exprPathTo depth id).isSome := by
  induction depth generalizing id with
  | zero => exact absurd hdepth (Nat.not_lt_zero _)
  | succ depth ih =>
    unfold exprPathTo
    split
    case h_1 => rfl
    case h_2 target name typeArgs hform =>
      have hmem : .node (.expr target) ∈ parts (nodes.exprForm id) := by
        rw [hform]
        simp [parts]
      obtain ⟨htarget, hlt⟩ := h.exprChild hid hmem
      rw [Option.isSome_map]
      exact ih htarget (by omega)
    case h_3 => rfl

lemma mem_parts_list {ids : List ExprId} (h : child ∈ ids) :
    Part.node (.expr child) ∈ parts ids := by
  induction ids with
  | nil => exact nomatch h
  | cons id ids ih =>
    rw [parts_cons, Multiset.mem_add]
    rcases List.mem_cons.1 h with rfl | h
    · exact .inl (Multiset.mem_singleton_self _)
    · exact .inr (ih h)

lemma WellFormed.isSome_isAssignableTo (h : nodes.WellFormed excused)
    (hid : nodes.Contains (.expr id)) (hdepth : id.index < depth) :
    (nodes.isAssignableTo depth id).isSome := by
  induction depth generalizing id with
  | zero => exact absurd hdepth (Nat.not_lt_zero _)
  | succ depth ih =>
    have below {child : ExprId} (hchild : .node (.expr child) ∈ parts (nodes.exprForm id)) :
        (nodes.isAssignableTo depth child).isSome := by
      obtain ⟨hcontains, hlt⟩ := h.exprChild hid hchild
      exact ih hcontains (by omega)
    unfold isAssignableTo
    split
    case h_1 items hform =>
      rw [Option.isSome_map]
      refine isSome_mapM fun item hitem => below ?_
      rw [hform]
      exact mem_parts_list hitem
    case h_2 inner hform =>
      refine below ?_
      rw [hform]
      exact Multiset.mem_singleton_self _
    all_goals rfl

end Nodes

variable {env : Env} {J : Region env} {s : ParseState} {id : ExprId}

namespace Region.At

/-- The nodes are well formed where something is held, and an expression that is held is there. -/
lemma expr (hs : J.At (parts id) s) :
    s.nodes.WellFormed s.Excused ∧ s.nodes.Contains (.expr id) := by
  obtain ⟨-, others, hold⟩ := hs
  exact ⟨hold.wellFormed, hold.contains (by simp [parts])⟩

/-- An expression that is held may be opened into the parts of its form, unless it is an optional
chain. -/
lemma uncover {form : ExprForm} (hs : J.At (parts id) s) (hform : s.nodes.exprForm id = form)
    (hchain : ∀ inner, form ≠ .optionalChain inner) : J.At (parts form) s := by
  subst hform
  obtain ⟨hmem, rest, hold⟩ := hs
  exact ⟨hmem, rest, Nodes.uncover_expr hchain hold⟩

end Region.At

namespace Rule

variable {α β : Type}

lemma finishes_find {f : Nodes → Option α} {k : α → Rule β} (h : (f s.nodes).isSome)
    (hk : ∀ a, Finishes env s (k a)) : Finishes env s (find f >>= k) := by
  obtain ⟨a, ha⟩ := Option.isSome_iff_exists.1 h
  obtain ⟨b, t, e⟩ := hk a
  exact ⟨b, t, bind_eq_some.2 ⟨a, s, by rw [find, ha]; rfl, e⟩⟩

lemma finishes_exprSpan {k : Span → Rule β} (hs : J.At (parts id) s)
    (hk : ∀ span, Finishes env s (k span)) : Finishes env s (exprSpan id >>= k) := by
  refine finishes_find ?_ hk
  obtain ⟨-, node, hnode⟩ := hs.expr
  obtain ⟨expr, hexpr, -⟩ := Option.map_eq_some_iff.1 hnode
  rw [hexpr]
  rfl

lemma finishes_isAssignable {k : Bool → Rule β} (hs : J.At (parts id) s)
    (hk : ∀ assignable, Finishes env s (k assignable)) :
    Finishes env s (isAssignable id >>= k) :=
  finishes_find (hs.expr.1.isSome_isAssignableTo hs.expr.2 (Nat.lt_succ_self _)) hk

lemma always_notAType (span : Span) : Always (notAType span) :=
  .bind (always_reportAt _ _ _) fun _ => always_allocType .error span

/-- Several rules in a row, each of which uses a part of its own. -/
lemma returns_mapM [HasParts α] [HasParts β] {f : α → Rule β} {l : List α}
    (hreads : ∀ a, Reads J (parts a) (f a) parts) (h : ∀ a ∈ l, Returns J (parts a) (f a)) :
    Returns J (parts l) (l.mapM f) := by
  induction l with
  | nil => exact .pure _
  | cons a l ih =>
    rw [List.mapM_cons, parts_cons, add_comm]
    refine .use (hreads a) (h a (by simp)) fun b => ?_
    refine Returns.weaken (Multiset.le_add_right _ _) ?_
    exact .bind (reads_mapM hreads l) (ih fun a ha => h a (by simp [ha])) fun bs => .pure _

lemma returns_exprToTypeTo {depth : Nat} (hdepth : id.index < depth) :
    Returns J (parts id) (exprToTypeTo depth id) := by
  induction depth generalizing id with
  | zero => exact absurd hdepth (Nat.not_lt_zero _)
  | succ depth ih =>
    intro s hs
    obtain ⟨hwf, hid⟩ := hs.expr
    have below {child : ExprId} (hchild : .node (.expr child) ∈ parts (s.nodes.exprForm id)) :
        Returns J (parts child) (exprToTypeTo depth child) := by
      obtain ⟨-, hlt⟩ := hwf.exprChild hid hchild
      exact ih (by omega)
    refine finishes_exprSpan hs fun span => .get ?_
    dsimp only
    split
    case h_1 => exact .pure _
    case h_2 => exact always_allocType _ _ env s
    case h_3 =>
      refine finishes_find (hwf.isSome_exprPathTo hid (Nat.lt_succ_self _)) fun path => ?_
      cases path with
      | some segments => exact always_allocType _ _ env s
      | none => exact always_notAType _ env s
    case h_4 inner hform =>
      have hopened := hs.uncover hform nofun
      rw [hform] at below
      refine .bind (below (Multiset.mem_singleton_self _) s hopened) fun inner t _ => ?_
      exact always_allocType _ _ env t
    case h_5 items hform =>
      have hopened := hs.uncover hform nofun
      rw [hform] at below
      have hitems := returns_mapM (reads_exprToTypeTo (J := J) depth) fun item hitem =>
        below (Nodes.mem_parts_list hitem)
      exact .bind (hitems s hopened) fun types t _ => always_allocType _ _ env t
    case h_6 => exact always_allocType _ _ env s
    case h_7 => exact always_notAType _ env s

lemma returns_elementsToTypes (elements : List (Option Name × ExprId)) :
    Returns J (parts elements) (elementsToTypes elements) := by
  have hreads (element : Option Name × ExprId) :
      Reads J (parts element) (do return ⟨element.1, ← exprToType element.2⟩ : Rule TypeElement)
        parts := by
    obtain ⟨label, value⟩ := element
    exact .use (reads_exprToType value) fun type => .pure rfl
  refine returns_mapM hreads fun (label, value) _ => ?_
  exact .use (reads_exprToType value) (returns_exprToTypeTo (Nat.lt_succ_self _)) fun type => .pure _

end Rule

end CangjieSyntax

/-! ## Primary expressions -/

namespace CangjieSyntax.Rule

variable {env : Env} {J K : Region env} {allowed : Kind → Prop} {call : Call} {s : ParseState}

/-! ## Literals -/

lemma always_tokenExpr (form : ExprForm) : Always (tokenExpr form) :=
  .view fun span => .bind always_advance fun _ => always_allocExpr form span

lemma always_literal : Always literal :=
  .view fun form => always_tokenExpr (.literal form)

/-- A piece of a string is taken, or a hole is, from its opening on. -/
lemma consumes_stringRound (h : Steady J allowed call) (pieces : List StringPart) (hs : J.mem s) :
    Consumes env s (stringRound call pieces) := by
  refine .view ?_
  split
  case h_1 hk =>
    have hkind : s.kind ≠ .endOfFile := fun e => nomatch hk.symm.trans e
    exact .view (.advance (.pure fun _ => (h.underway hs).consumes_advance hkind))
  case h_2 hk =>
    have hkind : s.kind ≠ .endOfFile := fun e => nomatch hk.symm.trans e
    have hhole := readsFrom_hole (h.settledPast s.lexer) (h.obeysPast s.lexer) (h.past hs hkind)
    exact .reads hhole fun block t ht => .pure fun _ => consumes_past hkind rfl ht
  case h_3 => exact .advance (.pure nofun)
  case h_4 => exact .pure nofun

section

variable (h : Responds K allowed call)

include h

lemma finishes_hole (hs : K.At 0 (s.advance env.src)) : Finishes env s (hole call) := by
  refine .view (.behind hs ?_)
  refine .next (yields_allItems h.settled h.obeysHere) (returns_allItems h) fun items => ?_
  refine .optional _ fun closed => Always.returns ?_
  split
  · exact .view fun span => .pure _
  · refine .view fun atEnd => ?_
    split
    · exact .view fun span => .pure _
    · exact .bind (always_report _ _) fun _ => .view fun span => .pure _

lemma returns_stringRound (pieces : List StringPart) :
    Returns K 0 (stringRound call pieces) := by
  refine .view fun k => ?_
  split
  · exact .view fun run => .advance fun _ => .pure _
  · refine .next (yields_hole h.settled h.obeysHere) (fun s hs => ?_) fun block => .pure _
    exact finishes_hole h (hs.advance (K.step hs.mem (.advance s)))
  · exact .advance fun _ => .pure _
  · exact .pure _

lemma finishes_string (hs : K.At 0 (s.advance env.src)) : Finishes env s (string call) := by
  refine .view (.view (.behind hs ?_))
  have hreads := reads_stringRound h.settled h.obeysHere
  refine .next (Reads.loop_parts hreads []) ?_ fun pieces => (always_exprFrom _ _).returns
  exact .loop h.underway hreads (fun pieces => (returns_stringRound h pieces).drop)
    (fun pieces s hs => consumes_stringRound h.toSteady pieces hs) []

/-! ## Lists in parentheses and brackets -/

lemma returns_functionType (start : Nat) (elements : List (Option Name × ExprId)) :
    Returns K (parts elements) (functionType call start elements) := by
  refine .advance fun _ => ?_
  refine .bind (reads_elementsToTypes elements) (returns_elementsToTypes elements) fun params => ?_
  refine .next (h.types.yields K) h.types.returns fun result => .view fun span => ?_
  exact Always.returns (.bind (always_allocType _ _) fun type => always_allocExpr _ _)

lemma returns_parenElement : Returns K 0 (parenElement call) := by
  refine .view fun start => .next yields_label? always_label?.returns fun label => ?_
  cases label with
  | some label =>
    refine .next (h.types.yields K) h.types.returns fun type => ?_
    exact Always.returns (.bind (always_exprFrom _ _) fun value => .pure _)
  | none => exact .next h.obeysHere.expression h.expression fun value => .pure _

omit h in
lemma consumes_parenElementsRound (h : Steady J allowed call)
    (b : List (Option Name × ExprId) × Bool) (hs : J.mem s) :
    Consumes env s (parenElementsRound call b) := by
  obtain ⟨elements, trailingComma⟩ := b
  refine .view ?_
  split
  · exact .pure nofun
  · refine .reads (yields_parenElement (h.obeysSince s.lexer) s (h.since hs)) fun element t ht => ?_
    refine .optional (fun hcomma => .view ?_) (.view (.pure nofun))
    split
    · exact .pure nofun
    · exact .pure fun _ => Region.consumes_advance ht fun e => nomatch hcomma.symm.trans e

lemma returns_parenElements : Returns K 0 (parenElements call) := by
  refine .loop h.underway (reads_parenElementsRound h.obeysHere)
    (fun (elements, trailingComma) => .view fun atEnd => ?_)
    (fun b s hs => consumes_parenElementsRound h.toSteady b hs) ([], false)
  split
  · exact .pure _
  · refine .next (yields_parenElement h.obeysHere) (returns_parenElement h).drop fun element => ?_
    refine .optional _ fun comma => .view fun closes => ?_
    split
    · exact .pure _
    · exact .pure _

lemma finishes_parenthesized (hs : K.At 0 (s.advance env.src)) :
    Finishes env s (parenthesized call) := by
  refine .view (.behind hs (.optional _ fun unit => ?_))
  split
  · refine .view fun arrow => ?_
    split
    · exact returns_functionType h _ []
    · exact (always_exprFrom _ _).returns
  · refine .bind (yields_parenElements h.obeysHere) (returns_parenElements h) ?_
    rintro ⟨elements, trailingComma⟩
    refine .weaken (Multiset.le_add_right (parts elements) (parts trailingComma)) ?_
    refine .require _ fun _ => .view fun arrow => ?_
    split
    · exact returns_functionType h _ elements
    · split
      · refine .view fun span => .reportAt _ _ _ fun _ => ?_
        refine .bind (reads_elementsToTypes elements) (returns_elementsToTypes elements) ?_
        intro types
        exact Always.returns (.bind (always_allocType _ _) fun type => always_allocExpr _ _)
      · exact (always_exprFrom _ _).returns

lemma returns_arrayElement : Returns K 0 (arrayElement call) := by
  refine .view fun start => .optional _ fun star => ?_
  split
  · exact .next h.obeysHere.expression h.expression fun inner => (always_exprFrom _ _).returns
  · exact h.expression

lemma finishes_array (hs : K.At 0 (s.advance env.src)) : Finishes env s (array call) := by
  have helements := h.list (.mark .closeBracket) (fun K _ hcall => yields_arrayElement hcall)
    (returns_arrayElement h)
  refine .view (.behind hs (.next (yields_list _ (yields_arrayElement h.obeysHere)) helements ?_))
  exact fun items => .require _ fun _ => (always_exprFrom _ _).returns

end

/-! ## Lambdas -/

section

variable (h : ReadsTypes K allowed call)

include h

lemma consumes_lambdaParamsRound (params : List LambdaParam) (hs : K.mem s) :
    Consumes env s (lambdaParamsRound call params) := by
  have hsince : (K.since allowed s.lexer).mem s := ⟨hs, h.underway hs, .refl _⟩
  refine .view ?_
  split
  · exact .pure nofun
  split
  · exact .pure nofun
  refine .view ?_
  extract_lets rest
  have hrest (name : Option Name) (t : ParseState) (ht : (K.since allowed s.lexer).mem t) :
      Ensures env t (rest name) fun next u => next.isLeft → s.Consumes u := by
    refine .reads (yields_typeBehind _ (h.yields _) t ht) fun type u hu => .view ?_
    refine .optional (fun hcomma => ?_) (.pure nofun)
    exact .pure fun _ => Region.consumes_advance hu fun e => nomatch hcomma.symm.trans e
  clear_value rest
  split
  · exact .advance (hrest none _ ((K.since allowed s.lexer).step hsince (.advance s)))
  · exact .reads (yields_identifier s hsince) fun name t ht => hrest (some name) t ht

lemma returns_lambdaParamsRound (params : List LambdaParam) :
    Returns K 0 (lambdaParamsRound call params) := by
  refine .view fun k => ?_
  split
  · exact .pure _
  split
  · exact .pure _
  refine .view fun start => ?_
  extract_lets rest
  have hrest (name : Option Name) : Returns K 0 (rest name) := by
    refine .next (yields_typeBehind _ (h.yields K)) ?_ fun type => ?_
    · exact returns_behind _ (h.yields K) h.returns
    · refine .view fun span => .optional _ fun comma => ?_
      split
      · exact .pure _
      · exact .pure _
  clear_value rest
  split
  · exact .advance fun _ => hrest none
  · exact .identifier fun name => hrest (some name)

lemma returns_lambdaParams? : Returns K 0 (lambdaParams? call) := by
  have hreads := reads_lambdaParamsRound (h.yields K)
  refine .next (Reads.loop_parts hreads []) ?_ fun params => ?_
  · exact .loop h.underway hreads (fun params => (returns_lambdaParamsRound h params).drop)
      (fun params s hs => consumes_lambdaParamsRound h params hs) []
  · cases params with
    | none => exact .pure _
    | some params =>
      refine .optional _ fun arrow => ?_
      split
      · exact .pure _
      · exact .pure _

end

lemma finishes_lambda (h : Responds K allowed call) (needsArrow : Bool)
    (hs : K.At 0 (s.advance env.src)) : Finishes env s (lambda call needsArrow) := by
  obtain ⟨L, htypes, henter⟩ := h.attempts
  refine .view (.behind hs ?_)
  extract_lets rest
  have hrest (params : List LambdaParam) : Returns K 0 (rest params) := by
    refine .next (yields_allItems h.settled h.obeysHere) (returns_allItems h) fun items => ?_
    exact .require _ fun _ => .view fun span => (always_allocExpr _ _).returns
  clear_value rest
  refine .next (yields_attempt h.settled fun K => yields_lambdaParams? (htypes.yields K)) ?_ ?_
  · intro t ht
    have hentered : L.At 0 (t.enterTentative env.settings.budget) :=
      ht.step (henter ht.mem) rfl id
    exact finishes_attempt (returns_lambdaParams? htypes _ hentered)
  · intro result
    cases result with
    | committed params => exact hrest params
    | _ => exact .skip_when (quiet_report _ _) (always_report _ _) (hrest [])

end CangjieSyntax.Rule

/-!
## Quoted code and macro calls

Of quoted code each round takes a token or a splice, which starts with one.
-/

namespace CangjieSyntax.Rule

variable {env : Env} {J K : Region env} {allowed : Kind → Prop} {call : Call} {s : ParseState}

/-! ## Rounds -/

lemma always_nameSplice : Always nameSplice := by
  refine .view fun span => .view fun value => .bind (always_name _ _) fun n => ?_
  exact .bind always_advance fun _ => always_allocExpr _ _

lemma always_keptToken (q : Quotation) (k : Kind) : Always (keptToken q k) :=
  .view fun _ => .skip_when always_advance (.bind always_advance fun _ => .pure _)

section

variable (h : Steady J allowed call) (hs : J.mem s) (hkind : s.kind ≠ .endOfFile)

include h hs hkind

/-- The name behind a dollar sign is stored before it is taken. -/
lemma ensures_nameSplice : Ensures env s nameSplice fun _ t => s.Consumes t := by
  intro id t e
  have hstored : J.mem { s with names := s.names.insert s.lexer.value } :=
    J.step hs (.intern s s.lexer.value)
  have hconsumes := (h.underway hstored).consumes_advance hkind
  cases e
  exact hconsumes

lemma ensures_exprSplice : Ensures env s (exprSplice call) fun _ t => s.Consumes t :=
  .past hkind (readsFrom_exprSplice (h.obeysPast s.lexer) (h.past hs hkind))

lemma ensures_keptToken (q : Quotation) (k : Kind) :
    Ensures env s (keptToken q k) fun _ t => s.Consumes t := by
  refine .view (.skip_when (.advance ?_) (.advance (.pure ?_)))
  · have hrest : Quiet (J.past allowed s.lexer) advance := quiet_advance
    exact (Ensures.past hkind (hrest _ (h.past hs hkind))).bind fun _ t ht => .pure ht
  · exact (h.underway hs).consumes_advance hkind

end

lemma consumes_quotePartsRound (h : Steady J allowed call) (q : Quotation) (hs : J.mem s) :
    Consumes env s (quotePartsRound call q) := by
  refine .get (.view ?_)
  split
  · exact .pure nofun
  case isFalse hend =>
    have hkind : s.kind ≠ .endOfFile := by
      intro e
      rw [e] at hend
      simp at hend
    split
    · exact (ensures_nameSplice h hs hkind).bind fun id t ht => .pure fun _ => ht
    refine .view ?_
    split
    · exact (ensures_exprSplice h hs hkind).bind fun id t ht => .pure fun _ => ht
    · exact (ensures_keptToken h hs hkind q _).bind fun q t ht => .pure fun _ => ht

lemma consumes_balancedRound (opening closing : Punctuation) (innerStart depth : Nat)
    (hs : s.Underway env allowed) :
    Consumes env s (balancedRound opening closing innerStart depth) := by
  refine .get ?_
  dsimp only
  split
  · exact .report (.pure nofun)
  case isFalse hend =>
    have hkind : s.kind ≠ .endOfFile := fun e => hend (beq_iff_eq.2 e)
    split
    · exact .advance (.pure nofun)
    · exact .advance (.pure fun _ => hs.consumes_advance hkind)

lemma always_balancedRound (opening closing : Punctuation) (innerStart depth : Nat) :
    Always (balancedRound opening closing innerStart depth) := by
  refine .get fun s => ?_
  dsimp only
  split
  · exact .bind (always_report _ _) fun _ => .pure _
  split
  · exact .bind always_advance fun _ => .pure _
  · exact .bind always_advance fun _ => .pure _

/-! ## Rules -/

section

variable (h : Responds K allowed call)

include h

lemma returns_exprSplice : Returns K 0 (exprSplice call) :=
  .advance fun _ => .advance fun _ =>
    .next h.obeysHere.expression h.expression fun value => .require _ fun _ => .pure value

lemma returns_quotePartsRound (q : Quotation) : Returns K 0 (quotePartsRound call q) := by
  refine .get fun s => .view fun k => ?_
  split
  · exact .pure _
  split
  · exact Always.returns (.bind always_nameSplice fun id => .pure _)
  refine .view fun splices => ?_
  split
  · exact .next (yields_exprSplice h.obeysHere) (returns_exprSplice h) fun id => .pure _
  · exact Always.returns (.bind (always_keptToken q k) fun q => .pure _)

lemma returns_quoteParts : Returns K 0 (quoteParts call) :=
  Returns.loop h.underway (reads_quotePartsRound h.obeysHere)
    (fun q => (returns_quotePartsRound h q).drop)
    (fun q _ hs => consumes_quotePartsRound h.toSteady q hs) ({} : Quotation)

lemma finishes_quote (hs : K.At 0 (s.advance env.src)) : Finishes env s (quote call) := by
  refine .view (.behind hs (.expect _ fun opened => ?_))
  split
  · refine .next (yields_quoteParts h.obeysHere) (returns_quoteParts h) fun pieces => ?_
    exact .require _ fun _ => (always_exprFrom _ _).returns
  · exact (always_exprFrom _ _).returns

omit h

variable (hway : ∀ {s}, K.mem s → s.Underway env allowed)

include hway

lemma finishes_balanced (hs : K.mem s) (opening closing : Punctuation) :
    Finishes env s (balanced opening closing) :=
  .get (.advance (.loop_of_always hway (quiet_balancedRound opening closing _)
    (fun depth => always_balancedRound _ _ _ depth env)
    (fun depth _ hs => consumes_balancedRound _ _ _ depth (hway hs)) (K.step hs (.advance s)) 0))

/-- Wherever a parse has come to, a macro call can be read. -/
lemma finishes_macroCall (hs : K.mem (s.advance env.src)) : Finishes env s macroCall := by
  refine .view (.advance (.bind (finishes_dottedName hway hs) fun path t e => ?_))
  have ht := (yields_dottedName _ hs path t e).1
  refine .view ?_
  extract_lets rest
  have hrest {u : ParseState} (hu : K.mem u) (attributes : Option Span) :
      Finishes env u (rest attributes) := by
    refine .view ?_
    split
    · exact .bind (finishes_balanced hway hu _ _) fun input v _ => always_exprFrom _ _ env v
    · exact .report (.view (always_exprFrom _ _ env _))
  clear_value rest
  split
  · refine .bind (finishes_balanced hway ht _ _) fun span u e => hrest ?_ _
    exact (quiet_balanced _ _ t ht span u e).1
  · exact hrest ht none

end

end CangjieSyntax.Rule
