import CangjieSyntax.Grammar.Primary
import CangjieSyntax.Grammar.Quoting
import CangjieSyntax.Grammar.Reading
import CangjieSyntax.Proofs.Grammar.Rule
import CangjieSyntax.Proofs.Grammar.Types

/-!
# What the rules of primary expressions hold

Literals, strings with holes, lists in parentheses or brackets, and lambdas. The parameters of a
lambda keep to any region, since they are read tentatively.
-/

/-!
## Expressions read as types

An expression that turns out to be a type is opened: its node is given up, and the places and names
it held become those of the type.
-/

namespace CangjieSyntax

namespace Nodes

variable {nodes : Nodes} {excused lossy : Prop} {held : Multiset Part}

/-- An expression that is held may be opened into the parts of its form, unless it is an optional
chain. -/
lemma uncover_expr {id : ExprId} (hchain : ∀ inner, nodes.exprForm id ≠ .optionalChain inner)
    (h : Holds nodes excused (parts id + held) lossy) :
    Holds nodes excused (parts (nodes.exprForm id) + held) lossy := by
  obtain ⟨node, hnode⟩ := h.contains (r := .expr id) (by simp [parts])
  obtain ⟨expr, hexpr, rfl⟩ := Option.map_eq_some_iff.1 hnode
  have hform : nodes.exprForm id = expr.form := by
    rw [exprForm, hexpr]
    rfl
  rw [hform] at hchain ⊢
  refine h.uncover hnode nofun fun inner span e => ?_
  cases e
  exact hchain inner rfl

/-- The path that an expression spells has the parts of the nodes it is spelt with. -/
lemma uncover_exprPath {depth : Nat} {id : ExprId} {segments : List PathSegment}
    (e : nodes.exprPathTo depth id = some (some segments))
    (h : Holds nodes excused (parts id + held) lossy) :
    Holds nodes excused (parts segments + held) lossy := by
  induction depth generalizing id segments held with
  | zero => exact nomatch e
  | succ depth ih =>
    unfold exprPathTo at e
    split at e
    case h_1 name typeArgs hid =>
      cases e
      have hform := uncover_expr (hid ▸ nofun) h
      rw [hid] at hform
      exact hform.of_eq (by simp [parts])
    case h_2 target name typeArgs hid =>
      obtain ⟨front?, hfront, e⟩ := Option.map_eq_some_iff.1 e
      obtain ⟨front, rfl, rfl⟩ := Option.map_eq_some_iff.1 e
      have hform := uncover_expr (hid ▸ nofun) h
      rw [hid] at hform
      have hpath : Holds nodes excused (parts target + (parts name + parts typeArgs + held)) lossy :=
        hform.of_eq (by simp only [parts]; abel)
      exact (ih hfront hpath).of_eq (by simp; abel)
    case h_3 => exact nomatch e

end Nodes

namespace Rule

variable {env : Env} {J : Region env} {call : Call}

/-- A rule that looks something up among the nodes goes on from the same state. -/
lemma readsFrom_find {α β : Type} {s : ParseState} {f : Nodes → Option α} {pre : Multiset Part}
    {k : α → Rule β} {post : β → Multiset Part}
    (h : ∀ a, f s.nodes = some a → ReadsFrom J s pre (k a) post) :
    ReadsFrom J s pre (find f >>= k) post := by
  intro b t e
  obtain ⟨a, u, hfind, e⟩ := bind_eq_some.1 e
  obtain ⟨a, ha, e'⟩ := Option.map_eq_some_iff.1 hfind
  cases e'
  exact h a ha b t e

lemma quiet_find {α : Type} (f : Nodes → Option α) : Quiet J (find f) := by
  intro s hs a t e
  obtain ⟨a, -, e⟩ := Option.map_eq_some_iff.1 e
  cases e
  exact ⟨hs, .refl s⟩

lemma reads_notAType (held : Multiset Part) (span : Span) : Reads J held (notAType span) parts :=
  reads_reported (reads_errorType span)

/-- Several rules in a row, each of which uses a part of its own. -/
lemma reads_mapM {α β : Type} [HasParts α] [HasParts β] {f : α → Rule β}
    (h : ∀ a, Reads J (parts a) (f a) parts) (l : List α) :
    Reads J (parts l) (l.mapM f) parts := by
  induction l with
  | nil => exact .pure rfl
  | cons a l ih =>
    rw [List.mapM_cons, parts_cons, add_comm]
    refine .use (h a) fun b => ?_
    rw [add_comm]
    refine .use ih fun bs => .pure (by simp)

/-- From one state on, an expression is read as a type by what is held when it is opened. -/
lemma readsFrom_exprForm {α : Type} {s : ParseState} {id : ExprId} {form : ExprForm} {r : Rule α}
    {post : α → Multiset Part} (hform : s.nodes.exprForm id = form)
    (hchain : ∀ inner, form ≠ .optionalChain inner) (h : ReadsFrom J s (parts form) r post) :
    ReadsFrom J s (parts id) r post := by
  subst hform
  intro a t e
  obtain ⟨ht, hkeeps⟩ := h a t e
  exact ⟨ht, hkeeps.depth, hkeeps.enclosingType,
    fun himp rest hold => hkeeps.holds_of himp rest (Nodes.uncover_expr hchain hold)⟩

lemma reads_exprToTypeTo (depth : Nat) (id : ExprId) :
    Reads J (parts id) (exprToTypeTo depth id) parts := by
  induction depth generalizing id with
  | zero => exact .endless
  | succ depth ih =>
    intro s hs
    refine readsFrom_find fun span _ => .get ?_
    dsimp only
    split
    case h_1 type hform =>
      refine readsFrom_exprForm hform nofun ?_
      exact Reads.pure (p := parts) rfl s hs
    case h_2 name typeArgs hform =>
      refine readsFrom_exprForm hform nofun ?_
      have hspare : ∀ p ∈ parts (ExprForm.identifier name typeArgs), p.Spare :=
        spare_of_add (SpareParts.spare name) (SpareParts.spare typeArgs)
      refine Reads.weaken (.of_le hspare ?_) (reads_allocType _ _) s hs
      exact (TypeForm.parts_ofPath_le _).trans (by simp [parts])
    case h_3 =>
      refine readsFrom_find fun path hpath => ?_
      cases path with
      | some segments =>
        intro a t e
        obtain ⟨ht, hkeeps⟩ := reads_allocType (.named segments) _ s hs a t e
        exact ⟨ht, hkeeps.depth, hkeeps.enclosingType,
          fun himp rest hold => hkeeps.holds_of himp rest (Nodes.uncover_exprPath hpath hold)⟩
      | none => exact reads_notAType _ _ s hs
    case h_4 inner hform =>
      refine readsFrom_exprForm hform nofun ?_
      exact Reads.bind (ih inner) (fun inner => reads_allocType _ _) s hs
    case h_5 items hform =>
      refine readsFrom_exprForm hform nofun ?_
      refine Reads.bind (reads_mapM ih items) (fun types => ?_) s hs
      exact .of_eq (parts_map (fun _ => zero_add _) types).symm (reads_allocType _ _)
    case h_6 hform =>
      exact readsFrom_exprForm hform nofun (reads_allocType (.builtin .unit) _ s hs)
    case h_7 => exact reads_notAType _ _ s hs

lemma reads_exprToType (id : ExprId) : Reads J (parts id) (exprToType id) parts :=
  reads_exprToTypeTo _ id

lemma reads_elementsToTypes (elements : List (Option Name × ExprId)) :
    Reads J (parts elements) (elementsToTypes elements) parts := by
  refine reads_mapM (fun (label, value) => ?_) elements
  exact .use (reads_exprToType value) fun type => .pure rfl

end Rule

end CangjieSyntax

/-! ## Primary expressions -/

namespace CangjieSyntax

/-- A literal that is a single token holds nothing. -/
lemma Literal.parts_ofToken (src : Source) (t : Token) :
    parts (ExprForm.literal (.ofToken src t)) = 0 := by
  change parts (Literal.ofToken src t) = 0
  unfold Literal.ofToken
  split <;> rfl

/-- A run of text adds nothing to what a string holds. -/
lemma StringPart.parts_addText (pieces : List StringPart) (run : String) :
    parts (StringPart.addText pieces run) = parts pieces := by
  unfold StringPart.addText
  split
  case h_1 before hlast =>
    obtain ⟨front, rfl⟩ := List.getLast?_eq_some_iff.1 hlast
    simp
  case h_2 => simp

namespace Rule

variable {env : Env} {J K : Region env} {call : Call}

/-! ## Literals -/

lemma reads_tokenExpr (form : ExprForm) : Reads J (parts form) (tokenExpr form) parts :=
  .view fun span => .skip quiet_advance fun _ => reads_allocExpr form span

lemma yields_literal : Yields J literal := by
  intro s hs
  refine .view ?_
  exact Reads.of_eq (Literal.parts_ofToken _ _).symm (reads_tokenExpr _) s hs

lemma readsFrom_hole {s : ParseState} (hJ : J.Settled) (h : Obeys J call)
    (hs : J.mem (s.advance env.src)) : ReadsFrom J s 0 (hole call) parts := by
  refine .view (readsFrom_advance hs (.first (yields_allItems hJ h) fun items => ?_))
  extract_lets rest
  have hrest (u : Unit) : Reads J (parts items) (rest u) parts := .view fun span => .pure rfl
  clear_value rest
  refine .skip (quiet_optional _) fun closed => ?_
  split
  · exact hrest ()
  · refine .view fun atEnd => ?_
    split
    · exact hrest ()
    · exact .skip (quiet_report _ _) hrest

lemma yields_hole (hJ : J.Settled) (h : Obeys J call) : Yields J (hole call) :=
  fun _ hs => readsFrom_hole hJ h (J.step hs (.advance _))

lemma reads_stringRound (hJ : J.Settled) (h : Obeys J call) (pieces : List StringPart) :
    Reads J (parts pieces) (stringRound call pieces) parts := by
  refine .view fun k => ?_
  split
  · refine .view fun run => .skip quiet_advance fun _ => .pure ?_
    exact (StringPart.parts_addText _ _).symm
  · exact .next (yields_hole hJ h) fun block => .pure (by simp)
  · exact .skip quiet_advance fun _ => .pure rfl
  · exact .pure rfl

lemma yields_string (hJ : J.Settled) (h : Obeys J call) : Yields J (string call) := by
  refine .view fun start => .view fun multiLine => .skip quiet_advance fun _ => ?_
  exact .first (Reads.loop_parts (reads_stringRound hJ h) []) fun pieces => reads_exprFrom _ _

/-! ## Lists in parentheses and brackets -/

lemma reads_functionType (start : Nat) (elements : List (Option Name × ExprId))
    (h : Obeys J call) : Reads J (parts elements) (functionType call start elements) parts := by
  refine .skip quiet_advance fun _ => ?_
  refine .bind (reads_elementsToTypes elements) fun params => ?_
  refine .next (h.type J) fun result => .view fun span => ?_
  exact .bind (reads_allocType (.arrow params result) span) fun type => reads_allocExpr _ _

lemma yields_parenElement (h : Obeys J call) : Yields J (parenElement call) := by
  refine .view fun start => .first yields_label? fun label => ?_
  cases label with
  | some label =>
    refine .next (h.type J) fun type => ?_
    exact .use (reads_exprFrom start (.typeValue type)) fun value => .pure rfl
  | none => exact .next h.expression fun value => .pure rfl

lemma reads_parenElementsRound (h : Obeys J call) (b : List (Option Name × ExprId) × Bool) :
    Reads J (parts b) (parenElementsRound call b) parts := by
  obtain ⟨elements, trailingComma⟩ := b
  refine .view fun atEnd => ?_
  split
  · exact .pure rfl
  · refine .next (yields_parenElement h) fun element => ?_
    refine .skip (quiet_optional _) fun comma => .view fun closes => ?_
    split
    · exact .pure (by simp)
    · exact .pure (by simp)

lemma yields_parenElements (h : Obeys J call) : Yields J (parenElements call) :=
  Reads.loop_parts (reads_parenElementsRound h) ([], false)

/-- The form of a list in parentheses holds its elements, without their labels. -/
lemma sheds_parenForm (elements : List (Option Name × ExprId)) (trailingComma : Bool) :
    Sheds (parts elements) (parts (parenForm elements trailingComma)) := by
  have label (element : Option Name × ExprId) : Sheds (parts element) (parts element.2) :=
    ⟨parts element.1, rfl, .inr (SpareParts.spare element.1)⟩
  unfold parenForm
  split
  case h_1 element value =>
    rw [parts_cons, parts_nil, add_zero]
    exact label (element, value)
  case h_2 => exact .map label elements

lemma yields_parenthesized (h : Obeys J call) : Yields J (parenthesized call) := by
  refine .view fun start => .skip quiet_advance fun _ => ?_
  refine .skip (quiet_optional _) fun unit => ?_
  split
  · refine .view fun arrow => ?_
    split
    · exact reads_functionType start [] h
    · exact reads_exprFrom start .unit
  · refine .first (yields_parenElements h) fun (elements, trailingComma) => ?_
    refine .of_eq (add_zero _) <| .skip (quiet_require _) fun _ => .view fun arrow => ?_
    split
    · exact reads_functionType start elements h
    · split
      · refine .view fun span => .skip (quiet_reportAt _ _ _) fun _ => ?_
        refine .bind (reads_elementsToTypes elements) fun elements => ?_
        exact .bind (reads_allocType (.tuple elements) span) fun type => reads_allocExpr _ _
      · exact .weaken (sheds_parenForm elements trailingComma) (reads_exprFrom _ _)

lemma yields_arrayElement (h : Obeys J call) : Yields J (arrayElement call) := by
  refine .view fun start => .skip (quiet_optional _) fun star => ?_
  split
  · exact .first h.expression fun inner => reads_exprFrom _ _
  · exact h.expression

lemma yields_array (h : Obeys J call) : Yields J (array call) := by
  refine .view fun start => .skip quiet_advance fun _ => ?_
  refine .first (yields_list _ (yields_arrayElement h)) fun items => ?_
  exact .skip (quiet_require _) fun _ => reads_exprFrom _ _

/-! ## Lambdas -/

lemma reads_lambdaParamsRound (h : Yields K (call .type)) (params : List LambdaParam) :
    Reads K (parts params) (lambdaParamsRound call params) parts := by
  refine .view fun k => ?_
  split
  · exact .pure rfl
  · split
    · exact .weaken (.of_le (SpareParts.spare params) (Multiset.zero_le _)) (.pure rfl)
    · refine .view fun start => ?_
      extract_lets rest
      have hrest (name : Option Name) :
          Reads K (parts params + parts name) (rest name) parts := by
        refine .next (yields_typeBehind _ h) fun type => .view fun span => ?_
        refine .skip (quiet_optional _) fun comma => ?_
        split
        · exact .pure (by simp [add_assoc])
        · exact .pure (by simp [add_assoc])
      clear_value rest
      split
      · exact .skip quiet_advance fun _ => .of_eq (add_zero _).symm (hrest none)
      · exact .next yields_identifier fun name => hrest (some name)

lemma yields_lambdaParams? (h : Yields K (call .type)) : Yields K (lambdaParams? call) := by
  refine .first (Reads.loop_parts (reads_lambdaParamsRound h) []) fun params => ?_
  cases params with
  | none => exact .pure rfl
  | some params =>
    refine .skip (quiet_optional _) fun arrow => ?_
    split
    · exact .pure rfl
    · exact .weaken (.of_le (SpareParts.spare params) (Multiset.zero_le _)) (.pure rfl)

lemma readsFrom_lambda {s : ParseState} (needsArrow : Bool) (hJ : J.Settled) (h : Obeys J call)
    (hs : J.mem (s.advance env.src)) : ReadsFrom J s 0 (lambda call needsArrow) parts := by
  refine .view (readsFrom_advance hs ?_)
  extract_lets rest
  have hrest (params : List LambdaParam) : Reads J (parts params) (rest params) parts := by
    refine .next (yields_allItems hJ h) fun items => ?_
    exact .skip (quiet_require _) fun _ => .view fun span => reads_allocExpr _ _
  clear_value rest
  refine .first (yields_attempt hJ fun K => yields_lambdaParams? (h.type K)) fun result => ?_
  cases result with
  | committed params => exact hrest params
  | _ => exact .skip_when (quiet_report _ _) (hrest [])

lemma yields_lambda (needsArrow : Bool) (hJ : J.Settled) (h : Obeys J call) :
    Yields J (lambda call needsArrow) :=
  fun _ hs => readsFrom_lambda needsArrow hJ h (J.step hs (.advance _))

end Rule

end CangjieSyntax

/-!
## Quoted code

Of quoted code only the splices are held; the tokens around them are spans.
-/

namespace CangjieSyntax.Rule

variable {env : Env} {J : Region env} {call : Call}

instance : HasParts Quotation := ⟨fun q => parts q.parts⟩

/-- Ending a run of tokens adds nothing to what is held. -/
lemma Quotation.parts_endRun (q : Quotation) (prevStop : Nat) :
    HasParts.parts (q.endRun prevStop).parts = HasParts.parts q.parts := by
  unfold endRun
  split
  · simp
  · rfl

/-- A name behind a dollar sign. -/
lemma readsFrom_nameSplice {s : ParseState} {held : Multiset Part} (hs : J.mem s)
    (h : s.kind = .dollarIdentifier) :
    ReadsFrom J s held nameSplice fun id => held + parts id := by
  refine .view (.view (yields_tokenName hs _ (by rw [h]; rfl) fun n => ?_))
  refine .skip quiet_advance fun _ => .of_eq (add_comm _ _) ?_
  exact .of_eq (by simp [parts]) ((reads_allocExpr (.identifier n []) _).frame held)

lemma readsFrom_exprSplice {s : ParseState} (h : Obeys J call) (hs : J.mem (s.advance env.src)) :
    ReadsFrom J s 0 (exprSplice call) parts := by
  refine readsFrom_advance hs (.skip quiet_advance fun _ => ?_)
  exact .first h.expression fun value => .skip (quiet_require _) fun _ => .pure rfl

lemma yields_exprSplice (h : Obeys J call) : Yields J (exprSplice call) :=
  fun _ hs => readsFrom_exprSplice h (J.step hs (.advance _))

lemma reads_keptToken (q : Quotation) (k : Kind) : Reads J (parts q) (keptToken q k) parts :=
  .view fun _ => .skip_when quiet_advance (.skip quiet_advance fun _ => .pure rfl)

/-- One more splice behind the run of tokens that ends in front of it. -/
lemma Quotation.parts_splice (q : Quotation) (prevStop : Nat) (id : ExprId) :
    HasParts.parts ((q.endRun prevStop).parts ++ [QuotePart.splice id])
      = HasParts.parts q + HasParts.parts id := by
  rw [CangjieSyntax.parts_append, parts_endRun]
  simp [HasParts.parts]

lemma reads_quotePartsRound (h : Obeys J call) (q : Quotation) :
    Reads J (parts q) (quotePartsRound call q) parts := by
  intro s hs
  refine .get (.view ?_)
  split
  · refine Reads.pure ?_ s hs
    exact (Quotation.parts_endRun q _).symm
  · split
    case isTrue hdollar =>
      refine (readsFrom_nameSplice hs (eq_of_beq hdollar)).bind fun id t _ ht => ?_
      refine Reads.pure ?_ t ht
      exact (Quotation.parts_splice q _ id).symm
    case isFalse =>
      refine .view ?_
      split
      · refine Reads.next (yields_exprSplice h) (fun id => ?_) s hs
        exact .pure (Quotation.parts_splice q _ id).symm
      · refine Reads.bind (reads_keptToken q _) (fun q => ?_) s hs
        exact .pure rfl

lemma yields_quoteParts (h : Obeys J call) : Yields J (quoteParts call) :=
  Reads.loop_parts (reads_quotePartsRound h) ({} : Quotation)

lemma yields_quote (h : Obeys J call) : Yields J (quote call) := by
  refine .view fun start => .skip quiet_advance fun _ => ?_
  refine .skip (quiet_expect _) fun opened => ?_
  split
  · refine .first (yields_quoteParts h) fun pieces => ?_
    exact .skip (quiet_require _) fun _ => reads_exprFrom _ (.quote pieces)
  · exact reads_exprFrom _ (.quote [])

lemma quiet_balancedRound (opening closing : Punctuation) (innerStart depth : Nat) :
    Reads J 0 (balancedRound opening closing innerStart depth)
      (Sum.elim (fun _ => 0) fun _ => 0) := by
  refine .get fun s => ?_
  dsimp only
  split
  · exact .skip (quiet_report _ _) fun _ => .pure rfl
  · split
    · exact .skip quiet_advance fun _ => .pure rfl
    · exact .skip quiet_advance fun _ => .pure rfl

lemma quiet_balanced (opening closing : Punctuation) : Quiet J (balanced opening closing) :=
  .get fun _ => .skip quiet_advance fun _ => .loop (quiet_balancedRound opening closing _) 0

lemma yields_macroCall : Yields J macroCall := by
  refine .view fun start => .skip quiet_advance fun _ => ?_
  refine .first yields_dottedName fun name => .view fun hasAttributes => ?_
  extract_lets rest
  have hrest (attributes : Option Span) : Reads J (parts name) (rest attributes) parts := by
    refine .view fun opens => ?_
    split
    · exact .skip (quiet_balanced _ _) fun input => reads_exprFrom _ _
    · exact .skip (quiet_report _ _) fun _ => .view fun here => reads_exprFrom _ _
  clear_value rest
  split
  · exact .skip (quiet_balanced _ _) fun span => hrest (some span)
  · exact hrest none

end CangjieSyntax.Rule
