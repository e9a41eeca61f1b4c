import CangjieSyntax.Grammar.Primary
import CangjieSyntax.Grammar.Quoting
import CangjieSyntax.Grammar.Reading
import CangjieSyntax.Proofs.Twin.Types

/-!
# How the rules of primary expressions follow each other
-/

/-!
## Expressions read as types

What an expression spells, and whether it can be assigned to, is the same in both parses: its nodes
are found again where they were moved, and looking deeper finds nothing else.
-/

namespace CangjieSyntax

namespace Nodes

variable {m : Move} {base nodes : Nodes} {depth depth' : Nat} {id : ExprId}

lemma exprNode_appendMoved (h : base.counts = m.counts) (id : ExprId) :
    (base.appendMoved m nodes).exprs.get? (move m id) = (nodes.exprs.get? id).map (move m) :=
  Arena.get?_appendMoved (congrArg NodeCounts.exprs h) nodes.exprs id

lemma exprForm_appendMoved (h : base.counts = m.counts) (id : ExprId) :
    (base.appendMoved m nodes).exprForm (move m id) = move m (nodes.exprForm id) := by
  unfold exprForm
  rw [exprNode_appendMoved h]
  cases nodes.exprs.get? id with
  | none => rfl
  | some node => rfl

lemma exprPathTo_appendMoved (h : base.counts = m.counts) :
    (base.appendMoved m nodes).exprPathTo depth (move m id)
      = (nodes.exprPathTo depth id).map (move m) := by
  induction depth generalizing id with
  | zero => rfl
  | succ depth ih =>
    unfold exprPathTo
    rw [exprForm_appendMoved h]
    cases nodes.exprForm id
    case field target name typeArgs isOptional =>
      cases isOptional with
      | true => rfl
      | false =>
        change Option.map _ ((base.appendMoved m nodes).exprPathTo depth (move m target))
          = Option.map _ (Option.map _ (nodes.exprPathTo depth target))
        rw [ih, Option.map_map, Option.map_map]
        congr 1
        funext front
        cases front with
        | none => rfl
        | some front => simp; rfl
    all_goals rfl

/-- Looking deeper finds the same path. -/
lemma exprPathTo_deeper (hle : depth ≤ depth') {path : Option (List PathSegment)}
    (e : nodes.exprPathTo depth id = some path) : nodes.exprPathTo depth' id = some path := by
  induction depth generalizing depth' id path with
  | zero => exact nomatch e
  | succ depth ih =>
    obtain ⟨depth', rfl⟩ := Nat.exists_eq_add_of_le' (Nat.lt_of_lt_of_le (Nat.succ_pos _) hle)
    unfold exprPathTo at e ⊢
    split
    case h_1 hform => rwa [hform] at e
    case h_2 hform =>
      rw [hform] at e
      obtain ⟨front, hfront, rfl⟩ := Option.map_eq_some_iff.1 e
      rw [ih (Nat.le_of_succ_le_succ hle) hfront]
      rfl
    case h_3 hother hfield =>
      split at e
      case h_1 hform => exact absurd hform (hother _ _)
      case h_2 hform => exact absurd hform (hfield _ _ _)
      case h_3 => exact e

/-- What is found for each of some places is found for each of them where they were moved. -/
lemma mapM_move {α : Type} {f f' : ExprId → Option α} (hf : ∀ id, f' (move m id) = f id)
    (items : List ExprId) : (move m items).mapM f' = items.mapM f := by
  induction items with
  | nil => rfl
  | cons id items ih => rw [move_cons, List.mapM_cons, List.mapM_cons, hf, ih]

lemma mapM_deeper {α : Type} {f f' : ExprId → Option α} {items : List ExprId} {all : List α}
    (hf : ∀ id a, f id = some a → f' id = some a) (e : items.mapM f = some all) :
    items.mapM f' = some all := by
  induction items generalizing all with
  | nil => exact e
  | cons id items ih =>
    rw [List.mapM_cons] at e
    obtain ⟨first, hfirst, e⟩ := Option.bind_eq_some_iff.1 e
    obtain ⟨others, hothers, e⟩ := Option.bind_eq_some_iff.1 e
    rw [List.mapM_cons, hf _ _ hfirst, ih hothers]
    exact e

lemma isAssignableTo_appendMoved (h : base.counts = m.counts) :
    (base.appendMoved m nodes).isAssignableTo depth (move m id) = nodes.isAssignableTo depth id := by
  induction depth generalizing id with
  | zero => rfl
  | succ depth ih =>
    unfold isAssignableTo
    rw [exprForm_appendMoved h]
    cases nodes.exprForm id
    case tuple items =>
      change Option.map _ ((move m items).mapM _) = Option.map _ (items.mapM _)
      rw [mapM_move fun _ => ih]
    case parenthesized inner => exact ih
    all_goals rfl

lemma isAssignableTo_deeper (hle : depth ≤ depth') {found : Bool}
    (e : nodes.isAssignableTo depth id = some found) :
    nodes.isAssignableTo depth' id = some found := by
  induction depth generalizing depth' id found with
  | zero => exact nomatch e
  | succ depth ih =>
    obtain ⟨depth', rfl⟩ := Nat.exists_eq_add_of_le' (Nat.lt_of_lt_of_le (Nat.succ_pos _) hle)
    have hle := Nat.le_of_succ_le_succ hle
    unfold isAssignableTo at e ⊢
    generalize nodes.exprForm id = form at e
    cases form
    case tuple items =>
      obtain ⟨all, hall, rfl⟩ := Option.map_eq_some_iff.1 e
      exact Option.map_eq_some_iff.2 ⟨all, mapM_deeper (fun _ _ => ih hle) hall, rfl⟩
    case parenthesized inner => exact ih hle e
    all_goals exact e

end Nodes

variable {T : Twins} {call call' : Call}

namespace Rule

lemma follows_find {α α' : Type} {F : Nodes → Option α} {F' : Nodes → Option α'} {f : α → α'}
    (h : ∀ nodes a, F nodes = some a → F' (T.base.appendMoved T.shift nodes) = some (f a))
    (hnone : T.mirrored → ∀ nodes, F nodes = none →
      F' (T.base.appendMoved T.shift nodes) = none) :
    Follows T (find F) f (find F') := by
  refine ⟨fun e => ?_, fun {s s' a t} hs e _ => ?_, fun hm s s' hs e => ?_⟩
  · obtain ⟨a, -, e⟩ := Option.map_eq_some_iff.1 e
    cases e
    exact id
  · obtain ⟨a, ha, e⟩ := Option.map_eq_some_iff.1 e
    cases e
    exact ⟨s', by rw [find, hs.nodes, h _ _ ha]; rfl, hs⟩
  · rw [find, Option.map_eq_none_iff] at e
    rw [find, hs.nodes, hnone hm _ e]
    rfl

lemma follows_exprSpan (id : ExprId) :
    Follows T (exprSpan id) (move T.shift) (exprSpan (move T.shift id)) := by
  refine follows_find (fun nodes span e => ?_) fun _ nodes e => ?_
  · obtain ⟨node, hnode, rfl⟩ := Option.map_eq_some_iff.1 e
    rw [Nodes.exprNode_appendMoved T.base_counts, hnode]
    rfl
  · rw [Option.map_eq_none_iff] at e
    rw [Nodes.exprNode_appendMoved T.base_counts, e]
    rfl

/-- More depth is enough for a place that was moved behind others. -/
lemma index_le_move (m : Move) (id : ExprId) : id.index + 1 ≤ (move m id).index + 1 :=
  Nat.succ_le_succ (Nat.le_add_left _ _)

/-- Where nodes are numbered alike, places are the same. -/
lemma index_move (hm : T.mirrored) (id : ExprId) : (move T.shift id).index = id.index := by
  change T.shift.counts.exprs + id.index = id.index
  rw [T.counts hm, Nat.zero_add]

lemma follows_exprPath? (id : ExprId) :
    Follows T (exprPath? id) (move T.shift) (exprPath? (move T.shift id)) := by
  refine follows_find (fun nodes path e => ?_) fun hm nodes e => ?_
  · refine Nodes.exprPathTo_deeper (index_le_move _ id) ?_
    rw [Nodes.exprPathTo_appendMoved T.base_counts, e]
    rfl
  · rw [index_move hm, Nodes.exprPathTo_appendMoved T.base_counts, e]
    rfl

lemma follows_isAssignable (target : ExprId) :
    Follows T (isAssignable target) id (isAssignable (move T.shift target)) := by
  refine follows_find (fun nodes found e => ?_) fun hm nodes e => ?_
  · refine Nodes.isAssignableTo_deeper (index_le_move _ target) ?_
    rwa [Nodes.isAssignableTo_appendMoved T.base_counts]
  · rwa [index_move hm, Nodes.isAssignableTo_appendMoved T.base_counts]

lemma follows_notAType (span : Span) :
    Follows T (notAType span) (move T.shift) (notAType (move T.shift span)) :=
  .bind_id (follows_reportAt _ _ _) fun _ => follows_errorType span

/-- Several rules in a row follow several others if each one does. -/
lemma follows_mapM {α β : Type} [Moves α] [Moves β] {r r' : α → Rule β}
    (h : ∀ a, Follows T (r a) (move T.shift) (r' (move T.shift a))) (l : List α) :
    Follows T (l.mapM r) (move T.shift) ((move T.shift l).mapM r') := by
  induction l with
  | nil => exact .pure rfl
  | cons a l ih =>
    rw [List.mapM_cons, move_cons, List.mapM_cons]
    exact .bind (h a) fun b => .bind ih fun bs => .pure rfl

lemma follows_exprToTypeTo {depth depth' : Nat} (hle : depth ≤ depth')
    (heq : T.mirrored → depth = depth') (id : ExprId) :
    Follows T (exprToTypeTo depth id) (move T.shift) (exprToTypeTo depth' (move T.shift id)) := by
  induction depth generalizing depth' id with
  | zero => exact .endless fun hm => by rw [← heq hm]; rfl
  | succ depth ih =>
    obtain ⟨depth', rfl⟩ := Nat.exists_eq_add_of_le' (Nat.lt_of_lt_of_le (Nat.succ_pos _) hle)
    have ih := @ih depth' (Nat.le_of_succ_le_succ hle) fun hm => Nat.succ.inj (heq hm)
    refine .bind (follows_exprSpan id) fun span => .get fun s s' h => ?_
    dsimp only
    rw [h.nodes, Nodes.exprForm_appendMoved T.base_counts]
    cases s.nodes.exprForm id
    case typeValue type => exact .pure rfl
    case identifier name typeArgs =>
      exact follows_allocType span (TypeForm.move_ofPath _ [⟨name, typeArgs⟩]).symm
    case field =>
      refine .bind (follows_exprPath? id) fun path => ?_
      cases path with
      | none => exact follows_notAType span
      | some segments => exact follows_allocType span rfl
    case parenthesized inner => exact .bind (ih inner) fun inner => follows_allocType span rfl
    case tuple items =>
      refine .bind (follows_mapM ih items) fun types => follows_allocType span ?_
      simp [Moves.move]
    case unit => exact follows_allocType span rfl
    all_goals exact follows_notAType span

lemma follows_exprToType (id : ExprId) :
    Follows T (exprToType id) (move T.shift) (exprToType (move T.shift id)) :=
  follows_exprToTypeTo (index_le_move _ id) (fun hm => by rw [index_move hm]) id

lemma follows_elementsToTypes (elements : List (Option Name × ExprId)) :
    Follows T (elementsToTypes elements) (move T.shift)
      (elementsToTypes (move T.shift elements)) :=
  follows_mapM (fun (_, value) => .bind (follows_exprToType value) fun _ => .pure rfl) elements

end Rule

end CangjieSyntax

/-! ## Primary expressions -/

namespace CangjieSyntax

/-- A run of text is added to moved pieces as it is to the pieces. -/
lemma StringPart.addText_move (m : Move) (parts : List StringPart) (run : String) :
    addText (move m parts) run = move m (addText parts run) := by
  have last : (move m parts).getLast? = move m parts.getLast? := List.getLast?_map
  have front : (move m parts).dropLast = move m parts.dropLast := List.map_dropLast.symm
  unfold addText
  rw [last, front]
  match parts.getLast? with
  | none => simp; rfl
  | some (.text before) => simp; rfl
  | some (.interpolation _) => simp; rfl

/-- A literal that is a single token has no places in it. -/
lemma Literal.move_ofToken (m : Move) (src : Source) (t : Token) :
    move m (Literal.ofToken src t) = .ofToken src t := by
  unfold Literal.ofToken
  split <;> rfl

variable {T : Twins} {call call' : Call}

namespace Rule

lemma move_parenForm (m : Move) (elements : List (Option Name × ExprId)) (trailingComma : Bool) :
    move m (parenForm elements trailingComma) = parenForm (move m elements) trailingComma := by
  match elements, trailingComma with
  | [], _ => rfl
  | [_], false => rfl
  | [_], true => rfl
  | _ :: _ :: _, _ => simp [parenForm, Moves.move]

lemma follows_tokenExpr {form form' : ExprForm} (hform : form' = move T.shift form) :
    Follows T (tokenExpr form) (move T.shift) (tokenExpr form') :=
  .tokenSpan fun span => .bind_id follows_advance fun _ => follows_allocExpr span hform

lemma follows_literal : Follows T literal (move T.shift) literal := by
  refine .view (move T.shift) (fun _ _ hs => ?_) fun value => follows_tokenExpr rfl
  rw [hs.sees.literal, Literal.move_ofToken]

section

variable (h : Calls T call call')

include h

lemma follows_hole : Follows T (hole call) (move T.shift) (hole call') := by
  refine .start fun start => .bind_id follows_advance fun _ => .bind (follows_items h.blockItem _) fun items => ?_
  refine .bind_id (follows_optional _) fun closes => ?_
  have ended : Follows T (do return ⟨items, ← spanFrom start⟩) (move T.shift)
      (do return ⟨move T.shift items, ← spanFrom (T.shift.pos start)⟩ : Rule Block) :=
    .spanFrom start fun span => .pure rfl
  refine .ite (fun _ => ended) fun _ => .isAt _ fun _ => .ite (fun _ => ended) fun _ => ?_
  exact .bind_id (follows_report _ _) fun _ => ended

lemma follows_string : Follows T (string call) (move T.shift) (string call') := by
  refine .start fun start => .isAt _ fun multiLine => .bind_id follows_advance fun _ => ?_
  refine .bind (.loop_moves (fun parts => .kind fun k => ?_) []) fun parts => ?_
  · dsimp only
    split
    · refine .tokenValue fun value => .bind_id follows_advance fun _ => .pure ?_
      rw [StringPart.addText_move]
      rfl
    · exact .bind (follows_hole h) fun block => .pure (by simp; rfl)
    · exact .bind_id follows_advance fun _ => .pure rfl
    · exact .pure rfl
  · exact follows_exprFrom start rfl

/-! ## Lists in parentheses and brackets -/

lemma follows_functionType (start : Nat) (elements : List (Option Name × ExprId)) :
    Follows T (functionType call start elements) (move T.shift)
      (functionType call' (T.shift.pos start) (move T.shift elements)) := by
  refine .bind_id follows_advance fun _ => .bind (follows_elementsToTypes elements) fun params => ?_
  refine .bind h.type fun result => .spanFrom start fun span => ?_
  exact .bind (follows_allocType span rfl) fun type => follows_allocExpr span rfl

lemma follows_parenElement : Follows T (parenElement call) (move T.shift) (parenElement call') := by
  refine .start fun start => .bind follows_label? fun label => ?_
  cases label with
  | some label =>
    exact .bind h.type fun type => .bind (follows_exprFrom start rfl) fun _ => .pure rfl
  | none => exact .bind h.expression fun value => .pure rfl

lemma follows_parenElements :
    Follows T (parenElements call) (move T.shift) (parenElements call') := by
  refine .loop_moves (fun (elements, trailingComma) => ?_) ([], false)
  refine .isAt _ fun ended => .ite (fun _ => .pure rfl) fun _ => ?_
  refine .bind (follows_parenElement h) fun element => .bind_id (follows_optional _) fun comma => ?_
  exact .isAt _ fun closes => .ite (fun _ => .pure (by simp)) fun _ => .pure (by simp)

lemma follows_parenthesized :
    Follows T (parenthesized call) (move T.shift) (parenthesized call') := by
  refine .start fun start => .bind_id follows_advance fun _ => .bind_id (follows_optional _) fun empty => ?_
  refine .ite (fun _ => .isAt _ fun arrow => .ite (fun _ => ?_) fun _ => ?_) fun _ => ?_
  · exact follows_functionType h start []
  · exact follows_exprFrom start rfl
  · refine .bind (follows_parenElements h) fun (elements, trailingComma) => ?_
    refine .bind_id (follows_require _) fun _ => .isAt _ fun arrow => .ite (fun _ => ?_) fun _ => ?_
    · exact follows_functionType h start elements
    · dsimp only
      rw [any_move T.shift fun e => isSome_move T.shift e.1]
      refine .ite (fun _ => .spanFrom start fun span => ?_) fun _ => ?_
      · refine .bind_id (follows_reportAt _ _ _) fun _ => ?_
        refine .bind (follows_elementsToTypes elements) fun elements => ?_
        exact .bind (follows_allocType span rfl) fun type => follows_allocExpr span rfl
      · exact follows_exprFrom start (move_parenForm _ _ _).symm

lemma follows_arrayElement : Follows T (arrayElement call) (move T.shift) (arrayElement call') := by
  refine .start fun start => .bind_id (follows_optional _) fun star => .ite (fun _ => ?_) fun _ => ?_
  · exact .bind h.expression fun inner => follows_exprFrom start rfl
  · exact h.expression

lemma follows_array : Follows T (array call) (move T.shift) (array call') :=
  .start fun start => .bind_id follows_advance fun _ =>
    .bind (follows_list (follows_arrayElement h) _) fun _ =>
      .bind_id (follows_require _) fun _ => follows_exprFrom start rfl

end

/-! ## Lambdas -/

/-- The parameters of a lambda are followed inside attempts as well. -/
lemma follows_lambdaParams? (h : Follows T (call .type) (move T.shift) (call' .type)) :
    Follows T (lambdaParams? call) (move T.shift) (lambdaParams? call') := by
  refine .bind (.loop_moves (fun params => .kind fun k => ?_) []) fun params => ?_
  · refine .ite (fun _ => .pure rfl) fun _ => .ite (fun _ => .pure rfl) fun _ => ?_
    refine .start fun start => ?_
    extract_lets rest rest'
    have hrest (name : Option Name) :
        Follows T (rest name) (move T.shift) (rest' (move T.shift name)) := by
      refine .bind (follows_typeBehind h _) fun type => .spanFrom start fun span => ?_
      refine .bind_id (follows_optional _) fun comma => ?_
      exact .ite (fun _ => .pure (by simp; rfl)) fun _ => .pure (by simp; rfl)
    clear_value rest rest'
    refine .ite (fun _ => .bind_id follows_advance fun _ => hrest none) fun _ => ?_
    exact .bind follows_identifier fun name => hrest (some name)
  · cases params with
    | none => exact .pure rfl
    | some params =>
      refine .bind_id (follows_optional _) fun arrow => .pure ?_
      cases arrow with
      | true => rfl
      | false => rfl

end Rule

end CangjieSyntax

/-! ## Quoted code and macro calls -/

namespace CangjieSyntax.Rule

variable {T : Twins} {call call' : Call}

instance : Moves Quotation where
  move m q := ⟨move m q.parts, q.run.map m.pos, q.depth⟩
  move_refl q := by
    obtain ⟨parts, run, depth⟩ := q
    rw [move_refl]
    cases run <;> rfl

lemma Quotation.endRun_move (m : Move) (q : Quotation) (prevStop : Nat) :
    (move m q).endRun (m.pos prevStop) = move m (q.endRun prevStop) := by
  obtain ⟨parts, run, depth⟩ := q
  cases run with
  | none => rfl
  | some start =>
    change Quotation.mk (move m parts ++ [.tokens (.ofBounds (m.pos start) (m.pos prevStop))]) none _
      = ⟨move m (parts ++ [.tokens (.ofBounds start prevStop)]), none, _⟩
    rw [move_append, ← move_ofBounds]
    rfl

lemma Quotation.splice_move (m : Move) (q : Quotation) (splice : ExprId) :
    { move m q with parts := (move m q).parts ++ [QuotePart.splice (move m splice)] }
      = move m { q with parts := q.parts ++ [QuotePart.splice splice] } :=
  congrArg (fun parts => Quotation.mk parts _ _) (move_append m q.parts [.splice splice]).symm

lemma follows_nameSplice : Follows T nameSplice (move T.shift) nameSplice := by
  refine .tokenSpan fun span => .tokenValue fun value => .bind (follows_name value rfl) fun name => ?_
  exact .bind_id follows_advance fun _ => follows_allocExpr span rfl

lemma follows_exprSplice (h : Calls T call call') :
    Follows T (exprSplice call) (move T.shift) (exprSplice call') :=
  .bind_id follows_advance fun _ => .bind_id follows_advance fun _ => .bind h.expression fun _ =>
    .bind_id (follows_require _) fun _ => .pure rfl

lemma follows_keptToken (q : Quotation) (k : Kind) :
    Follows T (keptToken q k) (move T.shift) (keptToken (move T.shift q) k) := by
  refine .start fun start => ?_
  have run : (move T.shift q).run.getD (T.shift.pos start) = T.shift.pos (q.run.getD start) := by
    obtain ⟨parts, run, depth⟩ := q
    cases run <;> rfl
  rw [run]
  have kept (depth : Nat) : Follows T (do
        advance
        return { q with run := some (q.run.getD start), depth }) (move T.shift)
      (do
        advance
        return { move T.shift q with run := some (T.shift.pos (q.run.getD start)), depth }) :=
    .bind_id follows_advance fun _ => .pure rfl
  exact .ite (fun _ => .bind_id follows_advance fun _ => kept _) fun _ => kept _

lemma follows_quoteParts (h : Calls T call call') :
    Follows T (quoteParts call) (move T.shift) (quoteParts call') := by
  refine .loop_moves (fun q => ?_) ({} : Quotation)
  refine .get fun _ _ hs => .kind fun k => ?_
  dsimp only
  rw [hs.prevStop, Quotation.endRun_move]
  refine .ite (fun _ => .pure rfl) fun _ => .ite (fun _ => ?_) fun _ => ?_
  · refine .bind follows_nameSplice fun splice => .pure ?_
    rw [Quotation.splice_move, move_inl]
  · refine .view_id (fun _ _ hs => by rw [hs.peek]) fun opens => .ite (fun _ => ?_) fun _ => ?_
    · refine .bind (follows_exprSplice h) fun splice => .pure ?_
      rw [Quotation.splice_move, move_inl]
    · exact .bind (follows_keptToken q k) fun q => .pure rfl

lemma follows_quote (h : Calls T call call') :
    Follows T (quote call) (move T.shift) (quote call') := by
  refine .start fun start => .bind_id follows_advance fun _ => .bind_id (follows_expect _) fun opens => ?_
  refine .ite (fun _ => ?_) fun _ => follows_exprFrom start rfl
  refine .bind (follows_quoteParts h) fun parts => .bind_id (follows_require _) fun _ => ?_
  exact follows_exprFrom start rfl

lemma follows_balanced (opening closing : Punctuation) :
    Follows T (balanced opening closing) (move T.shift) (balanced opening closing) := by
  refine .get fun _ _ hs => .bind_id follows_advance fun _ => ?_
  rw [hs.pos]
  refine .loop (g := id) (f := move T.shift) (fun depth => .get fun _ _ hs => ?_) 0
  dsimp only
  rw [hs.kind, hs.prevStop, hs.start, ← T.shift.pos_max, ← move_ofBounds, ← move_ofBounds]
  refine .ite (fun _ => ?_) fun _ => .ite (fun _ => ?_) fun _ => ?_
  · exact .bind_id (follows_report _ _) fun _ => .pure rfl
  · exact .bind_id follows_advance fun _ => .pure rfl
  · exact .bind_id follows_advance fun _ => .pure rfl

lemma follows_macroCall : Follows T macroCall (move T.shift) macroCall := by
  refine .start fun start => .bind_id follows_advance fun _ => .bind follows_dottedName fun name => ?_
  refine .view_id (fun _ _ hs => by rw [hs.kind, hs.same.lineBreak]) fun hasAttributes => ?_
  extract_lets rest rest'
  have hrest (attributes : Option Span) :
      Follows T (rest attributes) (move T.shift) (rest' (move T.shift attributes)) := by
    refine .isAt _ fun opens => .ite (fun _ => ?_) fun _ => ?_
    · exact .bind (follows_balanced _ _) fun input => follows_exprFrom start rfl
    · refine .bind_id (follows_report _ _) fun _ => .start fun p => follows_exprFrom start ?_
      rw [← move_empty]
      rfl
  clear_value rest rest'
  refine .ite (fun _ => ?_) fun _ => hrest none
  exact .bind (follows_balanced _ _) fun attributes => hrest (some attributes)

end CangjieSyntax.Rule
