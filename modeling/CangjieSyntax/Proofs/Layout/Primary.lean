import CangjieSyntax.Grammar.Primary
import CangjieSyntax.Grammar.Quoting
import CangjieSyntax.Grammar.Reading
import CangjieSyntax.Proofs.Layout.Rule
import CangjieSyntax.Proofs.Layout.Types

/-!
# How the rules of primary expressions lay out what they read

Literals, strings with holes, lists in parentheses or brackets, and lambdas. The parameters of a
lambda keep to any region, since they are read tentatively.
-/

/-!
## Expressions read as types

A type that an expression turns out to be has the span of the expression or lies inside it, so that
it may stand in its place.
-/

namespace CangjieSyntax

variable {env : Env} {J : Ground env} {α β : Type} {s t u : ParseState} {lo : Nat}

namespace Nodes

variable {nodes : Nodes} {src : Source} {id : ExprId} {node : ExprNode}

lemma get?_expr_eq_some : nodes.get? (.expr id) = some (.expr node) ↔
    nodes.exprs.get? id = some node := by
  simp [Nodes.get?]

lemma exprForm_of_get? (h : nodes.exprs.get? id = some node) : nodes.exprForm id = node.form := by
  rw [exprForm, h]
  rfl

/-- The parts of an expression that is there are laid inside its span. -/
lemma Nested.laid_expr (h : nodes.Nested) (hnode : nodes.exprs.get? id = some node) :
    Laid nodes node.span.start node.span.stop (marks node.form) := by
  obtain ⟨reading, hreading, hlaid⟩ := h _ _ (get?_expr_eq_some.2 hnode)
  rw [List.mem_singleton.1 hreading] at hlaid
  exact hlaid

/-- All spans in an expression that is there are valid. -/
lemma Valid.expr (h : nodes.Valid src) (hnode : nodes.exprs.get? id = some node) :
    node.span.Valid src ∧ ∀ m ∈ marks node.form, m.Valid src :=
  ⟨(h _ _ (get?_expr_eq_some.2 hnode)).span, (h _ _ (get?_expr_eq_some.2 hnode)).marks⟩

/-- An expression that spells a path is there. -/
lemma exists_of_exprPath {depth : Nat} {segments : List PathSegment}
    (e : nodes.exprPathTo depth id = some (some segments)) :
    ∃ node, nodes.exprs.get? id = some node := by
  cases depth with
  | zero => exact nomatch e
  | succ depth =>
    cases hnode : nodes.exprs.get? id with
    | some node => exact ⟨node, rfl⟩
    | none => simp [exprPathTo, exprForm, hnode] at e

/-- The path that an expression spells has the spans of the nodes it is spelt with. -/
lemma Valid.exprPath (h : nodes.Valid src) {depth : Nat} {segments : List PathSegment}
    (e : nodes.exprPathTo depth id = some (some segments)) : ∀ m ∈ marks segments, m.Valid src := by
  induction depth generalizing id segments with
  | zero => exact nomatch e
  | succ depth ih =>
    obtain ⟨node, hnode⟩ := exists_of_exprPath e
    have hvalid := (h.expr hnode).2
    rw [exprPathTo, exprForm_of_get? hnode] at e
    split at e
    case h_1 name typeArgs hform =>
      cases e
      rw [hform] at hvalid
      simpa [marks] using hvalid
    case h_2 target name typeArgs hform =>
      obtain ⟨front?, hfront, e⟩ := Option.map_eq_some_iff.1 e
      obtain ⟨front, rfl, rfl⟩ := Option.map_eq_some_iff.1 e
      rw [hform] at hvalid
      intro m hm
      rcases List.mem_append.1 (marks_append front _ ▸ hm) with hm | hm
      · exact ih hfront m hm
      · refine hvalid m ?_
        simp only [marks_cons, marks_segment, marks_nil, List.append_nil, List.mem_append] at hm
        change m ∈ marks target ++ marks name ++ marks typeArgs
        simp only [List.mem_append]
        tauto
    case h_3 => exact nomatch e

/-- The segments of the path that an expression spells are laid inside its span. -/
lemma Nested.exprPath (h : nodes.Nested) {depth : Nat} {segments : List PathSegment}
    (hnode : nodes.exprs.get? id = some node)
    (e : nodes.exprPathTo depth id = some (some segments)) :
    Laid nodes node.span.start node.span.stop (marks segments) := by
  induction depth generalizing id node segments with
  | zero => exact nomatch e
  | succ depth ih =>
    have hlaid := h.laid_expr hnode
    rw [exprPathTo, exprForm_of_get? hnode] at e
    split at e
    case h_1 name typeArgs hform =>
      cases e
      rw [hform] at hlaid
      simpa [marks] using hlaid
    case h_2 target name typeArgs hform =>
      obtain ⟨front?, hfront, e⟩ := Option.map_eq_some_iff.1 e
      obtain ⟨front, rfl, rfl⟩ := Option.map_eq_some_iff.1 e
      obtain ⟨first, hfirst⟩ := exists_of_exprPath hfront
      rw [hform] at hlaid
      have htarget : Laid nodes node.span.start node.span.stop
          (.node (.expr target) :: (marks name ++ marks typeArgs)) := by
        simpa [marks] using hlaid
      have hsplice := htarget.splice (get?_expr_eq_some.2 hfirst) (ih hfirst hfront)
      simpa using hsplice
    case h_3 => exact nomatch e

end Nodes

/-- Values whose marks may stand in the place of those of others. -/
lemma Mark.Within.marks {nodes : Nodes} [HasMarks α] [HasMarks β] {R : β → α → Prop} {bs : List β}
    {l : List α} (h : List.Forall₂ R bs l)
    (hR : ∀ b a, R b a → List.Forall₂ (Mark.Within nodes) (marks b) (marks a)) :
    List.Forall₂ (Mark.Within nodes) (marks bs) (marks l) := by
  induction h with
  | nil => exact .nil
  | cons hab _ ih => exact List.rel_append (hR _ _ hab) ih

/-- Values that hold valid spans wherever others do. -/
lemma Mark.valid_of_forall₂ {src : Source} [HasMarks α] [HasMarks β] {R : β → α → Prop} {bs : List β}
    {l : List α} (h : List.Forall₂ R bs l)
    (hR : ∀ b a, R b a → (∀ m ∈ marks a, m.Valid src) → ∀ m ∈ marks b, m.Valid src)
    (hl : ∀ m ∈ marks l, m.Valid src) : ∀ m ∈ marks bs, m.Valid src := by
  induction h with
  | nil => exact hl
  | cons hab _ ih =>
    intro m hm
    rcases List.mem_append.1 hm with hm | hm
    · exact hR _ _ hab (fun m hm => hl m (List.mem_append_left _ hm)) m hm
    · exact ih (fun m hm => hl m (List.mem_append_right _ hm)) m hm

/-- From one state to another one all spans stay valid and all nodes nested, and something holds of
the second state then. -/
structure Rereads (J : Ground env) (s t : ParseState) (P : ParseState → Prop) : Prop where
  mem : J.mem t
  onward : s.Onward t
  prevStop : t.prevStop = s.prevStop
  arranged : ∀ lo, Arranged env lo s [] → Arranged env lo t []
  result : ∀ lo, Arranged env lo s [] → P t

namespace Rereads

variable {P Q : ParseState → Prop}

lemma refl (hs : J.mem s) : Rereads J s s fun _ => True :=
  ⟨hs, .refl s, rfl, fun _ h => h, fun _ _ => trivial⟩

lemma trans (h : Rereads J s t P) (h' : Rereads J t u Q) : Rereads J s u Q :=
  ⟨h'.mem, h.onward.trans h'.onward, h'.prevStop.trans h.prevStop, fun lo hs => h'.arranged lo (h.arranged lo hs),
    fun lo hs => h'.result lo (h.arranged lo hs)⟩

lemma imp (h : Rereads J s t P) (hPQ : ∀ lo, Arranged env lo s [] → P t → Q t) : Rereads J s t Q :=
  { h with result := fun lo hs => hPQ lo hs (h.result lo hs) }

end Rereads

/-- A type is laid inside an expression, unless something has been reported. -/
def ParseState.Rereading (t : ParseState) (type : TypeId) (id : ExprId) : Prop :=
  ¬t.Excused → t.nodes.Within (.type type) (.expr id)

lemma ParseState.Rereading.onward {type : TypeId} {id : ExprId} (h : s.Rereading type id)
    (honward : s.Onward t) : t.Rereading type id :=
  fun hnot => honward.nodes.within (h (hnot ∘ honward.excused))

/-- An element of a list keeps its label, and its type is laid inside its expression. -/
def ParseState.Relabels (t : ParseState) (element : TypeElement) (e : Option Name × ExprId) : Prop :=
  element.label = e.1 ∧ t.Rereading element.type e.2

/-- From one state on, a rule reads an expression as a type. -/
def RereadsAs (J : Ground env) (s : ParseState) (id : ExprId) (r : Rule TypeId) : Prop :=
  ∀ type t, r env s = some (type, t) → Rereads J s t fun t => t.Rereading type id

namespace Rule

/-- A type with the span of an expression and parts that are laid inside that span. -/
lemma rereads_allocType {P : ParseState → Prop} {form : TypeForm} {id : ExprId} {node : ExprNode}
    {type : TypeId} (h : Rereads J s u P) (hnode : s.nodes.exprs.get? id = some node)
    (hvalid : s.nodes.Valid env.src → ∀ m ∈ marks form, m.Valid env.src)
    (hlaid : P u → ¬u.Excused → u.nodes.Nested →
      Laid u.nodes node.span.start node.span.stop (marks form))
    (e : allocType form node.span env u = some (type, t)) :
    Rereads J s t fun t => t.Rereading type id := by
  have hexpr := h.onward.nodes _ _ (Nodes.get?_expr_eq_some.2 hnode)
  cases e
  have hstep : Step env u _ := .alloc u (.type ⟨form, node.span⟩)
  obtain ⟨-, honward⟩ := hstep.footed (J.footed h.mem)
  refine ⟨J.step h.mem hstep, h.onward.trans honward, h.prevStop, fun lo hs => ?_,
    fun lo hs hnot => ?_⟩
  · have hu := h.arranged lo hs
    have hnode : (Node.type ⟨form, node.span⟩).Valid env.src :=
      ⟨(hs.nodes.expr hnode).1, hvalid hs.nodes⟩
    refine { hu with nodes := hu.nodes.add hnode, laid := fun hnot => ⟨?_, .nil⟩ }
    have hnested := (hu.laid hnot).1
    have hparts : (Node.type ⟨form, node.span⟩).Nested u.nodes :=
      ⟨_, List.mem_cons_self, hlaid (h.result lo hs) hnot hnested⟩
    exact hnested.add hparts
  · have htype : (u.nodes.add (.type ⟨form, node.span⟩)).get? (.type u.nodes.types.next) = _ :=
      Nodes.get?_add_nextRef
    exact ⟨_, _, htype, honward.nodes _ _ hexpr, Nat.le_refl _, Nat.le_refl _⟩

lemma rereads_notAType {id : ExprId} {node : ExprNode} {type : TypeId} (hs : J.mem s)
    (hnode : s.nodes.exprs.get? id = some node)
    (e : notAType node.span env s = some (type, t)) :
    Rereads J s t fun t => t.Rereading type id := by
  have hlays (hspan : node.span.Valid env.src) (lo : Nat) :
      Lays J lo [] (notAType node.span) fun _ => [.fault] := by
    refine .faulty (faults_reportAt hspan _ _) fun _ => ?_
    exact (lays_allocType_fault hspan (by simp) (List.nil_sublist _)).forget fun _ => by simp
  have harranged (lo : Nat) (h : Arranged env lo s []) : Arranged env lo t [.fault] :=
    (hlays (h.nodes.expr hnode).1 lo s hs type t e).2.2 h
  obtain ⟨⟨⟩, u, hreport, halloc⟩ := bind_eq_some.1 e
  cases hreport
  cases halloc
  have hsteps : Step env s _ := .report s node.span .elementIsNotAType []
  have hu := J.step hs hsteps
  have hstep : Step env (s.report node.span .elementIsNotAType []) _ :=
    .alloc _ (.type ⟨.error, node.span⟩)
  obtain ⟨-, honward⟩ := hsteps.footed (J.footed hs)
  obtain ⟨-, honward'⟩ := hstep.footed (J.footed hu)
  refine ⟨J.step hu hstep, honward.trans honward', (s.report_place node.span _ _).2,
    fun lo h => ?_, fun lo h hnot => ?_⟩
  · exact (harranged lo h).sublist (List.nil_sublist _)
  · exact absurd ((harranged lo h).excused List.mem_cons_self) hnot

/-- Several rules in a row, each of which does something that stays. -/
lemma rereads_mapM {f : α → Rule β} {R : ParseState → β → α → Prop}
    (hR : ∀ {s t}, s.Onward t → ∀ b a, R s b a → R t b a)
    (h : ∀ {a s b t}, J.mem s → f a env s = some (b, t) → Rereads J s t (R · b a)) (l : List α)
    {bs : List β} (hs : J.mem s) (e : l.mapM f env s = some (bs, t)) :
    Rereads J s t fun t => List.Forall₂ (R t) bs l := by
  induction l generalizing s bs with
  | nil =>
    obtain ⟨rfl, rfl⟩ := pure_eq_some.1 e
    exact (Rereads.refl hs).imp fun _ _ _ => .nil
  | cons a l ih =>
    rw [List.mapM_cons] at e
    obtain ⟨b, u, hb, e⟩ := bind_eq_some.1 e
    obtain ⟨bs, v, hbs, e⟩ := bind_eq_some.1 e
    obtain ⟨rfl, rfl⟩ := pure_eq_some.1 e
    have hfirst := h hs hb
    have hrest := ih hfirst.mem hbs
    exact (hfirst.trans hrest).imp fun lo harranged htail =>
      .cons (hR hrest.onward _ _ (hfirst.result lo harranged)) htail

lemma rereads_exprToTypeTo (depth : Nat) {id : ExprId} {type : TypeId} (hs : J.mem s)
    (e : exprToTypeTo depth id env s = some (type, t)) :
    Rereads J s t fun t => t.Rereading type id := by
  induction depth generalizing id s type t with
  | zero => exact nomatch e
  | succ depth ih =>
    obtain ⟨span, u, hspan, e⟩ := bind_eq_some.1 e
    obtain ⟨_, hfind, he⟩ := Option.map_eq_some_iff.1 hspan
    cases he
    obtain ⟨node, hnode, rfl⟩ := Option.map_eq_some_iff.1 hfind
    obtain ⟨_, _, hget, e⟩ := bind_eq_some.1 e
    cases hget
    have hform := Nodes.exprForm_of_get? hnode
    rw [hform] at e
    refine (?_ : RereadsAs J s id _) type t e
    clear e
    split
    case h_1 inner hinner =>
      intro type t e
      obtain ⟨rfl, rfl⟩ := pure_eq_some.1 e
      refine (Rereads.refl hs).imp fun lo harranged _ hnot => ?_
      have hlaid := (harranged.laid hnot).1.laid_expr hnode
      rw [hinner] at hlaid
      obtain ⟨other, hother, hstart, hstop⟩ := hlaid.bounds List.mem_cons_self
      exact ⟨_, _, hother, Nodes.get?_expr_eq_some.2 hnode, hstart, hstop⟩
    case h_2 name typeArgs hname =>
      intro type t e
      have hsub : (marks (TypeForm.ofPath [⟨name, typeArgs⟩])).Sublist (marks node.form) := by
        rw [hname]
        exact (TypeForm.marks_ofPath _).trans (by simp [marks])
      refine rereads_allocType (.refl hs) hnode (fun h m hm => ?_) (fun _ _ h => ?_) e
      · exact (h.expr hnode).2 m (hsub.subset hm)
      · exact (h.laid_expr hnode).sublist hsub
    case h_3 =>
      intro type t e
      obtain ⟨path, v, hfind, e⟩ := bind_eq_some.1 e
      obtain ⟨_, hpath, he⟩ := Option.map_eq_some_iff.1 hfind
      cases he
      cases path with
      | some segments =>
        exact rereads_allocType (.refl hs) hnode (fun h => h.exprPath hpath)
          (fun _ _ h => h.exprPath hnode hpath) e
      | none => exact rereads_notAType hs hnode e
    case h_4 inner hinner =>
      intro type t e
      obtain ⟨innerType, v, hv, e⟩ := bind_eq_some.1 e
      have hread := ih hs hv
      refine rereads_allocType hread hnode (fun _ m hm => ?_) (fun hwithin hnot h => ?_) e
      · rw [List.mem_singleton.1 hm]
        trivial
      · have hlaid := h.laid_expr (Nodes.get?_expr_eq_some.1
          (hread.onward.nodes _ _ (Nodes.get?_expr_eq_some.2 hnode)))
        rw [hinner] at hlaid
        exact hlaid.replace (.cons (.node (hwithin hnot)) .nil)
    case h_5 items hitems =>
      intro type t e
      obtain ⟨types, v, hv, e⟩ := bind_eq_some.1 e
      have hread := rereads_mapM (R := ParseState.Rereading)
        (fun honward _ _ h => h.onward honward) (fun hs hf => ih hs hf) items hs hv
      have hmarks : marks (TypeForm.tuple (types.map fun type => ⟨none, type⟩)) = marks types :=
        marks_map (f := fun type => (⟨none, type⟩ : TypeElement)) (fun _ => rfl) types
      refine rereads_allocType hread hnode (fun _ m hm => ?_) (fun hwithin hnot h => ?_) e
      · rw [hmarks] at hm
        obtain ⟨type, -, hm⟩ := List.mem_flatMap.1 hm
        rw [List.mem_singleton.1 hm]
        trivial
      · have hlaid := h.laid_expr (Nodes.get?_expr_eq_some.1
          (hread.onward.nodes _ _ (Nodes.get?_expr_eq_some.2 hnode)))
        rw [hitems] at hlaid
        rw [hmarks]
        exact hlaid.replace (Mark.Within.marks hwithin fun _ _ h => .cons (.node (h hnot)) .nil)
    case h_6 =>
      exact fun _ _ => rereads_allocType (.refl hs) hnode (fun _ _ hm => nomatch hm) fun _ _ _ => .nil
    case h_7 => exact fun _ _ => rereads_notAType hs hnode

lemma rereads_elementsToTypes {elements : List (Option Name × ExprId)} {types : List TypeElement}
    (hs : J.mem s) (e : elementsToTypes elements env s = some (types, t)) :
    Rereads J s t fun t => List.Forall₂ t.Relabels types elements := by
  refine rereads_mapM (R := ParseState.Relabels) (fun honward _ _ h => ⟨h.1, h.2.onward honward⟩)
    (fun {e _ _ _} hs he => ?_) elements hs e
  obtain ⟨label, value⟩ := e
  obtain ⟨type, u, htype, hpure⟩ := bind_eq_some.1 he
  obtain ⟨rfl, rfl⟩ := pure_eq_some.1 hpure
  exact (rereads_exprToTypeTo _ hs htype).imp fun _ _ h => ⟨rfl, h⟩

/-- The elements of a list in parentheses may be read as types wherever they stand. -/
lemma lays_elementsToTypes (elements : List (Option Name × ExprId)) (held : List Mark) :
    Lays J lo (held ++ marks elements) (elementsToTypes elements) fun types => held ++ marks types := by
  intro s hs types t e
  have hread := rereads_elementsToTypes hs e
  refine ⟨hread.mem, hread.onward, fun hpre => ?_⟩
  have hnothing := hpre.sublist (List.nil_sublist _)
  have hresult := hread.result lo hnothing
  have ht := hread.arranged lo hnothing
  refine { ht with valid := fun m hm => ?_, laid := fun hnot => ⟨(ht.laid hnot).1, ?_⟩ }
  · rcases List.mem_append.1 hm with hm | hm
    · exact hpre.valid m (List.mem_append_left _ hm)
    · refine Mark.valid_of_forall₂ hresult (fun element e h hvalid m hm => ?_)
        (fun m hm => hpre.valid m (List.mem_append_right _ hm)) m hm
      rcases List.mem_append.1 hm with hm | hm
      · exact hvalid m (List.mem_append_left _ (h.1 ▸ hm))
      · rw [List.mem_singleton.1 hm]
        trivial
  · have hlaid := (hpre.laid (hnot ∘ hread.onward.excused)).2
    refine ((hlaid.grow hread.onward.nodes).mono (Nat.le_refl _) hread.onward.prevStop).replace ?_
    refine List.rel_append (List.forall₂_same.2 fun m _ => .same m) ?_
    refine Mark.Within.marks hresult fun element e h => ?_
    obtain ⟨label, type⟩ := element
    obtain ⟨rfl, htype⟩ := h
    exact List.rel_append (List.forall₂_same.2 fun m _ => .same m) (.cons (.node (htype hnot)) .nil)

end Rule

end CangjieSyntax

/-! ## Primary expressions -/

namespace CangjieSyntax

/-- A literal that is a single token holds nothing. -/
lemma Literal.marks_ofToken (src : Source) (t : Token) :
    marks (ExprForm.literal (.ofToken src t)) = [] := by
  change marks (Literal.ofToken src t) = []
  unfold Literal.ofToken
  split <;> rfl

/-- A run of text adds nothing to what a string holds. -/
lemma StringPart.marks_addText (pieces : List StringPart) (run : String) :
    marks (StringPart.addText pieces run) = marks pieces := by
  unfold StringPart.addText
  split
  case h_1 before hlast =>
    obtain ⟨front, rfl⟩ := List.getLast?_eq_some_iff.1 hlast
    simp
  case h_2 => simp

namespace Rule

variable {env : Env} {J K : Ground env} {call : Call} {lo : Nat}

/-! ## Literals -/

/-- A node for a single token has the span of the token. -/
lemma places_tokenExpr {form : ExprForm} (hform : marks form = []) : Places J (tokenExpr form) := by
  refine fun lo s hs => .view <| .fresh hs <|
    .bind (takes_advance s.lexer.start s hs) fun _ t e ht => ?_
  exact laysFrom_allocExpr (spanFrom_of_advance (J.footed hs) e).symm (by simp) ht
    (hform ▸ List.nil_sublist _)

lemma places_literal : Places J literal :=
  fun lo s hs => .view (places_tokenExpr (Literal.marks_ofToken _ _) lo s hs)

lemma places_hole (hJ : J.Settled) (h : LaysOut J call) : Places J (hole call) := by
  refine fun lo => .edge fun start hstart => .skip takes_advance fun _ => ?_
  refine .first (places_allItems hJ h) fun items => ?_
  extract_lets rest
  have hrest (u : Unit) : Lays J lo (marks items) (rest u) marks :=
    .spanFrom hstart fun span hspan => .hold hspan (.pure (List.Sublist.refl _))
  clear_value rest
  refine .skip (lays_optional _) fun closed => ?_
  split
  · exact hrest ()
  · refine .view fun atEnd => ?_
    split
    · exact hrest ()
    · exact .skip (faults_report _ _) hrest

lemma lays_stringRound (hJ : J.Settled) (h : LaysOut J call) (pieces : List StringPart) (lo : Nat) :
    Lays J lo (marks pieces) (stringRound call pieces) marks := by
  refine .view fun k => ?_
  split
  · refine .view fun run => .skip takes_advance fun _ => .pure ?_
    rw [marks_inl, StringPart.marks_addText]
  · exact .next (places_hole hJ h) fun block => .pure (by simp)
  · exact .skip takes_advance fun _ => .pure (List.Sublist.refl _)
  · exact .pure (List.Sublist.refl _)

lemma places_string (hJ : J.Settled) (h : LaysOut J call) : Places J (string call) := by
  refine fun _ => .start fun lo _ => .view fun multiLine => .take takes_advance fun _ => ?_
  refine .next (fun lo => Lays.loop_marks (lays_stringRound hJ h · lo) []) fun pieces => ?_
  exact lays_exprFrom (by simp [marks]) (by simp)

/-! ## Lists in parentheses and brackets -/

/-- A function type in the place of a value makes two nodes of one span, one inside the other. -/
lemma lays_functionType (elements : List (Option Name × ExprId)) (h : LaysOut J call) :
    Lays J lo (.token :: marks elements) (functionType call lo elements) marks := by
  refine .skip takes_advance fun _ => .bind (lays_elementsToTypes elements [.token]) fun params => ?_
  refine .next (h.type J) fun result s hs => .view ?_
  refine .bind (laysFrom_allocType rfl (by simp) hs (by simp [marks])) fun type t e ht => ?_
  exact laysFrom_allocExpr (spanFrom_of_allocType e).symm (by simp) ht (List.Sublist.refl _)

lemma places_parenElement (h : LaysOut J call) : Places J (parenElement call) := by
  refine fun _ => .start fun lo _ => .first places_label? fun label => ?_
  cases label with
  | some label =>
    refine .next (h.type J) fun type => ?_
    refine .bind (.keep label.span (by simp [marks]) (lays_exprFrom (by simp [marks]) (by simp)))
      fun value => .pure (by simp [marks])
  | none => exact .first h.expression fun value => .pure (List.Sublist.refl _)

lemma lays_parenElementsRound (h : LaysOut J call) (b : List (Option Name × ExprId) × Bool)
    (lo : Nat) : Lays J lo (marks b) (parenElementsRound call b) marks := by
  obtain ⟨elements, trailingComma⟩ := b
  refine .view fun atEnd => ?_
  split
  · exact .pure (List.Sublist.refl _)
  · refine .next (places_parenElement h) fun element => ?_
    refine .skip (lays_optional _) fun comma => .view fun closes => ?_
    split
    · exact .pure (by simp)
    · exact .pure (by simp)

lemma places_parenElements (h : LaysOut J call) : Places J (parenElements call) :=
  fun lo => Lays.loop_marks (lays_parenElementsRound h · lo) ([], false)

/-- The form of a list in parentheses holds no more than its elements. -/
lemma marks_parenForm (elements : List (Option Name × ExprId)) (trailingComma : Bool) :
    (marks (parenForm elements trailingComma)).Sublist (marks elements) := by
  unfold parenForm
  split
  case h_1 label only =>
    rw [marks_cons, marks_nil, List.append_nil]
    exact List.sublist_append_right _ _
  case h_2 => exact marks_map_sublist (fun element => List.sublist_append_right _ _) elements

lemma places_parenthesized (h : LaysOut J call) : Places J (parenthesized call) := by
  refine fun _ => .start fun lo hlo => .take takes_advance fun _ => ?_
  refine .skip (lays_optional _) fun unit => ?_
  split
  · refine .view fun arrow => ?_
    split
    · exact lays_functionType [] h
    · exact lays_exprFrom (List.nil_sublist _) (by simp)
  · refine .next (places_parenElements h) fun (elements, trailingComma) => ?_
    refine .of_eq (show _ = Mark.token :: marks elements by simp) ?_
    refine .skip (takes_require _) fun _ => .view fun arrow => ?_
    split
    · exact lays_functionType elements h
    · split
      · refine .spanFrom hlo fun span hspan => .faulty (faults_reportAt hspan _ _) fun _ => ?_
        refine .of_fault ([.fault] ++ marks elements) (by simp) ?_ fun m hm => ?_
        · refine .bind (lays_elementsToTypes elements [.fault]) fun elements => ?_
          refine .bind (lays_allocType_fault hspan (by simp) (by simp [marks])) fun type => ?_
          exact (lays_allocExpr_fault hspan (by simp) (by simp [marks])).forget fun _ => by simp
        · simp at hm ⊢
          tauto
      · exact lays_exprFrom ((marks_parenForm elements trailingComma).trans (by simp)) (by simp)

lemma places_arrayElement (h : LaysOut J call) : Places J (arrayElement call) := by
  refine fun _ => .start fun lo _ => .use (lays_optional _) fun star => ?_
  cases star with
  | true => exact .next h.expression fun inner => lays_exprFrom (by simp [marks]) (by simp)
  | false => exact h.expression lo

lemma places_array (h : LaysOut J call) : Places J (array call) := by
  refine fun _ => .start fun lo _ => .take takes_advance fun _ => ?_
  refine .next (places_list _ (places_arrayElement h)) fun items => .skip (takes_require _) fun _ => ?_
  exact lays_exprFrom (by simp [marks]) (by simp)

/-! ## Lambdas -/

lemma lays_lambdaParamsRound (h : Places K (call .type)) (params : List LambdaParam) (lo : Nat) :
    Lays K lo (marks params) (lambdaParamsRound call params) marks := by
  refine .view fun k => ?_
  split
  · exact .pure (List.Sublist.refl _)
  · split
    · exact .pure (List.nil_sublist _)
    · refine .edge fun start hstart => ?_
      extract_lets rest
      have hrest (name : Option Name) :
          Lays K lo (marks params ++ marks name) (rest name) marks := by
        refine .next (places_typeBehind _ h) fun type => .spanFrom hstart fun span hspan => ?_
        refine .skip (lays_optional _) fun comma => .hold hspan ?_
        split
        · exact .pure (by simp)
        · exact .pure (by simp)
      clear_value rest
      split
      · exact .skip takes_advance fun _ => .of_eq (by simp) (hrest none)
      · exact .next places_identifier fun name => hrest (some name)

lemma places_lambdaParams? (h : Places K (call .type)) : Places K (lambdaParams? call) := by
  refine fun lo => .first (fun lo => Lays.loop_marks (lays_lambdaParamsRound h · lo) []) fun params => ?_
  cases params with
  | none => exact .pure (List.Sublist.refl _)
  | some params =>
    refine .skip (lays_optional _) fun arrow => ?_
    split
    · exact .pure (List.Sublist.refl _)
    · exact .pure (List.nil_sublist _)

lemma places_lambda (needsArrow : Bool) (hJ : J.Settled) (h : LaysOut J call) :
    Places J (lambda call needsArrow) := by
  refine fun _ => .start fun lo hlo => .take takes_advance fun _ => ?_
  extract_lets rest
  have hrest (params : List LambdaParam) : Lays J lo (.token :: marks params) (rest params) marks := by
    refine .next (places_allItems hJ h) fun items => .skip (takes_require _) fun _ => ?_
    intro s hs
    refine .view <| .arrange (fun h => h.hold ((J.footed hs).spanFrom hlo)) ?_
    exact laysFrom_allocExpr rfl (by simp) hs (by simp [marks])
  clear_value rest
  refine .next (places_attempt hJ fun K => places_lambdaParams? (h.type K)) fun result => ?_
  cases result with
  | committed params => exact hrest params
  | _ => exact .skip_when (faults_report _ _) (hrest [])

end Rule

end CangjieSyntax

/-!
## Quoted code

A run of tokens is kept by its start, and ends with the last token taken when the run is ended.
-/

namespace CangjieSyntax.Rule

variable {env : Env} {J : Ground env} {call : Call} {s t : ParseState} {lo : Nat}

/-- The start of a run of tokens lies between characters. -/
instance : HasMarks Quotation := ⟨fun q => marks q.parts ++ q.run.elim [] fun start => [.edge start]⟩

/-- Ending a run of tokens makes a span of it. -/
lemma Quotation.arranged_endRun {q : Quotation} (h : Arranged env lo s (marks q))
    (hs : s.Footed env) : Arranged env lo s (marks (q.endRun s.prevStop).parts) := by
  obtain ⟨parts, run, depth⟩ := q
  cases run with
  | none => exact h.sublist (by simp [marks, endRun])
  | some start =>
    have hstart : env.src.isBoundary start := h.valid (.edge start) (by simp [marks])
    have hparts : Arranged env lo s (marks parts) := h.sublist (by simp [marks])
    have hspan := hparts.hold (.ofBounds hstart hs.prevStop)
    exact hspan.sublist (by simp [endRun])

/-- One more splice behind the run of tokens that ends in front of it. -/
lemma Quotation.marks_splice (q : Quotation) (prevStop : Nat) (id : ExprId) :
    marks { q.endRun prevStop with parts := (q.endRun prevStop).parts ++ [QuotePart.splice id] }
      = marks (q.endRun prevStop).parts ++ marks id := by
  obtain ⟨parts, run, depth⟩ := q
  cases run <;> simp [marks, endRun]

/-- A name behind a dollar sign has the span of its token. -/
lemma places_nameSplice : Places J nameSplice := by
  refine fun lo s hs => .view <| .view <| .fresh hs ?_
  refine .bind (places_name _ (J.footed hs).lexer.span _ s hs) fun n u e hu => ?_
  have hlexer : u.lexer = s.lexer := by
    cases e
    rfl
  refine .bind (Lays.frame takes_advance _ u hu) fun _ t e ht => ?_
  refine laysFrom_allocExpr ?_ (by simp) ht (by simp [marks])
  rw [← hlexer]
  exact (spanFrom_of_advance (J.footed hu) e).symm

lemma places_exprSplice (h : LaysOut J call) : Places J (exprSplice call) := by
  refine fun lo => .skip takes_advance fun _ => .skip takes_advance fun _ => ?_
  exact .first h.expression fun value => .skip (takes_require _) fun _ =>
    .pure (List.Sublist.refl _)

lemma lays_keptToken (q : Quotation) (k : Kind) (lo : Nat) :
    Lays J lo (marks q) (keptToken q k) marks := by
  refine .edge fun pos hpos => ?_
  dsimp only
  obtain ⟨parts, run, depth⟩ := q
  refine .skip_when takes_advance (.skip takes_advance fun _ => ?_)
  cases run with
  | none => exact .holdEdge hpos (.pure (by simp [marks]))
  | some start => exact .pure (by simp [marks])

lemma lays_quotePartsRound (h : LaysOut J call) (q : Quotation) (lo : Nat) :
    Lays J lo (marks q) (quotePartsRound call q) marks := by
  intro s hs
  have hend : Arranged env lo s (marks q) → Arranged env lo s (marks (q.endRun s.prevStop).parts) :=
    fun h => Quotation.arranged_endRun h (J.footed hs)
  refine .get (.view ?_)
  split
  · refine .arrange hend (Lays.pure ?_ s hs)
    exact List.Sublist.refl _
  · split
    · refine .arrange hend (Lays.next places_nameSplice (fun id => .pure ?_) s hs)
      rw [marks_inl, Quotation.marks_splice]
    · refine .view ?_
      split
      · refine .arrange hend (Lays.next (places_exprSplice h) (fun id => .pure ?_) s hs)
        rw [marks_inl, Quotation.marks_splice]
      · refine Lays.bind (lays_keptToken q _ lo) (fun q => .pure ?_) s hs
        exact List.Sublist.refl _

lemma places_quoteParts (h : LaysOut J call) : Places J (quoteParts call) :=
  fun lo => Lays.loop_marks (lays_quotePartsRound h · lo) ({} : Quotation)

lemma places_quote (h : LaysOut J call) : Places J (quote call) := by
  refine fun _ => .start fun lo _ => .take takes_advance fun _ => ?_
  refine .skip (lays_expect _) fun opened => ?_
  split
  · refine .next (places_quoteParts h) fun pieces => .skip (takes_require _) fun _ => ?_
    exact lays_exprFrom (by simp [marks]) (by simp)
  · exact lays_exprFrom (List.nil_sublist _) (by simp)

lemma lays_balancedRound (opening closing : Punctuation) {innerStart : Nat}
    (hinner : env.src.isBoundary innerStart) (depth lo : Nat) :
    Lays J lo (marks depth) (balancedRound opening closing innerStart depth) marks := by
  intro s hs
  refine .get ?_
  dsimp only
  split
  · refine Lays.skip (faults_report _ _) (fun _ => ?_) s hs
    exact .hold ((J.footed hs).spanFrom hinner) (.pure (List.Sublist.refl _))
  · split
    · refine Lays.skip takes_advance (fun _ => ?_) s hs
      exact .hold (.ofBounds hinner (J.footed hs).lexer.start) (.pure (List.Sublist.refl _))
    · refine Lays.skip takes_advance (fun _ => .pure ?_) s hs
      exact List.Sublist.refl _

lemma places_balanced (opening closing : Punctuation) : Places J (balanced opening closing) := by
  intro lo s hs
  refine .get (Lays.skip takes_advance (fun _ => ?_) s hs)
  exact Lays.loop_marks (lays_balancedRound opening closing (J.footed hs).lexer.pos · lo) 0

lemma places_macroCall : Places J macroCall := by
  refine fun _ => .start fun lo _ => .take takes_advance fun _ => ?_
  refine .next places_dottedName fun name => .view fun hasAttributes => ?_
  extract_lets rest
  have hrest (attributes : Option Span) :
      Lays J lo ([] ++ [.token] ++ marks name ++ marks attributes) (rest attributes) marks := by
    refine .view fun opens => ?_
    split
    · exact .next (places_balanced _ _) fun input => lays_exprFrom (by simp [marks]) (by simp)
    · refine .skip (faults_report _ _) fun _ => .edge fun pos hpos => .hold (.empty hpos) ?_
      exact lays_exprFrom (by simp [marks]) (by simp)
  clear_value rest
  split
  · exact .next (places_balanced _ _) fun span => hrest (some span)
  · exact .of_eq (by simp) (hrest none)

end CangjieSyntax.Rule
