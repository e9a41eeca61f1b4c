import CangjieSyntax.Grammar.Items
import CangjieSyntax.Grammar.Types
import CangjieSyntax.Proofs.Twin.Rule

/-!
# How the rules of types and blocks follow each other

Types are read inside attempts as well, so that nothing is asked here but that the type called by
name is followed.
-/

namespace CangjieSyntax

variable {T : Twins} {call call' : Call}

lemma TypeForm.move_ofPath (m : Move) (segments : List PathSegment) :
    move m (TypeForm.ofPath segments) = .ofPath (move m segments) := by
  unfold TypeForm.ofPath
  match segments with
  | [] => rfl
  | [⟨name, []⟩] =>
    have text : (move m name).text = name.text := rfl
    have segments : move m [PathSegment.mk name []] = [⟨move m name, []⟩] := rfl
    rw [segments]
    dsimp only
    rw [text]
    cases BuiltinType.ofName? name.text with
    | some type => rfl
    | none => rfl
  | [⟨name, _ :: _⟩] => rfl
  | ⟨_, []⟩ :: _ :: _ => rfl
  | ⟨_, _ :: _⟩ :: _ :: _ => rfl

namespace Rule

lemma follows_errorType (span : Span) :
    Follows T (errorType span) (move T.shift) (errorType (move T.shift span)) :=
  follows_allocType span rfl

lemma move_tupleForm (m : Move) (elements : List TypeElement) (trailingComma : Bool) :
    move m (tupleForm elements trailingComma) = tupleForm (move m elements) trailingComma := by
  match elements, trailingComma with
  | [], _ => rfl
  | [⟨none, _⟩], false => rfl
  | [⟨none, _⟩], true => rfl
  | [⟨some _, _⟩], false => rfl
  | [⟨some _, _⟩], true => rfl
  | ⟨none, _⟩ :: _ :: _, _ => rfl
  | ⟨some _, _⟩ :: _ :: _, _ => rfl

section

variable (h : Follows T (call .type) (move T.shift) (call' .type))

include h

lemma follows_typeArguments :
    Follows T (typeArguments call) (move T.shift) (typeArguments call') :=
  .bind_id (follows_require _) fun _ => .bind (follows_list h _) fun _ =>
    .bind_id (follows_require _) fun _ => .pure rfl

lemma follows_fittingArguments? :
    Follows T (fittingArguments? call) (move T.shift) (fittingArguments? call') := by
  refine .bind (follows_typeArguments h) fun args => ?_
  refine .view_id (fun _ _ hs => by rw [hs.kind, hs.same.lineBreak, hs.same.separated]) fun fits => .pure ?_
  cases fits with
  | true => rfl
  | false => rfl

/-- Where a value could stand, it depends on an attempt whether there are type arguments. -/
lemma follows_namedType (inValue : Bool)
    (hargs : inValue = true →
      Follows T (typeArguments? call) (move T.shift) (typeArguments? call')) :
    Follows T (namedType call inValue) (move T.shift) (namedType call' inValue) := by
  refine .start fun start => .bind (.loop_moves (fun segments => ?_) []) fun segments => ?_
  · refine .bind follows_identifier fun name => .isAt _ fun opens => ?_
    extract_lets rest rest'
    have hrest (args : List TypeId) :
        Follows T (rest args) (move T.shift) (rest' (move T.shift args)) := by
      refine .view_id (fun _ _ hs => by rw [hs.kind, hs.peek]) fun more => .ite (fun _ => ?_) fun _ => ?_
      · exact .bind_id follows_advance fun _ => .pure (by simp; rfl)
      · exact .pure (by simp; rfl)
    clear_value rest rest'
    refine .ite (fun hvalue => .bind (hargs hvalue) hrest) fun _ => .ite (fun _ => ?_) fun _ => hrest []
    exact .bind (follows_typeArguments h) hrest
  · exact follows_typeFrom _ (TypeForm.move_ofPath _ _).symm

lemma follows_typeElements :
    Follows T (typeElements call) (move T.shift) (typeElements call') := by
  refine .loop_moves (fun (elements, trailingComma) => ?_) ([], false)
  refine .kind fun k => .ite (fun _ => .pure rfl) fun _ => .bind follows_label? fun label => ?_
  refine .bind h fun type => .bind_id (follows_optional _) fun comma => ?_
  exact .ite (fun _ => .pure (by simp; rfl)) fun _ => .pure (by simp; rfl)

lemma follows_parenType : Follows T (parenType call) (move T.shift) (parenType call') := by
  refine .start fun start => .bind_id follows_advance fun _ => ?_
  refine .bind (follows_typeElements h) fun (elements, trailingComma) => ?_
  refine .bind_id (follows_require _) fun _ => .bind_id (follows_optional _) fun arrow => ?_
  refine .ite (fun _ => .bind h fun result => follows_typeFrom _ rfl) fun _ => ?_
  refine .spanFrom _ fun span => ?_
  extract_lets rest rest'
  have hrest (u : Unit) : Follows T (rest u) (move T.shift) (rest' u) :=
    follows_allocType span (move_tupleForm _ _ _).symm
  clear_value rest rest'
  rw [any_move T.shift fun e => isSome_move T.shift e.label]
  exact .ite (fun _ => .bind_id (follows_reportAt _ _ _) hrest) fun _ => hrest ()

lemma follows_plainType : Follows T (plainType call) (move T.shift) (plainType call') := by
  refine .start fun start => .kind fun k => ?_
  dsimp only
  split
  · exact .bind_id follows_advance fun _ => .bind h fun inner => follows_typeFrom start rfl
  · refine .bind_id follows_advance fun _ => .bind h fun inner => ?_
    refine .spanFrom start fun span => .bind (follows_allocType span rfl) fun once => ?_
    exact follows_allocType span rfl
  · exact follows_parenType h
  · refine .ite (fun _ => follows_namedType h false nofun) fun _ => ?_
    refine .tokenSpan fun span => .bind_id (follows_reportAt _ _ _) fun _ => ?_
    exact follows_errorType span

/-- A type is followed if the types in it are. -/
lemma follows_type : Follows T (type call) (move T.shift) (type call') :=
  follows_nested follows_errorType (follows_plainType h)

lemma follows_typeOperand
    (hargs : Follows T (typeArguments? call) (move T.shift) (typeArguments? call')) :
    Follows T (typeOperand call) (move T.shift) (typeOperand call') := by
  refine follows_nested follows_errorType (.kind fun k => ?_)
  exact .ite (fun _ => follows_namedType h true fun _ => hargs) fun _ => follows_plainType h

lemma follows_typeBehind (k : Kind) :
    Follows T (typeBehind call k) (move T.shift) (typeBehind call' k) :=
  follows_behind h k

end

end Rule

end CangjieSyntax

/-!
## Blocks

`Calls` says that the rules called by name follow each other, and so do the two that make attempts.
All rules of the grammar follow each other under this assumption.
-/

namespace CangjieSyntax

/-- The rules called by name follow each other. -/
structure Calls (T : Twins) (call call' : Call) : Prop where
  statement : Follows T (call .statement) (move T.shift) (call' .statement)
  expression : Follows T (call .expression) (move T.shift) (call' .expression)
  binary : ∀ above, Follows T (call (.binary above)) (move T.shift) (call' (.binary above))
  unary : Follows T (call .unary) (move T.shift) (call' .unary)
  ifThen : Follows T (call .ifThen) (move T.shift) (call' .ifThen)
  type : Follows T (call .type) (move T.shift) (call' .type)
  pattern : ∀ place, Follows T (call (.pattern place)) (move T.shift) (call' (.pattern place))
  blockItem : Follows T (call .blockItem) (move T.shift) (call' .blockItem)
  declaration : ∀ place,
    Follows T (call (.declaration place)) (move T.shift) (call' (.declaration place))
  importPaths : ∀ leading, Follows T (call (.importPaths leading)) (move T.shift)
    (call' (.importPaths (move T.shift leading)))
  /-- Attempts need more than the rules in them. -/
  typeArguments : Follows T (Rule.typeArguments? call) (move T.shift) (Rule.typeArguments? call')
  lambda : ∀ needsArrow,
    Follows T (Rule.lambda call needsArrow) (move T.shift) (Rule.lambda call' needsArrow)

variable {T : Twins} {call call' : Call} {s s' : ParseState}

namespace Rule

/-! ## Recovery -/

lemma follows_expressionExpected :
    Follows T expressionExpected (move T.shift) expressionExpected := by
  refine .tokenSpan fun span => .bind_id (follows_reportAt _ _ _) fun _ => .kind fun k => ?_
  refine .ite (fun _ => follows_errorExpr span) fun _ => ?_
  exact .bind_id follows_advance fun _ => follows_errorExpr span

lemma follows_atStatementEnd (stop : Kind → Bool) :
    Follows T (atStatementEnd stop) id (atStatementEnd stop) := by
  refine .kind fun k => .ite (fun _ => .bind_id follows_advance fun _ => .pure rfl) fun _ => ?_
  exact .look fun _ _ hs => by rw [hs.same.lineBreak, hs.prevKind, id]

lemma follows_separatorExpected : Follows T separatorExpected id separatorExpected := by
  change Follows T (view (fun src s => (s.prevSpan.text? src).getD "") >>= fun previous =>
      report .statementSeparatorExpected [previous]) id
    (view (fun src s => (s.prevSpan.text? src).getD "") >>= fun previous =>
      report .statementSeparatorExpected [previous])
  exact .view_id (fun _ _ hs => by rw [hs.prevText]) fun _ => follows_report _ _

lemma follows_unmute : Follows T unmute id unmute :=
  .modify (fun _ => T.regressive.unmute) fun _ _ hs _ => { hs with muted := rfl }

lemma follows_skipStatement (must : Bool) :
    Follows T (skipStatement must) id (skipStatement must) := by
  refine .bind_id (.loop_id (fun (depth, must) => ?_) (0, must)) fun _ => follows_unmute
  refine .kind fun k => .ite (fun _ => .pure rfl) fun _ => .ite (fun _ => .pure rfl) fun _ => ?_
  refine .ite (fun _ => .bind_id follows_advance fun _ => .pure rfl) fun _ => ?_
  refine .lineBreakBefore fun breaks => .ite (fun _ => .pure rfl) fun _ => ?_
  exact .bind_id follows_advance fun _ => .pure rfl

lemma follows_skipDeclaration (must : Bool) :
    Follows T (skipDeclaration must) id (skipDeclaration must) := by
  refine .bind_id (.loop_id (fun (depth, must) => ?_) (0, must)) fun _ => follows_unmute
  refine .kind fun k => .ite (fun _ => .pure rfl) fun _ => ?_
  refine .ite (fun _ => .bind_id follows_advance fun _ => .pure rfl) fun _ => ?_
  refine .view_id (fun _ _ hs => by rw [hs.same.lineBreak, hs.atDeclaration]) fun found => ?_
  refine .ite (fun _ => .pure rfl) fun _ => .bind_id follows_advance fun _ => .pure rfl

/-- Both parses see whether an item with its faults made any progress. -/
lemma progress (h : T.Looks s s') (start errors : Nat) :
    (s'.start != T.shift.pos start) = (s.start != start)
      ∧ (s'.errorCount != T.errors + errors) = (s.errorCount != errors) := by
  rw [h.start, h.errorCount]
  constructor
  · rw [Bool.eq_iff_iff, bne_iff_ne, bne_iff_ne, ne_eq, ne_eq, T.shift.pos_inj]
  · rw [Bool.eq_iff_iff, bne_iff_ne, bne_iff_ne, ne_eq, ne_eq, Nat.add_left_cancel_iff]

lemma follows_endItem (start errors : Nat) (stop : Kind → Bool) :
    Follows T (endItem start errors stop) id
      (endItem (T.shift.pos start) (T.errors + errors) stop) := by
  refine .get fun _ _ h => ?_
  obtain ⟨hstart, herrors⟩ := progress h start errors
  dsimp only
  rw [hstart, herrors]
  refine .ite (fun _ => follows_skipStatement _) fun _ => ?_
  refine .bind_id (follows_atStatementEnd stop) fun ended => .ite (fun _ => ?_) fun _ => .pure rfl
  exact .bind_id follows_separatorExpected fun _ => follows_skipStatement false

/-! ## Blocks -/

/-- The items of a block are followed if each one is. -/
lemma follows_items (h : Follows T (call .blockItem) (move T.shift) (call' .blockItem))
    (stop : Kind → Bool) : Follows T (items call stop) (move T.shift) (items call' stop) := by
  refine .loop_moves (fun items => ?_) []
  refine .kind fun k => .ite (fun _ => .pure rfl) fun _ => .ite (fun _ => ?_) fun _ => ?_
  · exact .bind_id follows_advance fun _ => .pure rfl
  · refine .get fun _ _ hlooks => .bind (follows_nested (f := move T.shift) ?_ h) fun item => ?_
    · exact fun span => .bind (follows_errorExpr span) fun _ => .pure rfl
    · rw [hlooks.start, hlooks.errorCount]
      exact .bind_id (follows_endItem _ _ stop) fun _ => .pure (by simp)

variable (h : Calls T call call')

include h

lemma follows_block : Follows T (block call) (move T.shift) (block call') := by
  refine .start fun start => .bind_id (follows_expect _) fun found => .ite (fun _ => ?_) fun _ => ?_
  · refine .bind (follows_items h.blockItem _) fun items => .bind_id (follows_require _) fun _ => ?_
    exact .spanFrom start fun span => .pure rfl
  · exact .pure (congrArg (Block.mk []) (move_empty _ _).symm)

lemma follows_blockItem : Follows T (blockItem call) (move T.shift) (blockItem call') := by
  refine .view_id (fun _ _ hs => ?_) fun found => .ite (fun _ => ?_) fun _ => ?_
  · rw [hs.kind, hs.peek, hs.atModifier]
  · exact .bind (h.declaration .inBlock) fun _ => .pure rfl
  · exact .bind h.statement fun _ => .pure rfl

end Rule

end CangjieSyntax
