import CangjieSyntax.Grammar.Items
import CangjieSyntax.Grammar.Types
import CangjieSyntax.Proofs.Grammar.Rule

/-!
# What the rules of types and blocks hold

The rules of types keep to any region, so that type arguments may be read tentatively as well. Only
type arguments in the place of a value make an attempt themselves.
-/

namespace CangjieSyntax

/-- A dotted path holds its segments, whatever it names. -/
lemma TypeForm.parts_ofPath_le (segments : List PathSegment) :
    parts (TypeForm.ofPath segments) ≤ parts segments := by
  unfold TypeForm.ofPath
  split
  · split
    · exact Multiset.zero_le _
    · exact le_rfl
  · exact le_rfl

namespace Rule

variable {env : Env} {J K : Region env} {call : Call}

lemma reads_errorType (span : Span) : Reads K {.fault} (errorType span) parts :=
  reads_allocType .error span

lemma yields_typeArguments (h : Yields K (call .type)) : Yields K (typeArguments call) := by
  refine .skip (quiet_require _) fun _ => ?_
  refine .first (yields_list _ h) fun args => ?_
  exact .skip (quiet_require _) fun _ => .pure rfl

lemma yields_fittingArguments? (h : Yields K (call .type)) : Yields K (fittingArguments? call) := by
  refine .first (yields_typeArguments h) fun args => ?_
  refine .view fun fits => ?_
  split
  · exact .pure rfl
  · exact .weaken (.of_le (SpareParts.spare args) (Multiset.zero_le _)) (.pure rfl)

lemma yields_typeArguments? (hJ : J.Settled) (h : ∀ K : Region env, Yields K (call .type)) :
    Yields J (typeArguments? call) := by
  refine .read <| .view fun candidate => ?_
  split
  · exact .pure rfl
  · refine .view fun opening => ?_
    refine .first (yields_attempt hJ fun K => yields_fittingArguments? (h K)) fun result => ?_
    cases result with
    | committed args => exact .pure rfl
    | rewound =>
      refine .skip (.modify (fun s hs => hJ.turn hs (.remember s _)) ?_ ?_) fun _ => .pure rfl
      · exact fun _ => ⟨rfl, rfl, rfl⟩
      · exact fun _ _ hexcused => hexcused
    | exhausted => exact .read <| .skip (quiet_reportAt _ _ _) fun _ => .pure rfl

/-- A segment of a path, whatever stands for type arguments behind it. -/
lemma reads_segmentsRound {inValue : Bool} (h : Yields K (call .type))
    (hvalue : inValue = true → Yields K (typeArguments? call)) (segments : List PathSegment) :
    Reads K (parts segments) (segmentsRound call inValue segments) parts := by
  refine .next yields_identifier fun name => ?_
  extract_lets rest
  have hrest (args : List TypeId) :
      Reads K (parts segments + parts name + parts args) (rest args) parts := by
    refine .view fun more => ?_
    split
    · exact .skip quiet_advance fun _ => .pure (by simp [add_assoc])
    · exact .pure (by simp [add_assoc])
  clear_value rest
  refine .view fun opens => ?_
  split
  case isTrue hin => exact .next (hvalue hin) hrest
  case isFalse =>
    split
    · exact .next (yields_typeArguments h) hrest
    · exact .of_eq (by simp) (hrest [])

lemma yields_namedType {inValue : Bool} (h : Yields K (call .type))
    (hvalue : inValue = true → Yields K (typeArguments? call)) :
    Yields K (namedType call inValue) := by
  refine .view fun start => ?_
  refine .first (Reads.loop_parts (reads_segmentsRound h hvalue) []) fun segments => ?_
  refine .weaken (.of_le (SpareParts.spare segments) ?_) (reads_typeFrom _ _)
  exact TypeForm.parts_ofPath_le segments

lemma reads_typeElementsRound (h : Yields K (call .type)) (b : List TypeElement × Bool) :
    Reads K (parts b) (typeElementsRound call b) parts := by
  obtain ⟨elements, trailingComma⟩ := b
  refine .view fun k => ?_
  split
  · exact .pure rfl
  · refine .next yields_label? fun label => ?_
    refine .next h fun type => ?_
    refine .skip (quiet_optional _) fun comma => ?_
    split
    · exact .pure (by simp [add_assoc])
    · exact .pure (by simp [add_assoc])

lemma yields_typeElements (h : Yields K (call .type)) : Yields K (typeElements call) :=
  Reads.loop_parts (reads_typeElementsRound h) ([], false)

/-- The form of a list in parentheses holds no more than its elements. -/
lemma parts_tupleForm_le (elements : List TypeElement) (trailingComma : Bool) :
    parts (tupleForm elements trailingComma) ≤ parts elements := by
  unfold tupleForm
  split
  · exact Multiset.zero_le _
  · simp [parts]
  · exact le_rfl

lemma yields_parenType (h : Yields K (call .type)) : Yields K (parenType call) := by
  refine .view fun start => .skip quiet_advance fun _ => ?_
  refine .first (yields_typeElements h) fun (elements, trailingComma) => ?_
  refine .skip (quiet_require _) fun _ => ?_
  refine .skip (quiet_optional _) fun arrow => ?_
  split
  · refine .next h fun result => ?_
    exact .of_eq (by simp [parts]) (reads_typeFrom _ _)
  · refine .view fun span => .skip_when (quiet_reportAt _ _ _) ?_
    have hspare := SpareParts.spare (elements, trailingComma)
    refine .weaken (.of_le hspare ?_) (reads_allocType _ _)
    exact (parts_tupleForm_le elements trailingComma).trans (by simp [parts])

lemma yields_plainType (h : Yields K (call .type)) : Yields K (plainType call) := by
  refine .view fun start => .view fun k => ?_
  split
  · refine .skip quiet_advance fun _ => ?_
    exact .first h fun inner => reads_typeFrom _ _
  · refine .skip quiet_advance fun _ => ?_
    refine .first h fun inner => .view fun span => ?_
    exact .bind (reads_allocType (.optional inner) span) fun once => reads_allocType _ _
  · exact yields_parenType h
  · split
    · exact yields_namedType h nofun
    · refine .view fun span => ?_
      exact .bind (reads_reportAt _ _ _) fun _ => reads_errorType span

lemma yields_type (h : Yields K (call .type)) : Yields K (type call) :=
  reads_nested reads_errorType (yields_plainType h)

lemma yields_typeOperand (hJ : J.Settled) (h : ∀ K : Region env, Yields K (call .type)) :
    Yields J (typeOperand call) := by
  refine reads_nested reads_errorType (.view fun k => ?_)
  split
  · exact yields_namedType (h J) fun _ => yields_typeArguments? hJ h
  · exact yields_plainType (h J)

lemma yields_typeBehind (k : Kind) (h : Yields K (call .type)) : Yields K (typeBehind call k) :=
  yields_behind k h

end Rule

end CangjieSyntax

/-!
## Blocks

Recovery allocates placeholders only where a fault has been reported, and blocks hold their items.
-/

namespace CangjieSyntax.Rule

variable {env : Env} {J : Region env} {call : Call}

/-! ## Recovery -/

lemma yields_expressionExpected : Yields J expressionExpected := by
  refine .view fun span => .bind (reads_reportAt _ _ _) fun _ => .view fun k => ?_
  exact .skip_unless quiet_advance (reads_errorExpr span)

lemma quiet_atStatementEnd (stop : Kind → Bool) : Quiet J (atStatementEnd stop) := by
  refine .view fun k => ?_
  split
  · exact .skip quiet_advance fun _ => .pure rfl
  · exact quiet_view _

lemma quiet_separatorExpected : Quiet J separatorExpected :=
  .get fun _ => .read <| quiet_report _ _

lemma quiet_unmute (hJ : J.Settled) : Quiet J unmute :=
  .modify (fun s hs => hJ.turn hs (.unmute s)) (fun _ => ⟨rfl, rfl, rfl⟩) fun _ _ h => h

lemma quiet_skipStatementRound (b : Nat × Bool) :
    Reads J 0 (skipStatementRound b) (Sum.elim (fun _ => 0) fun _ => 0) := by
  obtain ⟨depth, must⟩ := b
  refine .view fun k => ?_
  split
  · exact .pure rfl
  · split
    · exact .pure rfl
    · split
      · exact .skip quiet_advance fun _ => .pure rfl
      · refine .view fun breaks => ?_
        split
        · exact .pure rfl
        · exact .skip quiet_advance fun _ => .pure rfl

lemma quiet_skipStatement (hJ : J.Settled) (must : Bool) : Quiet J (skipStatement must) :=
  .skip (.loop quiet_skipStatementRound (0, must)) fun _ => quiet_unmute hJ

lemma quiet_skipDeclarationRound (b : Nat × Bool) :
    Reads J 0 (skipDeclarationRound b) (Sum.elim (fun _ => 0) fun _ => 0) := by
  obtain ⟨depth, must⟩ := b
  refine .view fun k => ?_
  split
  · exact .pure rfl
  · split
    · exact .skip quiet_advance fun _ => .pure rfl
    · refine .view fun starts => ?_
      split
      · exact .pure rfl
      · exact .skip quiet_advance fun _ => .pure rfl

lemma quiet_skipDeclaration (hJ : J.Settled) (must : Bool) : Quiet J (skipDeclaration must) :=
  .skip (.loop quiet_skipDeclarationRound (0, must)) fun _ => quiet_unmute hJ

lemma quiet_endItem (hJ : J.Settled) (start errors : Nat) (stop : Kind → Bool) :
    Quiet J (endItem start errors stop) := by
  refine .get fun s => ?_
  dsimp only
  split
  · exact quiet_skipStatement hJ _
  · refine .skip (quiet_atStatementEnd stop) fun ends => ?_
    split
    · exact .skip quiet_separatorExpected fun _ => quiet_skipStatement hJ _
    · exact .pure rfl

/-! ## Blocks -/

/-- An item, or the placeholder of one that is nested too deeply. -/
lemma yields_nestedItem (h : Obeys J call) :
    Yields J (nested (fun span => return .expr (← errorExpr span)) (call .blockItem)) :=
  reads_nested (fun span => .bind (reads_errorExpr span) fun _ => .pure rfl) h.blockItem

lemma reads_itemsRound (hJ : J.Settled) (h : Obeys J call) (stop : Kind → Bool)
    (items : List BlockItem) : Reads J (parts items) (itemsRound call stop items) parts := by
  refine .view fun k => ?_
  split
  · exact .pure rfl
  · split
    · exact .skip quiet_advance fun _ => .pure rfl
    · refine .get fun s => .next (yields_nestedItem h) fun item => ?_
      exact .skip (quiet_endItem hJ _ _ _) fun _ => .pure (by simp)

lemma yields_items (hJ : J.Settled) (h : Obeys J call) (stop : Kind → Bool) :
    Yields J (items call stop) :=
  Reads.loop_parts (reads_itemsRound hJ h stop) []

lemma yields_allItems (hJ : J.Settled) (h : Obeys J call) : Yields J (allItems call) :=
  yields_items hJ h _

lemma yields_block (hJ : J.Settled) (h : Obeys J call) : Yields J (block call) := by
  refine .view fun start => .skip (quiet_expect _) fun opened => ?_
  split
  · refine .first (yields_allItems hJ h) fun items => ?_
    exact .skip (quiet_require _) fun _ => .view fun span => .pure rfl
  · exact .pure rfl

lemma yields_blockItem (h : Obeys J call) : Yields J (blockItem call) := by
  refine .view fun declares => ?_
  split
  · exact .first (h.declaration _) fun id => .pure rfl
  · exact .first h.statement fun id => .pure rfl

end CangjieSyntax.Rule
