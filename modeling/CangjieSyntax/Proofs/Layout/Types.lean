import CangjieSyntax.Grammar.Items
import CangjieSyntax.Grammar.Types
import CangjieSyntax.Proofs.Layout.Rule

/-!
# How the rules of types and blocks lay out what they read

Types keep to any region, so that type arguments may be read tentatively as well. A doubled question
mark makes two types of one span, one inside the other.
-/

namespace CangjieSyntax

variable {env : Env} {J K : Ground env} {call : Call} {lo : Nat} {held : List Mark} {span : Span}

/-- A dotted path has the marks of its segments, if any. -/
lemma TypeForm.marks_ofPath (segments : List PathSegment) :
    (marks (TypeForm.ofPath segments)).Sublist (marks segments) := by
  unfold TypeForm.ofPath
  split
  · split
    · exact List.nil_sublist _
    · exact List.Sublist.refl _
  · exact List.Sublist.refl _

namespace Rule

lemma lays_errorType (hspan : span.Valid env.src) (hfault : .fault ∈ held) :
    Lays K lo held (errorType span) marks :=
  (lays_allocType_fault hspan hfault (List.nil_sublist _)).forget fun _ =>
    List.sublist_cons_self _ _

lemma places_typeArguments (h : Places K (call .type)) : Places K (typeArguments call) := by
  refine fun lo => .skip (takes_require _) fun _ => ?_
  refine .first (places_list _ h) fun args => ?_
  exact .skip (takes_require _) fun _ => .pure (List.Sublist.refl _)

lemma places_fittingArguments? (h : Places K (call .type)) :
    Places K (fittingArguments? call) := by
  refine fun lo => .first (places_typeArguments h) fun args => ?_
  refine .view fun fits => ?_
  split
  · exact .pure (List.Sublist.refl _)
  · exact .pure (List.nil_sublist _)

lemma places_typeArguments? (hJ : J.Settled) (h : ∀ K : Ground env, Places K (call .type)) :
    Places J (typeArguments? call) := by
  refine fun lo => .read <| .view fun candidate => ?_
  split
  · exact .pure (List.Sublist.refl _)
  · refine .tokenSpan fun opening hopening => ?_
    refine .first (places_attempt hJ fun K => places_fittingArguments? (h K)) fun result => ?_
    cases result with
    | committed args => exact .pure (List.Sublist.refl _)
    | rewound =>
      refine .skip (places_modify (fun s hs => hJ.turn hs (.remember s _)) ?_ ?_ ?_)
        fun _ => .pure (List.Sublist.refl _)
      · exact fun _ _ => rfl
      · exact fun _ => ⟨rfl, rfl, rfl⟩
      · exact fun _ _ hexcused => hexcused
    | exhausted =>
      exact .read <| .skip (faults_reportAt hopening _ _) fun _ => .pure (List.Sublist.refl _)

/-- A segment of a path, whatever stands for type arguments behind it. -/
lemma lays_segmentsRound {inValue : Bool} (h : Places K (call .type))
    (hvalue : inValue = true → Places K (typeArguments? call)) (segments : List PathSegment)
    (lo : Nat) : Lays K lo (marks segments) (segmentsRound call inValue segments)
      (Sum.elim marks fun segments => .token :: marks segments) := by
  refine .use lays_identifier fun name => .begun (by simp) ?_
  extract_lets rest
  have hrest (args : List TypeId) :
      Lays K lo (.token :: (marks segments ++ marks name ++ marks args)) (rest args)
        (Sum.elim marks fun segments => .token :: marks segments) := by
    refine .view fun more => ?_
    split
    · exact .skip takes_advance fun _ => .pure (by simp)
    · exact .pure (by simp)
  clear_value rest
  have hsub : (Mark.token :: (marks segments ++ marks name)).Sublist
      (.token :: (marks segments ++ .token :: marks name)) := by simp
  refine .weaken hsub <| .view fun opens => ?_
  split
  case isTrue hin => exact .next (hvalue hin) fun args => .of_eq (by simp) (hrest args)
  case isFalse =>
    split
    · exact .next (places_typeArguments h) fun args => .of_eq (by simp) (hrest args)
    · exact .of_eq (by simp) (hrest [])

lemma places_namedType (inValue : Bool) (h : Places K (call .type))
    (hvalue : inValue = true → Places K (typeArguments? call)) :
    Places K (namedType call inValue) := by
  refine fun _ => .start fun lo _ => ?_
  refine .bind (Lays.loop (q := marks) (lays_segmentsRound h hvalue · lo) []) fun segments => ?_
  exact lays_typeFrom ((TypeForm.marks_ofPath segments).trans (List.sublist_cons_self _ _)) (by simp)

lemma lays_typeElementsRound (h : Places K (call .type)) (b : List TypeElement × Bool) (lo : Nat) :
    Lays K lo (marks b) (typeElementsRound call b) marks := by
  obtain ⟨elements, trailingComma⟩ := b
  refine .view fun k => ?_
  split
  · exact .pure (List.Sublist.refl _)
  · refine .next places_label? fun label => .next h fun type => ?_
    refine .skip (lays_optional _) fun comma => ?_
    split
    · exact .pure (by simp)
    · exact .pure (by simp)

lemma places_typeElements (h : Places K (call .type)) : Places K (typeElements call) :=
  fun lo => Lays.loop_marks (lays_typeElementsRound h · lo) ([], false)

/-- The form of a list in parentheses has the marks of its elements, if any. -/
lemma marks_tupleForm (elements : List TypeElement) (trailingComma : Bool) :
    (marks (tupleForm elements trailingComma)).Sublist (marks elements) := by
  unfold tupleForm
  split
  · exact List.nil_sublist _
  · simp [marks]
  · exact List.Sublist.refl _

lemma places_parenType (h : Places K (call .type)) : Places K (parenType call) := by
  refine fun _ => .start fun lo hlo => .take takes_advance fun _ => ?_
  refine .next (places_typeElements h) fun (elements, trailingComma) => ?_
  refine .skip (takes_require _) fun _ => .skip (lays_optional _) fun arrow => ?_
  split
  · refine .next h fun result => lays_typeFrom ?_ (by simp)
    simp [marks]
  · have hsub : (marks (tupleForm elements trailingComma)).Sublist
        ([] ++ [Mark.token] ++ marks (elements, trailingComma)) :=
      (marks_tupleForm elements trailingComma).trans (by simp)
    -- Either the span is reported, or the type is allocated in the same state.
    intro s hs
    refine .view ?_
    split
    · have hspan : (s.spanFrom lo).Valid env.src := (K.footed hs).spanFrom hlo
      refine Lays.faulty (faults_reportAt hspan _ _) (fun _ => ?_) s hs
      exact (lays_allocType_fault hspan (by simp) (hsub.trans (by simp))).forget fun _ => by simp
    · exact laysFrom_allocType rfl (by simp) hs hsub

lemma places_plainType (h : Places K (call .type)) : Places K (plainType call) := by
  refine fun _ => .start fun lo hlo => .view fun k => ?_
  split
  · refine .take takes_advance fun _ => ?_
    exact .next h fun inner => lays_typeFrom (by simp [marks]) (by simp)
  · refine .take takes_advance fun _ => .next h fun inner s hs => .view ?_
    refine .bind (laysFrom_allocType rfl (by simp) hs (by simp [marks])) fun once t e ht => ?_
    exact laysFrom_allocType (spanFrom_of_allocType e).symm (by simp) ht (List.Sublist.refl _)
  · exact places_parenType h lo
  · split
    · exact places_namedType false h nofun lo
    · refine .tokenSpan fun span hspan => ?_
      exact .faulty (faults_reportAt hspan _ _) fun _ => lays_errorType hspan (by simp)

lemma places_type (h : Places K (call .type)) : Places K (type call) :=
  places_nested (fun _ _ hspan => lays_errorType hspan (by simp)) (places_plainType h)

lemma places_typeOperand (hJ : J.Settled) (h : ∀ K : Ground env, Places K (call .type)) :
    Places J (typeOperand call) := by
  refine places_nested (fun _ _ hspan => lays_errorType hspan (by simp)) fun lo => .view fun k => ?_
  split
  · exact places_namedType true (h J) (fun _ => places_typeArguments? hJ h) lo
  · exact places_plainType (h J) lo

lemma places_typeBehind (k : Kind) (h : Places K (call .type)) : Places K (typeBehind call k) :=
  places_behind k h

end Rule

end CangjieSyntax

/-!
## Blocks

Recovery only passes over tokens behind a fault. Blocks lay out their items in order.
-/

namespace CangjieSyntax.Rule

variable {env : Env} {J : Ground env} {call : Call}

/-! ## Recovery -/

lemma places_expressionExpected : Places J expressionExpected := by
  refine fun lo => .tokenSpan fun span hspan => .faulty (faults_reportAt hspan _ _) fun _ => ?_
  exact .view fun k => .skip_unless takes_advance (lays_errorExpr hspan (by simp))

lemma places_atStatementEnd (stop : Kind → Bool) : Places J (atStatementEnd stop) := by
  refine fun lo => .view fun k => ?_
  split
  · exact .skip takes_advance fun _ => .pure (List.Sublist.refl _)
  · exact places_view (fun _ => rfl) lo

lemma faults_separatorExpected : Faults J separatorExpected :=
  fun lo => .get fun _ => .read <| faults_report _ _ lo

lemma places_unmute (hJ : J.Settled) : Places J unmute :=
  places_modify (fun s hs => hJ.turn hs (.unmute s)) (fun _ _ => rfl) (fun _ => ⟨rfl, rfl, rfl⟩)
    fun _ _ h => h

lemma lays_skipStatementRound (b : Nat × Bool) (lo : Nat) :
    Lays J lo (marks b) (skipStatementRound b) marks := by
  obtain ⟨depth, must⟩ := b
  refine .view fun k => ?_
  split
  · exact .pure (List.Sublist.refl _)
  · split
    · exact .pure (List.Sublist.refl _)
    · split
      · exact .skip takes_advance fun _ => .pure (List.Sublist.refl _)
      · refine .view fun breaks => ?_
        split
        · exact .pure (List.Sublist.refl _)
        · exact .skip takes_advance fun _ => .pure (List.Sublist.refl _)

lemma places_skipStatement (hJ : J.Settled) (must : Bool) : Places J (skipStatement must) :=
  fun lo => .bind (Lays.loop_marks (lays_skipStatementRound · lo) (0, must)) fun _ =>
    places_unmute hJ lo

lemma lays_skipDeclarationRound (b : Nat × Bool) (lo : Nat) :
    Lays J lo (marks b) (skipDeclarationRound b) marks := by
  obtain ⟨depth, must⟩ := b
  refine .view fun k => ?_
  split
  · exact .pure (List.Sublist.refl _)
  · split
    · exact .skip takes_advance fun _ => .pure (List.Sublist.refl _)
    · refine .view fun starts => ?_
      split
      · exact .pure (List.Sublist.refl _)
      · exact .skip takes_advance fun _ => .pure (List.Sublist.refl _)

lemma places_skipDeclaration (hJ : J.Settled) (must : Bool) : Places J (skipDeclaration must) :=
  fun lo => .bind (Lays.loop_marks (lays_skipDeclarationRound · lo) (0, must)) fun _ =>
    places_unmute hJ lo

lemma places_endItem (hJ : J.Settled) (start errors : Nat) (stop : Kind → Bool) :
    Places J (endItem start errors stop) := by
  refine fun lo => .get fun s => ?_
  dsimp only
  split
  · exact places_skipStatement hJ _ lo
  · refine .skip (places_atStatementEnd stop) fun ends => ?_
    split
    · exact .skip faults_separatorExpected fun _ => places_skipStatement hJ _ lo
    · exact .pure (List.Sublist.refl _)

/-! ## Blocks -/

/-- An item, or the placeholder of one that is nested too deeply. -/
lemma places_nestedItem (h : LaysOut J call) :
    Places J (nested (fun span => return .expr (← errorExpr span)) (call .blockItem)) := by
  refine places_nested (fun lo span hspan => ?_) h.blockItem
  exact .bind (lays_errorExpr hspan (by simp)) fun _ => .pure (List.Sublist.refl _)

lemma lays_itemsRound (hJ : J.Settled) (h : LaysOut J call) (stop : Kind → Bool)
    (items : List BlockItem) (lo : Nat) :
    Lays J lo (marks items) (itemsRound call stop items) marks := by
  refine .view fun k => ?_
  split
  · exact .pure (List.Sublist.refl _)
  · split
    · exact .skip takes_advance fun _ => .pure (List.Sublist.refl _)
    · refine .get fun s => .next (places_nestedItem h) fun item => ?_
      exact .skip (places_endItem hJ _ _ _) fun _ => .pure (by simp)

lemma places_items (hJ : J.Settled) (h : LaysOut J call) (stop : Kind → Bool) :
    Places J (items call stop) :=
  fun lo => Lays.loop_marks (lays_itemsRound hJ h stop · lo) []

lemma places_allItems (hJ : J.Settled) (h : LaysOut J call) : Places J (allItems call) :=
  places_items hJ h _

/-- A block takes its opening brace, or reports that it is missing. -/
lemma lays_block (hJ : J.Settled) (h : LaysOut J call) (lo : Nat) :
    Lays J lo [] (block call) fun body => .token :: marks body := by
  refine .start (fun lo hlo => ?_)
  refine .use (lays_expect _) fun opened => ?_
  cases opened with
  | true =>
    refine .next (places_allItems hJ h) fun items => .skip (takes_require _) fun _ => ?_
    exact .spanFrom hlo fun span hspan => .hold hspan (.pure (by simp))
  | false =>
    refine .excuse (p := fun body => .fault :: marks body) (fun _ => List.mem_cons_self) ?_ ?_
    · exact .hold (.empty hlo) (.pure (by simp))
    · intro body m hm
      simp only [List.mem_cons] at hm ⊢
      tauto

lemma places_block (hJ : J.Settled) (h : LaysOut J call) : Places J (block call) :=
  fun lo => (lays_block hJ h lo).forget fun _ => List.sublist_cons_self _ _

lemma places_blockItem (h : LaysOut J call) : Places J (blockItem call) := by
  refine fun lo => .view fun declares => ?_
  split
  · exact .first (h.declaration _) fun id => .pure (List.Sublist.refl _)
  · exact .first h.statement fun id => .pure (List.Sublist.refl _)

end CangjieSyntax.Rule
