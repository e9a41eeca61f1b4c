import CangjieSyntax.Proofs.Ending.Calls
import CangjieSyntax.Proofs.Grammar.Types

/-!
# Types and blocks are read to their end

Each rule of types takes a token before it calls another one, in attempts as well as outside.
-/

namespace CangjieSyntax.Rule

variable {env : Env} {B J K : Region env} {allowed : Kind → Prop} {call : Call} {s : ParseState}

lemma always_errorType (span : Span) : Always (errorType span) :=
  always_allocType .error span

/-! ## Type arguments -/

/-- The arguments are read behind the bracket that opens them. -/
lemma finishes_typeArguments (h : ReadsTypes K allowed call) (hkind : s.kind = .mark .less)
    (hs : K.At 0 (s.advance env.src)) : Finishes env s (typeArguments call) := by
  refine .require hkind (Returns.next (yields_list _ (h.yields K)) ?_ (fun args => ?_) _ hs)
  · have reads (K : Region env) : Reads K 0 (call .type) fun id => 0 + parts id :=
      (h.yields K).forget fun id => .of_eq (zero_add (parts id)).symm
    exact returns_list h.underway _ (reads K) (fun l => reads _) h.returns
  · exact .require _ fun _ => .pure args

lemma finishes_fittingArguments? (h : ReadsTypes K allowed call) (hkind : s.kind = .mark .less)
    (hs : K.At 0 (s.advance env.src)) : Finishes env s (fittingArguments? call) := by
  refine .bind (finishes_typeArguments h hkind hs) fun args t _ => ?_
  refine Always.view (fun fits => ?_) env t
  split
  · exact .pure _
  · exact .pure _

lemma returns_typeArguments? (h : Responds J allowed call) :
    Returns J 0 (typeArguments? call) := by
  obtain ⟨K, htypes, henter⟩ := h.attempts
  intro s hs
  refine .read (.view ?_)
  split
  · exact .pure _
  case isFalse hcandidate =>
    have hkind : s.kind = .mark .less := by
      simp only [Bool.not_eq_true', Bool.not_eq_false, Bool.and_eq_true, beq_iff_eq] at hcandidate
      exact hcandidate.1.1
    refine .view (.bind (finishes_attempt (finishes_fittingArguments? htypes hkind ?_)) ?_)
    · have hentered : K.At 0 (s.enterTentative env.settings.budget) :=
        hs.step (henter hs.mem) rfl id
      exact hentered.advance (K.step hentered.mem (.advance _))
    · intro result t _
      cases result with
      | committed args => exact .pure args
      | rewound => exact ⟨_, _, rfl⟩
      | exhausted => exact ⟨_, _, rfl⟩

/-! ## Paths and lists -/

section

variable {inValue : Bool} (hway : ∀ {s}, B.mem s → s.Underway env allowed)

include hway

/-- A segment that another one follows has a point behind it, which is taken. -/
lemma consumes_segmentsRound (h : ReadsTypes K allowed call)
    (hvalue : inValue = true → ∀ l, Yields (B.since allowed l) (typeArguments? call))
    (segments : List PathSegment) (hs : B.mem s) :
    Consumes env s (segmentsRound call inValue segments) := by
  have hsince : (B.since allowed s.lexer).mem s := ⟨hs, hway hs, .refl _⟩
  refine .reads (yields_identifier s hsince) fun name t ht => ?_
  extract_lets rest
  have hrest (args : List TypeId) (u : ParseState) (hu : (B.since allowed s.lexer).mem u) :
      Ensures env u (rest args) fun next t => next.isLeft → s.Consumes t := by
    refine .view ?_
    split
    case isTrue hdot =>
      rw [Bool.and_eq_true, beq_iff_eq] at hdot
      exact .advance (.pure fun _ =>
        Region.consumes_advance hu fun e => nomatch hdot.1.symm.trans e)
    case isFalse => exact .pure nofun
  clear_value rest
  refine .view ?_
  split
  case isTrue hin => exact .reads (hvalue hin _ t ht) hrest
  case isFalse =>
    split
    · exact .reads (yields_typeArguments (h.yields _) t ht) hrest
    · exact hrest [] t ht

omit hway in
lemma returns_segmentsRound (hbefore : B.Before K) (h : ReadsTypes K allowed call)
    (hvalue : inValue = true →
      Yields B (typeArguments? call) ∧ Returns B 0 (typeArguments? call))
    (segments : List PathSegment) : Returns B 0 (segmentsRound call inValue segments) := by
  refine .identifier fun name => ?_
  extract_lets rest
  have hrest (args : List TypeId) : Returns B 0 (rest args) := by
    refine .view fun more => ?_
    split
    · exact .advance fun _ => .pure _
    · exact .pure _
  clear_value rest
  intro s hs
  refine .view ?_
  split
  case isTrue hin => exact Returns.next (hvalue hin).1 (hvalue hin).2 hrest s hs
  case isFalse =>
    split
    case isTrue hless =>
      have hkind : s.kind = .mark .less := eq_of_beq hless
      have hbehind := hbefore.at hs fun e => nomatch hkind.symm.trans e
      refine .bind (finishes_typeArguments h hkind hbehind) fun args t e => ?_
      exact hrest args t (hs.keep (yields_typeArguments (h.yields B)) e)
    case isFalse => exact hrest [] s hs

lemma returns_namedType (hbefore : B.Before K) (h : ReadsTypes K allowed call)
    (hvalue : inValue = true → (∀ l, Yields (B.since allowed l) (typeArguments? call))
      ∧ Yields B (typeArguments? call) ∧ Returns B 0 (typeArguments? call)) :
    Returns B 0 (namedType call inValue) := by
  have hreads := reads_segmentsRound (h.yields B) fun hin => (hvalue hin).2.1
  refine .view fun start => .next (Reads.loop_parts hreads []) ?_ fun segments =>
    (always_typeFrom _ _).returns
  exact .loop hway hreads
    (fun segments => (returns_segmentsRound hbefore h (fun hin => (hvalue hin).2) _).drop)
    (fun segments s hs => consumes_segmentsRound hway h (fun hin => (hvalue hin).1) segments hs) []

end

section

variable (h : ReadsTypes K allowed call)

include h

lemma consumes_typeElementsRound (b : List TypeElement × Bool) (hs : K.mem s) :
    Consumes env s (typeElementsRound call b) := by
  obtain ⟨elements, trailingComma⟩ := b
  have hsince : (K.since allowed s.lexer).mem s := ⟨hs, h.underway hs, .refl _⟩
  refine .view ?_
  split
  · exact .pure nofun
  · refine .reads (yields_label? s hsince) fun label t ht => ?_
    refine .reads (h.yields _ t ht) fun type u hu => ?_
    refine .optional (fun hcomma => ?_) (.pure nofun)
    exact .pure fun _ => Region.consumes_advance hu fun e => nomatch hcomma.symm.trans e

lemma returns_typeElements : Returns K 0 (typeElements call) := by
  refine .loop h.underway (reads_typeElementsRound (h.yields K))
    (fun (elements, trailingComma) => .view fun k => ?_)
    (fun b s hs => consumes_typeElementsRound h b hs) ([], false)
  split
  · exact .pure _
  · refine .next yields_label? always_label?.returns fun label => ?_
    refine .next (h.yields K) h.returns.drop fun type => .optional _ fun comma => ?_
    split
    · exact .pure _
    · exact .pure _

lemma finishes_parenType (hs : K.At 0 (s.advance env.src)) : Finishes env s (parenType call) := by
  refine .view (.behind hs ?_)
  refine .next (yields_typeElements (h.yields K)) (returns_typeElements h) fun (elements, comma) => ?_
  refine .require _ fun _ => .optional _ fun arrow => ?_
  split
  · exact .next (h.yields K) h.returns fun result => (always_typeFrom _ _).returns
  · refine .view fun span => .skip_when (quiet_reportAt _ _ _) (always_reportAt _ _ _) ?_
    exact (always_allocType _ _).returns

/-- A type has an answer in front of a region in which types have one. -/
lemma returns_plainType (hway : ∀ {s}, B.mem s → s.Underway env allowed) (hbefore : B.Before K) :
    Returns B 0 (plainType call) := by
  intro s hs
  refine .view (.view ?_)
  split
  case h_1 hk =>
    refine .behind (hbefore.at hs fun e => nomatch hk.symm.trans e) ?_
    exact .next (h.yields K) h.returns fun inner => (always_typeFrom _ _).returns
  case h_2 hk =>
    refine .behind (hbefore.at hs fun e => nomatch hk.symm.trans e) ?_
    refine .next (h.yields K) h.returns fun inner => .view fun span => ?_
    exact Always.returns (.bind (always_allocType _ _) fun once => always_allocType _ _)
  case h_3 hk => exact finishes_parenType h (hbefore.at hs fun e => nomatch hk.symm.trans e)
  case h_4 =>
    split
    · exact returns_namedType hway hbefore h (fun e : false = true => nomatch e) s hs
    · refine Always.view (fun span => ?_) env s
      exact .bind (always_reportAt _ _ _) fun _ => always_errorType span

lemma returns_type (hway : ∀ {s}, B.mem s → s.Underway env allowed) (hbefore : B.Before K) :
    Returns B 0 (type call) :=
  returns_nested always_errorType (returns_plainType h hway hbefore)

end

/-! ## Types behind a token -/

section

variable (h : Responds J allowed call)

include h

lemma returns_typeOperand : Returns J 0 (typeOperand call) := by
  refine returns_nested always_errorType (.view fun k => ?_)
  split
  · refine returns_namedType h.underway J.before_self h.types fun _ => ⟨fun l => ?_, ?_, ?_⟩
    · exact yields_typeArguments? (h.settledSince l) h.types.yields
    · exact yields_typeArguments? h.settled h.types.yields
    · exact returns_typeArguments? h
  · exact returns_plainType h.types h.underway J.before_self

lemma returns_typeBehind (k : Kind) : Returns J 0 (typeBehind call k) :=
  returns_behind k (h.types.yields J) h.types.returns

end

end CangjieSyntax.Rule

/-!
## Blocks

Recovery passes over at least one token where it must, unless it stands in front of what ends the
block. So an item that has not taken a token, and stands in front of no such end, is passed over.
-/

namespace CangjieSyntax.Rule

variable {env : Env} {B J : Region env} {allowed : Kind → Prop} {call : Call} {s u : ParseState}

lemma always_expressionExpected : Always expressionExpected := by
  refine .view fun span => .bind (always_reportAt _ _ _) fun _ => .view fun k => ?_
  split
  · exact always_errorExpr span
  · exact .bind always_advance fun _ => always_errorExpr span

lemma always_atStatementEnd (stop : Kind → Bool) : Always (atStatementEnd stop) := by
  refine .view fun k => ?_
  split
  · exact .bind always_advance fun _ => .pure true
  · exact always_view _

lemma always_separatorExpected : Always separatorExpected :=
  .get fun _ => .read fun _ => always_report _ _

lemma always_unmute : Always unmute :=
  fun _ _ => ⟨_, _, rfl⟩

/-! ## Passing over -/

lemma always_skipStatementRound (b : Nat × Bool) : Always (skipStatementRound b) := by
  obtain ⟨depth, must⟩ := b
  refine .view fun k => ?_
  split
  · exact .pure _
  split
  · exact .pure _
  split
  · exact .bind always_advance fun _ => .pure _
  refine .view fun breaks => ?_
  split
  · exact .pure _
  · exact .bind always_advance fun _ => .pure _

lemma consumes_skipStatementRound (b : Nat × Bool) (hs : s.Underway env allowed) :
    Consumes env s (skipStatementRound b) := by
  obtain ⟨depth, must⟩ := b
  refine .view ?_
  split
  · exact .pure nofun
  case isFalse hend =>
    have hkind : s.kind ≠ .endOfFile := fun e => hend (beq_iff_eq.2 e)
    split
    · exact .pure nofun
    split
    · exact .advance (.pure nofun)
    refine .view ?_
    split
    · exact .pure nofun
    · exact .advance (.pure fun _ => hs.consumes_advance hkind)

lemma consumes_skipDeclarationRound (b : Nat × Bool) (hs : s.Underway env allowed) :
    Consumes env s (skipDeclarationRound b) := by
  obtain ⟨depth, must⟩ := b
  refine .view ?_
  split
  · exact .pure nofun
  case isFalse hend =>
    have hkind : s.kind ≠ .endOfFile := fun e => hend (beq_iff_eq.2 e)
    split
    · exact .advance (.pure nofun)
    refine .view ?_
    split
    · exact .pure nofun
    · exact .advance (.pure fun _ => hs.consumes_advance hkind)

section

variable (hway : ∀ {s}, J.mem s → s.Underway env allowed)

include hway

/-- Wherever a parse has come to, the rest of a statement can be passed over. -/
lemma finishes_skipStatement (hs : J.mem s) (must : Bool) : Finishes env s (skipStatement must) := by
  refine .bind ?_ fun _ t _ => always_unmute env t
  exact .loop_of_always hway quiet_skipStatementRound (fun b => always_skipStatementRound b env)
    (fun b _ hs => consumes_skipStatementRound b (hway hs)) hs (0, must)

lemma returns_skipStatement (must : Bool) : Returns J 0 (skipStatement must) :=
  fun _ hs => finishes_skipStatement hway hs.mem must

lemma returns_skipDeclaration (must : Bool) : Returns J 0 (skipDeclaration must) := by
  refine .skip (.loop quiet_skipDeclarationRound _) ?_ fun _ => always_unmute.returns
  refine .loop hway quiet_skipDeclarationRound (fun (depth, must) => .view fun k => ?_)
    (fun b s hs => consumes_skipDeclarationRound b (hway hs)) (0, must)
  split
  · exact .pure _
  split
  · exact .advance fun _ => .pure _
  refine .view fun starts => ?_
  split
  · exact .pure _
  · exact .advance fun _ => .pure _

lemma returns_endItem (start errors : Nat) (stop : Kind → Bool) :
    Returns J 0 (endItem start errors stop) := by
  refine .get fun s => ?_
  dsimp only
  split
  · exact returns_skipStatement hway _
  · refine .skip (quiet_atStatementEnd stop) (always_atStatementEnd stop).returns fun ends => ?_
    split
    · exact .skip quiet_separatorExpected always_separatorExpected.returns fun _ =>
        returns_skipStatement hway _
    · exact .pure _

end

section

variable (hJ : J.Settled) (hmarks : AllowsMarks allowed)

include hJ hmarks

/-- Where a token must be passed over, it is, unless it ends the statements around it. -/
lemma ensures_skipStatement (hs : J.mem s) (hway : s.Underway env allowed)
    (hkind : s.kind.endsItems = false) :
    Ensures env s (skipStatement true) fun _ t => s.Consumes t := by
  have hend : s.kind ≠ .endOfFile := fun e => by simp [e, Kind.endsItems] at hkind
  have hpast := Region.past_advance hs hway hend
  have hfirst : Ensures env s (skipStatementRound (0, true))
      fun _ t => (J.past allowed s.lexer).mem t := by
    refine .view ?_
    split
    case isTrue h => exact absurd (eq_of_beq h) hend
    split
    case isTrue h =>
      simp only [beq_self_eq_true, Bool.true_and, Bool.or_eq_true, beq_iff_eq] at h
      obtain h | h := h <;> simp [h, Kind.endsItems] at hkind
    split
    · exact .advance (.pure hpast)
    refine .view ?_
    split
    case isTrue h => simp at h
    · exact .advance (.pure hpast)
  refine (Ensures.loop hfirst quiet_skipStatementRound).bind fun _ t ht => ?_
  have hsettled : (J.past allowed s.lexer).Settled := hJ.along hmarks _
  exact .past hend (quiet_unmute hsettled t ht)

/-- Where a token must be passed over on the way to a declaration, it is. -/
lemma ensures_skipDeclaration (hs : J.mem s) (hway : s.Underway env allowed)
    (hend : s.kind ≠ .endOfFile) :
    Ensures env s (skipDeclaration true) fun _ t => s.Consumes t := by
  have hpast := Region.past_advance hs hway hend
  have hfirst : Ensures env s (skipDeclarationRound (0, true))
      fun _ t => (J.past allowed s.lexer).mem t := by
    refine .view ?_
    split
    case isTrue h => exact absurd (eq_of_beq h) hend
    split
    · exact .advance (.pure hpast)
    refine .view ?_
    split
    case isTrue h => simp at h
    · exact .advance (.pure hpast)
  refine (Ensures.loop hfirst quiet_skipDeclarationRound).bind fun _ t ht => ?_
  have hsettled : (J.past allowed s.lexer).Settled := hJ.along hmarks _
  exact .past hend (quiet_unmute hsettled t ht)

/-- Behind an item at least its first token has been passed. -/
lemma ensures_endItem (hu : (J.since allowed s.lexer).mem u) (hs : J.mem s)
    (hkind : s.kind.endsItems = false) (errors : Nat) (stop : Kind → Bool) :
    Ensures env u (endItem s.start errors stop) fun _ t => s.Consumes t := by
  have hend : s.kind ≠ .endOfFile := fun e => by simp [e, Kind.endsItems] at hkind
  obtain hpassed | ⟨hstart, hsame⟩ := hu.2.2.moved
  · have hpast : (J.past allowed s.lexer).mem u := ⟨hu.1, hu.2.1, hpassed⟩
    have hsettled : (J.past allowed s.lexer).Settled := hJ.along hmarks _
    exact .past hend (quiet_endItem hsettled s.start errors stop u hpast)
  · have hstill : u.kind.endsItems = false := by
      rw [ParseState.kind_of_settled (hJ.tentative hu.1)]
      rw [ParseState.kind_of_settled (hJ.tentative hs)] at hkind
      obtain e | e := hsame
      · rw [e, hkind]
      · exact e
    have hprogressed : (u.start != s.start) = false := by
      rw [bne_eq_false_iff_eq]
      exact hstart
    refine .get ?_
    dsimp only
    rw [hprogressed, Bool.not_false, Bool.or_true, if_pos rfl]
    exact (ensures_skipStatement hJ hmarks hu.1 hu.2.1 hstill).mono
      fun _ t ht => ht.since hu.2.2

end

/-! ## Blocks -/

/-- A round of items that goes on has consumed a token. -/
lemma consumes_itemsRound (h : Steady J allowed call) (stop : Kind → Bool) (items : List BlockItem)
    (hs : J.mem s) : Consumes env s (itemsRound call stop items) := by
  refine .view ?_
  split
  · exact .pure nofun
  case isFalse hends =>
    have hkind : s.kind.endsItems = false := by
      rw [Bool.or_eq_true, not_or, Bool.not_eq_true] at hends
      exact hends.1
    split
    case isTrue hsemicolon =>
      refine .advance (.pure fun _ => (h.underway hs).consumes_advance fun e => ?_)
      rw [e] at hsemicolon
      exact nomatch hsemicolon
    case isFalse =>
      refine .get (.reads (yields_nestedItem (h.obeysSince s.lexer) s (h.since hs)) ?_)
      intro item u hu
      exact (ensures_endItem h.settled h.marks hu hs hkind _ stop).bind
        fun _ t ht => .pure fun _ => ht

section

variable (h : Responds J allowed call)

include h

lemma returns_items (stop : Kind → Bool) : Returns J 0 (items call stop) := by
  refine .loop h.underway (reads_itemsRound h.settled h.obeysHere stop)
    (fun items => .view fun k => ?_)
    (fun items s hs => consumes_itemsRound h.toSteady stop items hs) []
  split
  · exact .pure _
  split
  · exact .advance fun _ => .pure _
  refine .get fun s => .next (yields_nestedItem h.obeysHere) (Returns.drop ?_) fun item => ?_
  · exact returns_nested (fun span => .bind (always_errorExpr span) fun _ => .pure _) h.blockItem
  · exact .skip (quiet_endItem h.settled _ _ _) (returns_endItem h.underway _ _ _)
      fun _ => .pure _

lemma returns_allItems : Returns J 0 (allItems call) :=
  returns_items h _

lemma returns_block : Returns J 0 (block call) := by
  refine .view fun start => .expect _ fun opened => ?_
  split
  · refine .next (yields_allItems h.settled h.obeysHere) (returns_allItems h) fun items => ?_
    exact .require _ fun _ => .view fun span => .pure _
  · exact .pure _

end

/-- An item is a declaration or a statement. -/
lemma returns_blockItem (hobeys : Obeys B call)
    (hdeclaration : Returns B 0 (call (.declaration .inBlock)))
    (hstatement : Returns B 0 (call .statement)) : Returns B 0 (blockItem call) := by
  refine .view fun declares => ?_
  split
  · exact .next (hobeys.declaration _) hdeclaration fun id => .pure _
  · exact .next hobeys.statement hstatement fun id => .pure _

end CangjieSyntax.Rule
