import CangjieSyntax.Proofs.Ending.Expressions
import CangjieSyntax.Proofs.Ending.Control
import CangjieSyntax.Proofs.Grammar.Declarations

/-!
# Declarations are read to their end

Modifiers and annotations are read in front of the keyword of a declaration, all other parts behind
it. A member is brought to its end by the rules for statements, which stop in front of a token that
closes a hole. The body around it does not, so that members come to an end only if there is no such
token, or nothing that has members.
-/

namespace CangjieSyntax

variable {env : Env} {B J K : Region env} {allowed : Kind → Prop} {call : Call} {s : ParseState}

/-- The end of the text is no modifier. -/
lemma ParseState.kind_ne_of_modifier? {src : Source} {m : Modifier}
    (h : s.modifier? src = some m) : s.kind ≠ .endOfFile := by
  intro e
  unfold modifier? at h
  rw [e] at h
  exact nomatch h

namespace Rule

/-! ## Modifiers -/

lemma consumes_modifiersRound (h : Steady J allowed call) (disallowed : List Modifier)
    (ms : Modifiers) (hs : J.mem s) : Consumes env s (modifiersRound disallowed ms) := by
  refine .view ?_
  split
  case h_1 m hm =>
    have hkind := ParseState.kind_ne_of_modifier? hm
    split
    · exact .report (.advance (.pure fun _ => h.consumes_reported hs hkind _ _ _))
    · exact .advance (.pure fun _ => (h.underway hs).consumes_advance hkind)
  case h_2 => exact .pure nofun

lemma returns_modifiers (h : Steady J allowed call) (disallowed : List Modifier) :
    Returns J 0 (modifiers disallowed) := by
  refine .loop h.underway (quiet_modifiersRound disallowed) (fun ms => .view fun m? => ?_)
    (fun ms s hs => consumes_modifiersRound h disallowed ms hs) Modifiers.none
  split
  · exact .skip_when (quiet_report _ _) (always_report _ _) (.advance fun _ => .pure _)
  · exact .pure _

/-! ## Names -/

lemma always_paramName : Always paramName := by
  refine .view fun wildcard => ?_
  split
  · refine .view fun span => .bind (always_name _ _) fun name => ?_
    exact .bind always_advance fun _ => .pure name
  · exact always_identifier

lemma always_operatorName? : Always operatorName? := by
  refine .view fun k => ?_
  split
  · refine .view fun next => ?_
    split
    · exact .bind always_advance fun _ => .pure _
    · exact .pure none
  · refine .view fun next => ?_
    split
    · exact .bind always_advance fun _ => .pure _
    · exact .pure none
  · exact .pure _
  · exact .bind always_operatorKind fun k => .pure _

lemma always_functionName : Always functionName := by
  refine .view fun k => ?_
  split
  · exact always_identifier
  · refine .view fun start => .bind always_operatorName? fun o => ?_
    cases o with
    | some text => exact .bind always_advance fun _ => .view fun span => always_name _ _
    | none => exact .bind (always_report _ _) fun _ => always_missingName

/-! ## Parts behind the keyword -/

section

variable (h : Responds K allowed call)

include h

lemma finishes_annotation (hs : K.At 0 (s.advance env.src)) : Finishes env s ( annotation call) := by
  refine .view (.behind hs ?_)
  refine .next yields_dottedName (returns_dottedName h.underway) fun path => .view fun hasArgs => ?_
  extract_lets rest
  have hrest (args : List Argument) : Always (rest args) := .view fun span => .pure _
  clear_value rest
  split
  · have hargs := h.list (.mark .closeBracket) (fun K _ hcall => yields_argument hcall)
      (returns_argument h)
    refine .advance fun _ => .next (yields_list _ (yields_argument h.obeysHere)) hargs fun args => ?_
    exact .require _ fun _ => (hrest args).returns
  · exact (hrest []).returns

lemma returns_generics : Returns K 0 generics := by
  unfold generics
  refine .optional _ fun opened => ?_
  split
  · have hnames := h.list (.mark .greater) (fun K _ _ => yields_identifier)
      always_identifier.returns
    refine .next (yields_list _ yields_identifier) hnames fun names => ?_
    exact .require _ fun _ => .pure _
  · exact .pure _

lemma returns_param : Returns K 0 (param call) := by
  refine .view fun start => ?_
  refine .skip (quiet_modifiers _) (returns_modifiers h.toSteady _) fun _ => .view fun k => ?_
  refine .skip_when quiet_advance always_advance ?_
  refine .next yields_paramName always_paramName.returns fun name => ?_
  refine .optional _ fun named => .require _ fun _ => ?_
  refine .next (h.types.yields K) h.types.returns fun type => ?_
  refine .next (yields_behind _ h.obeysHere.expression) ?_ fun default => ?_
  · exact returns_behind _ h.obeysHere.expression h.expression
  · exact .view fun span => .pure _

lemma returns_params : Returns K 0 (params call) := by
  refine .expect _ fun opened => ?_
  split
  · have hparams := h.list (.mark .closeParen) (fun K _ hcall => yields_param hcall)
      (returns_param h)
    refine .next (yields_list _ (yields_param h.obeysHere)) hparams fun params => ?_
    exact .require _ fun _ => .pure _
  · exact .pure _

lemma returns_bounds : Returns K 0 (bounds call) :=
  h.separated (by decide) (fun K _ hcall => hcall.type K) h.types.returns

lemma returns_constraints : Returns K 0 (constraints call) := by
  refine .optional _ fun opened => ?_
  split
  · refine h.separated (by decide) (fun K _ hcall => ?_) ?_
    · refine .first yields_identifier fun param => .skip (quiet_require _) fun _ => ?_
      exact .next (yields_bounds hcall) fun bounds => .pure rfl
    · refine .identifier fun param => .require _ fun _ => ?_
      exact .next (yields_bounds h.obeysHere) (returns_bounds h).drop fun bounds => .pure _
  · exact .pure _

lemma returns_supertypes : Returns K 0 (supertypes call) := by
  refine .optional _ fun opened => ?_
  split
  · exact returns_bounds h
  · exact .pure _

lemma returns_body? : Returns K 0 (body? call) := by
  refine .view fun opened => ?_
  split
  · exact .next (yields_block h.settled h.obeysHere) (returns_block h) fun block => .pure _
  · exact .pure _

end

end Rule

/-- The keywords of declarations with members. -/
def Keyword.declaresMembers : Keyword → Bool
  | .kwClass | .kwStruct | .kwInterface | .kwEnum | .kwExtend | .kwForeign => true
  | _ => false

/-- No token closes a hole, or no token is the keyword of a declaration with members. -/
def SparesMembers (allowed : Kind → Prop) : Prop :=
  ¬ allowed .interpolationEnd ∨ ∀ k : Keyword, k.declaresMembers → ¬ allowed (.keyword k)

namespace Rule

/-! ## Rounds -/

section

variable (h : Steady J allowed call)

include h

/-- A member that takes no token is passed over, since none stands in front of the end of a hole. -/
lemma consumes_membersRound (hcloses : s.kind ≠ .interpolationEnd) (members : List DeclId)
    (hs : J.mem s) : Consumes env s (membersRound call members) := by
  refine .view ?_
  split
  · exact .pure nofun
  case isFalse hends =>
    rw [Bool.or_eq_true, beq_iff_eq, beq_iff_eq, not_or] at hends
    have hkind : s.kind.endsItems = false := by
      unfold Kind.endsItems
      split
      case h_1 hk => exact absurd hk hends.2
      case h_2 hk => exact absurd hk hends.1
      case h_3 hk => exact absurd hk hcloses
      case h_4 => rfl
    split
    · exact .advance (.pure fun _ => (h.underway hs).consumes_advance hends.2)
    · refine .get (.reads (yields_nestedMember (h.obeysSince s.lexer) s (h.since hs)) ?_)
      intro member u hu
      exact (ensures_endItem h.settled h.marks hu hs hkind _ _).bind
        fun _ t ht => .pure fun _ => ht

/-- A round that goes on has taken a bar. -/
lemma consumes_enumCasesRound (b : List EnumCase × Bool) (hs : J.mem s) :
    Consumes env s (enumCasesRound call b) := by
  obtain ⟨cases, nonExhaustive⟩ := b
  have hsince := h.since hs
  refine .view ?_
  extract_lets rest
  have hrest (case? : Option (List EnumCase × Bool)) (t : ParseState)
      (ht : (J.since allowed s.lexer).mem t) :
      Ensures env t (rest case?) fun next u => next.isLeft → s.Consumes u := by
    cases case? with
    | none => exact .pure nofun
    | some cases =>
      refine .optional (fun hbar => ?_) (.pure nofun)
      exact .pure fun _ => Region.consumes_advance ht fun e => nomatch hbar.symm.trans e
  clear_value rest
  split
  · exact .advance (hrest _ _ ((J.since allowed s.lexer).step hsince (.advance s)))
  · refine .view ?_
    split
    · exact .reads (yields_enumCase (h.obeysSince s.lexer) s hsince) fun one t ht => hrest _ t ht
    · exact hrest none s hsince

/-- An accessor is taken from its word on, or a token that starts none is. -/
lemma consumes_accessorsRound (a : Accessors) (hs : J.mem s) :
    Consumes env s (accessorsRound call a) := by
  have hJ := h.settledPast s.lexer
  have hobeys := h.obeysPast s.lexer
  refine .view ?_
  split
  · exact .pure nofun
  case isFalse hend =>
    have hkind : s.kind ≠ .endOfFile := by
      intro e
      rw [e] at hend
      simp at hend
    have hpast := h.past hs hkind
    refine .view ?_
    split
    · refine .advance (.reads (yields_inParens (.pure rfl) _ hpast) fun _ t ht => ?_)
      exact .reads (yields_block hJ hobeys t ht) fun body u hu =>
        .pure fun _ => consumes_past hkind rfl hu
    refine .view ?_
    split
    · refine .advance (.reads (yields_inParens yields_identifier _ hpast) fun name t ht => ?_)
      exact .reads (yields_block hJ hobeys t ht) fun body u hu =>
        .pure fun _ => consumes_past hkind rfl hu
    · split
      · exact .advance (.pure fun _ => (h.underway hs).consumes_advance hkind)
      · exact .report (.advance (.pure fun _ => h.consumes_reported hs hkind _ _ _))

/-- An annotation is taken from its sign on. -/
lemma consumes_annotationsRound (annotations : List Annotation) (hs : J.mem s) :
    Consumes env s (annotationsRound call annotations) := by
  refine .view ?_
  split
  case isTrue hat =>
    have hkind : s.kind ≠ .endOfFile := fun e => nomatch (eq_of_beq hat).symm.trans e
    refine .view ?_
    split
    · exact .behind fun _ _ => .pure nofun
    · have hone := readsFrom_annotation (h.obeysPast s.lexer) (h.past hs hkind)
      exact .reads hone fun one t ht => .pure fun _ => consumes_past hkind rfl ht
  case isFalse => exact .pure nofun

end

/-! ## Functions, variables and aliases -/

section

variable (h : Responds K allowed call)

include h

lemma finishes_function (hs : K.At 0 (s.advance env.src)) : Finishes env s (function call) := by
  refine .behind hs ?_
  refine .next (yields_functionName h.settled) always_functionName.returns fun name => ?_
  refine .next yields_generics (returns_generics h) fun generics => ?_
  refine .next (yields_params h.obeysHere) (returns_params h) fun params => ?_
  refine .next (yields_behind _ (h.types.yields K)) (returns_typeBehind h _) fun result => ?_
  refine .next (yields_constraints h.obeysHere) (returns_constraints h) fun constraints => ?_
  exact .next (yields_body? h.settled h.obeysHere) (returns_body? h) fun body => .pure _

/-- The name of the main function is stored before its keyword is taken. -/
lemma finishes_mainFunction (hbefore : B.Before K) (hs : B.At 0 s) (hkind : s.kind ≠ .endOfFile) :
    Finishes env s (mainFunction call) := by
  have hstored : B.At 0 { s with names := s.names.insert Keyword.kwMain.text } :=
    hs.step (B.step hs.mem (.intern s _)) rfl id
  refine .view (.bind ⟨_, _, rfl⟩ fun name t e => ?_)
  cases e
  refine .behind (hbefore.at hstored hkind) ?_
  refine .next (yields_params h.obeysHere) (returns_params h) fun params => ?_
  refine .next (yields_behind _ (h.types.yields K)) (returns_typeBehind h _) fun result => ?_
  exact .next (yields_block h.settled h.obeysHere) (returns_block h) fun body => .pure _

lemma returns_macroBody : Returns K 0 (macroBody call) := by
  refine .optional _ fun equals => ?_
  split
  · refine .view fun start => .next h.obeysHere.expression h.expression fun value => ?_
    exact .view fun span => .pure _
  · exact returns_block h

lemma finishes_macroDefinition (hs : K.At 0 (s.advance env.src)) :
    Finishes env s (macroDefinition call) := by
  refine .behind hs (.identifier fun name => ?_)
  refine .next (yields_params h.obeysHere) (returns_params h).drop fun params => ?_
  refine .next (yields_behind _ (h.types.yields K)) (returns_typeBehind h _).drop fun result => ?_
  exact .next (yields_macroBody h.settled h.obeysHere) (returns_macroBody h).drop
    fun body => .pure _

lemma finishes_varDecl (kind : VarKind) (hs : K.At 0 (s.advance env.src)) :
    Finishes env s (varDecl call kind) := by
  refine .behind hs (.next (h.obeysHere.pattern _) (h.pattern _) fun pattern => ?_)
  refine .next (yields_behind _ (h.types.yields K)) (returns_typeBehind h _) fun type => ?_
  refine .next (yields_behind _ h.obeysHere.expression) ?_ fun value => .pure _
  exact returns_behind _ h.obeysHere.expression h.expression

lemma finishes_typeAlias (hs : K.At 0 (s.advance env.src)) : Finishes env s (typeAlias call) := by
  refine .behind hs (.identifier fun name => ?_)
  refine .next yields_generics (returns_generics h).drop fun generics => .require _ fun _ => ?_
  exact .next (h.types.yields K) h.types.returns.drop fun type => .pure _

/-! ## Types with members -/

section

variable (hcloses : ¬ allowed .interpolationEnd)

include hcloses

lemma returns_members : Returns K 0 (members call) := by
  refine .loop h.underway (reads_membersRound h.settled h.obeysHere)
    (fun members => .view fun k => ?_) (fun members s hs => ?_) []
  · split
    · exact .pure _
    split
    · exact .advance fun _ => .pure _
    refine .get fun s => .next (yields_nestedMember h.obeysHere) (Returns.drop ?_) fun member => ?_
    · exact returns_nested (fun span => always_allocDecl _) (h.declaration _)
    · exact .skip (quiet_endItem h.settled _ _ _) (returns_endItem h.underway _ _ _)
        fun _ => .pure _
  · refine consumes_membersRound h.toSteady (fun e => hcloses ?_) members hs
    rw [ParseState.kind_of_settled (h.settled.tentative hs)] at e
    exact e ▸ (h.underway hs).allowed

lemma returns_memberBody (owner : Option String) : Returns K 0 (memberBody call owner) := by
  refine .expect _ fun opened => ?_
  split
  · refine returns_enclosedBy h.settled ?_
    refine .next (yields_members h.settled h.obeysHere) (returns_members h hcloses) fun members => ?_
    exact .require _ fun _ => .pure _
  · exact .pure _

lemma finishes_typeBody (kind : TypeDeclKind) (hs : K.At 0 (s.advance env.src)) :
    Finishes env s (typeBody call kind) := by
  refine .behind hs (.next yields_identifier always_identifier.returns fun name => ?_)
  refine .next yields_generics (returns_generics h) fun generics => ?_
  refine .next (yields_supertypes h.obeysHere) (returns_supertypes h) fun supertypes => ?_
  refine .next (yields_constraints h.obeysHere) (returns_constraints h) fun constraints => ?_
  exact .next (yields_memberBody _ h.settled h.obeysHere) (returns_memberBody h hcloses _)
    fun members => .pure _

omit hcloses in
lemma returns_enumCase : Returns K 0 (enumCase call) := by
  have htypes := h.list (.mark .closeParen) (fun K _ hcall => hcall.type K) h.types.returns
  refine .view fun start => .next yields_identifier always_identifier.returns fun name => ?_
  refine .inParens? (yields_list _ (h.types.yields K)) htypes fun params => ?_
  exact .view fun span => .pure _

omit hcloses in
lemma returns_enumCases : Returns K 0 (enumCases call) := by
  refine .optional _ fun _ => ?_
  refine .loop h.underway (reads_enumCasesRound h.obeysHere) (fun (cases, nonExhaustive) => ?_)
    (fun b s hs => consumes_enumCasesRound h.toSteady b hs) ([], false)
  refine .view fun dots => ?_
  extract_lets rest
  have hrest (case? : Option (List EnumCase × Bool)) :
      Returns K (parts (cases, nonExhaustive)) (rest case?) := by
    cases case? with
    | none => exact .pure _
    | some cases =>
      refine .optional _ fun bar => ?_
      split
      · exact .pure _
      · exact .pure _
  clear_value rest
  split
  · exact .advance fun _ => hrest _
  · refine .view fun names => ?_
    split
    · exact .next (yields_enumCase h.obeysHere) (returns_enumCase h) fun one => hrest _
    · exact hrest none

lemma finishes_enumType (hs : K.At 0 (s.advance env.src)) : Finishes env s (enumType call) := by
  refine .behind hs (.next yields_identifier always_identifier.returns fun name => ?_)
  refine .next yields_generics (returns_generics h) fun generics => ?_
  refine .next (yields_supertypes h.obeysHere) (returns_supertypes h) fun supertypes => ?_
  refine .next (yields_constraints h.obeysHere) (returns_constraints h) fun constraints => ?_
  refine .expect _ fun opened => ?_
  extract_lets rest
  have hrest (body : List EnumCase × Bool × List DeclId) : Always (rest body) := .pure _
  clear_value rest
  split
  · refine .next (reads_enclosedBy h.settled ?_) (returns_enclosedBy h.settled ?_) fun body =>
      (hrest body).returns
    · refine .first (yields_enumCases h.obeysHere) fun (cases, nonExhaustive) => ?_
      refine .next (yields_members h.settled h.obeysHere) fun members => ?_
      exact .skip (quiet_require _) fun _ => .pure (by simp)
    · refine .next (yields_enumCases h.obeysHere) (returns_enumCases h) ?_
      rintro ⟨cases, nonExhaustive⟩
      refine .next (yields_members h.settled h.obeysHere) (returns_members h hcloses) ?_
      exact fun members => .require _ fun _ => .pure _
  · exact (hrest _).returns

lemma finishes_extension (hs : K.At 0 (s.advance env.src)) : Finishes env s (extension call) := by
  refine .behind hs (.next yields_generics (returns_generics h) fun generics => ?_)
  refine .next (h.types.yields K) h.types.returns fun target => ?_
  refine .next (yields_supertypes h.obeysHere) (returns_supertypes h) fun supertypes => ?_
  refine .next (yields_constraints h.obeysHere) (returns_constraints h) fun constraints => ?_
  exact .next (yields_memberBody _ h.settled h.obeysHere) (returns_memberBody h hcloses _)
    fun members => .pure _

lemma finishes_foreignBlock (hs : K.At 0 (s.advance env.src)) :
    Finishes env s (foreignBlock call) := by
  refine .behind hs (.next (yields_memberBody _ h.settled h.obeysHere) ?_ fun members => .pure _)
  exact returns_memberBody h hcloses _

end

/-! ## Members -/

variable (hloses : K.loses)

include hloses

lemma returns_accessors : Returns K 0 (accessors call) := by
  refine Returns.loop h.underway (reads_accessorsRound hloses h.settled h.obeysHere)
    (fun a => .view fun k => ?_) (fun a s hs => consumes_accessorsRound h.toSteady a hs)
    ({} : Accessors)
  split
  · exact .pure _
  refine .view fun gets => ?_
  split
  · refine .advance fun _ => .inParens (.pure rfl) (.pure _) fun _ => ?_
    exact .next (yields_block h.settled h.obeysHere) (returns_block h) fun body => .pure _
  refine .view fun sets => ?_
  split
  · refine .advance fun _ => .inParens yields_identifier always_identifier.returns fun name => ?_
    exact .next (yields_block h.settled h.obeysHere) (returns_block h) fun body => .pure _
  · exact .skip_unless (quiet_report _ _) (always_report _ _) (.advance fun _ => .pure _)

lemma finishes_property (hs : K.At 0 (s.advance env.src)) : Finishes env s (property call) := by
  refine .behind hs (.next yields_identifier always_identifier.returns fun name => ?_)
  refine .require _ fun _ => .next (h.types.yields K) h.types.returns fun type => ?_
  refine .optional _ fun opened => ?_
  split
  · have haccessors := yields_accessors hloses h.settled h.obeysHere
    refine .next haccessors (returns_accessors h hloses) fun a => ?_
    exact .require _ fun _ => .pure _
  · exact .pure _

omit hloses in
lemma returns_initializer (kind : InitKind) (name : Option Name) :
    Returns K 0 (initializer call kind name) := by
  refine .next (yields_params h.obeysHere) (returns_params h) fun params => ?_
  exact .next (yields_body? h.settled h.obeysHere) (returns_body? h) fun body => .pure _

end

/-- Whether an initializer stands here is found out without leaving the token. -/
lemma ensures_atPrimaryInit : Ensures env s atPrimaryInit fun _ t => t.kind = s.kind := by
  refine .get ?_
  split
  · exact .pure rfl
  · rintro _ _ ⟨⟩
    rfl

lemma always_atPrimaryInit : Always atPrimaryInit := by
  refine .get fun s => ?_
  split
  · exact .pure false
  · exact .view fun text => .bind (always_intern text) fun _ => always_view _

/-! ## Any declaration -/

section

variable (h : Opens B K allowed call)

include h

omit h in
lemma returns_declarationExpected (h : Steady J allowed call) (place : DeclPlace) :
    Returns J 0 (declarationExpected place) :=
  .report _ _ fun _ => .skip (quiet_skipStatement h.settled true)
    (returns_skipStatement h.underway true) fun _ => .pure _

lemma returns_declarationForm (hspares : SparesMembers allowed) (place : DeclPlace)
    (modifiers : Modifiers) : Returns B 0 (declarationForm call place modifiers) := by
  have hK := h.responds
  intro s hs
  have hexpected := returns_declarationExpected h.toSteady place s hs
  have hallowed {k : Keyword} (hk : s.kind = .keyword k) : allowed (.keyword k) := by
    rw [← hk, ParseState.kind_of_settled (h.settled.tentative hs.mem)]
    exact (h.underway hs.mem).allowed
  -- Behind the keyword of a declaration with members no token closes a hole.
  have hcloses {k : Keyword} (hk : s.kind = .keyword k) (hmembers : k.declaresMembers) :
      ¬ allowed .interpolationEnd :=
    hspares.resolve_right fun hnone => hnone k hmembers (hallowed hk)
  have hbehind {k : Keyword} (hk : s.kind = .keyword k) : K.At 0 (s.advance env.src) :=
    h.before.at hs fun e => nomatch hk.symm.trans e
  refine .view ?_
  split
  case h_1 hk => exact .bind (finishes_function hK (hbehind hk)) fun _ _ _ => .pure _
  case h_2 hk => exact finishes_varDecl hK _ (hbehind hk)
  case h_3 hk => exact finishes_varDecl hK _ (hbehind hk)
  case h_4 hk => exact finishes_varDecl hK _ (hbehind hk)
  case h_5 hk => exact finishes_typeBody hK (hcloses hk rfl) _ (hbehind hk)
  case h_6 hk => exact finishes_typeBody hK (hcloses hk rfl) _ (hbehind hk)
  case h_7 hk => exact finishes_typeBody hK (hcloses hk rfl) _ (hbehind hk)
  case h_8 hk => exact finishes_enumType hK (hcloses hk rfl) (hbehind hk)
  case h_9 hk => exact finishes_typeAlias hK (hbehind hk)
  case h_10 hk => exact finishes_extension hK (hcloses hk rfl) (hbehind hk)
  case h_11 hk => exact finishes_extension hK (hcloses hk rfl) (hbehind hk)
  case h_12 hk => exact finishes_foreignBlock hK (hcloses hk rfl) (hbehind hk)
  case h_13 hk => exact finishes_foreignBlock hK (hcloses hk rfl) (hbehind hk)
  case h_14 hk => exact .bind (finishes_macroDefinition hK (hbehind hk)) fun _ _ _ => .pure _
  case h_15 hk =>
    have hkind : s.kind ≠ .endOfFile := fun e => nomatch hk.symm.trans e
    exact .bind (finishes_mainFunction hK h.before hs hkind) fun _ _ _ => .pure _
  case h_16 hk => exact finishes_property hK (hK.loses (hallowed hk)) (hbehind hk)
  case h_17 hk => exact .behind (hbehind hk) (returns_initializer hK _ _)
  case h_18 hk =>
    refine .view ?_
    split
    · have hmark := h.before.at hs fun e => nomatch hk.symm.trans e
      exact .behind hmark (.advance fun _ => returns_initializer hK _ _)
    · exact hexpected
  case h_19 hk =>
    refine .bind (always_atPrimaryInit env s) fun primary t e => ?_
    have ht := hs.after (quiet_atPrimaryInit s hs.mem) e
    split
    · refine h.before.identifier ht ?_ fun name => (returns_initializer hK _ _).drop
      rw [ensures_atPrimaryInit _ _ e, hk]
      rfl
    · exact returns_declarationExpected h.toSteady _ t ht
  case h_20 => exact hexpected

lemma returns_annotations : Returns B 0 (annotations call) := by
  have hK := h.responds
  refine .loop h.underway (reads_annotationsRound h.obeysHere) (fun annotations s hs => ?_)
    (fun annotations s hs => consumes_annotationsRound h.toSteady annotations hs) []
  refine .view ?_
  split
  case isTrue hat =>
    have hbehind := h.before.at hs.drop fun e => nomatch (eq_of_beq hat).symm.trans e
    refine .view ?_
    split
    · exact .bind (finishes_macroCall hK.underway hbehind.mem) fun _ _ _ => .pure _
    · exact .bind ( finishes_annotation hK hbehind) fun _ _ _ => .pure _
  case isFalse => exact .pure _

lemma returns_declaration (hspares : SparesMembers allowed) (place : DeclPlace) :
    Returns B 0 (declaration call place) := by
  refine .view fun start => .next (yields_annotations h.obeysHere) (returns_annotations h) ?_
  rintro ⟨annotations, expansion?⟩
  cases expansion? with
  | some expansion => exact .view fun span => (always_allocDecl _).returns
  | none =>
    refine .skip (quiet_modifiers _) (returns_modifiers h.toSteady _) fun modifiers => ?_
    refine .next (yields_declarationForm place modifiers h.settled h.obeysHere) ?_ fun form => ?_
    · exact returns_declarationForm h hspares place modifiers
    · exact .view fun span => (always_allocDecl _).returns

end

end Rule

end CangjieSyntax
