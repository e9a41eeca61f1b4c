import CangjieSyntax.Grammar.Declarations
import CangjieSyntax.Proofs.Grammar.Expressions
import CangjieSyntax.Proofs.Grammar.Control

/-!
# What the rules of declarations hold

Functions, variables, types with their members, extensions and macros, with the modifiers and
annotations in front of them. The name of an operator is never empty.
-/

namespace CangjieSyntax.Rule

variable {env : Env} {J : Region env} {call : Call}

/-! ## Modifiers, parameters and bounds -/

lemma quiet_modifiersRound (disallowed : List Modifier) (ms : Modifiers) :
    Reads J 0 (modifiersRound disallowed ms) (Sum.elim (fun _ => 0) fun _ => 0) := by
  refine .view fun m? => ?_
  split
  · exact .skip_when (quiet_report _ _) (.skip quiet_advance fun _ => .pure rfl)
  · exact .pure rfl

lemma quiet_modifiers (disallowed : List Modifier) : Quiet J (modifiers disallowed) :=
  .loop (quiet_modifiersRound disallowed) Modifiers.none

lemma readsFrom_annotation {s : ParseState} (h : Obeys J call) (hs : J.mem (s.advance env.src)) :
    ReadsFrom J s 0 ( annotation call) parts := by
  refine .view (readsFrom_advance hs ?_)
  refine .first yields_dottedName fun path => .view fun hasArgs => ?_
  extract_lets rest
  have hrest (args : List Argument) : Reads J (parts path + parts args) (rest args) parts :=
    .view fun span => .pure rfl
  clear_value rest
  split
  · refine .skip quiet_advance fun _ => .next (yields_list _ (yields_argument h)) fun args => ?_
    exact .skip (quiet_require _) fun _ => hrest args
  · exact .of_eq (add_zero _).symm (hrest [])

lemma yields_annotation (h : Obeys J call) : Yields J ( annotation call) :=
  fun _ hs => readsFrom_annotation h (J.step hs (.advance _))

lemma yields_generics : Yields J generics := by
  unfold generics
  refine .skip (quiet_optional _) fun opened => ?_
  split
  · refine .first (yields_list _ yields_identifier) fun names => ?_
    exact .skip (quiet_require _) fun _ => .pure rfl
  · exact .pure rfl

lemma yields_paramName : Yields J paramName := by
  refine .view fun wildcard => ?_
  split
  · refine .view fun span => .first (yields_name span (by decide)) fun name => ?_
    exact .skip quiet_advance fun _ => .pure rfl
  · exact yields_identifier

lemma yields_param (h : Obeys J call) : Yields J (param call) := by
  refine .view fun start => .skip (quiet_modifiers _) fun _ => .view fun k => ?_
  refine .skip_when quiet_advance (.first yields_paramName fun name => ?_)
  refine .skip (quiet_optional _) fun named => .skip (quiet_require _) fun _ => ?_
  refine .next (h.type J) fun type => ?_
  exact .next (yields_behind _ h.expression) fun default => .view fun span => .pure rfl

lemma yields_params (h : Obeys J call) : Yields J (params call) := by
  refine .skip (quiet_expect _) fun opened => ?_
  split
  · refine .first (yields_list _ (yields_param h)) fun params => ?_
    exact .skip (quiet_require _) fun _ => .pure rfl
  · exact .pure rfl

lemma yields_bounds (h : Obeys J call) : Yields J (bounds call) :=
  yields_separated _ (h.type J)

lemma yields_constraints (h : Obeys J call) : Yields J (constraints call) := by
  refine .skip (quiet_optional _) fun opened => ?_
  split
  · refine yields_separated _ (.first yields_identifier fun param => ?_)
    refine .skip (quiet_require _) fun _ => .next (yields_bounds h) fun bounds => .pure rfl
  · exact .pure rfl

lemma yields_supertypes (h : Obeys J call) : Yields J (supertypes call) := by
  refine .skip (quiet_optional _) fun opened => ?_
  split
  · exact yields_bounds h
  · exact .pure rfl

lemma yields_body? (hJ : J.Settled) (h : Obeys J call) : Yields J (body? call) := by
  refine .view fun opened => ?_
  split
  · exact .first (yields_block hJ h) fun block => .pure rfl
  · exact .pure rfl

/-! ## Names of functions -/

/-- The symbol of an operator that a function overloads, as the text of a name. -/
lemma reads_operatorName? (hJ : J.Settled) :
    Reads J 0 operatorName? fun o => o.elim 0 fun text => {.name text} := by
  have spelt {text : String} (h : text ≠ "") :
      Reads J 0 (pure (some text) : Rule (Option String))
        fun o => o.elim 0 fun text => {.name text} :=
    .spelt h (.pure (zero_add _))
  refine .view fun k => ?_
  split
  · refine .view fun next => ?_
    split
    · exact .skip quiet_advance fun _ => spelt (by decide)
    · exact .pure rfl
  · refine .view fun next => ?_
    split
    · exact .skip quiet_advance fun _ => spelt (by decide)
    · exact .pure rfl
  · exact spelt (by decide)
  · refine .skip (quiet_operatorKind hJ) fun k => ?_
    cases k.binaryOp? with
    | none => exact .pure rfl
    | some op => exact spelt op.symbol_ne_empty

lemma yields_functionName (hJ : J.Settled) : Yields J functionName := by
  refine .view fun k => ?_
  split
  · exact yields_identifier
  · refine .view fun start => .bind (reads_operatorName? hJ) fun o => ?_
    cases o with
    | some text => exact .skip quiet_advance fun _ => .view fun span => reads_name text span
    | none => exact .bind (reads_report _ _) fun _ => reads_missingName

/-! ## Functions -/

lemma yields_function (hJ : J.Settled) (h : Obeys J call) : Yields J (function call) := by
  refine .skip quiet_advance fun _ => .first (yields_functionName hJ) fun name => ?_
  refine .next yields_generics fun generics => .next (yields_params h) fun params => ?_
  refine .next (yields_behind _ (h.type J)) fun result => ?_
  refine .next (yields_constraints h) fun constraints => ?_
  exact .next (yields_body? hJ h) fun body => .pure rfl

lemma yields_mainFunction (hJ : J.Settled) (h : Obeys J call) : Yields J (mainFunction call) := by
  refine .view fun span => .first (yields_name span (Keyword.text_ne_empty _)) fun name => ?_
  refine .skip quiet_advance fun _ => .next (yields_params h) fun params => ?_
  refine .next (yields_behind _ (h.type J)) fun result => ?_
  refine .next (yields_block hJ h) fun body => .pure ?_
  simp [HasParts.parts]

lemma yields_macroBody (hJ : J.Settled) (h : Obeys J call) : Yields J (macroBody call) := by
  refine .skip (quiet_optional _) fun equals => ?_
  split
  · exact .view fun start => .first h.expression fun value => .view fun span => .pure (by simp)
  · exact yields_block hJ h

lemma yields_macroDefinition (hJ : J.Settled) (h : Obeys J call) :
    Yields J (macroDefinition call) := by
  refine .skip quiet_advance fun _ => .first yields_identifier fun name => ?_
  refine .next (yields_params h) fun params => ?_
  refine .next (yields_behind _ (h.type J)) fun result => ?_
  refine .next (yields_macroBody hJ h) fun body => .pure ?_
  simp [HasParts.parts]

/-! ## Variables and aliases -/

lemma yields_varDecl (kind : VarKind) (h : Obeys J call) : Yields J (varDecl call kind) := by
  refine .skip quiet_advance fun _ => .first (h.pattern _) fun pattern => ?_
  refine .next (yields_behind _ (h.type J)) fun type => ?_
  exact .next (yields_behind _ h.expression) fun value => .pure rfl

lemma yields_typeAlias (h : Obeys J call) : Yields J (typeAlias call) := by
  refine .skip quiet_advance fun _ => .first yields_identifier fun name => ?_
  refine .next yields_generics fun generics => .skip (quiet_require _) fun _ => ?_
  exact .next (h.type J) fun type => .pure rfl

/-! ## Types with members -/

/-- A member, or the placeholder of one that is nested too deeply. -/
lemma yields_nestedMember (h : Obeys J call) :
    Yields J (nested
      (fun span => allocDecl { form := .error, span, annotations := [], modifiers := .none })
      (call (.declaration .member))) :=
  reads_nested (fun _ => .of_eq rfl (reads_allocDecl _)) (h.declaration _)

lemma reads_membersRound (hJ : J.Settled) (h : Obeys J call) (members : List DeclId) :
    Reads J (parts members) (membersRound call members) parts := by
  refine .view fun k => ?_
  split
  · exact .pure rfl
  · split
    · exact .skip quiet_advance fun _ => .pure rfl
    · refine .get fun s => .next (yields_nestedMember h) fun member => ?_
      exact .skip (quiet_endItem hJ _ _ _) fun _ => .pure (by simp)

lemma yields_members (hJ : J.Settled) (h : Obeys J call) : Yields J (members call) :=
  Reads.loop_parts (reads_membersRound hJ h) []

lemma yields_memberBody (owner : Option String) (hJ : J.Settled) (h : Obeys J call) :
    Yields J (memberBody call owner) := by
  refine .skip (quiet_expect _) fun opened => ?_
  split
  · refine reads_enclosedBy hJ (.first (yields_members hJ h) fun members => ?_)
    exact .skip (quiet_require _) fun _ => .pure rfl
  · exact .pure rfl

lemma yields_typeBody (kind : TypeDeclKind) (hJ : J.Settled) (h : Obeys J call) :
    Yields J (typeBody call kind) := by
  refine .skip quiet_advance fun _ => .first yields_identifier fun name => ?_
  refine .next yields_generics fun generics => .next (yields_supertypes h) fun supertypes => ?_
  refine .next (yields_constraints h) fun constraints => ?_
  exact .next (yields_memberBody _ hJ h) fun members => .pure rfl

lemma yields_enumCase (h : Obeys J call) : Yields J (enumCase call) := by
  refine .view fun start => .first yields_identifier fun name => ?_
  refine .next (yields_inParens? (yields_list _ (h.type J))) fun params => .view fun span => ?_
  cases params with
  | none => exact .pure rfl
  | some params => exact .pure rfl

lemma reads_enumCasesRound (h : Obeys J call) (b : List EnumCase × Bool) :
    Reads J (parts b) (enumCasesRound call b) parts := by
  obtain ⟨cases, nonExhaustive⟩ := b
  refine .of_eq (add_zero (parts cases)) (.view fun dots => ?_)
  extract_lets rest
  have hrest (case? : Option (List EnumCase × Bool)) :
      Reads J (case?.elim (parts cases) parts) (rest case?) parts := by
    cases case? with
    | none => exact .pure (add_zero _).symm
    | some cases =>
      refine .skip (quiet_optional _) fun bar => ?_
      split
      · exact .pure rfl
      · exact .pure rfl
  clear_value rest
  split
  · exact .skip quiet_advance fun _ => .of_eq (add_zero _).symm (hrest (some (cases, true)))
  · refine .view fun names => ?_
    split
    · refine .next (yields_enumCase h) fun one => .of_eq ?_ (hrest (some (cases ++ [one], _)))
      simp
    · exact hrest none

lemma yields_enumCases (h : Obeys J call) : Yields J (enumCases call) :=
  .skip (quiet_optional _) fun _ => Reads.loop_parts (reads_enumCasesRound h) ([], false)

lemma yields_enumType (hJ : J.Settled) (h : Obeys J call) : Yields J (enumType call) := by
  refine .skip quiet_advance fun _ => .first yields_identifier fun name => ?_
  refine .next yields_generics fun generics => .next (yields_supertypes h) fun supertypes => ?_
  refine .next (yields_constraints h) fun constraints => .skip (quiet_expect _) fun opened => ?_
  extract_lets rest
  have hrest (body : List EnumCase × Bool × List DeclId) :
      Reads J (parts name + parts generics + parts supertypes + parts constraints + parts body)
        (rest body) parts := by
    refine .pure ?_
    rw [parts_pair, parts_pair, parts_bool, zero_add, ← add_assoc]
    rfl
  clear_value rest
  split
  · refine .next (reads_enclosedBy hJ ?_) hrest
    refine .first (yields_enumCases h) fun (cases, nonExhaustive) => ?_
    refine .next (yields_members hJ h) fun members => .skip (quiet_require _) fun _ => ?_
    exact .pure (by simp)
  · exact .of_eq (by simp) (hrest ([], false, []))

lemma yields_extension (hJ : J.Settled) (h : Obeys J call) : Yields J (extension call) := by
  refine .skip quiet_advance fun _ => .first yields_generics fun generics => ?_
  refine .next (h.type J) fun target => .next (yields_supertypes h) fun supertypes => ?_
  refine .next (yields_constraints h) fun constraints => ?_
  exact .next (yields_memberBody _ hJ h) fun members => .pure rfl

lemma yields_foreignBlock (hJ : J.Settled) (h : Obeys J call) : Yields J (foreignBlock call) := by
  exact .skip quiet_advance fun _ => .first (yields_memberBody _ hJ h) fun members => .pure rfl

/-! ## Members -/

instance : HasParts Accessors := ⟨fun a => HasParts.parts a.getter + HasParts.parts a.setter⟩

/-- One more accessor takes the place of an earlier one, which is lost with the declarations in it. -/
lemma reads_accessorsRound (hloses : J.loses) (hJ : J.Settled) (h : Obeys J call) (a : Accessors) :
    Reads J (parts a) (accessorsRound call a) parts := by
  refine .view fun k => ?_
  split
  · exact .pure rfl
  · refine .view fun gets => ?_
    split
    · refine .skip quiet_advance fun _ => .skip (yields_inParens (.pure rfl)) fun _ => ?_
      refine .next (yields_block hJ h) fun block => ?_
      refine .lose hloses ?_ (.pure rfl)
      change parts block + parts a.setter ≤ parts a.getter + parts a.setter + parts block
      exact Multiset.le_iff_exists_add.2 ⟨parts a.getter, by abel⟩
    · refine .view fun sets => ?_
      split
      · refine .skip quiet_advance fun _ => .next (yields_inParens yields_identifier) fun name => ?_
        refine .next (yields_block hJ h) fun block => ?_
        refine .lose hloses ?_ (.pure rfl)
        change parts a.getter + (parts name + parts block)
          ≤ parts a.getter + parts a.setter + parts name + parts block
        exact Multiset.le_iff_exists_add.2 ⟨parts a.setter, by abel⟩
      · exact .skip_unless (quiet_report _ _) (.skip quiet_advance fun _ => .pure rfl)

lemma yields_accessors (hloses : J.loses) (hJ : J.Settled) (h : Obeys J call) :
    Yields J (accessors call) :=
  Reads.loop_parts (reads_accessorsRound hloses hJ h) ({} : Accessors)

lemma yields_property (hloses : J.loses) (hJ : J.Settled) (h : Obeys J call) :
    Yields J (property call) := by
  refine .skip quiet_advance fun _ => .first yields_identifier fun name => ?_
  refine .skip (quiet_require _) fun _ => .next (h.type J) fun type => ?_
  refine .skip (quiet_optional _) fun opened => ?_
  split
  · refine .next (yields_accessors hloses hJ h) fun a => .skip (quiet_require _) fun _ => .pure ?_
    simp [HasParts.parts]
  · exact .pure (by simp [HasParts.parts])

lemma reads_initializer (kind : InitKind) (name : Option Name) (hJ : J.Settled)
    (h : Obeys J call) : Reads J (parts name) (initializer call kind name) parts := by
  refine .next (yields_params h) fun params => ?_
  exact .next (yields_body? hJ h) fun body => .pure rfl

lemma quiet_atPrimaryInit : Quiet J atPrimaryInit := by
  refine .get fun s => ?_
  split
  · exact .pure rfl
  · exact .view fun text => .skip (quiet_intern text) fun _ => quiet_view _

/-! ## Any declaration -/

lemma yields_declarationExpected (place : DeclPlace) (hJ : J.Settled) :
    Yields J (declarationExpected place) := by
  refine .bind (reads_report _ _) fun _ => ?_
  exact .skip (quiet_skipStatement hJ true) fun _ => .pure rfl

lemma yields_declarationForm (place : DeclPlace) (modifiers : Modifiers) (hJ : J.Settled)
    (h : Obeys J call) : Yields J (declarationForm call place modifiers) := by
  refine fun s hs => .view ?_
  split
  case h_16 hkind => exact yields_property (hJ.property hs hkind) hJ h s hs
  all_goals refine .of_reads hs ?_
  · exact .first (yields_function hJ h) fun f => .pure rfl
  · exact yields_varDecl _ h
  · exact yields_varDecl _ h
  · exact yields_varDecl _ h
  · exact yields_typeBody _ hJ h
  · exact yields_typeBody _ hJ h
  · exact yields_typeBody _ hJ h
  · exact yields_enumType hJ h
  · exact yields_typeAlias h
  · exact yields_extension hJ h
  · exact yields_extension hJ h
  · exact yields_foreignBlock hJ h
  · exact yields_foreignBlock hJ h
  · exact .first (yields_macroDefinition hJ h) fun f => .pure rfl
  · exact .first (yields_mainFunction hJ h) fun f => .pure rfl
  · exact .skip quiet_advance fun _ => reads_initializer _ none hJ h
  · refine .view fun next => ?_
    split
    · exact .skip quiet_advance fun _ => .skip quiet_advance fun _ => reads_initializer _ none hJ h
    · exact yields_declarationExpected _ hJ
  · refine .skip quiet_atPrimaryInit fun primary => ?_
    split
    · exact .first yields_identifier fun name => reads_initializer _ (some name) hJ h
    · exact yields_declarationExpected _ hJ
  · exact yields_declarationExpected _ hJ

lemma reads_annotationsRound (h : Obeys J call) (annotations : List Annotation) :
    Reads J (parts annotations) (annotationsRound call annotations) parts := by
  refine .view fun marked => ?_
  split
  · refine .view fun calls => ?_
    split
    · exact .next yields_macroCall fun expansion => .pure rfl
    · have held := yields_annotation h
      exact .next held fun one => .pure (by simp)
  · exact .pure (add_zero _).symm

lemma yields_annotations (h : Obeys J call) : Yields J (annotations call) :=
  Reads.loop_parts (reads_annotationsRound h) []

lemma yields_declaration (place : DeclPlace) (hJ : J.Settled) (h : Obeys J call) :
    Yields J (declaration call place) := by
  refine .view fun start => .first (yields_annotations h) fun (annotations, expansion?) => ?_
  cases expansion? with
  | some expansion => exact .view fun span => .of_eq (add_comm _ _) (reads_allocDecl _)
  | none =>
    refine .of_eq (add_zero _) (.skip (quiet_modifiers _) fun modifiers => ?_)
    refine .next (yields_declarationForm place modifiers hJ h) fun form => .view fun span => ?_
    exact .of_eq (add_comm _ _) (reads_allocDecl _)

end CangjieSyntax.Rule
