import CangjieSyntax.Grammar.Declarations
import CangjieSyntax.Proofs.Twin.Expressions

/-!
# How the rules of declarations follow each other
-/

namespace CangjieSyntax.Rule

variable {T : Twins} {call call' : Call}

/-! ## Modifiers, parameters and bounds -/

lemma follows_modifiers (disallowed : List Modifier) :
    Follows T (modifiers disallowed) id (modifiers disallowed) := by
  refine .loop_id (fun ms => .view_id (fun _ _ hs => hs.modifier?) fun m => ?_) _
  cases m with
  | none => exact .pure rfl
  | some m =>
    have taken : Follows T (do advance; return .inl (ms.insert m)) id
        (do advance; return .inl (ms.insert m) : Rule (Modifiers ⊕ Modifiers)) :=
      .bind_id follows_advance fun _ => .pure rfl
    exact .ite (fun _ => .bind_id (follows_report _ _) fun _ => taken) fun _ => taken

lemma follows_generics : Follows T generics (move T.shift) generics := by
  refine .bind_id (follows_optional _) fun opens => .ite (fun _ => ?_) fun _ => .pure rfl
  refine .bind (follows_list follows_identifier _) fun names => ?_
  exact .bind_id (follows_require _) fun _ => .pure rfl

lemma follows_paramName : Follows T paramName (move T.shift) paramName := by
  refine .isAt _ fun hole => .ite (fun _ => ?_) fun _ => follows_identifier
  refine .tokenSpan fun span => .bind (follows_name _ rfl) fun name => ?_
  exact .bind_id follows_advance fun _ => .pure rfl

lemma follows_operatorName? : Follows T operatorName? id operatorName? := by
  refine .kind fun k => ?_
  split
  · refine .peek fun next => .ite (fun _ => ?_) fun _ => .pure rfl
    exact .bind_id follows_advance fun _ => .pure rfl
  · refine .peek fun next => .ite (fun _ => ?_) fun _ => .pure rfl
    exact .bind_id follows_advance fun _ => .pure rfl
  · exact .pure rfl
  · exact .bind_id follows_operatorKind fun _ => .pure rfl

lemma follows_functionName : Follows T functionName (move T.shift) functionName := by
  refine .kind fun k => .ite (fun _ => follows_identifier) fun _ => .start fun start => ?_
  refine .bind_id follows_operatorName? fun text => ?_
  split
  · exact .bind_id follows_advance fun _ => .spanFrom start fun span => follows_name _ rfl
  · exact .bind_id (follows_report _ _) fun _ => follows_missingName

section

variable (h : Calls T call call')

include h

lemma follows_annotation : Follows T ( annotation call) (move T.shift) ( annotation call') := by
  refine .start fun start => .bind_id follows_advance fun _ => .bind follows_dottedName fun path => ?_
  refine .view_id (fun _ _ hs => by rw [hs.kind, hs.same.lineBreak]) fun hasArgs => ?_
  extract_lets rest rest'
  have hrest (args : List Argument) :
      Follows T (rest args) (move T.shift) (rest' (move T.shift args)) :=
    .spanFrom start fun span => .pure rfl
  clear_value rest rest'
  refine .ite (fun _ => .bind_id follows_advance fun _ => ?_) fun _ => hrest []
  refine .bind (follows_list (follows_argument h) _) fun args => ?_
  exact .bind_id (follows_require _) fun _ => hrest args

lemma follows_param : Follows T (param call) (move T.shift) (param call') := by
  refine .start fun start => .bind_id (follows_modifiers _) fun _ => .kind fun k => ?_
  extract_lets member rest rest'
  have hrest (u : Unit) : Follows T (rest u) (move T.shift) (rest' u) := by
    refine .bind follows_paramName fun name => .bind_id (follows_optional _) fun named => ?_
    refine .bind_id (follows_require _) fun _ => .bind h.type fun type => ?_
    refine .bind (follows_behind h.expression _) fun default => ?_
    exact .spanFrom start fun span => .pure rfl
  clear_value rest rest'
  exact .ite (fun _ => .bind_id follows_advance hrest) fun _ => hrest ()

lemma follows_params : Follows T (params call) (move T.shift) (params call') := by
  refine .bind_id (follows_expect _) fun opens => .ite (fun _ => ?_) fun _ => .pure rfl
  refine .bind (follows_list (follows_param h) _) fun params => ?_
  exact .bind_id (follows_require _) fun _ => .pure rfl

lemma follows_bounds : Follows T (bounds call) (move T.shift) (bounds call') :=
  follows_separated h.type _

lemma follows_constraints : Follows T (constraints call) (move T.shift) (constraints call') := by
  refine .bind_id (follows_optional _) fun opens => .ite (fun _ => ?_) fun _ => .pure rfl
  refine follows_separated (.bind follows_identifier fun param => ?_) _
  exact .bind_id (follows_require _) fun _ => .bind (follows_bounds h) fun bounds => .pure rfl

lemma follows_supertypes : Follows T (supertypes call) (move T.shift) (supertypes call') :=
  .bind_id (follows_optional _) fun _ => .ite (fun _ => follows_bounds h) fun _ => .pure rfl

lemma follows_body? : Follows T (body? call) (move T.shift) (body? call') :=
  .isAt _ fun _ => .ite (fun _ => .bind (follows_block h) fun _ => .pure rfl) fun _ => .pure rfl

end

/-! ## Declarations -/

instance : Moves Accessors where
  move m a := { a with getter := move m a.getter, setter := move m a.setter }
  move_refl a := by simp

lemma follows_atWord (word : String) : Follows T (atWord word) id (atWord word) :=
  .look fun _ _ hs => by rw [hs.kind, hs.same.value, id]

/-- The name of the type around the place is met in both parses. -/
lemma follows_atPrimaryInit : Follows T atPrimaryInit id atPrimaryInit := by
  refine .get fun s s' hs => ?_
  rw [hs.enclosingType]
  cases s.enclosingType with
  | none => exact .pure rfl
  | some owner =>
    refine .tokenValue fun value => .bind_id (follows_intern value) fun _ => ?_
    exact .look fun _ _ hs => by rw [hs.same.value, hs.peek, id]

lemma follows_declarationExpected (place : DeclPlace) :
    Follows T (declarationExpected place) (move T.shift) (declarationExpected place) :=
  .bind_id (follows_report _ _) fun _ => .bind_id (follows_skipStatement true) fun _ => .pure rfl

section

variable (h : Calls T call call')

include h

/-! ## Functions -/

lemma follows_function : Follows T (function call) (move T.shift) (function call') :=
  .bind_id follows_advance fun _ => .bind follows_functionName fun _ =>
    .bind follows_generics fun _ => .bind (follows_params h) fun _ =>
      .bind (follows_typeBehind h.type _) fun _ => .bind (follows_constraints h) fun _ =>
        .bind (follows_body? h) fun _ => .pure rfl

lemma follows_mainFunction : Follows T (mainFunction call) (move T.shift) (mainFunction call') :=
  .tokenSpan fun _ => .bind (follows_name _ rfl) fun _ => .bind_id follows_advance fun _ =>
    .bind (follows_params h) fun _ => .bind (follows_typeBehind h.type _) fun _ =>
      .bind (follows_block h) fun _ => .pure rfl

lemma follows_macroBody : Follows T (macroBody call) (move T.shift) (macroBody call') := by
  refine .bind_id (follows_optional _) fun value => .ite (fun _ => ?_) fun _ => follows_block h
  refine .start fun start => .bind h.expression fun value => ?_
  exact .spanFrom start fun span => .pure rfl

lemma follows_macroDefinition :
    Follows T (macroDefinition call) (move T.shift) (macroDefinition call') :=
  .bind_id follows_advance fun _ => .bind follows_identifier fun _ =>
    .bind (follows_params h) fun _ => .bind (follows_typeBehind h.type _) fun _ =>
      .bind (follows_macroBody h) fun _ => .pure rfl

/-! ## Variables and aliases -/

lemma follows_varDecl (kind : VarKind) :
    Follows T (varDecl call kind) (move T.shift) (varDecl call' kind) :=
  .bind_id follows_advance fun _ => .bind (h.pattern .declaration) fun _ =>
    .bind (follows_typeBehind h.type _) fun _ =>
      .bind (follows_behind h.expression _) fun _ => .pure rfl

lemma follows_typeAlias : Follows T (typeAlias call) (move T.shift) (typeAlias call') :=
  .bind_id follows_advance fun _ => .bind follows_identifier fun _ =>
    .bind follows_generics fun _ => .bind_id (follows_require _) fun _ =>
      .bind h.type fun _ => .pure rfl

/-! ## Types with members -/

lemma follows_members : Follows T (members call) (move T.shift) (members call') := by
  refine .loop_moves (fun members => .kind fun k => ?_) []
  refine .ite (fun _ => .pure rfl) fun _ => .ite (fun _ => ?_) fun _ => ?_
  · exact .bind_id follows_advance fun _ => .pure rfl
  · refine .get fun _ _ hs => .bind (f := move T.shift) ?_ fun member => ?_
    · exact follows_nested (fun span => follows_allocDecl rfl) (h.declaration .member)
    · rw [hs.start, hs.errorCount]
      exact .bind_id (follows_endItem _ _ _) fun _ => .pure (by simp)

lemma follows_memberBody (owner : Option String) :
    Follows T (memberBody call owner) (move T.shift) (memberBody call' owner) := by
  refine .bind_id (follows_expect _) fun opens => .ite (fun _ => ?_) fun _ => .pure rfl
  refine follows_enclosedBy owner (.bind (follows_members h) fun members => ?_)
  exact .bind_id (follows_require _) fun _ => .pure rfl

lemma follows_typeBody (kind : TypeDeclKind) :
    Follows T (typeBody call kind) (move T.shift) (typeBody call' kind) :=
  .bind_id follows_advance fun _ => .bind follows_identifier fun _ =>
    .bind follows_generics fun _ => .bind (follows_supertypes h) fun _ =>
      .bind (follows_constraints h) fun _ => .bind (follows_memberBody h _) fun _ => .pure rfl

lemma follows_enumCase : Follows T (enumCase call) (move T.shift) (enumCase call') := by
  refine .start fun start => .bind follows_identifier fun name => ?_
  refine .bind (follows_inParens? (follows_list h.type _)) fun params => ?_
  refine .spanFrom start fun span => .pure ?_
  cases params with
  | none => rfl
  | some params => rfl

lemma follows_enumCases : Follows T (enumCases call) (move T.shift) (enumCases call') := by
  refine .bind_id (follows_optional _) fun _ => .loop_moves (fun (cases, nonExhaustive) => ?_) _
  refine .isAt _ fun dots => ?_
  extract_lets rest rest'
  have hrest (case? : Option (List EnumCase × Bool)) :
      Follows T (rest case?) (move T.shift) (rest' (move T.shift case?)) := by
    cases case? with
    | none => exact .pure rfl
    | some cases =>
      refine .bind_id (follows_optional _) fun more => ?_
      exact .ite (fun _ => .pure rfl) fun _ => .pure rfl
  clear_value rest rest'
  refine .ite (fun _ => ?_) fun _ => ?_
  · exact .bind_id follows_advance fun _ => hrest (some (cases, true))
  · refine .view_id (fun _ _ hs => by rw [hs.kind, hs.atModifier]) fun named => .ite (fun _ => ?_) fun _ => hrest none
    refine .bind (follows_enumCase h) fun c => ?_
    have := hrest (some (cases ++ [c], nonExhaustive))
    rwa [move_some, move_pair, move_append] at this

lemma follows_enumType : Follows T (enumType call) (move T.shift) (enumType call') := by
  refine .bind_id follows_advance fun _ => .bind follows_identifier fun name => ?_
  refine .bind follows_generics fun generics => .bind (follows_supertypes h) fun supertypes => ?_
  refine .bind (follows_constraints h) fun constraints => .bind_id (follows_expect _) fun opens => ?_
  refine .ite (fun _ => ?_) fun _ => .pure rfl
  refine .bind (f := move T.shift) (follows_enclosedBy _ ?_) fun (cases, nonExhaustive, members) => ?_
  · refine .bind (follows_enumCases h) fun (cases, nonExhaustive) => ?_
    exact .bind (follows_members h) fun members => .bind_id (follows_require _) fun _ => .pure rfl
  · exact .pure rfl

lemma follows_extension : Follows T (extension call) (move T.shift) (extension call') :=
  .bind_id follows_advance fun _ => .bind follows_generics fun _ => .bind h.type fun _ =>
    .bind (follows_supertypes h) fun _ => .bind (follows_constraints h) fun _ =>
      .bind (follows_memberBody h none) fun _ => .pure rfl

lemma follows_foreignBlock : Follows T (foreignBlock call) (move T.shift) (foreignBlock call') :=
  .bind_id follows_advance fun _ => .bind (follows_memberBody h none) fun _ => .pure rfl

/-! ## Members -/

lemma follows_accessors : Follows T (accessors call) (move T.shift) (accessors call') := by
  refine .loop_moves (fun a => .kind fun k => ?_) ({} : Accessors)
  refine .ite (fun _ => .pure rfl) fun _ => ?_
  refine .bind_id (follows_atWord _) fun reads => .ite (fun _ => ?_) fun _ => ?_
  · refine .bind_id follows_advance fun _ => ?_
    refine .bind_id (follows_inParens (f := id) (.pure rfl)) fun _ => ?_
    exact .bind (follows_block h) fun body => .pure rfl
  · refine .bind_id (follows_atWord _) fun writes => .ite (fun _ => ?_) fun _ => ?_
    · refine .bind_id follows_advance fun _ => .bind (follows_inParens follows_identifier) fun name => ?_
      exact .bind (follows_block h) fun body => .pure rfl
    · have skipped : Follows T (do advance; return .inl { a with reported := true }) (move T.shift)
          (do advance; return .inl { move T.shift a with reported := true } :
            Rule (Accessors ⊕ Accessors)) :=
        .bind_id follows_advance fun _ => .pure rfl
      exact .ite (fun _ => skipped) fun _ => .bind_id (follows_report _ _) fun _ => skipped

lemma follows_property : Follows T (property call) (move T.shift) (property call') := by
  refine .bind_id follows_advance fun _ => .bind follows_identifier fun name => ?_
  refine .bind_id (follows_require _) fun _ => .bind h.type fun type => ?_
  refine .bind_id (follows_optional _) fun opens => .ite (fun _ => ?_) fun _ => .pure rfl
  refine .bind (follows_accessors h) fun accessors => ?_
  exact .bind_id (follows_require _) fun _ => .pure rfl

lemma follows_initializer (kind : InitKind) {name name' : Option Name}
    (hname : name' = move T.shift name) :
    Follows T (initializer call kind name) (move T.shift) (initializer call' kind name') := by
  subst hname
  exact .bind (follows_params h) fun params => .bind (follows_body? h) fun body => .pure rfl

/-! ## Any declaration -/

lemma follows_declarationForm (place : DeclPlace) (modifiers : Modifiers) :
    Follows T (declarationForm call place modifiers) (move T.shift)
      (declarationForm call' place modifiers) := by
  refine .kind fun k => ?_
  split
  · exact .bind (follows_function h) fun _ => .pure rfl
  · exact follows_varDecl h _
  · exact follows_varDecl h _
  · exact follows_varDecl h _
  · exact follows_typeBody h _
  · exact follows_typeBody h _
  · exact follows_typeBody h _
  · exact follows_enumType h
  · exact follows_typeAlias h
  · exact follows_extension h
  · exact follows_extension h
  · exact follows_foreignBlock h
  · exact follows_foreignBlock h
  · exact .bind (follows_macroDefinition h) fun _ => .pure rfl
  · exact .bind (follows_mainFunction h) fun _ => .pure rfl
  · exact follows_property h
  · exact .bind_id follows_advance fun _ => follows_initializer h _ rfl
  · refine .peek fun next => .ite (fun _ => ?_) fun _ => follows_declarationExpected _
    refine .bind_id follows_advance fun _ => .bind_id follows_advance fun _ => ?_
    exact follows_initializer h _ rfl
  · refine .bind_id follows_atPrimaryInit fun primary => .ite (fun _ => ?_) fun _ => ?_
    · exact .bind follows_identifier fun name => follows_initializer h _ rfl
    · exact follows_declarationExpected _
  · exact follows_declarationExpected place

lemma follows_annotations : Follows T (annotations call) (move T.shift) (annotations call') := by
  refine .loop_moves (fun annotations => .isAt _ fun here => .ite (fun _ => ?_) fun _ => ?_) []
  · refine .view_id (fun _ _ hs => hs.sees.atMacroCall) fun expands => .ite (fun _ => ?_) fun _ => ?_
    · exact .bind follows_macroCall fun expansion => .pure rfl
    · exact .bind ( follows_annotation h) fun annotation => .pure (by simp)
  · exact .pure rfl

/-- A declaration is followed if the rules it calls are. -/
lemma follows_declaration (place : DeclPlace) :
    Follows T (declaration call place) (move T.shift) (declaration call' place) := by
  refine .start fun start => .bind (follows_annotations h) fun (annotations, expansion) => ?_
  cases expansion with
  | some expansion => exact .spanFrom start fun span => follows_allocDecl rfl
  | none =>
    refine .bind_id (follows_modifiers _) fun modifiers => ?_
    refine .bind (follows_declarationForm h place modifiers) fun form => ?_
    exact .spanFrom start fun span => follows_allocDecl rfl

end

end CangjieSyntax.Rule
