import CangjieSyntax.Grammar.Declarations
import CangjieSyntax.Proofs.Layout.Expressions
import CangjieSyntax.Proofs.Layout.Control

/-!
# How the rules of declarations lay out what they read

Functions, variables, types with their members, extensions and macros, with the modifiers and
annotations in front of them. The accessors of a property may stand in either order, so that its parts are laid in one of
the orders in which they may be read.
-/

namespace CangjieSyntax.Rule

variable {env : Env} {J : Ground env} {call : Call} {lo : Nat}

/-! ## Modifiers, parameters and bounds -/

lemma lays_modifiersRound (disallowed : List Modifier) (ms : Modifiers) :
    Lays J lo (marks ms) (modifiersRound disallowed ms) marks := by
  refine .view fun m? => ?_
  split
  · refine .skip_when (faults_report _ _) (.skip takes_advance fun _ => ?_)
    exact .pure (List.Sublist.refl _)
  · exact .pure (List.Sublist.refl _)

lemma places_modifiers (disallowed : List Modifier) : Places J (modifiers disallowed) :=
  fun _ => Lays.loop_marks (lays_modifiersRound disallowed) Modifiers.none

lemma places_annotation (h : LaysOut J call) : Places J ( annotation call) := by
  refine fun lo => .edge fun start hstart => .skip takes_advance fun _ => ?_
  refine .first places_dottedName fun path => .view fun hasArgs => ?_
  extract_lets rest
  have hrest (args : List Argument) : Lays J lo (marks path ++ marks args) (rest args) marks :=
    .spanFrom hstart fun span hspan => .hold hspan (.pure (List.Sublist.refl _))
  clear_value rest
  split
  · refine .skip takes_advance fun _ => .next (places_list _ (places_argument h)) fun args => ?_
    exact .skip (takes_require _) fun _ => hrest args
  · exact .of_eq (by simp) (hrest [])

lemma places_generics : Places J generics := by
  unfold generics
  refine fun lo => .skip (lays_optional _) fun opened => ?_
  split
  · refine .first (places_list _ places_identifier) fun names => ?_
    exact .skip (takes_require _) fun _ => .pure (List.Sublist.refl _)
  · exact .pure (List.Sublist.refl _)

lemma places_paramName : Places J paramName := by
  refine fun lo => .view fun wildcard => ?_
  split
  · refine .tokenSpan fun span hspan => .first (places_name _ hspan) fun name => ?_
    exact .skip takes_advance fun _ => .pure (List.Sublist.refl _)
  · exact places_identifier lo

lemma places_param (h : LaysOut J call) : Places J (param call) := by
  refine fun lo => .edge fun start hstart => .skip (places_modifiers _) fun _ => .view fun k => ?_
  refine .skip_when takes_advance (.first places_paramName fun name => ?_)
  refine .skip (lays_optional _) fun named => .skip (takes_require _) fun _ => ?_
  refine .next (h.type J) fun type => .next (places_behind _ h.expression) fun default => ?_
  exact .spanFrom hstart fun span hspan => .hold hspan (.pure (List.Sublist.refl _))

lemma places_params (h : LaysOut J call) : Places J (params call) := by
  refine fun lo => .skip (lays_expect _) fun opened => ?_
  split
  · refine .first (places_list _ (places_param h)) fun params => ?_
    exact .skip (takes_require _) fun _ => .pure (List.Sublist.refl _)
  · exact .pure (List.Sublist.refl _)

lemma places_bounds (h : LaysOut J call) : Places J (bounds call) :=
  places_separated _ (h.type J)

lemma places_constraints (h : LaysOut J call) : Places J (constraints call) := by
  refine fun lo => .skip (lays_optional _) fun opened => ?_
  split
  · refine places_separated _ (fun lo => .first places_identifier fun param => ?_) lo
    refine .skip (takes_require _) fun _ => .next (places_bounds h) fun bounds => ?_
    exact .pure (List.Sublist.refl _)
  · exact .pure (List.Sublist.refl _)

lemma places_supertypes (h : LaysOut J call) : Places J (supertypes call) := by
  refine fun lo => .skip (lays_optional _) fun opened => ?_
  split
  · exact places_bounds h lo
  · exact .pure (List.Sublist.refl _)

lemma places_body? (hJ : J.Settled) (h : LaysOut J call) : Places J (body? call) := by
  refine fun lo => .view fun opened => ?_
  split
  · exact .first (places_block hJ h) fun block => .pure (List.Sublist.refl _)
  · exact .pure (List.Sublist.refl _)

/-! ## Names of functions -/

lemma lays_operatorName? (hJ : J.Settled) (lo : Nat) :
    Lays J lo [] operatorName? fun _ => [] := by
  have spelt (text : Option String) :
      Lays J lo [] (pure text : Rule (Option String)) fun _ => [] :=
    .pure (List.Sublist.refl _)
  refine .view fun k => ?_
  split
  · refine .view fun next => ?_
    split
    · exact .skip takes_advance fun _ => spelt _
    · exact spelt none
  · refine .view fun next => ?_
    split
    · exact .skip takes_advance fun _ => spelt _
    · exact spelt none
  · exact spelt _
  · exact .skip (places_operatorKind hJ) fun k => spelt _

lemma places_functionName (hJ : J.Settled) : Places J functionName := by
  refine fun lo => .view fun k => ?_
  split
  · exact places_identifier lo
  · refine .edge fun start hstart => .bind (lays_operatorName? hJ lo) fun o => ?_
    cases o with
    | some text =>
      exact .skip takes_advance fun _ => .spanFrom hstart fun span hspan => places_name text hspan lo
    | none => exact .skip (faults_report _ _) fun _ => places_missingName lo

end CangjieSyntax.Rule

namespace CangjieSyntax

/-- A rule lays out the marks of its result behind those it is given, both in one of several
orders. -/
def LaysAmong {env : Env} {α : Type} (J : Ground env) (lo : Nat) (pres : List (List Mark))
    (r : Rule α) (posts : α → List (List Mark)) : Prop :=
  ∀ s, J.mem s → BringsAbout J s (fun s => ∃ pre ∈ pres, Arranged env lo s pre) r fun a t =>
    ∃ post ∈ posts a, Arranged env lo t post

namespace LaysAmong

variable {env : Env} {J : Ground env} {α β : Type} {lo : Nat} {pres : List (List Mark)}
  {pre held : List Mark} {r : Rule α} {k : α → Rule β} {p : α → List Mark}
  {posts : α → List (List Mark)} {ends : β → List (List Mark)}

/-- What a rule does behind each of several orders. -/
lemma of_forall (hpre : pre ∈ pres) (h : ∀ pre ∈ pres, Lays J lo pre r p)
    (hp : ∀ a, ∃ post ∈ posts a, post.Sublist (p a)) : LaysAmong J lo pres r posts := by
  intro s hs a t e
  obtain ⟨ht, honward, -⟩ := h pre hpre s hs a t e
  refine ⟨ht, honward, fun ⟨ms, hms, hs'⟩ => ?_⟩
  obtain ⟨post, hpost, hsub⟩ := hp a
  obtain ⟨-, -, harranged⟩ := h ms hms s hs a t e
  exact ⟨post, hpost, (harranged hs').sublist hsub⟩

/-- Only one order is possible. -/
lemma lays (h : LaysAmong J lo [pre] r fun a => [p a]) : Lays J lo pre r p := by
  intro s hs a t e
  obtain ⟨ht, honward, harranged⟩ := h s hs a t e
  refine ⟨ht, honward, fun hs' => ?_⟩
  obtain ⟨post, hpost, ht'⟩ := harranged ⟨pre, List.mem_cons_self, hs'⟩
  exact List.mem_singleton.1 hpost ▸ ht'

lemma bind (h : LaysAmong J lo pres r posts) (hk : ∀ a, LaysAmong J lo (posts a) (k a) ends) :
    LaysAmong J lo pres (r >>= k) ends :=
  fun s hs => (h s hs).bind fun a t _ ht => hk a t ht

lemma pure {a : α} (h : ∀ pre ∈ pres, ∃ post ∈ posts a, post.Sublist pre) :
    LaysAmong J lo pres (Pure.pure a : Rule α) posts := by
  refine fun s hs => BringsAbout.pure hs fun ⟨pre, hpre, hs'⟩ => ?_
  obtain ⟨post, hpost, hsub⟩ := h pre hpre
  exact ⟨post, hpost, hs'.sublist hsub⟩

lemma view {f : Source → ParseState → α} (h : ∀ a, LaysAmong J lo pres (k a) ends) :
    LaysAmong J lo pres (Rule.view f >>= k) ends :=
  fun s hs => h _ s hs

/-- A rule that stands behind what is held, in whatever order. -/
lemma next (h : ∀ lo, Lays J lo [] r p)
    (hk : ∀ a, LaysAmong J lo (pres.map (· ++ p a)) (k a) ends) :
    LaysAmong J lo pres (r >>= k) ends := by
  have behind : LaysAmong J lo pres r fun a => pres.map (· ++ p a) := by
    intro s hs a t e
    refine ⟨(h lo s hs a t e).1, (h lo s hs a t e).2.1, fun ⟨pre, hpre, hs'⟩ => ?_⟩
    obtain ⟨-, -, harranged⟩ := Lays.frame h pre s hs a t e
    exact ⟨_, List.mem_map_of_mem hpre, harranged hs'⟩
  exact bind behind hk

/-- A rule behind which only what was held before is used. -/
lemma skip (h : ∀ lo, Lays J lo [] r p) (hk : ∀ a, LaysAmong J lo pres (k a) ends) :
    LaysAmong J lo pres (r >>= k) ends := by
  have unchanged : LaysAmong J lo pres r fun _ => pres := by
    intro s hs a t e
    refine ⟨(h lo s hs a t e).1, (h lo s hs a t e).2.1, fun ⟨pre, hpre, hs'⟩ => ?_⟩
    obtain ⟨-, -, harranged⟩ := Lays.frame h pre s hs a t e
    exact ⟨pre, hpre, (harranged hs').sublist (List.sublist_append_left _ _)⟩
  exact bind unchanged hk

/-- A rule that lays out its result in one of several orders behind what is held. -/
lemma use (h : ∀ lo, LaysAmong J lo [[]] r posts)
    (hk : ∀ a, LaysAmong J lo ((posts a).map (held ++ ·)) (k a) ends) :
    LaysAmong J lo [held] (r >>= k) ends := by
  have behind : LaysAmong J lo [held] r fun a => (posts a).map (held ++ ·) := by
    intro s hs a t e
    obtain ⟨ht, honward, harranged⟩ := h s.lexer.start s hs a t e
    refine ⟨ht, honward, fun ⟨pre, hpre, hs'⟩ => ?_⟩
    obtain rfl := List.mem_singleton.1 hpre
    obtain ⟨post, hpost, ht'⟩ := harranged ⟨[], List.mem_cons_self, hs'.fresh (J.footed hs)⟩
    exact ⟨_, List.mem_map_of_mem hpost, hs'.append (J.footed hs) honward ht'⟩
  exact bind behind hk

/-- Some of what is held may be left out before a rule. -/
lemma weaken {pres' : List (List Mark)} (hpres : ∀ pre ∈ pres, ∃ pre' ∈ pres', pre'.Sublist pre)
    (h : LaysAmong J lo pres' r posts) : LaysAmong J lo pres r posts := by
  intro s hs a t e
  obtain ⟨ht, honward, harranged⟩ := h s hs a t e
  refine ⟨ht, honward, fun ⟨pre, hpre, hs'⟩ => ?_⟩
  obtain ⟨pre', hpre', hsub⟩ := hpres pre hpre
  exact harranged ⟨pre', hpre', hs'.sublist hsub⟩

lemma loop {step : β → Rule (β ⊕ α)}
    (h : ∀ b, LaysAmong J lo (ends b) (step b) (Sum.elim ends posts)) (b : β) :
    LaysAmong J lo (ends b) (Rule.loop step b) posts := by
  refine fun s hs => BringsAbout.loop (R := fun b s => ∃ pre ∈ ends b, Arranged env lo s pre)
    (Q := fun a s => ∃ post ∈ posts a, Arranged env lo s post) (fun b s hs => ?_) b hs
  intro next t e
  obtain ⟨ht, honward, harranged⟩ := h b s hs next t e
  refine ⟨ht, honward, fun hb => ?_⟩
  cases next <;> exact harranged hb

end LaysAmong

namespace Rule

variable {env : Env} {J : Ground env} {call : Call} {lo : Nat}

/-! ## Functions -/

lemma lays_function (hJ : J.Settled) (h : LaysOut J call) :
    Lays J lo [] (function call) fun f => .token :: marks f := by
  refine .take takes_advance fun _ => .next (places_functionName hJ) fun name => ?_
  refine .next places_generics fun generics => .next (places_params h) fun params => ?_
  refine .next (places_behind _ (h.type J)) fun result => ?_
  refine .next (places_constraints h) fun constraints => ?_
  exact .next (places_body? hJ h) fun body => .pure (by simp [marks])

lemma lays_mainFunction (hJ : J.Settled) (h : LaysOut J call) :
    Lays J lo [] (mainFunction call) fun f => .token :: marks f := by
  refine .tokenSpan fun span hspan => .first (places_name _ hspan) fun name => ?_
  refine .take takes_advance fun _ => .next (places_params h) fun params => ?_
  refine .next (places_behind _ (h.type J)) fun result => ?_
  exact .next (places_block hJ h) fun body => .begun (by simp) (.pure (by simp [marks]))

lemma places_macroBody (hJ : J.Settled) (h : LaysOut J call) : Places J (macroBody call) := by
  refine fun lo => .skip (lays_optional _) fun equals => ?_
  split
  · refine .edge fun start hstart => .first h.expression fun value => ?_
    exact .spanFrom hstart fun span hspan => .hold hspan (.pure (by simp))
  · exact places_block hJ h lo

lemma lays_macroDefinition (hJ : J.Settled) (h : LaysOut J call) :
    Lays J lo [] (macroDefinition call) fun f => .token :: marks f := by
  refine .take takes_advance fun _ => .next places_identifier fun name => ?_
  refine .next (places_params h) fun params => ?_
  refine .next (places_behind _ (h.type J)) fun result => ?_
  exact .next (places_macroBody hJ h) fun body => .pure (by simp [marks])

/-! ## Variables and aliases -/

lemma lays_varDecl (kind : VarKind) (h : LaysOut J call) :
    Lays J lo [] (varDecl call kind) fun form => .token :: marks form := by
  refine .take takes_advance fun _ => .next (h.pattern _) fun pattern => ?_
  refine .next (places_behind _ (h.type J)) fun type => ?_
  exact .next (places_behind _ h.expression) fun value => .pure (by simp [marks])

lemma lays_typeAlias (h : LaysOut J call) :
    Lays J lo [] (typeAlias call) fun form => .token :: marks form := by
  refine .take takes_advance fun _ => .next places_identifier fun name => ?_
  refine .next places_generics fun generics => .skip (takes_require _) fun _ => ?_
  exact .next (h.type J) fun type => .pure (by simp [marks])

/-! ## Types with members -/

/-- A member, or the placeholder of one that is nested too deeply. -/
lemma places_nestedMember (h : LaysOut J call) :
    Places J (nested
      (fun span => allocDecl { form := .error, span, annotations := [], modifiers := .none })
      (call (.declaration .member))) := by
  refine places_nested (fun lo span hspan => ?_) (h.declaration _)
  exact (lays_allocDecl_fault hspan (by simp) rfl (List.nil_sublist _)).forget fun _ =>
    List.sublist_cons_self _ _

lemma lays_membersRound (hJ : J.Settled) (h : LaysOut J call) (members : List DeclId) :
    Lays J lo (marks members) (membersRound call members) marks := by
  refine .view fun k => ?_
  split
  · exact .pure (List.Sublist.refl _)
  · split
    · exact .skip takes_advance fun _ => .pure (List.Sublist.refl _)
    · refine .get fun s => .next (places_nestedMember h) fun member => ?_
      exact .skip (places_endItem hJ _ _ _) fun _ => .pure (by simp)

lemma places_members (hJ : J.Settled) (h : LaysOut J call) : Places J (members call) :=
  fun _ => Lays.loop_marks (lays_membersRound hJ h) []

lemma places_memberBody (owner : Option String) (hJ : J.Settled) (h : LaysOut J call) :
    Places J (memberBody call owner) := by
  refine fun lo => .skip (lays_expect _) fun opened => ?_
  split
  · refine lays_enclosedBy hJ (.first (places_members hJ h) fun members => ?_)
    exact .skip (takes_require _) fun _ => .pure (List.Sublist.refl _)
  · exact .pure (List.Sublist.refl _)

lemma lays_typeBody (kind : TypeDeclKind) (hJ : J.Settled) (h : LaysOut J call) :
    Lays J lo [] (typeBody call kind) fun form => .token :: marks form := by
  refine .take takes_advance fun _ => .next places_identifier fun name => ?_
  refine .next places_generics fun generics => .next (places_supertypes h) fun supertypes => ?_
  refine .next (places_constraints h) fun constraints => ?_
  exact .next (places_memberBody _ hJ h) fun members => .pure (by simp [marks])

lemma places_enumCase (h : LaysOut J call) : Places J (enumCase call) := by
  refine fun lo => .edge fun start hstart => .first places_identifier fun name => ?_
  refine .next (places_inParens? (places_list _ (h.type J))) fun params => ?_
  refine .spanFrom hstart fun span hspan => .hold hspan ?_
  cases params with
  | none => exact .pure (by simp [marks])
  | some params => exact .pure (by simp [marks])

lemma lays_enumCasesRound (h : LaysOut J call) (b : List EnumCase × Bool) :
    Lays J lo (marks b) (enumCasesRound call b) marks := by
  obtain ⟨cases, nonExhaustive⟩ := b
  refine .of_eq (show _ = marks cases by simp) (.view fun dots => ?_)
  extract_lets rest
  have hrest (case? : Option (List EnumCase × Bool)) :
      Lays J lo (case?.elim (marks cases) marks) (rest case?) marks := by
    cases case? with
    | none => exact .pure (by simp)
    | some cases =>
      refine .skip (lays_optional _) fun bar => ?_
      split
      · exact .pure (List.Sublist.refl _)
      · exact .pure (List.Sublist.refl _)
  clear_value rest
  split
  · exact .skip takes_advance fun _ => .of_eq (by simp) (hrest (some (cases, true)))
  · refine .view fun names => ?_
    split
    · refine .next (places_enumCase h) fun one => .of_eq ?_ (hrest (some (cases ++ [one], _)))
      simp
    · exact hrest none

lemma places_enumCases (h : LaysOut J call) : Places J (enumCases call) :=
  fun _ => .skip (lays_optional _) fun _ => Lays.loop_marks (lays_enumCasesRound h) ([], false)

lemma lays_enumType (hJ : J.Settled) (h : LaysOut J call) :
    Lays J lo [] (enumType call) fun form => .token :: marks form := by
  refine .take takes_advance fun _ => .next places_identifier fun name => ?_
  refine .next places_generics fun generics => .next (places_supertypes h) fun supertypes => ?_
  refine .next (places_constraints h) fun constraints => .skip (lays_expect _) fun opened => ?_
  extract_lets rest
  have hrest (body : List EnumCase × Bool × List DeclId) :
      Lays J lo ([] ++ [.token] ++ marks name ++ marks generics ++ marks supertypes
        ++ marks constraints ++ marks body) (rest body) fun form => .token :: marks form := by
    obtain ⟨cases, nonExhaustive, members⟩ := body
    exact .pure (by simp [marks])
  clear_value rest
  split
  · refine .next (fun lo => lays_enclosedBy hJ ?_) hrest
    refine .first (places_enumCases h) fun (cases, nonExhaustive) => ?_
    refine .next (places_members hJ h) fun members => .skip (takes_require _) fun _ => ?_
    exact .pure (by simp)
  · exact .of_eq (by simp) (hrest ([], false, []))

lemma lays_extension (hJ : J.Settled) (h : LaysOut J call) :
    Lays J lo [] (extension call) fun form => .token :: marks form := by
  refine .take takes_advance fun _ => .next places_generics fun generics => ?_
  refine .next (h.type J) fun target => .next (places_supertypes h) fun supertypes => ?_
  refine .next (places_constraints h) fun constraints => ?_
  exact .next (places_memberBody _ hJ h) fun members => .pure (by simp [marks])

lemma lays_foreignBlock (hJ : J.Settled) (h : LaysOut J call) :
    Lays J lo [] (foreignBlock call) fun form => .token :: marks form :=
  .take takes_advance fun _ => .next (places_memberBody _ hJ h) fun members =>
    .pure (by simp [marks])

/-! ## Members -/

/-- The orders in which accessors may have been read. -/
def Accessors.readings (a : Accessors) : List (List Mark) :=
  [marks a.getter ++ marks a.setter, marks a.setter ++ marks a.getter]

/-- One more accessor takes the place of an earlier one. It is the last one read. -/
lemma lays_accessorsRound (hJ : J.Settled) (h : LaysOut J call) (a : Accessors) :
    LaysAmong J lo a.readings (accessorsRound call a)
      (Sum.elim Accessors.readings Accessors.readings) := by
  have same {b : Accessors ⊕ Accessors}
      (hb : b.elim Accessors.readings Accessors.readings = a.readings) :
      LaysAmong J lo a.readings (pure b) (Sum.elim Accessors.readings Accessors.readings) :=
    .pure fun pre hpre => ⟨pre, hb ▸ hpre, List.Sublist.refl _⟩
  refine .view fun k => ?_
  split
  · exact same rfl
  · refine .view fun gets => ?_
    split
    · refine .skip takes_advance fun _ => .skip (places_inParens fun _ => .pure (List.Sublist.refl _))
        fun _ => .next (places_block hJ h) fun block => .pure fun pre hpre => ?_
      refine ⟨marks a.setter ++ marks block, by simp [Accessors.readings], ?_⟩
      simp only [Accessors.readings, List.map_cons, List.map_nil, List.mem_cons,
        List.not_mem_nil, or_false] at hpre
      obtain rfl | rfl := hpre <;> simp
    · refine .view fun sets => ?_
      split
      · refine .skip takes_advance fun _ => .next (places_inParens places_identifier) fun name => ?_
        refine .next (places_block hJ h) fun block => .pure fun pre hpre => ?_
        refine ⟨marks a.getter ++ (marks name ++ marks block), by simp [Accessors.readings], ?_⟩
        simp only [Accessors.readings, List.map_cons, List.map_nil, List.mem_cons,
          List.not_mem_nil, or_false] at hpre
        obtain rfl | rfl := hpre <;> simp
      · have passed : LaysAmong J lo a.readings (do
            advance
            return .inl { a with reported := true })
            (Sum.elim Accessors.readings Accessors.readings) :=
          .skip takes_advance fun _ => same rfl
        split
        · exact passed
        · exact .skip (faults_report _ _) fun _ => passed

lemma lays_accessors (hJ : J.Settled) (h : LaysOut J call) (lo : Nat) :
    LaysAmong J lo [[]] (accessors call) Accessors.readings := by
  refine .weaken (fun pre hpre => ⟨[], ?_, List.nil_sublist _⟩)
    (LaysAmong.loop (lays_accessorsRound hJ h) ({} : Accessors))
  exact List.mem_cons_self

lemma lays_property (hJ : J.Settled) (h : LaysOut J call) :
    LaysAmong J lo [[]] (property call) fun form => form.readings.map (.token :: ·) := by
  refine .next takes_advance fun _ => .next places_identifier fun name => ?_
  refine .skip (takes_require _) fun _ => .next (h.type J) fun type => ?_
  refine .skip (lays_optional _) fun opened => ?_
  split
  · refine .use (lays_accessors hJ h) fun a => .skip (takes_require _) fun _ => .pure fun pre hpre => ?_
    obtain ⟨reading, hreading, rfl⟩ := List.mem_map.1 hpre
    refine ⟨.token :: (marks name ++ marks type ++ reading), List.mem_map_of_mem ?_, by simp⟩
    simpa [DeclForm.readings, Accessors.readings] using hreading
  · refine .pure fun pre hpre => ?_
    rw [List.mem_singleton.1 hpre]
    exact ⟨_, List.mem_map_of_mem List.mem_cons_self, by simp⟩

lemma lays_initializer (kind : InitKind) (name : Option Name) (hJ : J.Settled)
    (h : LaysOut J call) :
    Lays J lo (.token :: marks name) (initializer call kind name) fun form => .token :: marks form := by
  refine .next (places_params h) fun params => ?_
  exact .next (places_body? hJ h) fun body => .pure (by simp [marks])

lemma places_atPrimaryInit : Places J atPrimaryInit := by
  refine fun lo => .get fun s => ?_
  split
  · exact .pure (List.Sublist.refl _)
  · exact .view fun text => .skip (places_intern text) fun _ => places_view (fun _ => rfl) lo

/-! ## Any declaration -/

lemma lays_declarationExpected (place : DeclPlace) (hJ : J.Settled) :
    Lays J lo [] (declarationExpected place) fun form => .token :: marks form := by
  refine .faulty (faults_report _ _) fun _ => .skip (places_skipStatement hJ true) fun _ => ?_
  refine .of_fault [.token] (by simp) (.pure (List.Sublist.refl _)) fun m hm => ?_
  exact .inr (.inl (List.mem_singleton.1 hm))

lemma lays_declarationForm (place : DeclPlace) (modifiers : Modifiers) (hJ : J.Settled)
    (h : LaysOut J call) (lo : Nat) :
    LaysAmong J lo [[]] (declarationForm call place modifiers) fun form =>
      form.readings.map (.token :: ·) := by
  have plain {r : Rule DeclForm} (hr : Lays J lo [] r fun form => .token :: marks form) :
      LaysAmong J lo [[]] r fun form => form.readings.map (.token :: ·) := by
    refine .of_forall (p := fun form => .token :: marks form) List.mem_cons_self (fun pre hpre => ?_)
      fun form => ?_
    · exact List.mem_singleton.1 hpre ▸ hr
    · exact ⟨_, List.mem_map_of_mem form.marks_mem_readings, List.Sublist.refl _⟩
  refine .view fun k => ?_
  split
  · exact plain (.bind (lays_function hJ h) fun f => .pure (List.Sublist.refl _))
  · exact plain (lays_varDecl _ h)
  · exact plain (lays_varDecl _ h)
  · exact plain (lays_varDecl _ h)
  · exact plain (lays_typeBody _ hJ h)
  · exact plain (lays_typeBody _ hJ h)
  · exact plain (lays_typeBody _ hJ h)
  · exact plain (lays_enumType hJ h)
  · exact plain (lays_typeAlias h)
  · exact plain (lays_extension hJ h)
  · exact plain (lays_extension hJ h)
  · exact plain (lays_foreignBlock hJ h)
  · exact plain (lays_foreignBlock hJ h)
  · exact plain (.bind (lays_macroDefinition hJ h) fun f => .pure (List.Sublist.refl _))
  · exact plain (.bind (lays_mainFunction hJ h) fun f => .pure (List.Sublist.refl _))
  · exact lays_property hJ h
  · exact plain (.take takes_advance fun _ => lays_initializer _ none hJ h)
  · refine .view fun next => ?_
    split
    · exact plain (.take takes_advance fun _ => .skip takes_advance fun _ =>
        lays_initializer _ none hJ h)
    · exact plain (lays_declarationExpected _ hJ)
  · refine plain (.skip places_atPrimaryInit fun primary => ?_)
    split
    · exact .bind (lays_identifier lo) fun name => lays_initializer _ (some name) hJ h
    · exact lays_declarationExpected _ hJ
  · exact plain (lays_declarationExpected _ hJ)

lemma lays_annotationsRound (h : LaysOut J call) (annotations : List Annotation) :
    Lays J lo (marks annotations) (annotationsRound call annotations) marks := by
  refine .view fun marked => ?_
  split
  · refine .view fun calls => ?_
    split
    · exact .next places_macroCall fun expansion => .pure (List.Sublist.refl _)
    · have held := places_annotation (J := J) h
      exact .next held fun one => .pure (by simp)
  · exact .pure (by simp)

lemma places_annotations (h : LaysOut J call) : Places J (annotations call) :=
  fun _ => Lays.loop_marks (lays_annotationsRound h) []

lemma places_declaration (place : DeclPlace) (hJ : J.Settled) (h : LaysOut J call) :
    Places J (declaration call place) := by
  refine fun _ => .start fun lo hlo => .first (places_annotations h) fun (annotations, expansion?) => ?_
  cases expansion? with
  | some expansion =>
    intro s hs
    exact .view (laysFrom_allocDecl rfl (by simp) hs rfl (List.mem_cons_self) (by simp [marks]))
  | none =>
    refine .of_eq (show _ = marks annotations by simp) (.skip (places_modifiers _) fun modifiers => ?_)
    refine LaysAmong.lays (.use (lays_declarationForm place modifiers hJ h) fun form => ?_)
    have hform := List.mem_map_of_mem (f := (Mark.token :: ·)) form.marks_mem_readings
    refine .of_forall (p := marks) (List.mem_map_of_mem hform) (fun pre hpre s hs => .view ?_) fun id =>
      ⟨marks id, List.mem_cons_self, List.Sublist.refl _⟩
    simp only [List.map_map, List.mem_map] at hpre
    obtain ⟨reading, hreading, rfl⟩ := hpre
    refine laysFrom_allocDecl rfl (by simp) hs rfl (List.mem_map_of_mem hreading) ?_
    simp

end Rule

end CangjieSyntax
