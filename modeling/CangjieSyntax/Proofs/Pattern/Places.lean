import CangjieSyntax.Proofs.Pattern.Admitted

/-!
# Where patterns stand

A loop, the clauses of a `try` and a declaration of variables ask for patterns of their own places.
Where no fault is met, what they yield has patterns that are admitted there: those of a loop and of a
declaration are built of underscores, names and tuples only, and those of a clause of types behind
names besides.
-/

namespace CangjieSyntax.Rule

variable {env : Env} {call : Call} {s s₀ t : ParseState} {α : Type}

lemma lasts_admits_one (place : PatternPlace) (id : PatternId) :
    Nodes.Lasts (·.Admits place id) :=
  fun _ _ hext h => h.grow hext

/-- The patterns of the clauses of a `try` are admitted there. -/
def AdmitsCatches (nodes : Nodes) (catches : List CatchClause) : Prop :=
  ∀ clause ∈ catches, nodes.Admits .catchClause clause.pattern

lemma lasts_admitsCatches (catches : List CatchClause) : Nodes.Lasts (AdmitsCatches · catches) :=
  fun _ _ hext h clause hclause => (h clause hclause).grow hext

/-- A loop stands here, with a pattern that is admitted in a loop. -/
def AdmittedLoop (nodes : Nodes) (id : ExprId) : Prop :=
  ∃ pattern iterable guard body span,
    nodes.exprs.get? id = some ⟨.forIn pattern iterable guard body, span⟩
      ∧ nodes.Admits .forIn pattern

/-- A `try` stands here, with clauses whose patterns are admitted. -/
def AdmittedTry (nodes : Nodes) (id : ExprId) : Prop :=
  ∃ resources body catches finalBody span,
    nodes.exprs.get? id = some ⟨.tryCatch resources body catches finalBody, span⟩
      ∧ AdmitsCatches nodes catches

/-- A declaration of variables, with a pattern that is admitted in one. -/
def AdmittedVar (kind : VarKind) (nodes : Nodes) (form : DeclForm) : Prop :=
  ∃ pattern type value, form = .varDecl kind pattern type value
    ∧ nodes.Admits .declaration pattern

lemma gives_exprFrom {Q : Nodes → ExprId → Prop} {form : ExprForm} (start : Nat)
    (h₀ : s₀.Builds s) (h : s.errorCount = s₀.errorCount → ∀ others id span,
      s.nodes.Extends others → others.exprs.get? id = some ⟨form, span⟩ → Q others id) :
    Gives env s₀ Q s (exprFrom start form) := by
  rintro _ _ ⟨⟩
  have hstep : Step env s _ := .alloc s (.expr ⟨form, s.spanFrom start⟩)
  have builds := ParseState.Builds.of_step h₀.settled hstep
  exact ⟨builds, fun clean => h clean _ _ _ builds.nodes (Arena.get?_push_next _ _)⟩

lemma gives_inParens {Q : Nodes → α → Prop} {inner : Rule α} (hQ : ∀ a, Nodes.Lasts (Q · a))
    (h₀ : s₀.Builds s) (h : ∀ t, s₀.Builds t → Gives env s₀ Q t inner) :
    Gives env s₀ Q s (inParens inner) := by
  refine .skip h₀ (fun _ => preserves_require _) fun _ t ht _ => ?_
  refine .bind ht (h t ht) fun a u hu _ ha => ?_
  exact .keep hu (fun _ => preserves_require _) (hQ a) ha fun _ v hv ha => .pure hv ha

section

variable (hcall : ∀ {α : Type} (g : Nonterminal α), GoesOn env (call g))
  (hpattern : ∀ place t, s₀.Builds t → Gives env s₀ (·.Admits place) t (call (.pattern place)))
  (h₀ : s₀.Builds s)

include hcall

lemma goesOn_block : GoesOn env (block call) :=
  fun s => preserves_block (Invariant.settled_builds env s) fun g => hcall g s

include hpattern h₀

lemma gives_forIn : Gives env s₀ AdmittedLoop s (forIn call) := by
  refine .view (.skip h₀ (fun _ => preserves_advance) fun _ t ht _ => ?_)
  refine .bind (R := fun nodes head => nodes.Admits .forIn head.1) ht
    (gives_inParens (fun head => lasts_admits_one .forIn head.1) ht fun u hu => ?_) ?_
  · refine .bind hu (hpattern .forIn u hu) fun pattern v hv _ hadmits => ?_
    have lasts := lasts_admits_one .forIn pattern
    refine .keep hv (fun _ => preserves_require _) lasts hadmits fun _ w hw hadmits => ?_
    refine .keep hw (hcall .expression) lasts hadmits fun iterable x hx hadmits => ?_
    have hguard : GoesOn env (behind (.keyword .kwWhere) (call .expression)) :=
      fun s => preserves_behind _ (hcall .expression s)
    exact .keep hx hguard lasts hadmits fun guard y hy hadmits => .pure hy hadmits
  · rintro ⟨pattern, iterable, guard⟩ u hu - hadmits
    refine .keep hu (goesOn_block hcall) (lasts_admits_one .forIn pattern) hadmits ?_
    intro body v hv hadmits
    refine gives_exprFrom _ hv fun clean others id span hext hid => ?_
    exact ⟨pattern, iterable, guard, body, span, hid, (hadmits clean).grow hext⟩

/-- The patterns of the clauses of a `try`, one of which is read in each round. -/
lemma gives_catchClauses : Gives env s₀ AdmitsCatches s (catchClauses call) := by
  refine .loop (P := AdmitsCatches) h₀ nofun fun catches t ht hcatches => ?_
  refine .keep ht (fun _ => preserves_optional _) (lasts_admitsCatches catches) hcatches ?_
  intro more u hu hcatches
  split
  · refine .bind hu (gives_inParens (lasts_admits_one .catchClause) hu (hpattern .catchClause)) ?_
    intro pattern v hv huv hadmits
    refine .skip hv (goesOn_block hcall) fun body w hw hvw => .pure hw fun clean => ?_
    have hcatches := lasts_admitsCatches catches (huv.trans hvw).nodes
      (hcatches (hu.clean (huv.trans hvw) clean))
    refine List.forall_mem_append.2 ⟨hcatches, fun clause hclause => ?_⟩
    exact List.eq_of_mem_singleton hclause ▸ (hadmits (hv.clean hvw clean)).grow hvw.nodes
  · exact .pure hu hcatches

lemma gives_tryCatch : Gives env s₀ AdmittedTry s (tryCatch call) := by
  refine .view (.skip h₀ (fun _ => preserves_advance) fun _ t ht _ => ?_)
  have hresources : GoesOn env (inParens? (list (.mark .closeParen) (tryResource call))) :=
    fun s => preserves_inParens? (preserves_list _ (preserves_tryResource fun g => hcall g s))
  refine .skip ht hresources fun resources u hu _ => ?_
  refine .skip hu (goesOn_block hcall) fun body v hv _ => ?_
  refine .bind hv (gives_catchClauses hcall hpattern hv) fun catches w hw _ hcatches => ?_
  have lasts := lasts_admitsCatches catches
  have hfinal : GoesOn env (behind (.keyword .kwFinally) (block call)) :=
    fun s => preserves_behind _ (goesOn_block hcall s)
  refine .keep hw hfinal lasts hcatches fun finalBody x hx hcatches => ?_
  have whole {y : ParseState} (start : Nat) (hy : s₀.Builds y)
      (hcatches : y.errorCount = s₀.errorCount → AdmitsCatches y.nodes catches) :
      Gives env s₀ AdmittedTry y
        (exprFrom start (.tryCatch (resources.getD []) body catches finalBody)) :=
    gives_exprFrom start hy fun clean others id span hext hid =>
      ⟨resources.getD [], body, catches, finalBody, span, hid, lasts hext (hcatches clean)⟩
  split
  · exact .keep hx (fun _ => preserves_report _ _) lasts hcatches fun _ y hy hcatches =>
      whole _ hy hcatches
  · exact whole _ hx hcatches

lemma gives_varDecl (kind : VarKind) : Gives env s₀ (AdmittedVar kind) s (varDecl call kind) := by
  refine .skip h₀ (fun _ => preserves_advance) fun _ t ht _ => ?_
  refine .bind ht (hpattern .declaration t ht) fun pattern u hu _ hadmits => ?_
  have lasts := lasts_admits_one .declaration pattern
  have htype : GoesOn env (typeBehind call (.mark .colon)) :=
    fun s => preserves_typeBehind (hcall .type s) _
  have hvalue : GoesOn env (behind (.mark .equals) (call .expression)) :=
    fun s => preserves_behind _ (hcall .expression s)
  refine .keep hu htype lasts hadmits fun type v hv hadmits => ?_
  refine .keep hv hvalue lasts hadmits fun value w hw hadmits => .pure hw fun clean => ?_
  exact ⟨pattern, type, value, rfl, hadmits clean⟩

end

/-- Wherever a parse without diagnostics reads a loop, a `try` or a declaration of variables, the
patterns in it are admitted there. -/
theorem admits_patterns {nesting : Nat} (hs : Reachable env s) (hclean : t.diagnostics = #[]) :
    (∀ id, forIn (callTo nesting) env s = some (id, t) → AdmittedLoop t.nodes id)
      ∧ (∀ id, tryCatch (callTo nesting) env s = some (id, t) → AdmittedTry t.nodes id)
      ∧ ∀ kind form, varDecl (callTo nesting) kind env s = some (form, t) →
        AdmittedVar kind t.nodes form := by
  have hJ := Region.settled_reachable env
  have hobeys := obeys_callTo hJ nesting
  have hcall {α : Type} (g : Nonterminal α) : GoesOn env (callTo nesting g) := goesOn_callTo nesting g
  have hpattern (place : PatternPlace) (u : ParseState) (hu : s.Builds u) :
      Gives env s (·.Admits place) u (callTo nesting (.pattern place)) :=
    gives_callTo_pattern nesting place hu
  have h₀ : s.Builds s := .refl hs.settled
  refine ⟨fun id hrun => ?_, fun id hrun => ?_, fun kind form hrun => ?_⟩
  · exact (gives_forIn hcall hpattern h₀).of_clean hs (yields_forIn hJ hobeys) hrun hclean
  · exact (gives_tryCatch hcall hpattern h₀).of_clean hs (yields_tryCatch hJ hobeys) hrun hclean
  · exact (gives_varDecl hcall hpattern h₀ kind).of_clean hs (yields_varDecl kind hobeys) hrun hclean

end CangjieSyntax.Rule
