import CangjieSyntax.Proofs.Ending.Finishes

/-!
# The basic rules come to an end

Rules without rounds and calls always have an answer. A list has one if its elements do, since each
round takes the comma behind an element.
-/

namespace CangjieSyntax

/-- A rule that has an answer wherever it is run. -/
def Always {α : Type} (r : Rule α) : Prop :=
  ∀ env s, Finishes env s r

variable {env : Env} {J K : Region env} {allowed : Kind → Prop} {α β : Type} {s t : ParseState}
  {pre held : Multiset Part}

namespace Always

variable {r : Rule α} {k : α → Rule β}

lemma returns (h : Always r) : Returns J pre r :=
  fun s _ => h env s

lemma bind (h : Always r) (hk : ∀ a, Always (k a)) : Always (r >>= k) :=
  fun env s => (h env s).bind fun a t _ => hk a env t

lemma pure (a : α) : Always (Pure.pure a : Rule α) :=
  fun _ _ => .pure a

lemma view {f : Source → ParseState → α} (hk : ∀ a, Always (k a)) : Always (Rule.view f >>= k) :=
  fun env s => hk _ env s

lemma get {k : ParseState → Rule β} (hk : ∀ s, Always (k s)) :
    Always ((get : Rule ParseState) >>= k) :=
  fun env s => hk s env s

lemma read {k : Env → Rule β} (hk : ∀ env, Always (k env)) : Always ((read : Rule Env) >>= k) :=
  fun env s => hk env env s

/-- A rule that is followed on a condition. -/
lemma skip_when {r : Rule Unit} {c : Prop} [Decidable c] {k : Rule β} (hr : Always r)
    (hk : Always k) : Always (if c then r >>= fun _ => k else k) := by
  split
  · exact hr.bind fun _ => hk
  · exact hk

end Always

namespace Rule

/-! ## Tokens, reports and nodes -/

lemma always_view (f : Source → ParseState → α) : Always (view f) :=
  fun _ _ => ⟨_, _, rfl⟩

lemma always_advance : Always advance :=
  fun _ _ => ⟨_, _, rfl⟩

lemma always_operatorKind : Always operatorKind := by
  refine .view fun k => ?_
  split
  · exact fun _ _ => ⟨_, _, rfl⟩
  · exact .pure k

lemma always_optional (k : Kind) : Always (optional k) := by
  refine .view fun here => ?_
  split
  · exact .bind always_advance fun _ => .pure true
  · exact .pure false

lemma always_reportAt (span : Span) (m : Message) (args : List String) :
    Always (reportAt span m args) :=
  fun _ _ => ⟨_, _, rfl⟩

lemma always_report (m : Message) (args : List String) : Always (report m args) :=
  .view fun span => always_reportAt span m args

lemma always_expect (k : Kind) : Always (expect k) := by
  refine .bind (always_optional k) fun found => ?_
  split
  · exact .pure true
  · exact .bind (always_report _ _) fun _ => .pure false

lemma always_require (k : Kind) : Always (require k) :=
  .bind (always_expect k) fun _ => .pure ()

lemma always_allocExpr (form : ExprForm) (span : Span) : Always (allocExpr form span) :=
  fun _ _ => ⟨_, _, rfl⟩

lemma always_allocType (form : TypeForm) (span : Span) : Always (allocType form span) :=
  fun _ _ => ⟨_, _, rfl⟩

lemma always_allocPattern (form : PatternForm) (span : Span) : Always (allocPattern form span) :=
  fun _ _ => ⟨_, _, rfl⟩

lemma always_allocDecl (node : DeclNode) : Always (allocDecl node) :=
  fun _ _ => ⟨_, _, rfl⟩

lemma always_exprFrom (start : Nat) (form : ExprForm) : Always (exprFrom start form) :=
  .view fun span => always_allocExpr form span

lemma always_typeFrom (start : Nat) (form : TypeForm) : Always (typeFrom start form) :=
  .view fun span => always_allocType form span

lemma always_patternFrom (start : Nat) (form : PatternForm) : Always (patternFrom start form) :=
  .view fun span => always_allocPattern form span

lemma always_errorExpr (span : Span) : Always (errorExpr span) :=
  always_allocExpr .error span

/-! ## Names -/

lemma always_intern (text : String) : Always (intern text) :=
  fun _ _ => ⟨_, _, rfl⟩

lemma always_name (text : String) (span : Span) : Always (name text span) :=
  .bind (always_intern text) fun _ => .pure _

lemma always_missingName : Always missingName :=
  .view fun start => always_name "" (.empty start)

lemma always_identifier : Always identifier := by
  refine .view fun k => ?_
  split
  · refine .view fun text => .view fun span => .bind (always_name text span) fun n => ?_
    exact .bind always_advance fun _ => .pure n
  · exact .bind (always_report _ _) fun _ => always_missingName

lemma always_dottedNameRound (path : List Name) : Always (dottedNameRound path) := by
  refine .view fun more => ?_
  split
  · exact .bind always_advance fun _ => .bind always_identifier fun n => .pure _
  · exact .pure _

lemma always_label? : Always label? := by
  refine .view fun here => ?_
  split
  · refine .bind always_identifier fun n => ?_
    exact .bind always_advance fun _ => .pure _
  · exact .pure none

end Rule

/-! ## Ways to go on -/

namespace Finishes

variable {c : Kind}

/-- A token of the given kind is taken, or the state is left as it is. -/
lemma optional {k : Bool → Rule β}
    (htaken : s.kind = c → Finishes env (s.advance env.src) (k true))
    (habsent : s.kind ≠ c → Finishes env s (k false)) :
    Finishes env s (Rule.optional c >>= k) := by
  change Finishes env s ((if s.kind == c then do Rule.advance; Pure.pure true
    else Pure.pure false : Rule Bool) >>= k)
  split
  case isTrue hc => exact htaken (eq_of_beq hc)
  case isFalse hc => exact habsent fun e => hc (beq_iff_eq.2 e)

/-- A token that must stand there and does is taken. -/
lemma require {k : Unit → Rule β} (hkind : s.kind = c)
    (h : Finishes env (s.advance env.src) (k ())) : Finishes env s (Rule.require c >>= k) := by
  unfold Rule.require Rule.expect
  rw [bind_assoc, bind_assoc]
  exact .optional (fun _ => h) fun e => absurd hkind e

end Finishes

namespace Returns

variable {k : α → Rule β}

lemma advance {k : Unit → Rule β} (hk : ∀ u, Returns J pre (k u)) :
    Returns J pre (Rule.advance >>= k) :=
  .skip Rule.quiet_advance Rule.always_advance.returns hk

lemma optional (c : Kind) {k : Bool → Rule β} (hk : ∀ b, Returns J pre (k b)) :
    Returns J pre (Rule.optional c >>= k) :=
  .skip (Rule.quiet_optional c) (Rule.always_optional c).returns hk

lemma expect (c : Kind) {k : Bool → Rule β} (hk : ∀ b, Returns J pre (k b)) :
    Returns J pre (Rule.expect c >>= k) :=
  .skip (Rule.quiet_expect c) (Rule.always_expect c).returns hk

lemma require (c : Kind) {k : Unit → Rule β} (hk : ∀ u, Returns J pre (k u)) :
    Returns J pre (Rule.require c >>= k) :=
  .skip (Rule.quiet_require c) (Rule.always_require c).returns hk

lemma reportAt (span : Span) (m : Message) (args : List String) {k : Unit → Rule β}
    (hk : ∀ u, Returns J pre (k u)) : Returns J pre (Rule.reportAt span m args >>= k) :=
  .skip (Rule.quiet_reportAt span m args) (Rule.always_reportAt span m args).returns hk

lemma report (m : Message) (args : List String) {k : Unit → Rule β}
    (hk : ∀ u, Returns J pre (k u)) : Returns J pre (Rule.report m args >>= k) :=
  .skip (Rule.quiet_report m args) (Rule.always_report m args).returns hk

lemma identifier {k : Name → Rule β} (hk : ∀ n, Returns J pre (k n)) :
    Returns J pre (Rule.identifier >>= k) :=
  .next Rule.yields_identifier Rule.always_identifier.returns hk

/-- A rule that is passed over on a condition. -/
lemma skip_unless {r : Rule Unit} {c : Prop} [Decidable c] {k : Rule β} (hr : Quiet J r)
    (h : Always r) (hk : Returns J pre k) :
    Returns J pre (if c then k else r >>= fun _ => k) := by
  split
  · exact hk
  · exact .skip hr h.returns fun _ => hk

/-- A rule that is followed on a condition. -/
lemma skip_when {r : Rule Unit} {c : Prop} [Decidable c] {k : Rule β} (hr : Quiet J r)
    (h : Always r) (hk : Returns J pre k) :
    Returns J pre (if c then r >>= fun _ => k else k) := by
  split
  · exact .skip hr h.returns fun _ => hk
  · exact hk

end Returns

namespace Ensures

/-- A rule that is followed on a condition. -/
lemma skip_when {r : Rule Unit} {c : Prop} [Decidable c] {k : Rule β}
    {Q : β → ParseState → Prop} (hthen : Ensures env s (r >>= fun _ => k) Q)
    (helse : Ensures env s k Q) : Ensures env s (if c then r >>= fun _ => k else k) Q := by
  split
  · exact hthen
  · exact helse

/-- A rule that is run in a state on the way keeps to what has come from it. -/
lemma since {r : Rule α} {post : α → Multiset Part} (hs : J.mem s) (hway : s.Underway env allowed)
    (h : Reads (J.since allowed s.lexer) pre r post) :
    Ensures env s r fun _ t => (J.since allowed s.lexer).mem t :=
  .of_reads (h s ⟨hs, hway, .refl _⟩)

end Ensures

namespace Rule

/-! ## Rounds -/

lemma consumes_past {l : Lexer} (hkind : s.kind ≠ .endOfFile) (hl : s.lexer = l)
    (ht : (J.past allowed l).mem t) : s.Consumes t :=
  ⟨ParseState.lexer_kind_ne hkind, hl ▸ ht.2.2⟩

variable (hway : ∀ {s}, J.mem s → s.Underway env allowed)

include hway

lemma consumes_dottedNameRound (path : List Name) (hs : J.mem s) :
    Consumes env s (dottedNameRound path) := by
  refine .view ?_
  split
  case isTrue h =>
    rw [Bool.and_eq_true, beq_iff_eq] at h
    have hkind : s.kind ≠ .endOfFile := by rw [h.1]; exact nofun
    have hpast := Region.past_advance hs (hway hs) hkind
    exact .advance (.reads (yields_identifier _ hpast) fun n t ht =>
      .pure fun _ => consumes_past hkind rfl ht)
  case isFalse => exact .pure nofun

lemma finishes_dottedNames (hs : J.mem s) (path : List Name) :
    Finishes env s (loop dottedNameRound path) :=
  .loop_of_always hway reads_dottedNameRound (fun path => always_dottedNameRound path env)
    (fun path _ hs => consumes_dottedNameRound hway path hs) hs path

lemma finishes_dottedName (hs : J.mem s) : Finishes env s dottedName :=
  .bind (always_identifier env s) fun first t e =>
    finishes_dottedNames hway (yields_identifier s hs first t e).1 [first]

lemma returns_dottedName : Returns J 0 dottedName :=
  fun _ hs => finishes_dottedName hway hs.mem

omit hway in
/-- A round of a list that goes on has taken a comma. -/
lemma consumes_listRound {close : Kind} {element : Rule α} (items : List α)
    (helement : Ensures env s element fun _ t => (J.since allowed s.lexer).mem t) :
    Consumes env s (listRound close element items) := by
  refine .view ?_
  split
  · exact .pure nofun
  · refine .bind helement fun a t ht => .optional (fun hcomma => ?_) (.pure nofun)
    have hkind : t.kind ≠ .endOfFile := by rw [hcomma]; exact nofun
    exact .pure fun _ => Region.consumes_advance ht hkind

/-- A list comes to its end if its elements do. -/
lemma returns_list [HasParts α] {element : Rule α} (close : Kind)
    (hreads : Reads J held element fun a => held + parts a)
    (hsince : ∀ l, Reads (J.since allowed l) held element fun a => held + parts a)
    (h : Returns J held element) : Returns J held (list close element) := by
  refine (Returns.loop hway (reads_listRound close hreads) (fun items => ?_)
    (fun items s hs => ?_) []).weaken (by simp)
  · refine .view fun k => ?_
    split
    · exact .pure _
    · intro s hs
      have hs' : J.At held s := hs.weaken (Multiset.le_add_right _ _)
      refine (h s hs').bind fun a t e => ?_
      refine (@Returns.optional env J _ held _ _ fun comma => ?_) t ?_
      · split
        · exact .pure _
        · exact .pure _
      · exact (hs'.after (hreads s hs.mem) e).weaken (Multiset.le_add_right _ _)
  · exact consumes_listRound items (.since hs (hway hs) (hsince s.lexer))

end Rule

end CangjieSyntax
