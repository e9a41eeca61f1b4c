import CangjieSyntax.Proofs.Token.Lexer
import CangjieSyntax.Proofs.Twin.Expressions

/-!
# Parameters read as statements

The parameters of a lambda that are not found to be such are read as the statements of its body.
Nothing good comes of that: a statement ends behind the first name, and what follows it there is no
statement of its own. So no clean parse reads a lambda in two ways.
-/

namespace CangjieSyntax

variable {T : Twins} {call call' : Call} {src : Source} {l : Lexer} {s : ParseState} {start : Nat}

/-! ## Places -/

namespace Lexer

/-- A word in front of what can follow a parameter modifies no declaration. -/
lemma not_atModifier (h : (l.scanKnown src).kind.followsParam) : l.atModifier src = false := by
  unfold atModifier
  by_cases hunknown : (l.scan src).kind = .unknown
  · simp [hunknown, Kind.isDeclarationKeyword]
  · rw [kind_scanKnown hunknown] at h
    obtain hkind | hkind | hkind := Kind.eq_of_followsParam h
    all_goals simp [hkind, Kind.isDeclarationKeyword]

end Lexer

/-- Whether the token can name a parameter. -/
def Kind.namesParam (k : Kind) : Bool :=
  k == .mark .underscore || k.isIdentifier

lemma Kind.eq_of_namesParam {k : Kind} (h : k.namesParam) :
    k = .mark .underscore ∨ k = .identifier ∨ k = .rawIdentifier := by
  unfold namesParam isIdentifier at h
  split at h
  · exact .inr (.inl rfl)
  · exact .inr (.inr rfl)
  · exact .inl (by simpa using h)

namespace Place

/-- At the name of a parameter that starts at an offset, as far as the next token tells. -/
structure AtParam (src : Source) (start : Nat) (v : Place) : Prop where
  here : v.lexer.start = start
  name : v.kind.namesParam
  next : (v.lexer.scanKnown src).kind.followsParam
  /-- The next token does not start at the same offset. -/
  moves : (v.lexer.scanKnown src).start ≠ start

/-- Behind the name of a parameter that starts at an offset. -/
structure BehindParam (start : Nat) (v : Place) : Prop where
  next : v.kind.followsParam
  moved : v.lexer.start ≠ start

/-- At the name of a parameter or behind it. -/
def InParams (src : Source) (v : Place) : Prop :=
  v.kind.followsParam ∨ ∃ start, v.AtParam src start

end Place

/-- Among parameters is where the token, and the one behind a name, say so. -/
lemma Lexer.Anchored.inParams (h : l.Anchored src) (hname : l.kind.namesParam)
    (hnext : (l.scanKnown src).kind.followsParam) : Place.InParams src ⟨l.kind, l⟩ := by
  refine .inr ⟨_, rfl, hname, hnext, ?_⟩
  have here : l.kind.isAnchored = true ∧ l.kind.followsParam = false := by
    obtain hkind | hkind | hkind := Kind.eq_of_namesParam hname
    all_goals
      rw [hkind]
      exact ⟨rfl, rfl⟩
  have next : (l.scanKnown src).kind.isAnchored = true := by
    obtain hkind | hkind | hkind := Kind.eq_of_followsParam hnext
    all_goals
      rw [hkind]
      rfl
  refine h.start_ne (anchored_scanKnown l) here.1 next fun e => ?_
  simp [e, here.2] at hnext

/-- What stands in the log does not matter for that. -/
lemma Place.InParams.of_log {v w : Place} (h : v.InParams src) (hkind : w.kind = v.kind)
    (hlexer : ∃ log, w.lexer = { v.lexer with log }) : w.InParams src := by
  obtain ⟨log', hnext⟩ := Lexer.scanKnown_eq_up_to_log src hlexer
  obtain ⟨log, hlexer⟩ := hlexer
  obtain hfollows | ⟨start, here, hname, hfollows, hmoves⟩ := h
  · exact .inl (hkind ▸ hfollows)
  · exact .inr ⟨start, hlexer ▸ here, hkind ▸ hname, hnext ▸ hfollows, hnext ▸ hmoves⟩

namespace ParseState

/-- The next token of a state outside attempts. -/
lemma place_advance (h : s.tentative = {}) :
    (s.advance src).place = ⟨(s.lexer.scanKnown src).kind, s.lexer.scanKnown src⟩ := by
  obtain ⟨tentative, errorCount, muted, -, settled, -, e⟩ := s.advance_eq src
  rw [e, settled h]
  rfl

end ParseState

namespace Rule

/-! ## Reports -/

lemma optional_of_ne {env : Env} {c : Kind} (h : s.kind ≠ c) :
    optional c env s = some (false, s) := by
  change (if (s.kind == c) = true then _ else Pure.pure false : Rule Bool) env s = _
  rw [if_neg (by simpa using h)]
  rfl

section

variable {P : Place → Prop}

lemma leads_reportAt (span : Span) (m : Message) (args : List String) :
    Leads T P (reportAt span m args) id (reportAt (move T.shift span) m args) fun _ => False where
  toFollows := follows_reportAt span m args
  leads clean _ _ _ _ halike _ e hgood := by
    cases e
    exact clean.not_good_report halike _ _ _ hgood

lemma leads_report (m : Message) (args : List String) :
    Leads T P (report m args) id (report m args) fun _ => False :=
  .tokenSpan fun span => leads_reportAt span m args

/-- Nothing good comes of a token that is required where another one stands. -/
lemma leads_require {c : Kind} (hP : ∀ v, P v → v.kind ≠ c) :
    Leads T P (require c) id (require c) fun _ => False where
  toFollows := follows_require c
  leads clean s _ _ _ halike hs e hgood := by
    obtain ⟨_, _, hexpect, e⟩ := bind_eq_some.1 e
    cases e
    obtain ⟨_, _, hoptional, e⟩ := bind_eq_some.1 hexpect
    rw [optional_of_ne (hP _ hs)] at hoptional
    cases hoptional
    obtain ⟨_, _, hreport, e⟩ := bind_eq_some.1 e
    cases e
    exact (leads_report (P := P) _ _).leads clean halike hs hreport hgood

lemma leads_expressionExpected :
    Leads T P expressionExpected (move T.shift) expressionExpected fun _ => False := by
  refine .tokenSpan fun span => .bind_id (leads_reportAt _ _ _) fun _ => ?_
  refine .of_follows (.kind fun k => .ite (fun _ => follows_errorExpr span) fun _ => ?_) fun _ => id
  exact .bind_id follows_advance fun _ => follows_errorExpr span

lemma leads_separatorExpected :
    Leads T P separatorExpected id separatorExpected fun _ => False where
  toFollows := follows_separatorExpected
  leads clean _ _ _ _ halike hs e := (leads_report _ _).leads clean halike hs e

end

/-! ## Names -/

/-- The name of a parameter is taken. -/
lemma leads_advance (start : Nat) :
    Leads T (Place.AtParam T.env.src start) advance id advance (Place.BehindParam start) where
  toFollows := follows_advance
  leads clean s _ _ _ halike hs e _ := by
    cases e
    rw [ParseState.place_advance (halike.settled clean.outside).1]
    exact ⟨hs.next, hs.moves⟩

lemma leads_identifier (start : Nat) :
    Leads T (fun v => v.AtParam T.env.src start ∧ v.kind.isIdentifier) identifier (move T.shift)
      identifier (Place.BehindParam start) := by
  refine .kind fun k => .ite (fun _ => ?_) fun hk => .of_follows ?_ ?_
  · refine .view_id (fun _ _ hs => hs.same.value) fun value => .tokenSpan fun span => ?_
    refine .bind (.stays (follows_name value rfl) fun e => by cases e; rfl) fun n => ?_
    refine .bind_id ((leads_advance start).weaken ?_) fun _ => .pure rfl fun _ => id
    exact fun v hv => hv.1.1.1
  · exact .bind_id (follows_report _ _) fun _ => follows_missingName
  · rintro v ⟨⟨_, hname⟩, rfl⟩
    exact hk hname

section

variable (h : Calls T call call')

include h

/-- Nothing good comes of an expression in the place of what can follow a parameter. -/
lemma leads_primary_of_followsParam :
    Leads T (fun v => v.kind.followsParam) (primary call) (move T.shift) (primary call')
      fun _ => False where
  toFollows := follows_primary h
  leads clean s _ a t halike hs e := by
    obtain ⟨_, _, hk, e⟩ := bind_eq_some.1 e
    cases hk
    dsimp only at e
    have e : expressionExpected T.env s = some (a, t) := by
      obtain hkind | hkind | hkind : s.kind = _ ∨ _ ∨ _ := Kind.eq_of_followsParam hs
      all_goals
        rw [hkind] at e
        exact e
    exact leads_expressionExpected.leads clean (P := fun _ => True) halike trivial e

/-- What can follow a parameter is no type argument. -/
lemma leads_typeArguments? (start : Nat) :
    Leads T (Place.BehindParam start) (typeArguments? call) (move T.shift) (typeArguments? call')
      (Place.BehindParam start) := by
  refine { h.typeArguments with leads := fun _ s _ a t _ hs e _ => ?_ }
  have none : typeArguments? call T.env s = some ([], s) := by
    refine bind_eq_some.2 ⟨T.env, s, rfl, bind_eq_some.2 ⟨false, s, ?_, rfl⟩⟩
    obtain hkind | hkind | hkind : s.kind = _ ∨ _ ∨ _ := Kind.eq_of_followsParam hs.next
    all_goals simp [view, hkind]
  rw [none] at e
  cases e
  exact hs

lemma leads_nameExpr (start : Nat) :
    Leads T (fun v => v.AtParam T.env.src start ∧ v.kind.isIdentifier) (nameExpr call)
      (move T.shift) (nameExpr call') (Place.BehindParam start) :=
  .start fun p => .bind (leads_identifier start) fun _ => .bind (leads_typeArguments? h start) fun _ =>
    .exprFrom p rfl

/-- An expression in the place of a parameter is its name. -/
lemma leads_primary_of_atParam (start : Nat) :
    Leads T (Place.AtParam T.env.src start) (primary call) (move T.shift) (primary call')
      (Place.BehindParam start) where
  toFollows := follows_primary h
  leads clean s _ a t halike hs e := by
    obtain ⟨_, _, hk, e⟩ := bind_eq_some.1 e
    cases hk
    dsimp only at e
    have named {k : Kind} (hkind : s.kind = k) (hk : k.isIdentifier) : s.place.kind.isIdentifier :=
      (congrArg Kind.isIdentifier hkind).trans hk
    obtain hkind | hkind | hkind : s.kind = _ ∨ _ ∨ _ := Kind.eq_of_namesParam hs.name
    all_goals rw [hkind] at e
    · have wildcard : Leads T (Place.AtParam T.env.src start) (tokenExpr .wildcard) (move T.shift)
          (tokenExpr .wildcard) (Place.BehindParam start) :=
        .tokenSpan fun span => .bind_id (leads_advance start) fun _ => .allocExpr span rfl
      exact wildcard.leads clean halike hs e
    · exact (leads_nameExpr h start).leads clean halike ⟨hs, named hkind rfl⟩ e
    · exact (leads_nameExpr h start).leads clean halike ⟨hs, named hkind rfl⟩ e

/-! ## Statements -/

lemma leads_statement_of_followsParam :
    Leads T (fun v => v.kind.followsParam) (statement call) (move T.shift) (statement call')
      fun _ => False := by
  refine leads_statement h (fun _ => False.elim) (leads_primary_of_followsParam h) fun v hv => ?_
  obtain hkind | hkind | hkind := Kind.eq_of_followsParam hv
  all_goals
    rw [hkind]
    rfl

lemma leads_statement_of_atParam (start : Nat) :
    Leads T (Place.AtParam T.env.src start) (statement call) (move T.shift) (statement call')
      (Place.BehindParam start) := by
  refine leads_statement h (fun _ hv => hv.next) (leads_primary_of_atParam h start) fun v hv => ?_
  obtain hkind | hkind | hkind := Kind.eq_of_namesParam hv.name
  all_goals
    rw [hkind]
    rfl

end

/-! ## Blocks -/

lemma leads_atStatementEnd (start : Nat) (stop : Kind → Bool) :
    Leads T (Place.BehindParam start) (atStatementEnd stop) id (atStatementEnd stop)
      (Place.BehindParam start) := by
  refine .kind fun k => .ite (fun hsemicolon => .of_follows ?_ ?_) fun _ => ?_
  · exact .bind_id follows_advance fun _ => .pure rfl
  · rintro v ⟨hv, rfl⟩
    obtain hkind | hkind | hkind := Kind.eq_of_followsParam hv.next
    all_goals simp [hkind] at hsemicolon
  · refine Leads.weaken (.stays (.look fun _ _ hs => ?_) fun e => ?_) fun v hv => hv.1
    · rw [hs.same.lineBreak, hs.prevKind, id]
    · cases e
      rfl

/-- A statement that was the name of a parameter has to end in front of what follows it. -/
lemma leads_endItem (start errors : Nat) (stop : Kind → Bool) :
    Leads T (fun v => v.BehindParam start ∧ errors = 0) (endItem start errors stop) id
      (endItem (T.shift.pos start) (T.errors + errors) stop) (Place.BehindParam start) := by
  refine .get fun s s' hs => ?_
  obtain ⟨hstart, herrors⟩ := progress hs start errors
  dsimp only
  rw [hstart, herrors]
  refine .ite (fun hfault => .of_follows (follows_skipStatement _) ?_) fun _ => ?_
  · rintro v ⟨⟨hv, rfl⟩, here, none⟩
    have moved : s.start ≠ start := fun e => hv.moved (here.trans e)
    simp [none, moved] at hfault
  · refine .bind_id ((leads_atStatementEnd start stop).weaken fun v hv => hv.1.1) fun ended => ?_
    refine .ite (fun _ => ?_) fun _ => .pure rfl fun _ => id
    refine .bind_id leads_separatorExpected fun _ => ?_
    exact .of_follows (follows_skipStatement false) fun _ => id

/-- No declaration starts at a parameter. -/
lemma not_atLocalDeclaration {env : Env} (h : s.place.InParams env.src) :
    atLocalDeclaration env s = some (false, s) := by
  obtain hk | ⟨start, hparam⟩ := h
  · obtain hkind | hkind | hkind : s.kind = _ ∨ _ ∨ _ := Kind.eq_of_followsParam hk
    all_goals simp [atLocalDeclaration, view, hkind]
  · have plain : s.atModifier env.src = false := by
      unfold ParseState.atModifier
      rw [show s.lexer.atModifier env.src = false from Lexer.not_atModifier hparam.next,
        Bool.and_false]
    obtain hkind | hkind | hkind : s.kind = _ ∨ _ ∨ _ := Kind.eq_of_namesParam hparam.name
    all_goals simp [atLocalDeclaration, view, hkind, plain]

section

variable {P Q : Place → Prop} (h : Calls T call call')

include h

lemma leads_blockItem (hP : ∀ v, P v → v.InParams T.env.src)
    (hstatement : Leads T P (call .statement) (move T.shift) (call' .statement) Q) :
    Leads T P (blockItem call) (move T.shift) (blockItem call') Q where
  toFollows := follows_blockItem h
  leads clean s _ _ _ halike hs e := by
    obtain ⟨_, _, hlocal, e⟩ := bind_eq_some.1 e
    rw [not_atLocalDeclaration (hP _ hs)] at hlocal
    cases hlocal
    have item : Leads T P (do return BlockItem.expr (← call .statement)) (move T.shift)
        (do return BlockItem.expr (← call' .statement)) Q :=
      .bind hstatement fun _ => .pure rfl fun _ => id
    exact item.leads clean halike hs e

end

/-- Items that start at a parameter do not get past it. -/
lemma leads_allItems
    (hparam : ∀ start, Leads T (Place.AtParam T.env.src start) (call .blockItem) (move T.shift)
      (call' .blockItem) (Place.BehindParam start))
    (hbehind : Leads T (fun v => v.kind.followsParam) (call .blockItem) (move T.shift)
      (call' .blockItem) fun _ => False) :
    Leads T (Place.InParams T.env.src) (allItems call) (move T.shift) (allItems call')
      (Place.InParams T.env.src) := by
  refine .loop_moves (fun items => ?_) []
  refine .kind fun k => .ite (fun _ => .pure rfl fun v hv => hv.1) fun _ => ?_
  refine .ite (fun hsemicolon => .of_follows ?_ ?_) fun _ => ?_
  · exact .bind_id follows_advance fun _ => .pure rfl
  · rintro v ⟨hv, rfl⟩
    obtain hk | ⟨start, hparam⟩ := hv
    · obtain hkind | hkind | hkind := Kind.eq_of_followsParam hk
      all_goals simp [hkind] at hsemicolon
    · obtain hkind | hkind | hkind := Kind.eq_of_namesParam hparam.name
      all_goals simp [hkind] at hsemicolon
  · refine .get fun s s' hlooks => ?_
    refine .bind (f := move T.shift) (R := fun v => v.BehindParam s.start ∧ s.errorCount = 0)
      (.nested ?_ { hbehind with leads := ?_ }) fun item => ?_
    · exact fun span => .bind (follows_errorExpr span) fun _ => .pure rfl
    · rintro clean u u' a t halike ⟨⟨hin, -⟩, here, none⟩ e hgood
      obtain hk | ⟨start, hstart⟩ := hin
      · exact (hbehind.leads clean halike hk e hgood).elim
      · obtain rfl : start = s.start := hstart.here.symm.trans here
        exact ⟨(hparam _).leads clean halike hstart e hgood, none⟩
    · rw [hlooks.start, hlooks.errorCount]
      refine .bind_id (leads_endItem _ _ _) fun _ => .pure (by simp) fun v hv => .inl hv.next

end Rule

end CangjieSyntax
