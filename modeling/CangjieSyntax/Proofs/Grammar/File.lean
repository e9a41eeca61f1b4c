import CangjieSyntax.Grammar.File
import CangjieSyntax.Proofs.Grammar.Declarations

/-!
# What the rules of files hold

Headers, imports and the items of a file. The names in front of a group of imports are held by every
path of the group. At the end the circle of rules is closed: at each depth of nesting, all rules
called by name hold what they yield.
-/

namespace CangjieSyntax.Rule

variable {env : Env} {J : Region env} {call : Call}

/-! ## Packages and imports -/

lemma yields_packageHeader : Yields J packageHeader := by
  refine .view fun start => .skip (quiet_modifiers _) fun modifiers => ?_
  refine .skip (quiet_optional _) fun isMacro => .skip (quiet_require _) fun _ => ?_
  exact .first yields_dottedName fun path => .view fun span => .pure rfl

/-- Names are no places, so that they may be held as often as they are used. -/
lemma refs_names (names : List Name) : refs (parts names) = 0 := by
  induction names with
  | nil => rfl
  | cons name names ih =>
    rw [parts_cons, refs_add, ih]
    rfl

/-- What is no place may be held once more before a rule. -/
lemma reads_again {α : Type} {r : Rule α} {held : Multiset Part} {post : α → Multiset Part}
    (hrefs : refs held = 0) (h : Reads J (held + held) r post) : Reads J held r post := by
  intro s hs a t e
  obtain ⟨ht, hkeeps⟩ := h s hs a t e
  refine ⟨ht, hkeeps.depth, hkeeps.enclosingType, fun himp rest hold => hkeeps.holds_of himp rest ?_⟩
  rw [add_assoc]
  exact hold.again (Multiset.le_add_right _ _) hrefs

lemma reads_importPaths (leading : List Name) (h : Obeys J call) :
    Reads J (parts leading) (importPaths call leading) parts := by
  refine .view fun start => .next yields_dottedName fun rest => ?_
  refine .of_eq (parts_append leading rest).symm (.view fun next => ?_)
  generalize leading ++ rest = path
  split
  · refine .skip quiet_advance fun _ => .skip quiet_advance fun _ => .view fun span => ?_
    exact .pure (by simp [parts])
  · refine .skip quiet_advance fun _ => .skip quiet_advance fun _ => ?_
    refine .bind (reads_list _ ?_) fun groups => ?_
    · refine reads_again (refs_names path) ?_
      exact (h.all (.importPaths path)).frame (parts path)
    · refine .weaken ⟨parts path, rfl, .inr (SpareParts.spare path)⟩ ?_
      exact .skip (quiet_require _) fun _ => .pure (parts_flatten groups).symm
  · extract_lets rest
    have hrest (u : Unit) : Reads J (parts path) (rest u) parts := by
      refine .next (yields_behind _ yields_identifier) fun newName => .view fun span => .pure ?_
      simp [parts]
    clear_value rest
    split
    · exact .skip quiet_advance fun _ => .skip (quiet_report _ _) hrest
    · exact hrest ()

lemma yields_importDecl (h : Obeys J call) : Yields J (importDecl call) := by
  refine .view fun start => .skip (quiet_modifiers _) fun modifiers => ?_
  refine .first (yields_behind _ yields_identifier) fun module => .skip (quiet_require _) fun _ => ?_
  refine .next (yields_separated _ (h.all (.importPaths []))) fun items => .view fun span => .pure ?_
  change _ = parts module + parts items.flatten
  rw [parts_flatten]

/-! ## Top-level items -/

lemma reads_placeHeader (tree : FileTree) : Reads J (parts tree) (placeHeader tree) parts := by
  refine .next yields_packageHeader fun header => ?_
  split
  · refine .weaken ⟨parts header, add_comm _ _, .inr (SpareParts.spare header)⟩ ?_
    exact .skip (quiet_reportAt _ _ _) fun _ => .pure rfl
  · refine .weaken ⟨parts tree.package, ?_, .inr (SpareParts.spare tree.package)⟩ (.pure rfl)
    change parts tree.package + parts tree.imports + parts tree.items + parts tree.main + parts header
      = parts tree.package + (parts header + parts tree.imports + parts tree.items + parts tree.main)
    abel

lemma reads_placeDeclaration (tree : FileTree) (hJ : J.Settled) (h : Obeys J call) :
    Reads J (parts tree) (placeDeclaration call tree) parts := by
  have item (id : DeclId) :
      parts tree + parts id = parts { tree with items := tree.items ++ [id] } := by
    change parts tree.package + parts tree.imports + parts tree.items + parts tree.main + parts id
      = parts tree.package + parts tree.imports + parts (tree.items ++ [id]) + parts tree.main
    rw [parts_append, parts_cons, parts_nil]
    abel
  refine .next (yields_declaration .topLevel hJ h) fun id => .get fun s => ?_
  split
  · split
    case isTrue => exact .skip (quiet_reportAt _ _ _) fun _ => .pure (item id)
    case isFalse hnone =>
      refine .pure ?_
      change parts tree.package + parts tree.imports + parts tree.items + parts tree.main + parts id
        = parts tree.package + parts tree.imports + parts tree.items + parts id
      rw [Option.not_isSome_iff_eq_none.1 hnone, parts_none, add_zero]
  · exact .pure (item id)

lemma reads_placeItem (tree : FileTree) (hJ : J.Settled) (h : Obeys J call) :
    Reads J (parts tree) (placeItem call tree) parts := by
  refine .view fun itemClass => ?_
  split
  · exact reads_placeHeader tree
  · refine .next (yields_importDecl h) fun one => .pure ?_
    change parts tree.package + parts tree.imports + parts tree.items + parts tree.main + parts one
      = parts tree.package + parts (tree.imports ++ [one]) + parts tree.items + parts tree.main
    rw [parts_append, parts_cons, parts_nil]
    abel
  · exact reads_placeDeclaration tree hJ h

lemma quiet_endFileItem (hJ : J.Settled) (start errors : Nat) :
    Quiet J (endFileItem start errors) := by
  refine .get fun s => ?_
  dsimp only
  split
  · exact quiet_skipDeclaration hJ _
  · refine .skip (quiet_atStatementEnd _) fun ends => ?_
    split
    · exact .skip quiet_separatorExpected fun _ => quiet_skipDeclaration hJ _
    · exact .pure rfl

lemma reads_fileRound (hJ : J.Settled) (h : Obeys J call) (tree : FileTree) :
    Reads J (parts tree) (fileRound call tree) parts := by
  refine .view fun k => ?_
  split
  · exact .pure rfl
  · split
    · exact .skip quiet_advance fun _ => .pure rfl
    · refine .get fun s => .bind (reads_placeItem tree hJ h) fun tree => ?_
      exact .skip (quiet_endFileItem hJ _ _) fun _ => .pure rfl

lemma yields_file (hJ : J.Settled) (h : Obeys J call) : Yields J (file call) :=
  Reads.loop_parts (reads_fileRound hJ h) ({} : FileTree)

/-! ## Tying the rules together -/

lemma obeys_ofNonterminal (hJ : J.Settled) (h : Obeys J call) :
    Obeys J fun {_} g => ofNonterminal call g where
  type K := yields_type (h.type K)
  all g := by
    cases g with
    | statement => exact yields_statement hJ h
    | expression => exact yields_expression hJ h
    | binary above => exact yields_binary above hJ h
    | unary => exact yields_unary hJ h
    | ifThen => exact yields_ifThen hJ h
    | type => exact yields_type (h.type J)
    | pattern place => exact yields_pattern place h
    | blockItem => exact yields_blockItem h
    | declaration place => exact yields_declaration place hJ h
    | importPaths leading => exact reads_importPaths leading h

/-- At every depth of nesting, rules called by name hold what they yield. -/
theorem obeys_callTo (hJ : J.Settled) (nesting : Nat) : Obeys J (callTo nesting) := by
  induction nesting with
  | zero => exact ⟨fun _ => .endless, fun _ => .endless⟩
  | succ nesting ih => exact obeys_ofNonterminal hJ ih

end CangjieSyntax.Rule

/-!
## What attempts leave behind

Two readings of the grammar are tentative: the parameters of a lambda, and type arguments in the
place of a value. Both take only steps that are allowed in an attempt, so that no attempt is made
inside another one. An attempt that is given up leaves the state as it was, but for the count of
tokens and the names met; one that is committed has reported nothing.
-/

namespace CangjieSyntax

variable {env : Env} {s t : ParseState} {α : Type}

/-- How an attempt made in the state `s` may leave the state `t`. -/
def Attempt.Leaves (s t : ParseState) : Attempt α → Prop
  | .committed _ =>
    t.lexer.log = s.lexer.log ∧ t.log = s.log ∧ t.errorCount = s.errorCount ∧ t.muted = s.muted
      ∧ t.lastErrorStart = s.lastErrorStart
  | .rewound | .exhausted => t = { s with tokenCount := t.tokenCount, names := t.names }

namespace Rule

/-- Rules that keep to any region keep to the states of an attempt. -/
lemma tries_of_yields [HasParts α] {body : Rule α} {a : α} (h : ∀ K : Region env, Yields K body)
    (hs : Reachable env s) (e : body env (s.enterTentative env.settings.budget) = some (a, t)) :
    Tries env s t :=
  (h (Region.attempt env hs.sound) _ .refl a t e).1

lemma leaves_of_yields [HasParts α] {body : Rule (Option α)} {a : Attempt α}
    (h : ∀ K : Region env, Yields K body) (hs : Reachable env s)
    (e : attempt body env s = some (a, t)) : a.Leaves s t := by
  obtain ⟨result, u, hrun, hend⟩ := attempt_eq_some e
  have hinside := Inside.of_tries hs.settled (tries_of_yields h hs hrun)
  obtain ⟨b, rfl, hfailed, rfl, rfl⟩ | ⟨-, rfl, rfl⟩ := hend
  · have hcontext := hinside.context
    simp only [ParseState.context, Prod.mk.injEq] at hcontext
    obtain ⟨log, -, muted, lastErrorStart, errorCount, -⟩ := hcontext
    have scanned := hinside.scanned.resolve_left (by simp [hfailed])
    exact ⟨scanned, log, errorCount, muted, lastErrorStart⟩
  · have left : s.giveUp u = { s with
        tokenCount := (s.giveUp u).tokenCount, names := (s.giveUp u).names } := by
      rw [hinside.giveUp_eq hs.settled]
    split
    · exact left
    · exact left

/-- Wherever a parse tries to read the parameters of a lambda or type arguments, nothing is left of
an attempt that is given up, and nothing is reported by one that is committed. -/
theorem attempt_leaves_no_trace {nesting : Nat} (hs : Reachable env s) :
    (∀ a t, attempt (lambdaParams? (callTo nesting)) env s = some (a, t) → a.Leaves s t)
      ∧ ∀ a t, attempt (fittingArguments? (callTo nesting)) env s = some (a, t) → a.Leaves s t := by
  have types (K : Region env) : Yields K (callTo nesting .type) :=
    (obeys_callTo (Region.settled_reachable env) nesting).type K
  refine ⟨fun a t e => ?_, fun a t e => ?_⟩
  · exact leaves_of_yields (fun K => yields_lambdaParams? (types K)) hs e
  · exact leaves_of_yields (fun K => yields_fittingArguments? (types K)) hs e

/-- A text with a lambda in it. -/
def lambdaText : Env where
  src := .ofString "\x7bx => x\x7d"
  settings := {}

/-- The state at the parameter of the lambda. -/
def lambdaState : ParseState :=
  ((ParseState.ofSource lambdaText.src).advance lambdaText.src).advance lambdaText.src

/-- At the parameter of a lambda, the parameters are committed and type arguments are given up. -/
theorem attempt_leaves_no_trace_at_lambda :
    (∃ params t, attempt (lambdaParams? (callTo 2)) lambdaText lambdaState
        = some (.committed params, t)
      ∧ (Attempt.committed params).Leaves lambdaState t)
      ∧ ∃ t, attempt (fittingArguments? (callTo 2)) lambdaText lambdaState = some (.rewound, t)
        ∧ t = { lambdaState with tokenCount := t.tokenCount, names := t.names } := by
  have hs : Reachable lambdaText lambdaState :=
    .step (.step (.file .empty) (.advance _)) (.advance _)
  obtain ⟨params, arguments⟩ := @attempt_leaves_no_trace lambdaText lambdaState 2 hs
  have committed : (attempt (lambdaParams? (callTo 2)) lambdaText lambdaState).map Prod.fst
      = some (.committed [⟨some ⟨"x", ⟨1, 1⟩⟩, none, ⟨1, 1⟩⟩]) := by decide +kernel
  have rewound : (attempt (fittingArguments? (callTo 2)) lambdaText lambdaState).map Prod.fst
      = some .rewound := by decide +kernel
  obtain ⟨⟨_, t⟩, et, rfl⟩ := Option.map_eq_some_iff.1 committed
  obtain ⟨⟨_, u⟩, eu, rfl⟩ := Option.map_eq_some_iff.1 rewound
  exact ⟨⟨_, t, et, params _ t et⟩, u, eu, arguments _ u eu⟩

end Rule

end CangjieSyntax
