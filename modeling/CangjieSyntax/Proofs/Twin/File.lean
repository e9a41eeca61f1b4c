import CangjieSyntax.Grammar.File
import CangjieSyntax.Proofs.Grammar.Rule
import CangjieSyntax.Proofs.Twin.Declarations

/-!
# How the rules of files follow each other

With this all rules that are called by name follow each other, to any depth of nesting, if the two
that make attempts do.
-/

namespace CangjieSyntax.Rule

variable {T : Twins} {call call' : Call}

lemma follows_packageHeader : Follows T packageHeader (move T.shift) packageHeader :=
  .start fun start => .bind_id (follows_modifiers _) fun _ => .bind_id (follows_optional _) fun _ =>
    .bind_id (follows_require _) fun _ => .bind follows_dottedName fun _ =>
      .spanFrom start fun _ => .pure rfl

section

variable (h : Calls T call call')

include h

/-! ## Packages and imports -/

lemma follows_importPaths (leading : List Name) :
    Follows T (importPaths call leading) (move T.shift)
      (importPaths call' (move T.shift leading)) := by
  refine .start fun start => .bind follows_dottedName fun path => ?_
  dsimp only
  rw [← move_append]
  refine .view_id (fun _ _ hs => by rw [hs.kind, hs.peek]) fun next => ?_
  split
  · refine .bind_id follows_advance fun _ => .bind_id follows_advance fun _ => ?_
    exact .spanFrom start fun span => .pure rfl
  · refine .bind_id follows_advance fun _ => .bind_id follows_advance fun _ => ?_
    refine .bind (follows_list (h.importPaths _) _) fun groups => ?_
    exact .bind_id (follows_require _) fun _ => .pure (by simp)
  · have renamed : Follows T (do
        let newName ← behind (.keyword .kwAs) identifier
        return [{ path := leading ++ path, wildcard := false, newName, span := ← spanFrom start }])
        (move T.shift) (do
        let newName ← behind (.keyword .kwAs) identifier
        return [{ path := move T.shift (leading ++ path), wildcard := false, newName
                  span := ← spanFrom (T.shift.pos start) }] : Rule (List ImportItem)) :=
      .bind (follows_behind follows_identifier _) fun newName =>
        .spanFrom start fun span => .pure rfl
    refine .ite (fun _ => .bind_id follows_advance fun _ => ?_) fun _ => renamed
    exact .bind_id (follows_report _ _) fun _ => renamed

lemma follows_importDecl : Follows T (importDecl call) (move T.shift) (importDecl call') := by
  refine .start fun start => .bind_id (follows_modifiers _) fun modifiers => ?_
  refine .bind (follows_behind follows_identifier _) fun module => ?_
  refine .bind_id (follows_require _) fun _ => .bind (follows_separated (h.importPaths []) _) fun items => ?_
  exact .spanFrom start fun span => .pure (by rw [← move_flatten]; rfl)

/-! ## Top-level items -/

omit h in
/-- Whether an item comes first does not depend on the place. -/
lemma follows_placeHeader (tree : FileTree) :
    Follows T (placeHeader tree) (move T.shift) (placeHeader (move T.shift tree)) := by
  refine .bind follows_packageHeader fun header => ?_
  have late : ((move T.shift tree).package.isSome || !(move T.shift tree).imports.isEmpty
      || !(move T.shift tree).items.isEmpty || (move T.shift tree).main.isSome)
      = (tree.package.isSome || !tree.imports.isEmpty || !tree.items.isEmpty
        || tree.main.isSome) := by
    change ((move T.shift tree.package).isSome || !(move T.shift tree.imports).isEmpty
      || !(move T.shift tree.items).isEmpty || (move T.shift tree.main).isSome) = _
    rw [isSome_move, isEmpty_move, isEmpty_move, isSome_move]
  rw [late]
  exact .ite (fun _ => .bind_id (follows_reportAt _ _ _) fun _ => .pure rfl) fun _ => .pure rfl

lemma follows_placeDeclaration (tree : FileTree) :
    Follows T (placeDeclaration call tree) (move T.shift)
      (placeDeclaration call' (move T.shift tree)) := by
  refine .bind (follows_declaration h .topLevel) fun id => .get fun s s' hs => ?_
  have hget := Arena.get?_appendMoved (congrArg NodeCounts.decls T.base_counts) s.nodes.decls id
  rw [hs.nodes, show (T.base.appendMoved T.shift s.nodes).decls
    = T.base.decls.appendMoved T.shift s.nodes.decls from rfl, hget]
  have item : { move T.shift tree with
      items := (move T.shift tree).items ++ [move T.shift id] }
      = move T.shift { tree with items := tree.items ++ [id] } :=
    congrArg (fun items => { move T.shift tree with items }) (move_append T.shift tree.items [id]).symm
  cases s.nodes.decls.get? id with
  | none => exact .pure item
  | some node =>
    obtain ⟨form, span, annotations, modifiers⟩ := node
    cases form
    case mainFunction parts =>
      change Follows T (if tree.main.isSome = true then _ else _) _
        (if (move T.shift tree.main).isSome = true then _ else _)
      rw [isSome_move]
      refine .ite (fun _ => .bind_id (follows_reportAt _ _ _) fun _ => .pure item) fun _ => .pure rfl
    all_goals exact .pure item

lemma follows_placeItem (tree : FileTree) :
    Follows T (placeItem call tree) (move T.shift) (placeItem call' (move T.shift tree)) := by
  refine .view_id (fun _ _ hs => ?_) fun c => ?_
  · unfold itemClass
    rw [hs.sees.kindAfterModifiers, hs.sees.macroPackageAhead]
  · split
    · exact follows_placeHeader tree
    · refine .bind (follows_importDecl h) fun decl => .pure ?_
      exact congrArg (fun imports => { move T.shift tree with imports })
        (move_append T.shift tree.imports [decl]).symm
    · exact follows_placeDeclaration h tree

omit h in
lemma follows_endFileItem (start errors : Nat) :
    Follows T (endFileItem start errors) id
      (endFileItem (T.shift.pos start) (T.errors + errors)) := by
  refine .get fun _ _ hs => ?_
  obtain ⟨hstart, herrors⟩ := progress hs start errors
  rw [hstart, herrors]
  refine .ite (fun _ => follows_skipDeclaration _) fun _ => ?_
  refine .bind_id (follows_atStatementEnd _) fun ended => .ite (fun _ => ?_) fun _ => .pure rfl
  exact .bind_id follows_separatorExpected fun _ => follows_skipDeclaration false

/-- The items of a file are followed if the rules called by name are. -/
lemma follows_file : Follows T (file call) (move T.shift) (file call') := by
  refine .loop_moves (fun tree => .kind fun k => ?_) ({} : FileTree)
  refine .ite (fun _ => .pure rfl) fun _ => .ite (fun _ => ?_) fun _ => .get fun _ _ hs => ?_
  · exact .bind_id follows_advance fun _ => .pure rfl
  · rw [hs.start, hs.errorCount]
    refine .bind (follows_placeItem h tree) fun tree => ?_
    exact .bind_id (follows_endFileItem _ _) fun _ => .pure rfl

/-! ## Any rule -/

/-- Every rule called by name follows itself if the rules it calls follow each other. -/
lemma calls_ofNonterminal
    (typeArguments : Follows T (typeArguments? (ofNonterminal call)) (move T.shift)
      (typeArguments? (ofNonterminal call')))
    (lambda : ∀ needsArrow, Follows T (lambda (ofNonterminal call) needsArrow) (move T.shift)
      (lambda (ofNonterminal call') needsArrow)) :
    Calls T (ofNonterminal call) (ofNonterminal call') where
  statement := follows_statement h
  expression := follows_expression h
  binary := follows_binary h
  unary := follows_unary h
  ifThen := follows_ifThen h
  type := follows_type h.type
  pattern := follows_pattern h
  blockItem := follows_blockItem h
  declaration := follows_declaration h
  importPaths := follows_importPaths h
  typeArguments := typeArguments
  lambda := lambda

end

/-- Types are followed wherever they are read, and to any greater depth of nesting. -/
lemma follows_callTo_type_of_le (T : Twins) {nesting nesting' : Nat} (hle : nesting ≤ nesting')
    (heq : T.mirrored → nesting = nesting') :
    Follows T (callTo nesting .type) (move T.shift) (callTo nesting' .type) := by
  induction nesting generalizing nesting' with
  | zero => exact .endless fun hm => by rw [← heq hm]; rfl
  | succ nesting ih =>
    obtain ⟨nesting', rfl⟩ := Nat.exists_eq_add_of_le' (Nat.lt_of_lt_of_le (Nat.succ_pos _) hle)
    exact follows_type (ih (Nat.le_of_succ_le_succ hle) fun hm => Nat.succ.inj (heq hm))

lemma follows_callTo_type (T : Twins) (nesting : Nat) :
    Follows T (callTo nesting .type) (move T.shift) (callTo nesting .type) :=
  follows_callTo_type_of_le T le_rfl fun _ => rfl

end CangjieSyntax.Rule

/-!
## Mirrored parses

Two parses under the same settings, of texts that differ only in where their tokens stand. Whatever
becomes of an attempt in one of them becomes of it in the other, so that all rules are followed.
-/

namespace CangjieSyntax

/-- The attempts of one parse in a second one, in whatever they came to. -/
def Attempt.map {α β : Type} (f : α → β) : Attempt α → Attempt β
  | .committed a => .committed (f a)
  | .rewound => .rewound
  | .exhausted => .exhausted

/-- Nodes that are taken back are taken back where they were moved, too. -/
lemma Nodes.truncate_appendMoved (m : Move) (nodes others : Nodes) :
    (Nodes.appendMoved {} m nodes).truncate (Nodes.appendMoved {} m others).counts
      = Nodes.appendMoved {} m (nodes.truncate others.counts) := by
  have arena {sort : NodeSort} {α : Type} [Moves α] (a b : Arena sort α) :
      (Arena.appendMoved {} m a).truncate (Arena.appendMoved {} m b).size
        = Arena.appendMoved {} m (a.truncate b.size) := by
    refine congrArg Arena.mk (Array.toList_inj.1 ?_)
    simp [Arena.appendMoved, Arena.truncate, Arena.size]
  simp only [truncate, counts, appendMoved, arena]

/-- Two parses outside attempts under the same settings, of which everything is claimed. -/
structure Twins.Mirror (T : Twins) : Prop where
  good : ∀ s, T.good s
  outside : T.tentative = false
  exact : T.exact
  base : T.base = {}
  budget : T.env'.settings.budget = T.env.settings.budget
  remembers : T.env'.remembers = T.env.remembers
  /-- Going back leads to the same place again. -/
  restore : ∀ {l l' k k' : Lexer}, T.lexes l l' → T.lexes k k' →
    T.lexes (l.restore k) (l'.restore k')

/-- The same parses inside an attempt. -/
def Twins.inside (T : Twins) : Twins :=
  { T with tentative := true }

namespace Twins.Mirror

variable {T : Twins} {s s' u u' : ParseState} (h : T.Mirror)

include h

lemma enter (hs : T.Alike s s') :
    T.inside.Alike (s.enterTentative T.env.settings.budget)
      (s'.enterTentative T.env'.settings.budget) := by
  obtain ⟨settled, settled'⟩ := hs.settled h.outside
  refine { hs with settled := fun e => (nomatch e), tried := fun _ => ?_ }
  unfold ParseState.enterTentative
  rw [settled, settled', h.budget]
  refine ⟨rfl, rfl, rfl, rfl, _, _, rfl, rfl, ?_, fun _ => ?_⟩
  all_goals
    simp only [Option.map_none, Option.getD_none]
    omega

variable (hs : T.Alike s s') (hu : T.inside.Alike u u')

include hs hu

lemma commit : T.Alike (s.commit u) (s'.commit u') := by
  have tried := hu.tried rfl
  obtain ⟨settled, settled'⟩ := hs.settled h.outside
  refine { hu with settled := fun _ => ?_, tried := fun e => ?_ }
  · unfold ParseState.commit ParseState.leaveTentative
    rw [tried.depth, tried.depth', settled, settled']
    exact ⟨rfl, rfl⟩
  · rw [h.outside] at e
    exact nomatch e

lemma giveUp : T.Alike (s.giveUp u) (s'.giveUp u') := by
  have tried := hu.tried rfl
  obtain ⟨settled, settled'⟩ := hs.settled h.outside
  unfold ParseState.giveUp ParseState.leaveTentative ParseState.rewind
  rw [tried.depth, tried.depth', settled, settled', ParseState.checkLimit_of_settled rfl,
    ParseState.checkLimit_of_settled rfl]
  have nodes : u'.nodes.truncate s'.nodes.counts
      = T.base.appendMoved T.shift (u.nodes.truncate s.nodes.counts) := by
    have inner : u'.nodes = T.base.appendMoved T.shift u.nodes := hu.nodes
    rw [inner, hs.nodes, h.base, Nodes.truncate_appendMoved]
  exact { hu with
    lexes := h.restore hs.lexes hu.lexes
    nodes
    depth := hs.depth
    prevStop := hs.prevStop
    prevKind := hs.prevKind
    prevText := hs.prevText
    settled := fun _ => ⟨rfl, rfl⟩
    tried := fun e => by rw [h.outside] at e; exact nomatch e }

end Twins.Mirror

namespace Rule

variable {T : Twins} {α : Type} {call call' : Call}

/-- Whatever becomes of an attempt in the first parse becomes of it in the second one. -/
lemma follows_attempt (h : T.Mirror) {f : α → α} {body body' : Rule (Option α)}
    (hbody : Follows T.inside body (Option.map f) body') :
    Follows T (attempt body) (Attempt.map f) (attempt body') := by
  refine ⟨fun _ _ => h.good _, fun {s s' a t} hs e _ => ?_, fun hm s s' hs e => ?_⟩
  · obtain ⟨result, u, hrun, hend⟩ := attempt_eq_some e
    obtain ⟨u', hrun', halike⟩ := hbody.run (h.enter hs) hrun (h.good u)
    obtain ⟨b, rfl, hok, rfl, rfl⟩ | ⟨hno, rfl, rfl⟩ := hend
    · refine ⟨s'.commit u', ?_, h.commit hs halike⟩
      exact attempt_committed hrun' (halike.failed.trans hok)
    · have hno' : result.map f = none ∨ u'.tentative.failed = true :=
        hno.imp Option.map_eq_none_iff.2 halike.failed.trans
      refine ⟨s'.giveUp u', (attempt_givenUp hrun' hno').trans ?_, h.giveUp hs halike⟩
      rw [(halike.tried rfl).exhausted, apply_ite (Attempt.map f)]
      rfl
  · rw [attempt_apply, Option.map_eq_none_iff] at e ⊢
    exact hbody.fails hm (h.enter hs) e

/-- Type arguments are found in both parses or in none. -/
lemma follows_typeArguments?_of_mirror (h : T.Mirror)
    (htype : Follows T.inside (call .type) (move T.shift) (call' .type)) :
    Follows T (typeArguments? call) (move T.shift) (typeArguments? call') := by
  refine .read <| .view_id (fun s s' hs => ?_) fun candidate => .ite (fun _ => .pure rfl) fun _ => ?_
  · have known : s'.comparisons.contains s'.start = s.comparisons.contains s.start := by
      rw [Bool.eq_iff_iff, List.contains_iff_mem, List.contains_iff_mem, hs.start]
      exact hs.comparisons s.start
    rw [hs.kind, hs.same.separated, known, h.remembers]
  refine .tokenSpan fun opening => ?_
  refine .bind (follows_attempt h (follows_fittingArguments? htype)) fun result => ?_
  cases result with
  | committed args => exact .pure rfl
  | rewound =>
    refine .bind_id (.modify (fun _ _ => h.good _) fun s s' hs _ => ?_) fun _ => .pure rfl
    refine { hs with comparisons := fun p => ?_ }
    rw [start_move, List.mem_cons, List.mem_cons, T.shift.pos_inj]
    exact or_congr_right (hs.comparisons p)
  | exhausted =>
    refine .read ?_
    rw [h.budget]
    exact .bind_id (follows_reportAt _ _ _) fun _ => .pure rfl

lemma follows_lambda_of_mirror (h : T.Mirror)
    (htype : Follows T.inside (call .type) (move T.shift) (call' .type))
    (hitem : Follows T (call .blockItem) (move T.shift) (call' .blockItem)) (needsArrow : Bool) :
    Follows T (lambda call needsArrow) (move T.shift) (lambda call' needsArrow) := by
  refine .start fun start => ?_
  extract_lets rest body rest' body'
  have hrest (params : List LambdaParam) :
      Follows T (rest params) (move T.shift) (rest' (move T.shift params)) := by
    refine .bind (follows_items hitem _) fun items => .bind_id (follows_require _) fun _ => ?_
    exact .spanFrom start fun span => follows_allocExpr span rfl
  have hbody : Follows T (body ()) (move T.shift) (body' ()) :=
    .bind (f := move T.shift) (.pure rfl) hrest
  clear_value rest body rest' body'
  have hmissed : Follows T
      (if needsArrow then do report .expected [Punctuation.fatArrow.text]; body () else body ())
      (move T.shift)
      (if needsArrow then do report .expected [Punctuation.fatArrow.text]; body' () else body' ()) :=
    .ite (fun _ => .bind_id (follows_report _ _) fun _ => hbody) fun _ => hbody
  refine .bind_id follows_advance fun _ => ?_
  refine .bind (follows_attempt h (follows_lambdaParams? htype)) fun result => ?_
  cases result with
  | committed params => exact hrest params
  | rewound => exact hmissed
  | exhausted => exact hmissed

/-! ## Tying the rules together -/

/-- At every depth of nesting all rules are followed, and to any greater one. -/
theorem calls_callTo (h : T.Mirror) {nesting nesting' : Nat} (hle : nesting ≤ nesting')
    (heq : T.mirrored → nesting = nesting') : Calls T (callTo nesting) (callTo nesting') := by
  induction nesting generalizing nesting' with
  | zero =>
    -- No rule comes to anything, and in the second parse none does at the same depth.
    have endless {α : Type} (T : Twins) (hm : T.mirrored → 0 = nesting') {β : Type} (f : α → β)
        (g : Nonterminal β) : Follows T endless f (callTo nesting' g) :=
      .endless fun e => by rw [← hm e]; rfl
    exact ⟨endless T heq _ _, endless T heq _ _, fun _ => endless T heq _ _, endless T heq _ _,
      endless T heq _ _, endless T heq _ _, fun _ => endless T heq _ _, endless T heq _ _,
      fun _ => endless T heq _ _, fun _ => endless T heq _ _,
      follows_typeArguments?_of_mirror h (endless T.inside heq _ _),
      follows_lambda_of_mirror h (endless T.inside heq _ _) (endless T heq _ _)⟩
  | succ nesting ih =>
    obtain ⟨nesting', rfl⟩ := Nat.exists_eq_add_of_le' (Nat.lt_of_lt_of_le (Nat.succ_pos _) hle)
    have types := follows_callTo_type_of_le T.inside hle heq
    have ih := ih (Nat.le_of_succ_le_succ hle) fun hm => Nat.succ.inj (heq hm)
    exact calls_ofNonterminal ih (follows_typeArguments?_of_mirror h types)
      (follows_lambda_of_mirror h types (follows_blockItem ih))

end Rule

end CangjieSyntax
