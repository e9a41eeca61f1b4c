import CangjieSyntax.Proofs.Ending.Declarations
import CangjieSyntax.Proofs.Grammar.File

/-!
# Files are read to their end

An item of a file takes at least one token, whatever it is. At the end the circle of rules is closed:
calls are nested no deeper than there are tokens, since between a rule and itself one is taken.
-/

namespace CangjieSyntax.Rule

variable {env : Env} {B J K : Region env} {allowed : Kind → Prop} {call : Call}
  {s u : ParseState}

/-! ## Items -/

section

variable (h : Steady J allowed call)

include h

lemma returns_endFileItem (start errors : Nat) : Returns J 0 (endFileItem start errors) := by
  refine .get fun s => ?_
  dsimp only
  split
  · exact returns_skipDeclaration h.underway _
  · refine .skip (quiet_atStatementEnd _) (always_atStatementEnd _).returns fun ends => ?_
    split
    · exact .skip quiet_separatorExpected always_separatorExpected.returns fun _ =>
        returns_skipDeclaration h.underway _
    · exact .pure _

/-- Behind an item of a file at least its first token has been passed. -/
lemma ensures_endFileItem (hu : (J.since allowed s.lexer).mem u) (hs : J.mem s)
    (hkind : s.kind ≠ .endOfFile) (errors : Nat) :
    Ensures env u (endFileItem s.start errors) fun _ t => s.Consumes t := by
  obtain hpassed | ⟨hstart, hsame⟩ := hu.2.2.moved
  · have hpast : (J.past allowed s.lexer).mem u := ⟨hu.1, hu.2.1, hpassed⟩
    exact .past hkind (quiet_endFileItem (h.settledPast s.lexer) s.start errors u hpast)
  · have hstill : u.kind ≠ .endOfFile := by
      rw [ParseState.kind_of_settled (h.settled.tentative hu.1)]
      rw [ParseState.kind_of_settled (h.settled.tentative hs)] at hkind
      intro e
      obtain hsame | hjoined := hsame
      · exact hkind (hsame ▸ e)
      · rw [e] at hjoined
        exact nomatch hjoined
    have hprogressed : (u.start != s.start) = false := by
      rw [bne_eq_false_iff_eq]
      exact hstart
    refine .get ?_
    dsimp only
    rw [hprogressed, Bool.not_false, Bool.or_true, if_pos rfl]
    exact (ensures_skipDeclaration h.settled h.marks hu.1 hu.2.1 hstill).mono
      fun _ t ht => ht.since hu.2.2

lemma consumes_fileRound (tree : FileTree) (hs : J.mem s) :
    Consumes env s (fileRound call tree) := by
  refine .view ?_
  split
  · exact .pure nofun
  case isFalse hend =>
    have hkind : s.kind ≠ .endOfFile := fun e => hend (beq_iff_eq.2 e)
    split
    · exact .advance (.pure fun _ => (h.underway hs).consumes_advance hkind)
    · have hitem := reads_placeItem tree (h.settledSince s.lexer) (h.obeysSince s.lexer)
      refine .get (.reads (hitem s (h.since hs)) fun tree u hu => ?_)
      exact (ensures_endFileItem h hu hs hkind _).bind fun _ t ht => .pure fun _ => ht

lemma returns_packageHeader : Returns J 0 packageHeader := by
  refine .view fun start => .skip (quiet_modifiers _) (returns_modifiers h _) fun modifiers => ?_
  refine .optional _ fun isMacro => .require _ fun _ => ?_
  exact .next yields_dottedName (returns_dottedName h.underway) fun path => .view fun span => .pure _

lemma returns_placeHeader (tree : FileTree) : Returns J 0 (placeHeader tree) := by
  refine .next yields_packageHeader (returns_packageHeader h) fun header => ?_
  split
  · exact .reportAt _ _ _ fun _ => .pure _
  · exact .pure _

end

section

variable (h : Opens B K allowed call)

include h

/-- The paths of a group are read behind the brace in front of them. -/
lemma returns_importPaths (leading : List Name) :
    Returns B (parts leading) (importPaths call leading) := by
  have hK := h.responds
  refine .view fun start => .weaken (add_zero (parts leading)).le ?_
  refine .use yields_dottedName (returns_dottedName h.underway) fun rest => ?_
  refine .weaken (parts_append leading rest).le ?_
  generalize leading ++ rest = path
  intro s hs
  refine .view ?_
  split
  case h_1 => exact .advance (.advance (.view (.pure _)))
  case h_2 hnext =>
    have hkind : s.kind ≠ .endOfFile := by
      intro e
      rw [e] at hnext
      exact nomatch hnext
    refine .behind (h.before.at hs hkind) (.advance fun _ => ?_)
    have element (C : Region env) (hC : Obeys C call) : Reads C (parts path)
        (call (.importPaths path)) fun items => parts path + parts items :=
      reads_again (refs_names path) ((hC.all (.importPaths path)).frame (parts path))
    refine .bind (reads_list _ (element K hK.obeysHere)) ?_ fun groups => ?_
    · exact returns_list hK.underway _ (element K hK.obeysHere)
        (fun l => element _ (hK.obeysSince l)) (hK.importPaths path)
    · exact .require _ fun _ => .pure _
  case h_3 =>
    extract_lets rest
    have hrest (u : Unit) : Returns B 0 (rest u) := by
      refine .next (yields_behind _ yields_identifier) ?_ fun newName => .view fun span => .pure _
      exact returns_behind _ yields_identifier always_identifier.returns
    clear_value rest
    split
    · exact Returns.advance (fun _ => .report _ _ hrest) s hs.drop
    · exact hrest () s hs.drop

end

section

variable (h : Responds J allowed call)

include h

lemma returns_importDecl : Returns J 0 (importDecl call) := by
  refine .view fun start => ?_
  refine .skip (quiet_modifiers _) (returns_modifiers h.toSteady _) fun modifiers => ?_
  refine .next (yields_behind _ yields_identifier) ?_ fun module => .require _ fun _ => ?_
  · exact returns_behind _ yields_identifier always_identifier.returns
  · have hpaths (C : Region env) (_ : C.Settled) (hcall : Obeys C call) :
        Yields C (call (.importPaths [])) := hcall.all (.importPaths [])
    refine .next (yields_separated _ (hpaths J h.settled h.obeysHere)) ?_ fun items => ?_
    · exact h.separated (by decide) hpaths (h.importPaths [])
    · exact .view fun span => .pure _

lemma returns_placeDeclaration (hspares : SparesMembers allowed) (tree : FileTree) :
    Returns J 0 (placeDeclaration call tree) := by
  refine .next (yields_declaration .topLevel h.settled h.obeysHere) ?_ fun id => .get fun s => ?_
  · exact returns_declaration h.opens hspares .topLevel
  · split
    · split
      · exact .reportAt _ _ _ fun _ => .pure _
      · exact .pure _
    · exact .pure _

lemma returns_placeItem (hspares : SparesMembers allowed) (tree : FileTree) :
    Returns J 0 (placeItem call tree) := by
  refine .view fun itemClass => ?_
  split
  · exact returns_placeHeader h.toSteady tree
  · exact .next (yields_importDecl h.obeysHere) (returns_importDecl h) fun one => .pure _
  · exact returns_placeDeclaration h hspares tree

lemma returns_file (hspares : SparesMembers allowed) : Returns J 0 (file call) := by
  refine Returns.loop h.underway (reads_fileRound h.settled h.obeysHere)
    (fun tree => .view fun k => ?_) (fun tree s hs => consumes_fileRound h.toSteady tree hs)
    ({} : FileTree)
  split
  · exact .pure _
  split
  · exact .advance fun _ => .pure _
  · refine .get fun s => .bind (reads_placeItem tree h.settled h.obeysHere) ?_ fun tree => ?_
    · exact (returns_placeItem h hspares tree).drop
    · exact .skip (quiet_endFileItem h.settled _ _) (returns_endFileItem h.toSteady _ _)
        fun _ => .pure _

end

/-! ## Tying the rules together -/

section

variable (J) (hmarks : AllowsMarks allowed)

include hmarks

lemma steady_below (hJ : J.Settled) (bound nesting : Nat) :
    Steady (J.below allowed bound) allowed (callTo nesting) where
  settled := hJ.along hmarks _
  marks := hmarks
  underway h := h.2.1
  loses := id
  obeys _ hK := obeys_callTo hK nesting

omit hmarks in
lemma before_below (bound : Nat) : (J.below allowed (bound + 1)).Before (J.below allowed bound) :=
  ⟨fun hs hkind => Region.below_advance hs hkind⟩

omit hmarks in
/-- Types are nested no deeper than there are tokens. -/
lemma readsTypes_callTo {bound nesting : Nat} (hnesting : bound ≤ nesting) :
    ReadsTypes (J.below allowed bound) allowed (callTo nesting) := by
  have hyields (nesting : Nat) (K : Region env) : Yields K (callTo nesting .type) :=
    (obeys_callTo (Region.settled_reachable env) nesting).type K
  induction bound generalizing nesting with
  | zero => exact ⟨fun h => h.2.1, hyields nesting, fun s hs => absurd hs.mem.2.2 (Nat.not_lt_zero _)⟩
  | succ bound ih =>
    cases nesting with
    | zero => exact absurd hnesting (Nat.not_succ_le_zero _)
    | succ nesting =>
      refine ⟨fun h => h.2.1, hyields _, ?_⟩
      have hfewer := ih (Nat.le_of_succ_le_succ hnesting)
      exact returns_type hfewer (fun h => h.2.1) (before_below J bound)

lemma opens_below (hJ : J.Settled) {bound nesting : Nat} (hnesting : bound + 1 ≤ nesting)
    (h : Responds (J.below allowed bound) allowed (callTo nesting)) :
    Opens (J.below allowed (bound + 1)) (J.below allowed bound) allowed (callTo nesting) where
  toSteady := steady_below J hmarks hJ _ _
  before := before_below J bound
  types := readsTypes_callTo J hnesting
  responds := h

/-- Where fewer tokens are left than calls may be nested, all calls have an answer. -/
theorem responds_callTo (hJ : J.Settled) (hspares : SparesMembers allowed) {bound nesting : Nat}
    (hnesting : 2 * bound + 1 ≤ nesting) :
    Responds (J.below allowed bound) allowed (callTo nesting) := by
  have attempts {bound nesting : Nat} (hnesting : bound ≤ nesting) : ∃ K : Region env,
      ReadsTypes K allowed (callTo nesting) ∧ ∀ {s}, (J.below allowed bound).mem s →
        K.mem (s.enterTentative env.settings.budget) := by
    refine ⟨_, readsTypes_callTo (.anywhere env) hnesting, fun hs => ⟨?_, ?_, hs.2.2⟩⟩
    · exact ⟨(J.sound hs.1).reported, (J.sound hs.1).named⟩
    · exact hs.2.1.enter _
  -- Between calls from one bound to the next lower one at most two are made without a token.
  induction bound generalizing nesting with
  | zero =>
    exact ⟨steady_below J hmarks hJ _ _, attempts (by omega),
      fun g s hs _ => absurd hs.mem.2.2 (Nat.not_lt_zero _)⟩
  | succ bound ih =>
    obtain ⟨nesting, rfl⟩ : ∃ n, nesting = n + 2 := ⟨nesting - 2, by omega⟩
    have inner := opens_below J hmarks hJ (by omega) (@ih nesting (by omega))
    have outer := opens_below J hmarks hJ (by omega) (@ih (nesting + 1) (by omega))
    refine ⟨steady_below J hmarks hJ _ _, attempts (by omega), fun g s hs hstarts => ?_⟩
    change Finishes env s (ofNonterminal (callTo (nesting + 1)) g)
    cases g with
    | statement => exact returns_statement outer s hs
    | expression => exact returns_expression outer s hs
    | binary above => exact returns_binary outer above s hs
    | unary => exact returns_unary outer s hs
    | ifThen => exact finishes_ifThen outer.responds (outer.before.at hs hstarts)
    | type => exact returns_type outer.responds.types outer.underway outer.before s hs
    | pattern place => exact returns_pattern outer place (returns_unary inner) s hs
    | blockItem =>
      refine returns_blockItem outer.obeysHere ?_ (returns_statement inner) s hs
      exact returns_declaration inner hspares .inBlock
    | declaration place => exact returns_declaration outer hspares place s hs
    | importPaths leading => exact returns_importPaths outer leading s hs

end

end CangjieSyntax.Rule
