import CangjieSyntax.Grammar.File
import CangjieSyntax.Proofs.Layout.Declarations
import CangjieSyntax.Proofs.Layout.Ends
import CangjieSyntax.Proofs.Termination

/-!
# How the rules of files lay out what they read

Headers, imports and the items of a file. The names in front of a group of imports are spans, which
every path of the group may use. At the end the circle of rules is closed: at each depth of nesting,
all rules called by name lay out what they yield.
-/

namespace CangjieSyntax.Rule

variable {env : Env} {J : Ground env} {call : Call} {lo : Nat}

/-! ## Packages and imports -/

lemma places_packageHeader : Places J packageHeader := by
  refine fun lo => .edge fun start hstart => .skip (places_modifiers _) fun modifiers => ?_
  refine .skip (lays_optional _) fun isMacro => .skip (takes_require _) fun _ => ?_
  refine .first places_dottedName fun path => .spanFrom hstart fun span hspan => ?_
  exact .hold hspan (.pure (List.Sublist.refl _))

/-- Names are spans. -/
lemma marks_names (names : List Name) : ∀ m ∈ marks names, ∃ span, m = .span span := by
  intro m hm
  obtain ⟨name, -, hm⟩ := List.mem_flatMap.1 hm
  exact ⟨name.span, List.mem_singleton.1 hm⟩

lemma lays_importPaths (leading : List Name) (h : LaysOut J call) (lo : Nat) :
    Lays J lo (marks leading) (importPaths call leading) marks := by
  refine .edge fun start hstart => .next places_dottedName fun rest => ?_
  refine .of_eq (marks_append leading rest).symm (.view fun next => ?_)
  generalize leading ++ rest = path
  split
  · refine .skip takes_advance fun _ => .skip takes_advance fun _ => ?_
    exact .spanFrom hstart fun span hspan => .hold hspan (.pure (by simp [marks]))
  · refine .skip takes_advance fun _ => .skip takes_advance fun _ => ?_
    refine .bind (lays_list _ fun items => ?_) fun groups => ?_
    · exact .again (marks_names path) (List.sublist_append_left _ _) (h.all (.importPaths path))
    · refine .weaken (List.sublist_append_right _ _) (.skip (takes_require _) fun _ => ?_)
      exact .pure (by rw [marks_flatten])
  · extract_lets rest
    have hrest (u : Unit) : Lays J lo (marks path) (rest u) marks := by
      refine .next (places_behind _ places_identifier) fun newName => ?_
      exact .spanFrom hstart fun span hspan => .hold hspan (.pure (by simp [marks]))
    clear_value rest
    split
    · exact .skip takes_advance fun _ => .skip (faults_report _ _) hrest
    · exact hrest ()

lemma places_importDecl (h : LaysOut J call) : Places J (importDecl call) := by
  refine fun lo => .edge fun start hstart => .skip (places_modifiers _) fun modifiers => ?_
  refine .first (places_behind _ places_identifier) fun module => .skip (takes_require _) fun _ => ?_
  refine .next (places_separated _ (h.all (.importPaths []))) fun items => ?_
  refine .spanFrom hstart fun span hspan => .hold hspan (.pure ?_)
  change (marks module ++ marks items.flatten ++ [Mark.span span]).Sublist _
  rw [marks_flatten]

/-! ## Top-level items -/

lemma lays_placeHeader (tree : FileTree) : Lays J lo (marks tree) (placeHeader tree) marks := by
  refine .next places_packageHeader fun header => ?_
  split
  case isTrue =>
    intro s hs
    refine .bind (laysFrom_reportAt hs (fun h => ?_) _ _) fun _ t _ ht => Lays.pure ?_ t ht
    · exact h.valid (.span header.span) (by simp [marks])
    · simp
  case isFalse hfirst =>
    have himports : tree.imports = [] := by
      simp at hfirst
      exact hfirst.1.1.2
    exact .pure (by simp [marks, himports])

lemma lays_placeDeclaration (tree : FileTree) (hJ : J.Settled) (h : LaysOut J call) :
    Lays J lo (marks tree) (placeDeclaration call tree) marks := by
  refine .next (places_declaration .topLevel hJ h) fun id s hs => .get ?_
  split
  case h_1 f span annotations modifiers hnode =>
    split
    · refine .bind (laysFrom_reportAt hs (fun h => ?_) _ _) fun _ t _ ht => Lays.pure ?_ t ht
      · exact (h.nodes (.decl id) (.decl ⟨.mainFunction f, span, annotations, modifiers⟩)
          (by simp [Nodes.get?, hnode])).span
      · simp [marks]
    · refine Lays.pure ?_ s hs
      simp [marks]
  case h_2 =>
    refine Lays.pure ?_ s hs
    simp [marks]

lemma lays_placeItem (tree : FileTree) (hJ : J.Settled) (h : LaysOut J call) :
    Lays J lo (marks tree) (placeItem call tree) marks := by
  refine .view fun itemClass => ?_
  split
  · exact lays_placeHeader tree
  · exact .next (places_importDecl h) fun one => .pure (by simp [marks])
  · exact lays_placeDeclaration tree hJ h

lemma places_endFileItem (hJ : J.Settled) (start errors : Nat) :
    Places J (endFileItem start errors) := by
  refine fun lo => .get fun s => ?_
  dsimp only
  split
  · exact places_skipDeclaration hJ _ lo
  · refine .skip (places_atStatementEnd _) fun ends => ?_
    split
    · exact .skip faults_separatorExpected fun _ => places_skipDeclaration hJ _ lo
    · exact .pure (List.Sublist.refl _)

lemma lays_fileRound (hJ : J.Settled) (h : LaysOut J call) (tree : FileTree) :
    Lays J lo (marks tree) (fileRound call tree) marks := by
  refine .view fun k => ?_
  split
  · exact .pure (List.Sublist.refl _)
  · split
    · exact .skip takes_advance fun _ => .pure (List.Sublist.refl _)
    · refine .get fun s => .bind (lays_placeItem tree hJ h) fun tree => ?_
      exact .skip (places_endFileItem hJ _ _) fun _ => .pure (List.Sublist.refl _)

lemma places_file (hJ : J.Settled) (h : LaysOut J call) : Places J (file call) :=
  fun _ => Lays.loop_marks (lays_fileRound hJ h) ({} : FileTree)

/-! ## Tying the rules together -/

lemma laysOut_ofNonterminal (hJ : J.Settled) (h : LaysOut J call) :
    LaysOut J fun {_} g => ofNonterminal call g where
  type K := places_type (h.type K)
  all g lo := by
    cases g with
    | statement => exact places_statement hJ h lo
    | expression => exact places_expression hJ h lo
    | binary above => exact places_binary above hJ h lo
    | unary => exact places_unary hJ h lo
    | ifThen => exact places_ifThen hJ h lo
    | type => exact places_type (h.type J) lo
    | pattern place => exact places_pattern place h lo
    | blockItem => exact places_blockItem h lo
    | declaration place => exact places_declaration place hJ h lo
    | importPaths leading => exact lays_importPaths leading h lo

/-- At every depth of nesting, rules called by name lay out what they yield. -/
theorem laysOut_callTo (hJ : J.Settled) (nesting : Nat) : LaysOut J (callTo nesting) := by
  induction nesting with
  | zero => exact ⟨fun _ _ => .endless, fun _ _ => .endless⟩
  | succ nesting ih => exact laysOut_ofNonterminal hJ ih

end CangjieSyntax.Rule

/-!
## The offsets that spans are made of

Spans are made of tokens and of errors in them, of what has been read since an offset, of runs of
tokens in quoted code, and of what stands between brackets. Wherever that is done, the first offset
is not behind the second one.
-/

namespace CangjieSyntax

variable {env : Env} {src : Source} {s t : ParseState} {call : Call} {α β : Type} {b : Bounds}

/-! ## Where spans are made -/

/-- The lexer comes from one state to another one token after the other. -/
def Lexer.Reads (src : Source) : Lexer → Lexer → Prop :=
  Relation.ReflTransGen fun l m => m = l.scan src

/-- A repeated step comes from one value and state to others. -/
def Rule.Rounds (env : Env) (step : β → Rule (β ⊕ α)) : β × ParseState → β × ParseState → Prop :=
  Relation.ReflTransGen fun (b, s) (b', s') => step b env s = some (.inl b', s')

/-- A parse comes from one state to another one, perhaps inside an attempt. -/
def Comes (env : Env) (s t : ParseState) : Prop :=
  Visits env s t ∨ ∃ u, Visits env s u ∧ Tries env u t

/-- The offsets of which a parse that starts in a state makes spans. -/
inductive MakesSpan (env : Env) (s : ParseState) : Bounds → Prop
  /-- A token that is current or looked at ahead. -/
  | token {t : ParseState} {l : Lexer} (ht : Comes env s t) (hl : t.lexer.Reads env.src l) :
    MakesSpan env s ⟨l.start, l.pos⟩
  /-- An error in such a token. -/
  | error {t : ParseState} {l : Lexer} {e : LexError × Bounds} (ht : Comes env s t)
    (hl : t.lexer.Reads env.src l) (he : e ∈ (Lexeme.read env.src l.modes l.pos).2.errors) :
    MakesSpan env s e.2
  /-- What has been read since an offset, if anything. -/
  | spanFrom {t : ParseState} (ht : Comes env s t) (start : Nat) :
    MakesSpan env s ⟨start, max t.prevStop start⟩
  /-- A run of tokens in code that is quoted from `t` on. -/
  | run {t u : ParseState} {q : Rule.Quotation} {nesting start : Nat} (ht : Visits env s t)
    (hrounds : Rule.Rounds env (Rule.quotePartsRound (Rule.callTo nesting)) ({}, t) (q, u))
    (hrun : q.run = some start) : MakesSpan env s ⟨start, u.prevStop⟩
  /-- What stands behind the bracket at `t`, which is closed at `u`. -/
  | closed {t u : ParseState} {opening closing : Punctuation} {depth : Nat} (ht : Visits env s t)
    (hrounds : Rule.Rounds env (Rule.balancedRound opening closing t.lexer.pos)
      (0, t.advance env.src) (depth, u)) : MakesSpan env s ⟨t.lexer.pos, u.start⟩
  /-- What stands behind the bracket at `t`, which is not closed. -/
  | unclosed {t u : ParseState} {opening closing : Punctuation} {depth : Nat} (ht : Visits env s t)
    (hrounds : Rule.Rounds env (Rule.balancedRound opening closing t.lexer.pos)
      (0, t.advance env.src) (depth, u)) : MakesSpan env s ⟨t.lexer.pos, max u.prevStop t.lexer.pos⟩

/-! ## Tokens -/

namespace Lexer

lemma Footed.reads {l m : Lexer} (h : l.Footed src) (hreads : l.Reads src m) : m.Footed src := by
  induction hreads with
  | refl => exact h
  | tail _ e ih => exact e ▸ ih.scan.1

end Lexer

/-- The states that a parse visits have their offsets between characters. -/
lemma Visits.mem {J : Ground env} (hJ : J.Settled) (hs : J.mem s) (h : Visits env s t) : J.mem t := by
  induction h with
  | refl => exact hs
  | tail _ hmove ih => exact hmove.elim (J.step ih) (hJ.turn ih)

lemma Comes.footed {J : Ground env} (hJ : J.Settled) (hs : J.mem s) (h : Comes env s t) :
    t.Footed env := by
  obtain ht | ⟨u, hu, ht⟩ := h
  · exact J.footed (ht.mem hJ hs)
  · exact (ht.footed (J.footed (hu.mem hJ hs))).1

/-! ## Rounds -/

/-- What every round of a step keeps holds behind all of them. -/
lemma Rule.Rounds.keeps {step : β → Rule (β ⊕ α)} {P : β × ParseState → Prop}
    {first last : β × ParseState} (h : Rounds env step first last) (hfirst : P first)
    (hstep : ∀ b s b' s', P (b, s) → step b env s = some (.inl b', s') → P (b', s')) : P last := by
  induction h with
  | refl => exact hfirst
  | tail _ e ih => exact hstep _ _ _ _ ih e

namespace Rule

/-- Behind a token its start has been passed. -/
lemma ensures_advance (hs : s.Footed env) :
    Ensures env s advance fun _ t => t.Footed env ∧ s.Onward t ∧ s.lexer.start ≤ t.prevStop := by
  intro a t e
  cases e
  obtain ⟨hfooted, honward⟩ := hs.advance
  exact ⟨hfooted, honward,
    (ParseState.Footed.prevStop_advance env s).symm ▸ hs.lexer.start_le⟩

/-- A run of tokens starts in front of the last token taken. -/
def Quotation.Opened (q : Quotation) (s : ParseState) : Prop :=
  ∀ start, q.run = some start → start ≤ s.prevStop

lemma Quotation.run_endRun (q : Quotation) (prevStop : Nat) : (q.endRun prevStop).run = none := by
  unfold endRun
  split
  · rfl
  · assumption

lemma opened_keptToken {q : Quotation} (hq : q.Opened s) (hs : s.Footed env) (k : Kind) :
    Ensures env s (keptToken q k) Quotation.Opened := by
  refine .view ?_
  extract_lets run depth rest
  have hrest (u : ParseState) (a : Unit) (hu : u.Footed env) (honward : s.Onward u) :
      Ensures env u (rest a) Quotation.Opened := by
    refine (ensures_advance hu).bind fun _ t ⟨_, honward', hpassed⟩ => .pure ?_
    rintro _ ⟨⟩
    cases hrun : q.run with
    | none =>
      have hstart : run = s.lexer.start := by
        simp only [run, hrun, Option.getD_none]
        rfl
      exact hstart ▸ Nat.le_trans honward.start hpassed
    | some first =>
      have hstart : run = first := by simp only [run, hrun, Option.getD_some]
      exact hstart ▸ Nat.le_trans (hq first hrun) (Nat.le_trans honward.prevStop honward'.prevStop)
  clear_value rest
  split
  · exact (ensures_advance hs).bind fun _ u hu => hrest u _ hu.1 hu.2.1
  · exact hrest s _ hs (.refl s)

lemma opened_quotePartsRound {q : Quotation} (hq : q.Opened s) (hs : s.Footed env) :
    Ensures env s (quotePartsRound call q) (Sum.elim Quotation.Opened fun _ _ => True) := by
  have spliced (id : ExprId) (t : ParseState) : Quotation.Opened { q.endRun s.prevStop with
      parts := (q.endRun s.prevStop).parts ++ [.splice id] } t := by
    intro start hstart
    exact nomatch (q.run_endRun s.prevStop).symm.trans hstart
  refine .get (.view ?_)
  split
  · exact .pure trivial
  · split
    · exact .behind fun id t => .pure (spliced id t)
    · refine .viewAny fun splices => ?_
      split
      · exact .behind fun id t => .pure (spliced id t)
      · exact (opened_keptToken hq hs _).bind fun q t ht => .pure ht

end Rule

/-! ## The order of the offsets -/

/-- No span is made of offsets in the wrong order. -/
theorem MakesSpan.ordered {J : Ground env} (hJ : J.Settled) (hs : J.mem s) (h : MakesSpan env s b) :
    b.start ≤ b.stop := by
  cases h with
  | token ht hl => exact ((ht.footed hJ hs).lexer.reads hl).start_le
  | error ht hl he =>
    exact (Lexeme.errors_read _ ((ht.footed hJ hs).lexer.reads hl).pos _ he).ordered
  | spanFrom ht start => exact Nat.le_max_right _ _
  | run ht hrounds hrun =>
    have hlays := Rule.laysOut_callTo hJ
    refine (hrounds.keeps (P := fun p => J.mem p.2 ∧ p.1.Opened p.2) ⟨ht.mem hJ hs, nofun⟩ ?_).2 _ hrun
    intro q u q' v ⟨hu, hq⟩ e
    exact ⟨(Rule.lays_quotePartsRound (hlays _) q 0 u hu _ _ e).1,
      Rule.opened_quotePartsRound hq (J.footed hu) _ _ e⟩
  | @closed t u opening closing depth ht hrounds =>
    have ht := ht.mem hJ hs
    have hpos := (J.footed ht).lexer.pos
    have behind : J.mem u ∧ t.lexer.pos ≤ u.lexer.start := by
      refine hrounds.keeps (P := fun p => J.mem p.2 ∧ t.lexer.pos ≤ p.2.lexer.start) ?_ ?_
      · have hadvance := J.step ht (.advance t)
        refine ⟨hadvance, ?_⟩
        rw [← ParseState.Footed.prevStop_advance env t]
        exact (J.footed hadvance).prevStop_le
      · intro depth u depth' v ⟨hu, hle⟩ e
        obtain ⟨hv, honward, -⟩ := Rule.lays_balancedRound opening closing hpos depth 0 u hu _ _ e
        exact ⟨hv, Nat.le_trans hle honward.start⟩
    exact behind.2
  | unclosed ht hrounds => exact Nat.le_max_right _ _

end CangjieSyntax
