import CangjieSyntax.Proofs.Ending.Rule

/-!
# Rules that are called by name come to an end

A region in which calls have an answer is one behind some token. In front of that token only some of
the rules may be called; a rule that calls none before it has taken the token has an answer there.
-/

namespace CangjieSyntax

variable {env : Env} {B J K : Region env} {allowed : Kind → Prop} {call : Call} {α β : Type}
  {s t : ParseState} {pre held : Multiset Part}

/-- What a rule that is called by name asks of the state: an `if` is there to be taken. -/
def Nonterminal.Starts {α : Type} : Nonterminal α → ParseState → Prop
  | .ifThen, s => s.kind ≠ .endOfFile
  | _, _ => True

/-- In a region, in an attempt or outside, types are read to their end. -/
structure ReadsTypes (K : Region env) (allowed : Kind → Prop) (call : Call) : Prop where
  underway : ∀ {s}, K.mem s → s.Underway env allowed
  yields : ∀ K : Region env, Yields K (call .type)
  returns : Returns K 0 (call .type)

/-- A region outside attempts, of states on the way, to which calls keep. -/
structure Steady (J : Region env) (allowed : Kind → Prop) (call : Call) : Prop where
  settled : J.Settled
  marks : AllowsMarks allowed
  underway : ∀ {s}, J.mem s → s.Underway env allowed
  loses : allowed (.keyword .kwProp) → J.loses
  obeys : ∀ K : Region env, K.Settled → Obeys K call

/-- In such a region all calls have an answer. -/
structure Responds (J : Region env) (allowed : Kind → Prop) (call : Call) : Prop
    extends Steady J allowed call where
  attempts : ∃ K : Region env, ReadsTypes K allowed call
    ∧ ∀ {s}, J.mem s → K.mem (s.enterTentative env.settings.budget)
  answers : ∀ {α : Type} (g : Nonterminal α) (s : ParseState),
    J.At g.uses s → g.Starts s → Finishes env s (call g)

/-- Taking a token leads from the region `B` into `K`. -/
structure Region.Before (B K : Region env) : Prop where
  advance : ∀ {s}, B.mem s → s.kind ≠ .endOfFile → K.mem (s.advance env.src)

/-- In front of a region in which all calls have an answer, types are read to their end. -/
structure Opens (B K : Region env) (allowed : Kind → Prop) (call : Call) : Prop
    extends Steady B allowed call where
  before : B.Before K
  types : ReadsTypes B allowed call
  responds : Responds K allowed call

namespace Steady

variable (h : Steady J allowed call)

include h

lemma obeysHere : Obeys J call :=
  h.obeys J h.settled

lemma settledSince (l : Lexer) : (J.since allowed l).Settled :=
  h.settled.along h.marks _

lemma settledPast (l : Lexer) : (J.past allowed l).Settled :=
  h.settled.along h.marks _

lemma obeysSince (l : Lexer) : Obeys (J.since allowed l) call :=
  h.obeys _ (h.settledSince l)

lemma obeysPast (l : Lexer) : Obeys (J.past allowed l) call :=
  h.obeys _ (h.settledPast l)

/-- A state has come from itself. -/
lemma since (hs : J.mem s) : (J.since allowed s.lexer).mem s :=
  ⟨hs, h.underway hs, .refl _⟩

/-- Behind a token it has been passed. -/
lemma past (hs : J.mem s) (hkind : s.kind ≠ .endOfFile) :
    (J.past allowed s.lexer).mem (s.advance env.src) :=
  Region.past_advance hs (h.underway hs) hkind

lemma kind_report (hs : J.mem s) (span : Span) (m : Message) (args : List String) :
    (s.report span m args).kind = s.kind := by
  have ht : J.mem (s.report span m args) := J.step hs (.report s span m args)
  rw [ParseState.kind_of_settled (h.settled.tentative ht), s.lexer_report,
    ← ParseState.kind_of_settled (h.settled.tentative hs)]

/-- A token that is reported first is consumed like any other. -/
lemma consumes_reported (hs : J.mem s) (hkind : s.kind ≠ .endOfFile) (span : Span) (m : Message)
    (args : List String) : s.Consumes ((s.report span m args).advance env.src) := by
  have ht : J.mem (s.report span m args) := J.step hs (.report s span m args)
  have hconsumes := (h.underway ht).consumes_advance ((h.kind_report hs span m args).trans_ne hkind)
  unfold ParseState.Consumes at hconsumes ⊢
  rwa [s.lexer_report] at hconsumes

/-- A round that goes on has taken a separator. -/
lemma consumes_separatedRound [HasParts α] {separator : Kind} {element : Rule α} (items : List α)
    (hseparator : separator ≠ .endOfFile)
    (hyields : ∀ K : Region env, K.Settled → Obeys K call → Yields K element) (hs : J.mem s) :
    Consumes env s (Rule.separatedRound separator element items) := by
  refine .optional (fun hk => ?_) (.pure nofun)
  have hkind : s.kind ≠ .endOfFile := hk ▸ hseparator
  have helement := hyields _ (h.settledPast s.lexer) (h.obeysPast s.lexer)
  exact .reads (helement _ (h.past hs hkind)) fun a t ht =>
    .pure fun _ => Rule.consumes_past hkind rfl ht

end Steady

/-- No token leads out of a region. -/
lemma Region.before_self (K : Region env) : K.Before K :=
  ⟨fun hs _ => K.step hs (.advance _)⟩

/-- What is held in front of a token is held behind it. -/
lemma Region.Before.at (h : B.Before K) (hs : B.At held s) (hkind : s.kind ≠ .endOfFile) :
    K.At held (s.advance env.src) :=
  hs.advance (h.advance hs.mem hkind)

/-- A name that stands there is taken. -/
lemma Region.Before.identifier {k : Name → Rule β} (h : B.Before K) (hs : B.At 0 s)
    (hkind : s.kind.isIdentifier) (hk : ∀ n, Returns K (parts n) (k n)) :
    Finishes env s (Rule.identifier >>= k) := by
  have hend : s.kind ≠ .endOfFile := by
    intro e
    rw [e] at hkind
    exact nomatch hkind
  obtain ⟨t, htaken, e⟩ : ∃ t, K.mem t
      ∧ Rule.identifier env s = some (⟨s.lexer.value, s.lexer.span⟩, t) := by
    have hinterned : B.mem { s with names := s.names.insert s.lexer.value } :=
      B.step hs.mem (.intern s s.lexer.value)
    refine ⟨_, h.advance hinterned hend, ?_⟩
    change (if s.kind.isIdentifier = true then _ else _ : Rule Name) env s = _
    rw [if_pos hkind]
    rfl
  have hheld := hs.after (Rule.yields_identifier s hs.mem) e
  obtain ⟨b, u, e'⟩ := hk _ t ⟨htaken, hheld.holds⟩
  exact ⟨b, u, Rule.bind_eq_some.2 ⟨_, t, e, e'⟩⟩

/-- A path that starts there is taken. -/
lemma Region.Before.dottedName {k : List Name → Rule β} (h : B.Before K)
    (hway : ∀ {s}, K.mem s → s.Underway env allowed) (hs : B.At 0 s)
    (hkind : s.kind.isIdentifier) (hk : ∀ path, Returns K 0 (k path)) :
    Finishes env s (Rule.dottedName >>= k) := by
  unfold Rule.dottedName
  rw [bind_assoc]
  refine h.identifier hs hkind fun first => ?_
  refine .bind (p := parts) ?_ (fun _ hs => Rule.finishes_dottedNames hway hs.mem [first])
    fun path => (hk path).drop
  exact (Reads.loop_parts Rule.reads_dottedNameRound [first]).of_eq (by simp)

namespace Responds

variable (h : Responds J allowed call)

include h

lemma types : ReadsTypes J allowed call :=
  ⟨h.underway, (h.obeys J h.settled).type, fun s hs => h.answers .type s hs trivial⟩

lemma opens : Opens J J allowed call :=
  { h.toSteady with before := J.before_self, types := h.types, responds := h }

lemma statement : Returns J 0 (call .statement) :=
  fun s hs => h.answers .statement s hs trivial

lemma expression : Returns J 0 (call .expression) :=
  fun s hs => h.answers .expression s hs trivial

lemma binary (above : Nat) : Returns J 0 (call (.binary above)) :=
  fun s hs => h.answers (.binary above) s hs trivial

lemma unary : Returns J 0 (call .unary) :=
  fun s hs => h.answers .unary s hs trivial

lemma pattern (place : PatternPlace) : Returns J 0 (call (.pattern place)) :=
  fun s hs => h.answers (.pattern place) s hs trivial

lemma blockItem : Returns J 0 (call .blockItem) :=
  fun s hs => h.answers .blockItem s hs trivial

lemma declaration (place : DeclPlace) : Returns J 0 (call (.declaration place)) :=
  fun s hs => h.answers (.declaration place) s hs trivial

lemma importPaths (leading : List Name) : Returns J (parts leading) (call (.importPaths leading)) :=
  fun s hs => h.answers (.importPaths leading) s hs trivial

/-- A list comes to its end if its elements do. -/
lemma list [HasParts α] {element : Rule α} (close : Kind)
    (hyields : ∀ K : Region env, K.Settled → Obeys K call → Yields K element)
    (hreturns : Returns J 0 element) : Returns J 0 (Rule.list close element) := by
  have reads (K : Region env) (hK : K.Settled) : Reads K 0 element fun a => 0 + parts a :=
    (hyields K hK (h.obeys K hK)).forget fun a => .of_eq (zero_add (parts a)).symm
  exact Rule.returns_list h.underway close (reads J h.settled)
    (fun l => reads _ (h.settledSince l)) hreturns

lemma separated [HasParts α] {separator : Kind} {element : Rule α}
    (hseparator : separator ≠ .endOfFile)
    (hyields : ∀ K : Region env, K.Settled → Obeys K call → Yields K element)
    (hreturns : Returns J 0 element) : Returns J 0 (Rule.separated separator element) := by
  have hhere := hyields J h.settled h.obeysHere
  refine .bind hhere hreturns fun first => ?_
  refine (Returns.loop h.underway (Rule.reads_separatedRound separator hhere) (fun items => ?_)
    (fun items s hs => h.consumes_separatedRound items hseparator hyields hs) [first]).weaken
    (by simp)
  refine .optional _ fun more => ?_
  split
  · exact .next hhere hreturns fun a => .pure _
  · exact .pure _

end Responds

namespace Rule

lemma returns_behind [HasParts α] {element : Rule α} (k : Kind) (hyields : Yields J element)
    (h : Returns J 0 element) : Returns J 0 (behind k element) := by
  refine .optional k fun here => ?_
  split
  · exact .next hyields h fun a => .pure _
  · exact .pure _

/-! ## Nesting and tentative readings -/

lemma returns_nested {fallback : Span → Rule α} {body : Rule α}
    (hfallback : ∀ span, Always (fallback span)) (h : Returns J 0 body) :
    Returns J 0 (nested fallback body) := by
  intro s hs
  change Finishes env s (if env.settings.maxDepth ≤ s.depth then _ else _)
  split
  · exact hfallback _ env _
  case isFalse hdepth =>
    have hdeeper : J.At 0 { s with depth := s.depth + 1 } :=
      hs.step (J.step hs.mem (.deeper (Nat.lt_of_not_le hdepth))) rfl id
    obtain ⟨a, t, e⟩ := h _ hdeeper
    exact ⟨a, _, bind_eq_some.2 ⟨(), _, rfl, bind_eq_some.2 ⟨a, t, e, rfl⟩⟩⟩

/-- An attempt comes to an end if its body does. -/
lemma finishes_attempt {body : Rule (Option α)}
    (h : Finishes env (s.enterTentative env.settings.budget) body) :
    Finishes env s (attempt body) := by
  obtain ⟨result, u, e⟩ := h
  unfold Finishes
  rw [attempt_apply, e]
  exact ⟨_, _, rfl⟩

lemma returns_enclosedBy (hJ : J.Settled) {owner : Option String} {body : Rule α}
    (h : Returns J 0 body) : Returns J 0 (enclosedBy owner body) := by
  intro s hs
  have hinner : J.At 0 { s with enclosingType := owner } :=
    hs.step (hJ.turn hs.mem (.enclose s owner)) rfl id
  obtain ⟨a, t, e⟩ := h _ hinner
  exact ⟨a, { t with enclosingType := s.enclosingType },
    bind_eq_some.2 ⟨s, s, rfl, bind_eq_some.2 ⟨(), _, rfl, bind_eq_some.2 ⟨a, t, e, rfl⟩⟩⟩⟩

end Rule

end CangjieSyntax
