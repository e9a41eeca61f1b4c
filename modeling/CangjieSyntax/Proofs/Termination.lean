import CangjieSyntax.Proofs.Ending.File
import CangjieSyntax.Proofs.Parse
import CangjieSyntax.Proofs.Token.Meets

/-!
# Parsing comes to an end

A parse has an answer for every text in which no token closes a hole, or none is the keyword of a
declaration with members: each round of a loop takes a token, and calls are nested no deeper than
there are tokens. With both, a parse may go on for ever in front of the end of a hole, which members
neither take nor leave their body for.
-/

namespace CangjieSyntax

variable {env : Env} {s t : ParseState} {α : Type}

/-! ## Behind the first token -/

/-- In front of a text that is read as a file, or from an offset on as an expression. -/
inductive ParseState.Fresh (src : Source) : ParseState → Prop
  | file (names : NameTable) : Fresh src { ParseState.ofSource src with names }
  | expression (offset : Nat) : Fresh src { ParseState.ofSource src with
      lexer := (Lexer.ofSource src).seek src offset, prevStop := offset }

/-- A parse goes from one state to another outside attempts. -/
def Visits (env : Env) : ParseState → ParseState → Prop :=
  Relation.ReflTransGen fun s t => Step env s t ∨ Turn env s t

/-- The kinds of tokens that a parse comes to: those of a scan, and marks joined from others. -/
def Lexer.Admits (src : Source) (l : Lexer) (k : Kind) : Prop :=
  (∃ p, k = .mark p) ∨ l.Meets src k

lemma Lexer.sparesMembers_admits {src : Source} {l : Lexer} (h : SparesMembers (l.Meets src)) :
    SparesMembers (l.Admits src) := by
  have admits {k : Kind} (hk : ∀ p, k ≠ .mark p) (hnot : ¬ l.Meets src k) : ¬ l.Admits src k :=
    not_or_intro (fun ⟨p, e⟩ => hk p e) hnot
  obtain hcloses | hkeywords := h
  · exact .inl (admits nofun hcloses)
  · exact .inr fun k hk => admits nofun (hkeywords k hk)

lemma Lexer.allowsMarks_admits (src : Source) (l : Lexer) : AllowsMarks (l.Admits src) :=
  fun p => .inl ⟨p, rfl⟩

/-- The states behind the first token of a parse. -/
abbrev Region.behind (env : Env) (l : Lexer) : Region env :=
  (Region.reachable env).below (l.Admits env.src) env.rounds

lemma Region.settled_behind (env : Env) (l : Lexer) : (Region.behind env l).Settled :=
  (Region.settled_reachable env).along (l.allowsMarks_admits env.src) _

lemma steady_behind (env : Env) (l : Lexer) (nesting : Nat) :
    Steady (Region.behind env l) (l.Admits env.src) (Rule.callTo nesting) :=
  Rule.steady_below _ (l.allowsMarks_admits env.src) (Region.settled_reachable env) _ nesting

namespace ParseState.Fresh

variable (h : s.Fresh env.src)

include h

lemma reachable : Reachable env s := by
  cases h with
  | file names => exact .file names
  | expression offset => exact .expression offset

lemma scanning : ∃ log, s.Scanning env (s.lexer.Admits env.src) log := by
  have hregular : s.lexer.Regular env.src := by
    cases h with
    | file names => exact .ofSource env.src
    | expression offset => exact .seek offset _
  have hlog : s.log = #[] := by
    cases h with
    | file names => rfl
    | expression offset => rfl
  obtain ⟨log, hremains⟩ := hregular.sound.remains_iff.2 fun k hk =>
    (Or.inr hk : s.lexer.Admits env.src k)
  exact ⟨log, hregular, hremains, by rw [hlog]; exact nofun⟩

lemma behind : (Region.behind env s.lexer).At 0 (s.advance env.src) := by
  obtain ⟨log, hscanning⟩ := h.scanning
  refine ⟨⟨.step h.reachable (.advance s), hscanning.underway_advance, ?_⟩, 0, ?_⟩
  · exact Lexer.left_lt_rounds env _
  · rw [(s.advance_frame env.src).1]
    cases h with
    | file names => exact .empty _
    | expression offset => exact .empty _

lemma visits (hvisits : Visits env (s.advance env.src) t) :
    (Region.behind env s.lexer).mem t := by
  induction hvisits with
  | refl => exact h.behind.mem
  | tail _ hmove ih =>
    obtain hstep | hturn := hmove
    · exact (Region.behind env s.lexer).step ih hstep
    · exact (Region.settled_behind env s.lexer).turn ih hturn

omit h in
lemma responds (hspares : SparesMembers (s.lexer.Meets env.src)) :
    Responds (Region.behind env s.lexer) (s.lexer.Admits env.src)
      (Rule.callTo env.nesting) := by
  refine Rule.responds_callTo _ (s.lexer.allowsMarks_admits _) (Region.settled_reachable env)
    (Lexer.sparesMembers_admits hspares) ?_
  unfold Env.nesting Env.rounds
  omega

/-- A rule has an answer from the start of a text on if it has one behind the first token. -/
lemma isSome_runFrom (hspares : SparesMembers (s.lexer.Meets env.src))
    {rule : Call → Rule α} (hrule : ∀ {J : Region env} {allowed : Kind → Prop} {call : Call},
      SparesMembers allowed → Responds J allowed call → Returns J 0 (rule call)) :
    (Rule.runFrom env rule s).isSome := by
  have hunmuted : (Region.behind env s.lexer).At 0 { s.advance env.src with muted := false } :=
    h.behind.step ((Region.settled_behind env s.lexer).turn h.behind.mem (.unmute _)) rfl id
  obtain ⟨a, t, e⟩ := hrule (Lexer.sparesMembers_admits hspares) (responds hspares) _ hunmuted
  exact Option.isSome_iff_exists.2 ⟨(a, t), e⟩

end ParseState.Fresh

/-! ## Rounds -/

/-- No loop goes on from a state without taking a token. -/
structure Rule.RoundsConsume (env : Env) (call : Call) (s : ParseState) : Prop where
  file : ∀ tree, Consumes env s (fileRound call tree)
  items : ∀ stop items, Consumes env s (itemsRound call stop items)
  matchArms : ∀ hasSelector b, Consumes env s (matchArmsRound call hasSelector b)
  accessors : ∀ a, Consumes env s (accessorsRound call a)
  enumCases : ∀ b, Consumes env s (enumCasesRound call b)
  quoteParts : ∀ q, Consumes env s (quotePartsRound call q)
  balanced : ∀ opening closing innerStart depth,
    Consumes env s (balancedRound opening closing innerStart depth)
  /-- Whatever the elements are, as long as they keep to where a parse may go. -/
  list : ∀ {β : Type} [HasParts β] (held : Multiset Part) (close : Kind) (element : Rule β) items,
    (∀ J : Region env, J.Settled → Obeys J call →
      Reads J held element fun b => held + parts b) →
      Consumes env s (listRound close element items)
  skipStatement : ∀ b, Consumes env s (skipStatementRound b)
  skipDeclaration : ∀ b, Consumes env s (skipDeclarationRound b)

lemma Steady.roundsConsume {J : Region env} {allowed : Kind → Prop} {call : Call}
    (h : Steady J allowed call) (hs : J.mem s) : Rule.RoundsConsume env call s where
  file tree := Rule.consumes_fileRound h tree hs
  items stop items := Rule.consumes_itemsRound h stop items hs
  matchArms hasSelector b := Rule.consumes_matchArmsRound h hasSelector b hs
  accessors a := Rule.consumes_accessorsRound h a hs
  enumCases b := Rule.consumes_enumCasesRound h b hs
  quoteParts q := Rule.consumes_quotePartsRound h q hs
  balanced opening closing innerStart depth :=
    Rule.consumes_balancedRound opening closing innerStart depth (h.underway hs)
  list held close element items helement := by
    have hreads := helement _ (h.settledSince s.lexer) (h.obeysSince s.lexer)
    exact Rule.consumes_listRound items (.since hs (h.underway hs) hreads)
  skipStatement b := Rule.consumes_skipStatementRound b (h.underway hs)
  skipDeclaration b := Rule.consumes_skipDeclarationRound b (h.underway hs)

/-- Wherever a parse that starts in a state comes to, no loop goes on without taking a token: neither
outside attempts, nor inside them, where only types are listed, nor in the body of a declaration,
which is read behind the keyword of the declaration. -/
structure ParseState.Progresses (env : Env) (s : ParseState) : Prop where
  rounds : ∀ t, Visits env (s.advance env.src) t → ∀ nesting,
    Rule.RoundsConsume env (Rule.callTo nesting) t
  attempts : ∀ t, Visits env (s.advance env.src) t → ∀ u, Tries env t u → ∀ nesting close types,
    CangjieSyntax.Consumes env u (Rule.listRound close (Rule.callTo nesting .type) types)
  members : ∀ t, Visits env (s.advance env.src) t →
    (∃ k : Keyword, k.declaresMembers ∧ t.kind = .keyword k) → ∀ u, Visits env t u →
      ∀ nesting members, CangjieSyntax.Consumes env u (Rule.membersRound (Rule.callTo nesting) members)

theorem ParseState.Fresh.progresses (h : s.Fresh env.src)
    (hspares : SparesMembers (s.lexer.Meets env.src)) : s.Progresses env where
  rounds t ht nesting := (steady_behind env s.lexer nesting).roundsConsume (h.visits ht)
  attempts t ht u hu nesting close types := by
    obtain ⟨hreachable, hway, -⟩ := h.visits ht
    have hP := Lexer.lasting_since env.src t.lexer
    obtain ⟨huway, -⟩ := hway.tries hP (.refl _) hu
    have hsound : (Region.anywhere env).mem u := hu.sound hreachable.sound
    have hyields := (Rule.obeys_callTo (Region.settled_reachable env) nesting).type
      ((Region.anywhere env).since (s.lexer.Admits env.src) u.lexer)
    exact Rule.consumes_listRound types (.since hsound huway hyields)
  members t ht hkeyword u hu nesting members := by
    have hvisits := h.visits (ht.trans hu)
    obtain ⟨k, hk, hkind⟩ := hkeyword
    have hcloses : ¬ s.lexer.Admits env.src .interpolationEnd := by
      refine (Lexer.sparesMembers_admits hspares).resolve_right fun hnone => hnone k hk ?_
      rw [← hkind, ParseState.kind_of_settled (h.visits ht).1.settled]
      exact (h.visits ht).2.1.allowed
    refine Rule.consumes_membersRound (steady_behind env s.lexer nesting) (fun e => hcloses ?_)
      members hvisits
    rw [← e, ParseState.kind_of_settled hvisits.1.settled]
    exact hvisits.2.1.allowed

/-! ## Parses -/

lemma Source.bytes_of_ofBytes {bytes : ByteArray} {src : Source}
    (h : Source.ofBytes bytes = .ok src) : src.bytes = bytes := by
  unfold Source.ofBytes String.fromUTF8? at h
  by_cases hvalid : bytes.IsValidUTF8
  · rw [dif_pos hvalid] at h
    cases h
    rfl
  · rw [dif_neg hvalid] at h
    exact nomatch h

lemma Source.size_of_ofBytes {bytes : ByteArray} {src : Source}
    (h : Source.ofBytes bytes = .ok src) : src.size = bytes.size :=
  congrArg ByteArray.size (bytes_of_ofBytes h)

/-- A text from an offset on is decoded if it is UTF-8 and the offset lies between characters. -/
lemma Source.ofBytes_of_decoded {bytes : ByteArray} {offset : Nat} {src : Source}
    (h : (do
      let src ← Source.ofBytes bytes
      if src.isBoundary offset then return src
      else .error ⟨offset, 1⟩ : Except Span Source) = .ok src) :
    Source.ofBytes bytes = .ok src ∧ src.isBoundary offset := by
  cases e : Source.ofBytes bytes with
  | error span =>
    rw [e] at h
    exact nomatch h
  | ok decoded =>
    rw [e] at h
    change (if _ then _ else _ : Except Span Source) = _ at h
    split at h
    case isTrue hoffset =>
      cases h
      exact ⟨rfl, hoffset⟩
    case isFalse => exact nomatch h

/-- An offset behind the end of the text counts as the end. -/
lemma Lexer.seek_min (src : Source) (l : Lexer) (offset : Nat) :
    l.seek src (min offset src.size) = l.seek src offset := by
  unfold seek
  rw [Nat.min_assoc, Nat.min_self]

/-- A scan comes to no kinds but those of its tokens. -/
lemma Lexer.mem_of_meets {src : Source} {l : Lexer} {kinds : List Kind} {k : Kind}
    (h : (l.scanAll src).1.map (fun t => t.1.kind) = kinds) (hk : l.Meets src k) : k ∈ kinds := by
  obtain ⟨t, ht, rfl⟩ := hk
  exact h ▸ List.mem_map_of_mem ht

end CangjieSyntax
