import CangjieSyntax.Proofs.Grammar.Lexing
import CangjieSyntax.Proofs.Pattern.Admitted
import CangjieSyntax.Proofs.Token.Reported
import CangjieSyntax.Proofs.Token.Spaced

/-!
# Quoted code

Between its parentheses quoted code keeps each token once, in a run of tokens or in a splice. The
parts are told from the scan of the text alone: `QuoteText` divides its tokens into pieces, with a
backslash and the token behind it as one piece, and with a splice as another.

The rounds of the rule for quoted code keep this up with each part, as long as no fault is met: the
tokens passed so far are those of the pieces, and the ones ahead are those ahead of the lexer.
-/

namespace CangjieSyntax

/-! ## Texts with quoted code -/

/-- A piece of quoted code. -/
inductive QuotePiece where
  | plain (token : Token)
  | escaped (backslash token : Token)
  /-- A name spliced in, with its dollar sign. -/
  | name (token : Token)
  /-- An expression spliced in, between parentheses behind a dollar sign. -/
  | value (dollar opening : Token) (inside : List Token) (closing : Token)

namespace QuotePiece

/-- The tokens of a piece. -/
def tokens : QuotePiece → List Token
  | plain t | name t => [t]
  | escaped backslash t => [backslash, t]
  | value dollar opening inside closing => dollar :: opening :: (inside ++ [closing])

/-- The tokens of a piece are of the kinds that make it one. -/
def Fits : QuotePiece → Prop
  | plain t => t.kind ≠ .mark .backslash ∧ t.kind ≠ .dollarIdentifier ∧ t.kind ≠ .endOfFile
  | escaped backslash t => backslash.kind = .mark .backslash ∧ t.kind ≠ .endOfFile
  | name t => t.kind = .dollarIdentifier
  | value dollar opening _ closing =>
    dollar.kind = .mark .dollar ∧ opening.kind = .mark .openParen
      ∧ closing.kind = .mark .closeParen

/-- The piece stays as it stands. -/
def isKept : QuotePiece → Bool
  | plain _ | escaped .. => true
  | name _ | value .. => false

/-- The piece is a mark that no backslash stands in front of. -/
def isMark (p : Punctuation) : QuotePiece → Bool
  | plain t => t.kind == .mark p
  | _ => false

/-- A dollar sign with a parenthesis behind it is no pair of pieces. -/
def Separate (piece next : QuotePiece) : Prop :=
  piece.isMark .dollar = true → next.isMark .openParen = false

/-- Pieces in a row. Each parenthesis that is closed has been opened in the row, and `depth` of those
that are opened are left open. -/
structure Row (pieces : List QuotePiece) (depth : Nat) : Prop where
  fits : ∀ piece ∈ pieces, piece.Fits
  separate : pieces.IsChain Separate
  matched : ∀ front, front <+: pieces →
    front.countP (isMark .closeParen) ≤ front.countP (isMark .openParen)
  count : pieces.countP (isMark .openParen) = pieces.countP (isMark .closeParen) + depth

end QuotePiece

/-- A text with quoted code in it. The pieces between its parentheses are in groups, one for each
part. -/
structure QuoteText where
  front : List Token
  keyword : Token
  opening : Token
  groups : List (List QuotePiece)
  closing : Token
  back : List Token

/-- All tokens of a text with quoted code in it. -/
def QuoteText.tokens (q : QuoteText) : List Token :=
  q.front ++ q.keyword :: q.opening ::
    (q.groups.flatten.flatMap QuotePiece.tokens ++ q.closing :: q.back)

/-- The span has all of the tokens in it. -/
def Span.Contains (span : Span) (tokens : List Token) : Prop :=
  ∀ t ∈ tokens, span.start ≤ t.span.start ∧ t.span.stop ≤ span.stop

/-- How a part of quoted code stands for a group of pieces: it is a run of tokens that are kept, from
the first one up to the last one, or the node of one splice. -/
inductive Nodes.Quotes (nodes : Nodes) : QuotePart → List QuotePiece → Prop
  | tokens {run : List QuotePiece} {first last : Token} {span : Span}
    (hkept : ∀ piece ∈ run, piece.isKept = true)
    (hfirst : (run.flatMap QuotePiece.tokens).head? = some first)
    (hlast : (run.flatMap QuotePiece.tokens).getLast? = some last)
    (hspan : span = .ofBounds first.span.start last.span.stop)
    (hrun : span.Contains (run.flatMap QuotePiece.tokens)) : nodes.Quotes (.tokens span) run
  | name {t : Token} {id : ExprId}
    (hnode : nodes.exprs.get? id = some ⟨.identifier ⟨t.value, t.span⟩ [], t.span⟩) :
    nodes.Quotes (.splice id) [.name t]
  | value {dollar opening closing : Token} {inside : List Token} {id : ExprId} {node : ExprNode}
    (hnode : nodes.exprs.get? id = some node) (hstart : opening.span.stop ≤ node.span.start)
    (hstop : node.span.stop ≤ closing.span.start) (hinside : node.span.Contains inside) :
    nodes.Quotes (.splice id) [.value dollar opening inside closing]

/-- The span of a part of quoted code. -/
def Nodes.partSpan? (nodes : Nodes) : QuotePart → Option Span
  | .tokens span => some span
  | .splice id => (nodes.exprs.get? id).map ExprNode.span

/-- Quoted code is read as a text has it. It lasts from the keyword up to the first parenthesis that
closes what is not opened behind the keyword's own one, and its parts, one behind the other, stand
for all pieces in between. -/
structure QuoteText.Reads (q : QuoteText) (nodes : Nodes) (parts : List QuotePart) (span : Span) :
    Prop where
  keyword : q.keyword.kind = .keyword .kwQuote
  opening : q.opening.kind = .mark .openParen
  closing : q.closing.kind = .mark .closeParen
  span : span = .ofBounds q.keyword.span.start q.closing.span.stop
  row : QuotePiece.Row q.groups.flatten 0
  quoted : List.Forall₂ nodes.Quotes parts q.groups
  ordered : parts.Pairwise fun part next => ∀ span ∈ nodes.partSpan? part,
    ∀ span' ∈ nodes.partSpan? next, span.stop ≤ span'.start

/-- All quoted code among the nodes is read as the tokens of a text have it. -/
def Nodes.KeepsTokens (nodes : Nodes) (tokens : List Token) : Prop :=
  ∀ id parts span, nodes.exprs.get? id = some ⟨.quote parts, span⟩ →
    ∃ q : QuoteText, q.tokens = tokens ∧ q.Reads nodes parts span

variable {env : Env} {src : Source} {l m o : Lexer} {s t u : ParseState} {nodes others : Nodes}
  {piece : QuotePiece} {pieces run : List QuotePiece} {groups : List (List QuotePiece)}
  {parts : List QuotePart} {span : Span} {passed : List Token} {depth depth' : Nat} {α β : Type}

/-! ## Pieces and parts -/

/-- Of tokens that lie one behind the other, the first one starts first and the last one ends last. -/
lemma Span.contains_ofBounds {tokens : List Token} {first last : Token}
    (h : tokens.Pairwise fun t u => t.span.stop ≤ u.span.start) (hfirst : tokens.head? = some first)
    (hlast : tokens.getLast? = some last) :
    (Span.ofBounds first.span.start last.span.stop).Contains tokens := by
  have start (t : Token) (ht : t ∈ tokens) : first.span.start ≤ t.span.start := by
    obtain ⟨rest, rfl⟩ := List.head?_eq_some_iff.1 hfirst
    obtain rfl | ht := List.mem_cons.1 ht
    · exact le_rfl
    · exact (Nat.le_add_right _ _).trans ((List.pairwise_cons.1 h).1 t ht)
  have stop (t : Token) (ht : t ∈ tokens) : t.span.stop ≤ last.span.stop := by
    obtain ⟨rest, rfl⟩ := List.getLast?_eq_some_iff.1 hlast
    obtain ht | ht := List.mem_append.1 ht
    · exact ((List.pairwise_append.1 h).2.2 t ht last (List.mem_singleton_self _)).trans
        (Nat.le_add_right _ _)
    · rw [List.mem_singleton.1 ht]
  intro t ht
  have hle : first.span.start ≤ last.span.stop :=
    (start t ht).trans ((Nat.le_add_right _ _).trans (stop t ht))
  exact ⟨start t ht, (stop t ht).trans_eq (Span.stop_ofBounds hle).symm⟩

/-- What is spliced in is no mark. -/
lemma QuotePiece.isMark_of_not_kept (h : piece.isKept = false) (p : Punctuation) :
    piece.isMark p = false := by
  cases piece with
  | plain | escaped => cases h
  | name | value => rfl

namespace QuotePiece.Row

lemma nil : Row [] 0 where
  fits _ h := nomatch h
  separate := .nil
  matched front h := by
    rw [List.prefix_nil.1 h]
    exact le_rfl
  count := rfl

/-- A parenthesis that is closed must have been left open, and one that is opened must not stand behind
a dollar sign. -/
lemma concat (h : Row pieces depth) (hfits : piece.Fits)
    (hseparate : ∀ last ∈ pieces.getLast?, last.Separate piece)
    (hdepth : depth + [piece].countP (isMark .openParen)
      = depth' + [piece].countP (isMark .closeParen)) : Row (pieces ++ [piece]) depth' := by
  have count : (pieces ++ [piece]).countP (isMark .openParen)
      = (pieces ++ [piece]).countP (isMark .closeParen) + depth' := by
    have hcount := h.count
    rw [List.countP_append, List.countP_append]
    omega
  refine ⟨?_, ?_, fun front hfront => ?_, count⟩
  · refine List.forall_mem_append.2 ⟨h.fits, ?_⟩
    exact fun _ hmem => List.eq_of_mem_singleton hmem ▸ hfits
  · refine List.isChain_append.2 ⟨h.separate, .singleton _, fun last hlast next hnext => ?_⟩
    cases hnext
    exact hseparate last hlast
  · obtain rfl | hfront := List.prefix_concat_iff.1 hfront
    · exact Nat.le.intro count.symm
    · exact h.matched front hfront

end QuotePiece.Row

namespace Nodes

lemma Quotes.grow {part : QuotePart} (h : nodes.Quotes part run)
    (hext : nodes.exprs.Extends others.exprs) : others.Quotes part run := by
  cases h with
  | tokens hkept hfirst hlast hspan hrun => exact .tokens hkept hfirst hlast hspan hrun
  | name hnode => exact .name (hext.get?_eq hnode)
  | value hnode hstart hstop hinside =>
    exact .value (hext.get?_eq hnode) hstart hstop hinside

/-- A part lies within the tokens of its group. -/
lemma Quotes.within {part : QuotePart} (h : nodes.Quotes part run)
    (hspan : span ∈ nodes.partSpan? part) : ∃ first ∈ run.flatMap QuotePiece.tokens,
      ∃ last ∈ run.flatMap QuotePiece.tokens,
        first.span.start ≤ span.start ∧ span.stop ≤ last.span.stop := by
  cases h with
  | @tokens _ first last _ _ hfirst hlast e hrun =>
    cases hspan
    subst e
    have hlast := List.mem_of_getLast? hlast
    have hle : first.span.start ≤ last.span.stop := (hrun last hlast).1.trans (Nat.le_add_right _ _)
    exact ⟨first, List.mem_of_head? hfirst, last, hlast, le_rfl, (Span.stop_ofBounds hle).le⟩
  | @name t id hnode =>
    obtain ⟨node, hget, rfl⟩ := Option.map_eq_some_iff.1 hspan
    cases hnode.symm.trans hget
    exact ⟨t, by simp [QuotePiece.tokens], t, by simp [QuotePiece.tokens], le_rfl, le_rfl⟩
  | @value dollar opening closing inside id node hnode hstart hstop _ =>
    obtain ⟨node', hget, rfl⟩ := Option.map_eq_some_iff.1 hspan
    cases hnode.symm.trans hget
    refine ⟨opening, by simp [QuotePiece.tokens], closing, by simp [QuotePiece.tokens], ?_, ?_⟩
    · exact (Nat.le_add_right _ _).trans hstart
    · exact hstop.trans (Nat.le_add_right _ _)

/-- The span of a part that stands for something stays the same. -/
lemma Quotes.partSpan?_eq {part : QuotePart} (h : nodes.Quotes part run)
    (hext : nodes.exprs.Extends others.exprs) : others.partSpan? part = nodes.partSpan? part := by
  cases h with
  | tokens => rfl
  | name hnode | value hnode => rw [partSpan?, partSpan?, hnode, hext.get?_eq hnode]

lemma exists_quotes (h : List.Forall₂ nodes.Quotes parts groups) {part : QuotePart}
    (hpart : part ∈ parts) : ∃ group ∈ groups, nodes.Quotes part group := by
  obtain ⟨i, hi, rfl⟩ := List.mem_iff_getElem.1 hpart
  have hi' : i < groups.length := h.length_eq ▸ hi
  exact ⟨groups[i], List.getElem_mem hi', h.get hi hi'⟩

/-- Where the tokens lie one behind the other, so do the parts. -/
lemma pairwise_of_quotes (h : List.Forall₂ nodes.Quotes parts groups)
    (htokens : (groups.flatten.flatMap QuotePiece.tokens).Pairwise
      fun t u => t.span.stop ≤ u.span.start) :
    parts.Pairwise fun part next => ∀ span ∈ nodes.partSpan? part,
      ∀ span' ∈ nodes.partSpan? next, span.stop ≤ span'.start := by
  induction h with
  | nil => exact .nil
  | @cons part run parts groups hpart hparts ih =>
    rw [List.flatten_cons, List.flatMap_append, List.pairwise_append] at htokens
    obtain ⟨-, htail, hbetween⟩ := htokens
    refine .cons (fun next hnext span hspan span' hspan' => ?_) (ih htail)
    obtain ⟨group, hgroup, hquotes⟩ := exists_quotes hparts hnext
    obtain ⟨-, -, last, hlast, -, hle⟩ := hpart.within hspan
    obtain ⟨first, hfirst, -, -, hstart, -⟩ := hquotes.within hspan'
    obtain ⟨piece, hpiece, hmem⟩ := List.mem_flatMap.1 hfirst
    have hbehind := List.mem_flatMap.2 ⟨piece, List.mem_flatten.2 ⟨group, hgroup, hpiece⟩, hmem⟩
    exact hle.trans ((hbetween last hlast first hbehind).trans hstart)

end Nodes

lemma QuoteText.Reads.grow {q : QuoteText} (h : q.Reads nodes parts span)
    (hext : nodes.exprs.Extends others.exprs) : q.Reads others parts span := by
  have same (part : QuotePart) (hpart : part ∈ parts) :
      others.partSpan? part = nodes.partSpan? part := by
    obtain ⟨_, -, hquotes⟩ := Nodes.exists_quotes h.quoted hpart
    exact hquotes.partSpan?_eq hext
  refine { h with quoted := h.quoted.imp fun _ _ hquotes => hquotes.grow hext, ordered := ?_ }
  refine h.ordered.imp_of_mem fun hpart hnext hle => ?_
  rw [same _ hpart, same _ hnext]
  exact hle

/-! ## Tokens passed -/

namespace Lexer

/-- The scan from `l` on passes some tokens and comes to another one in the state `m`. -/
structure ComesTo (src : Source) (l : Lexer) (passed : List Token) (t : Token) (m : Lexer) : Prop where
  stands : m.StandsAt t
  upcoming : l.upcoming src = passed ++ t :: m.upcoming src

lemma comesTo_scan (h : l.Sound src) (hkind : l.kind ≠ .endOfFile) :
    l.ComesTo src [] (l.scan src).token (l.scan src) :=
  ⟨standsAt_token _, upcoming_eq h hkind⟩

lemma ComesTo.trans {n : Lexer} {t t' : Token} {passed' : List Token}
    (h : l.ComesTo src passed t m) (h' : m.ComesTo src passed' t' n) :
    l.ComesTo src (passed ++ t :: passed') t' n := by
  refine ⟨h'.stands, ?_⟩
  rw [h.upcoming, h'.upcoming, List.append_assoc]
  rfl

/-- The tokens passed lie one behind the other, in front of the one come to. -/
lemma ComesTo.pairwise {t : Token} (h : l.ComesTo src passed t m) (hl : l.Sound src) :
    (passed ++ [t]).Pairwise fun t u => t.span.stop ≤ u.span.start := by
  have hpairs := pairwise_upcoming hl
  rw [h.upcoming, List.append_cons] at hpairs
  exact hpairs.sublist (List.sublist_append_left _ _)

/-- The token that comes first starts first. -/
lemma ComesTo.start_le {n : Lexer} {t t' : Token} (h : l.ComesTo src [] t m) (hl : l.Sound src)
    (h' : l.ComesTo src passed t' n) : ∀ u ∈ passed, t.span.start ≤ u.span.start := by
  intro u hu
  have hpairs := pairwise_upcoming hl
  rw [h.upcoming, List.nil_append, List.pairwise_cons] at hpairs
  have hmem : u ∈ [] ++ t :: m.upcoming src := by
    rw [← h.upcoming, h'.upcoming]
    exact List.mem_append_left _ hu
  obtain rfl | hmem := List.mem_cons.1 hmem
  · exact le_rfl
  · exact (Nat.le_add_right _ _).trans (hpairs.1 u hmem)

/-- What is passed in front of a state is told by the state. -/
lemma ComesTo.passed_eq {t t' : Token} {passed' : List Token} (h : l.ComesTo src passed t m)
    (h' : l.upcoming src = passed' ++ t' :: m.upcoming src) : passed' = passed :=
  (List.append_inj' (h'.symm.trans h.upcoming) rfl).1

/-- In front of a parenthesis that closes something, what has been passed ends where the scan goes
on. -/
lemma LeadsTo.stop_le {t : Token} (h : l.LeadsTo src m) (hregular : m.Regular src)
    (hclose : (m.scan src).kind = .mark .closeParen) (hcomes : l.ComesTo src passed t (m.scan src)) :
    ∀ u ∈ passed, u.span.stop ≤ m.pos := by
  have hkind : m.kind ≠ .endOfFile := fun hend =>
    nomatch hclose.symm.trans (hregular.ended hend).scan.1.kind
  obtain ⟨before, h, hbefore⟩ | ⟨⟨hcode, hjoins⟩, -⟩ := h.passed hkind
  · rw [upcoming_eq hregular.sound hkind] at h
    exact hcomes.passed_eq h ▸ hbefore
  · obtain ⟨b, hb, hjoins⟩ := Source.byteIs_iff.1 hjoins
    exact absurd hclose (kind_scan_of_joins hcode hb hjoins)

/-- At a token that is no join of others, it is known what has been passed. -/
lemma LeadsTo.comesTo (h : l.LeadsTo src m) (hknown : m.kind ≠ .unknown)
    (hend : m.kind ≠ .endOfFile) (hmark : ∀ p, m.kind = .mark p → p = .closeParen) :
    ∃ passed t, l.ComesTo src passed t m := by
  cases h with
  | start hunknown => exact absurd hunknown hknown
  | token passed t ht h => exact ⟨passed, t, ht, h⟩
  | joined passed p hp hne => exact absurd (hmark p hp) hne
  | ended h => exact absurd h hend

/-- The tokens from the keyword of quoted code on, up to the parenthesis that closes it, make the text
that it is read from. -/
lemma ComesTo.reads {n : Lexer} {front : List Token} {keyword opening closing : Token}
    (hl : l.Sound src) (hkeyword : l.ComesTo src front keyword m)
    (hopening : m.ComesTo src [] opening n) (hclosing : n.ComesTo src
      (groups.flatten.flatMap QuotePiece.tokens) closing o)
    (hkinds : keyword.kind = .keyword .kwQuote ∧ opening.kind = .mark .openParen
      ∧ closing.kind = .mark .closeParen)
    (hrow : QuotePiece.Row groups.flatten 0) (hquoted : List.Forall₂ nodes.Quotes parts groups) :
    ∃ q : QuoteText, q.tokens = l.upcoming src ∧ q.Reads nodes parts
      (.ofBounds keyword.span.start (max closing.span.stop keyword.span.start)) := by
  set inside := groups.flatten.flatMap QuotePiece.tokens
  have htokens : l.upcoming src
      = front ++ keyword :: opening :: (inside ++ closing :: o.upcoming src) := by
    simpa using ((hkeyword.trans hopening).trans hclosing).upcoming
  have hpairs := pairwise_upcoming hl
  rw [htokens] at hpairs
  obtain ⟨-, hpairs, -⟩ := List.pairwise_append.1 hpairs
  refine ⟨⟨front, keyword, opening, groups, closing, o.upcoming src⟩, htokens.symm, hkinds.1,
    hkinds.2.1, hkinds.2.2, ?_, hrow, hquoted, Nodes.pairwise_of_quotes hquoted ?_⟩
  · have hbehind := (List.pairwise_cons.1 hpairs).1 closing (by simp)
    have hle : keyword.span.start ≤ closing.span.stop :=
      (Nat.le_add_right _ _).trans (hbehind.trans (Nat.le_add_right _ _))
    rw [Nat.max_eq_left hle]
  · exact hpairs.sublist (((List.sublist_append_left _ _).cons _).cons _)

/-- Where nothing is reported, no character is passed over. -/
lemma scanKnown_eq_of_log (hpos : src.isBoundary l.pos) (h : (l.scanKnown src).log = #[]) :
    l.scanKnown src = l.scan src := by
  refine Facing.scanKnown_eq fun hunknown => ?_
  have hprefix : (l.scan src).log.toList <+: (l.scanKnown src).log.toList :=
    scanKnown_of_first (P := fun m => (l.scan src).log.toList <+: m.log.toList)
      (List.prefix_refl _) (fun m hm => hm.trans log_scan) fun _ _ => id
  rw [h] at hprefix
  obtain ⟨e, he, -⟩ := (Lexeme.agrees_read l.modes hpos).unknown.1 hunknown
  have herrors : l.log = #[] ∧ (Lexeme.read src l.modes l.pos).2.errors = [] := by
    simpa [scan, accept] using List.prefix_nil.1 hprefix
  rw [herrors.2] at he
  cases he

/-- No mark that is joined closes a parenthesis. -/
lemma joinGreater_eq_of_closeParen (h : (l.joinGreater src).kind = .mark .closeParen) :
    l.joinGreater src = l := by
  unfold joinGreater at h ⊢
  split
  case isFalse => rfl
  case isTrue hgreater =>
    rw [if_pos hgreater] at h
    split at h
    case h_1 p stop hjoin =>
      exact absurd (Kind.mark.inj h) (Punctuation.joinGreater?_ne_closeParen hjoin)
    case h_2 => exact nomatch hgreater.symm.trans h

end Lexer

/-- In front of a parenthesis that closes something, no token passed since `l` reaches beyond what has
been taken, as long as there is no lexical error. -/
def ParseState.Passed (src : Source) (l : Lexer) (s : ParseState) : Prop :=
  s.lexer.log = #[] → s.lexer.kind = .mark .closeParen → ∀ passed t,
    l.ComesTo src passed t s.lexer → ∀ u ∈ passed, u.span.stop ≤ s.prevStop

namespace ParseState.Passed

lemma of_place (h : s.Passed src l) (hlexer : t.lexer = s.lexer) (hprevStop : t.prevStop = s.prevStop) :
    t.Passed src l := by
  unfold Passed
  rw [hlexer, hprevStop]
  exact h

section

variable (hs : s.lexer.Regular env.src ∧ l.LeadsTo env.src s.lexer) (hfooted : s.Footed env)
  (h : s.Passed env.src l)

include hs hfooted h

lemma step (hstep : Step env s t) : t.Passed env.src l := by
  cases hstep with
  | advance =>
    obtain ⟨tentative, errorCount, muted, -, -, -, e⟩ := s.advance_eq env.src
    rw [e]
    intro hlog hclose passed token hcomes
    have hscan := Lexer.scanKnown_eq_of_log hfooted.lexer.pos hlog
    dsimp only at hclose hcomes
    rw [hscan] at hclose hcomes
    exact hs.2.stop_le hs.1 hclose hcomes
  | report span m args =>
    exact h.of_place (s.report_place span m args).1 (s.report_place span m args).2
  | reportDepth span =>
    exact h.of_place (s.reportDepth_place span _).1 (s.reportDepth_place span _).2
  | alloc | intern | deeper | shallower => exact h

lemma tries (htries : Tries env s t) : t.Passed env.src l := by
  induction htries with
  | refl => exact h
  | tail htries hstep ih =>
    exact ih.step ((Lexer.kept_leadsTo env.src l).tries hs htries) (Tries.footed htries hfooted).1
      hstep

lemma turn (hsettled : s.tentative = {}) (hturn : Turn env s t) : t.Passed env.src l := by
  cases hturn with
  | unmute | remember | enclose => exact h
  | joinGreater =>
    intro hlog hclose
    have hsame := Lexer.joinGreater_eq_of_closeParen hclose
    dsimp only at hlog hclose ⊢
    rw [hsame] at hlog hclose ⊢
    exact h hlog hclose
  | commit htries =>
    have hu := h.tries hs hfooted htries
    exact hu
  | giveUp htries =>
    rw [(Inside.of_tries hsettled htries).giveUp_eq hsettled]
    exact h

end

end ParseState.Passed

/-- The states of a parse on the way of a scan, with what has been passed behind them. -/
def Ground.passing (env : Env) (l : Lexer) : Ground env where
  mem s := (Lexer.kept_leadsTo env.src l).region.ground.mem s ∧ s.Passed env.src l
  loses := True
  sound h := h.1.1.1.sound
  step h hstep := ⟨Region.step _ h.1 hstep, h.2.step h.1.1.2 h.1.2 hstep⟩
  footed h := h.1.2

lemma Ground.settled_passing (env : Env) (l : Lexer) : (Ground.passing env l).Settled where
  tentative h := h.1.1.1.settled
  turn h hturn := ⟨(Lexer.kept_leadsTo env.src l).settled_region.ground.turn h.1 hturn,
    h.2.turn h.1.1.2 h.1.2 h.1.1.1.settled hturn⟩
  property _ _ := trivial

/-! ## States in which quoted code keeps its tokens -/

namespace ParseState

/-- Outside attempts, on the way of a scan from `origin` on. Unless a fault has been met, all quoted
code is read as the scan has it. -/
structure Quoted (env : Env) (origin : Lexer) (s : ParseState) : Prop where
  ground : (Lexer.kept_leadsTo env.src origin).region.ground.mem s
  keeps : s.errorCount = 0 → s.nodes.KeepsTokens (origin.upcoming env.src)

variable {origin : Lexer}

namespace Quoted

section

variable (h : s.Quoted env origin)

include h

lemma reachable : Reachable env s := h.ground.1.1

lemma settled : s.tentative = {} := h.reachable.settled

lemma regular : s.lexer.Regular env.src := h.ground.1.2.1

lemma leadsTo : origin.LeadsTo env.src s.lexer := h.ground.1.2.2

lemma footed : s.Footed env := h.ground.2

lemma kind_eq : s.kind = s.lexer.kind :=
  kind_of_settled h.settled

/-- Where no fault has been met, nothing has been reported. -/
lemma not_excused (hclean : s.errorCount = 0) : ¬s.Excused := by
  rintro (hreported | hfailed)
  · exact h.reachable.counted hreported hclean
  · rw [h.settled] at hfailed
    cases hfailed

lemma of_builds (hground : (Lexer.kept_leadsTo env.src origin).region.ground.mem t)
    (hbuilds : s.Builds t) (e : t.nodes.exprs = s.nodes.exprs) : t.Quoted env origin := by
  refine ⟨hground, fun hclean id parts span hnode => ?_⟩
  have hclean' : s.errorCount = 0 := Nat.le_zero.1 (hclean ▸ hbuilds.errorCount)
  obtain ⟨q, hq, hreads⟩ := h.keeps hclean' id parts span (e ▸ hnode)
  exact ⟨q, hq, hreads.grow hbuilds.nodes.exprs⟩

lemma step (hstep : Step env s t) (e : t.nodes.exprs = s.nodes.exprs) : t.Quoted env origin :=
  h.of_builds (Region.step _ h.ground hstep) (.of_step h.settled hstep) e

lemma turn (hturn : Turn env s t) (e : t.nodes.exprs = s.nodes.exprs) : t.Quoted env origin := by
  have hJ := (Lexer.kept_leadsTo env.src origin).settled_region.ground
  exact h.of_builds (hJ.turn h.ground hturn) (.of_turn h.settled hturn) e

lemma alloc {form : ExprForm} (hform : s.errorCount = 0 → ∀ parts, form = .quote parts →
      ∃ q : QuoteText, q.tokens = origin.upcoming env.src ∧ q.Reads s.nodes parts span) :
    ParseState.Quoted env origin { s with nodes := s.nodes.add (.expr ⟨form, span⟩) } := by
  have hstep : Step env s _ := .alloc s (.expr ⟨form, span⟩)
  refine ⟨Region.step _ h.ground hstep, fun hclean id parts span' hnode => ?_⟩
  have hext : s.nodes.exprs.Extends (s.nodes.exprs.push ⟨form, span⟩) := (Arena.Extends.refl _).push _
  obtain ⟨-, e⟩ | hold := Nodes.get?_add_expr hnode
  · cases e
    obtain ⟨q, hq, hreads⟩ := hform hclean parts rfl
    exact ⟨q, hq, hreads.grow hext⟩
  · obtain ⟨q, hq, hreads⟩ := h.keeps hclean id parts span' hold
    exact ⟨q, hq, hreads.grow hext⟩

/-- Behind a token without a fault stands the one that the scan comes to. -/
lemma lexer_advance (hclean : (s.advance env.src).errorCount = 0) :
    (s.advance env.src).lexer = s.lexer.scan env.src := by
  have hnext := h.step (.advance s) (by rw [(s.advance_frame env.src).1])
  have hlog : (s.advance env.src).lexer.log = #[] := by
    by_contra hlog
    exact hnext.not_excused hclean (.inl (.inr hlog))
  obtain ⟨tentative, errorCount, muted, -, -, -, e⟩ := s.advance_eq env.src
  rw [e] at hlog ⊢
  exact Lexer.scanKnown_eq_of_log h.footed.lexer.pos hlog

end

end Quoted

end ParseState

/-- The states in which quoted code keeps its tokens. -/
def Invariant.quoted (env : Env) (origin : Lexer) : Invariant env where
  holds := ParseState.Quoted env origin
  step h hstep e := ParseState.Quoted.step h hstep e

variable {origin : Lexer}

lemma Invariant.allows_quoted {form : ExprForm} (hform : ∀ parts, form ≠ .quote parts) :
    (Invariant.quoted env origin).Allows form :=
  fun _ _ h => ParseState.Quoted.alloc h fun _ parts e => absurd e (hform parts)

lemma Invariant.settled_quoted (env : Env) (origin : Lexer) :
    (Invariant.quoted env origin).Settled where
  tentative h := ParseState.Quoted.settled h
  turn h hturn e := ParseState.Quoted.turn h hturn e
  plain _ hform := allows_quoted hform.2.2.2.2.2.1
  placeholder h _ := @allows_quoted env origin .error nofun _ _ h

/-! ## Rules that tell something -/

/-- From a state on, a rule keeps an invariant, and what it yields has a property if no fault has been
met. -/
def Tells (I : Invariant env) (s : ParseState) (r : Rule α) (Q : α → ParseState → Prop) : Prop :=
  Ensures env s r fun a t =>
    I.Reaches s t ∧ s.errorCount ≤ t.errorCount ∧ (t.errorCount = 0 → Q a t)

namespace Tells

variable {I : Invariant env} {r : Rule α} {k : α → Rule β} {P : α → ParseState → Prop}
  {Q : β → ParseState → Prop}

lemma of_preserves (hs : I.holds s) (hsettled : s.tentative = {}) (h : Preserves I r)
    (hgoes : GoesOn env r) (hP : Ensures env s r fun a t => t.errorCount = 0 → P a t) :
    Tells I s r P :=
  fun a t e => ⟨h s hs a t e, (hgoes.ensures hsettled a t e).errorCount, hP a t e⟩

lemma bind (h : Tells I s r P) (hk : ∀ a t, I.Reaches s t → s.errorCount ≤ t.errorCount →
      (t.errorCount = 0 → P a t) → Tells I t (k a) Q) : Tells I s (r >>= k) Q := by
  refine Ensures.bind h fun a t ⟨hreaches, hle, hP⟩ => ?_
  refine Ensures.mono (fun b u ⟨hreaches', hle', hQ⟩ => ?_) (hk a t hreaches hle hP)
  exact ⟨hreaches.trans hreaches', hle.trans hle', hQ⟩

lemma view {f : Source → ParseState → α} (h : Tells I s (k (f env.src s)) Q) :
    Tells I s (Rule.view f >>= k) Q :=
  h

lemma get {k : ParseState → Rule β} (h : Tells I s (k s) Q) :
    Tells I s ((MonadState.get : Rule ParseState) >>= k) Q :=
  h

lemma pure {b : β} (hs : I.holds s) (h : s.errorCount = 0 → Q b s) :
    Tells I s (Pure.pure b : Rule β) Q :=
  Ensures.pure ⟨.refl hs, le_rfl, h⟩

lemma advance (hsettled : s.tentative = {}) (hs : I.holds s) {k : Unit → Rule β}
    (hk : I.Reaches s (s.advance env.src) → s.errorCount ≤ (s.advance env.src).errorCount →
      Tells I (s.advance env.src) (k ()) Q) : Tells I s (Rule.advance >>= k) Q := by
  have hreaches := Rule.preserves_advance s hs () _ rfl
  have hle := (ParseState.Builds.of_step hsettled (.advance s : Step env s _)).errorCount
  refine Ensures.advance (Ensures.mono (fun b u ⟨hreaches', hle', hQ⟩ => ?_) (hk hreaches hle))
  exact ⟨hreaches.trans hreaches', hle.trans hle', hQ⟩

lemma loop {step : β → Rule (β ⊕ α)} {b : β} {R : β → ParseState → Prop} (hs : I.holds s)
    (hb : s.errorCount = 0 → R b s) (h : ∀ b t, I.holds t → (t.errorCount = 0 → R b t) →
      Tells I t (step b) (Sum.elim R P)) : Tells I s (Rule.loop step b) P := by
  refine Ensures.loop_invariant (R := fun b t =>
    I.Reaches s t ∧ s.errorCount ≤ t.errorCount ∧ (t.errorCount = 0 → R b t)) ?_
    ⟨.refl hs, le_rfl, hb⟩
  intro b t ⟨hreaches, hle, hR⟩
  refine Ensures.mono (fun next u ⟨hreaches', hle', hnext⟩ => ?_) (h b t hreaches.holds hR)
  cases next <;> exact ⟨hreaches.trans hreaches', hle.trans hle', hnext⟩

/-- A token of the given kind has been taken, if no fault is met. -/
lemma expect (hsettled : s.tentative = {}) (hs : I.holds s) (k : Kind) :
    Tells I s (Rule.expect k) fun found t => found = true ∧ s.kind = k ∧ t = s.advance env.src := by
  refine of_preserves hs hsettled (Rule.preserves_expect k) (fun _ => Rule.preserves_expect k) ?_
  refine .optional (fun hk => .pure fun _ => ⟨rfl, hk, rfl⟩) (.report (.pure fun hclean => ?_))
  rw [ParseState.errorCount_report hsettled] at hclean
  cases hclean

lemma require (hsettled : s.tentative = {}) (hs : I.holds s) (k : Kind) :
    Tells I s (Rule.require k) fun _ t => s.kind = k ∧ t = s.advance env.src :=
  .bind (expect hsettled hs k) fun _ _ ht _ hfound => .pure ht.holds fun hclean => (hfound hclean).2

end Tells

/-! ## The rounds of quoted code -/

/-- Pieces of quoted code that have been read since the parenthesis that opens it. They are in groups,
one for each part, and in a run of others that has not ended yet. -/
structure Rule.Quotation.Covers (q : Rule.Quotation) (env : Env) (opened : Lexer) (s : ParseState)
    (pieces : List QuotePiece) (groups : List (List QuotePiece)) (run : List QuotePiece) : Prop where
  sound : opened.Sound env.src
  split : pieces = groups.flatten ++ run
  row : QuotePiece.Row pieces q.depth
  quoted : List.Forall₂ s.nodes.Quotes q.parts groups
  kept : ∀ piece ∈ run, piece.isKept = true
  start : q.run = (run.flatMap QuotePiece.tokens).head?.map (·.span.start)
  stop : ∀ last ∈ (run.flatMap QuotePiece.tokens).getLast?, s.prevStop = last.span.stop
  passed : ∃ t, opened.ComesTo env.src (pieces.flatMap QuotePiece.tokens) t s.lexer
  separate : ∀ last ∈ pieces.getLast?, last.isMark .dollar = true → s.lexer.kind ≠ .mark .openParen

namespace Rule

variable {q : Quotation} {opened : Lexer} {k : Kind}

namespace Quotation.Covers

/-- A run that ends is one more part. -/
lemma endRun (h : q.Covers env opened s pieces groups run) :
    ∃ groups, (q.endRun s.prevStop).Covers env opened s pieces groups [] := by
  cases hrun : (run.flatMap QuotePiece.tokens).head? with
  | none =>
    have hnone : q.run = none := by rw [h.start, hrun]; rfl
    have hempty : run = [] := by
      cases run with
      | nil => rfl
      | cons piece run => cases piece <;> cases hrun
    subst hempty
    refine ⟨groups, ?_⟩
    rw [Quotation.endRun, hnone]
    exact h
  | some first =>
    have hsome : q.run = some first.span.start := by rw [h.start, hrun]; rfl
    obtain ⟨last, hlast⟩ : ∃ last, (run.flatMap QuotePiece.tokens).getLast? = some last := by
      cases hlast : (run.flatMap QuotePiece.tokens).getLast? with
      | none => simp [List.getLast?_eq_none_iff.1 hlast] at hrun
      | some last => exact ⟨last, rfl⟩
    have hpairs : (run.flatMap QuotePiece.tokens).Pairwise fun t u => t.span.stop ≤ u.span.start := by
      obtain ⟨t, hpassed⟩ := h.passed
      rw [h.split, List.flatMap_append] at hpassed
      exact (hpassed.pairwise h.sound).sublist
        ((List.sublist_append_right _ _).trans (List.sublist_append_left _ _))
    have hpart : s.nodes.Quotes (.tokens (.ofBounds first.span.start s.prevStop)) run := by
      rw [h.stop last hlast]
      exact .tokens h.kept hrun hlast rfl (Span.contains_ofBounds hpairs hrun hlast)
    refine ⟨groups ++ [run], ?_⟩
    rw [Quotation.endRun, hsome]
    exact {
      sound := h.sound
      split := by rw [h.split, List.flatten_append, List.flatten_singleton, List.append_nil]
      row := h.row
      quoted := List.rel_append h.quoted (.cons hpart .nil)
      kept := List.forall_mem_nil _
      start := rfl
      stop := by simp
      passed := h.passed
      separate := h.separate }

/-- What is spliced in is a part by itself. -/
lemma splice (h : q.Covers env opened s pieces groups []) (piece : QuotePiece) {id : ExprId}
    (hext : s.nodes.exprs.Extends t.nodes.exprs) (hspliced : piece.isKept = false)
    (hfits : piece.Fits) (hquotes : t.nodes.Quotes (.splice id) [piece])
    (hpassed : ∃ c, opened.ComesTo env.src (pieces.flatMap QuotePiece.tokens ++ piece.tokens) c
      t.lexer) :
    Covers { q with parts := q.parts ++ [.splice id] } env opened t (pieces ++ [piece])
      (groups ++ [[piece]]) [] where
  sound := h.sound
  split := by rw [h.split]; simp
  row := by
    refine h.row.concat hfits (fun last _ _ => ?_) ?_
    · exact QuotePiece.isMark_of_not_kept hspliced _
    · simp [QuotePiece.isMark_of_not_kept hspliced]
  quoted := List.rel_append (h.quoted.imp fun _ _ hquotes => hquotes.grow hext) (.cons hquotes .nil)
  kept _ hmem := nomatch hmem
  start := h.start
  stop _ hmem := nomatch hmem
  passed := by simpa using hpassed
  separate last hlast hdollar := by
    rw [List.getLast?_concat] at hlast
    cases hlast
    cases (QuotePiece.isMark_of_not_kept hspliced _).symm.trans hdollar

/-- What is kept goes on with the run, or begins one. -/
lemma keep (h : q.Covers env opened s pieces groups run) (piece : QuotePiece) (first last : Token)
    (hkept : piece.isKept = true) (hfits : piece.Fits)
    (hseparate : ∀ last ∈ pieces.getLast?, last.Separate piece)
    (hdepth : q.depth + [piece].countP (QuotePiece.isMark .openParen)
      = depth + [piece].countP (QuotePiece.isMark .closeParen))
    (hfirst : piece.tokens.head? = some first) (hstart : first.span.start = s.start)
    (hlast : piece.tokens.getLast? = some last) (hstop : t.prevStop = last.span.stop)
    (hnodes : t.nodes = s.nodes)
    (hpassed : ∃ c, opened.ComesTo env.src (pieces.flatMap QuotePiece.tokens ++ piece.tokens) c
      t.lexer)
    (hnext : piece.isMark .dollar = true → t.lexer.kind ≠ .mark .openParen) :
    Covers { q with run := some (q.run.getD s.start), depth } env opened t (pieces ++ [piece]) groups
      (run ++ [piece]) where
  sound := h.sound
  split := by rw [h.split, List.append_assoc]
  row := h.row.concat hfits hseparate hdepth
  quoted := hnodes ▸ h.quoted
  kept := List.forall_mem_append.2
    ⟨h.kept, fun _ hmem => List.eq_of_mem_singleton hmem ▸ hkept⟩
  start := by
    rw [h.start, List.flatMap_append, List.head?_append]
    cases (run.flatMap QuotePiece.tokens).head? with
    | none => simp [hfirst, hstart]
    | some _ => rfl
  stop last' hlast' := by
    rw [List.flatMap_append, List.flatMap_singleton, List.getLast?_append, hlast] at hlast'
    cases hlast'
    exact hstop
  passed := by simpa using hpassed
  separate last' hlast' hdollar := by
    rw [List.getLast?_concat] at hlast'
    cases hlast'
    exact hnext hdollar

end Quotation.Covers

/-- Between the rounds, what has been read is covered, or the end of the text has been met. -/
def Quotation.Tracks (q : Quotation) (env : Env) (opened : Lexer) (s : ParseState) : Prop :=
  s.lexer.kind = .endOfFile ∨ ∃ pieces groups run, q.Covers env opened s pieces groups run

/-- At a parenthesis that closes quoted code, its parts stand for all pieces since the one that opens
it. -/
def Closes (env : Env) (opened : Lexer) (parts : List QuotePart) (s : ParseState) : Prop :=
  s.lexer.kind = .mark .closeParen → ∃ groups, QuotePiece.Row groups.flatten 0
    ∧ List.Forall₂ s.nodes.Quotes parts groups
    ∧ ∃ t, opened.ComesTo env.src (groups.flatten.flatMap QuotePiece.tokens) t s.lexer

lemma Quotation.Covers.closes (h : q.Covers env opened s pieces groups run) (hdepth : q.depth = 0) :
    Closes env opened (q.endRun s.prevStop).parts s := by
  intro _
  obtain ⟨groups, hended⟩ := h.endRun
  have hsame : (q.endRun s.prevStop).depth = q.depth := by
    unfold Quotation.endRun
    split <;> rfl
  have hsplit : pieces = groups.flatten := hended.split.trans (List.append_nil _)
  refine ⟨groups, ?_, hended.quoted, ?_⟩
  · rw [← hsplit, ← hdepth, ← hsame]
    exact hended.row
  · rw [← hsplit]
    exact hended.passed

section

variable (hs : s.Quoted env origin)

include hs

/-- A token that no backslash stands in front of is kept. -/
lemma tracks_plain (h : q.Covers env opened s pieces groups run)
    (hclean : (s.advance env.src).errorCount = 0) (hend : s.lexer.kind ≠ .endOfFile)
    (hbackslash : s.lexer.kind ≠ .mark .backslash) (hname : s.lexer.kind ≠ .dollarIdentifier)
    (hvalue : ¬(s.lexer.kind = .mark .dollar ∧ s.peek env.src = .mark .openParen))
    (hdepth : q.depth + (if s.lexer.kind = .mark .openParen then 1 else 0)
      = depth + if s.lexer.kind = .mark .closeParen then 1 else 0) :
    { q with run := some (q.run.getD s.start), depth : Quotation }.Tracks env opened
      (s.advance env.src) := by
  obtain ⟨token, hpassed⟩ := h.passed
  have hnext := hpassed.trans (Lexer.comesTo_scan hs.regular.sound hend)
  rw [← hs.lexer_advance hclean] at hnext
  obtain ⟨hkind, hspan, -⟩ := hpassed.stands
  refine .inr ⟨_, groups, _, h.keep (.plain token) token token rfl ?fits ?separate ?depth rfl
    (hspan ▸ rfl) rfl ?stop (by rw [(ParseState.advance_frame env.src).1]) ⟨_, hnext⟩ ?next⟩
  case fits =>
    rw [QuotePiece.Fits, ← hkind]
    exact ⟨hbackslash, hname, hend⟩
  case separate =>
    intro last hlast hdollar
    have hnot := h.separate last hlast hdollar
    rw [hkind] at hnot
    exact beq_false_of_ne hnot
  case depth =>
    simpa [QuotePiece.isMark, ← hkind, List.countP_singleton] using hdepth
  case stop => rw [ParseState.Footed.prevStop_advance, ← hspan, hs.footed.lexer.stop_span]
  case next =>
    intro hdollar
    have hdollar := hkind.trans (eq_of_beq hdollar)
    rw [hs.lexer_advance hclean]
    exact fun hopen => hvalue ⟨hdollar, hopen⟩

/-- A backslash is kept together with the token behind it, whatever that is. -/
lemma tracks_escaped (h : q.Covers env opened s pieces groups run)
    (ht : (s.advance env.src).Quoted env origin) (hclean' : (s.advance env.src).errorCount = 0)
    (hclean : ((s.advance env.src).advance env.src).errorCount = 0)
    (hbackslash : s.lexer.kind = .mark .backslash) :
    { q with run := some (q.run.getD s.start) : Quotation }.Tracks env opened
      ((s.advance env.src).advance env.src) := by
  have hend : s.lexer.kind ≠ .endOfFile := by simp [hbackslash]
  obtain ⟨backslash, hpassed⟩ := h.passed
  have hnext := hpassed.trans (Lexer.comesTo_scan hs.regular.sound hend)
  rw [← hs.lexer_advance hclean'] at hnext
  by_cases hended : (s.advance env.src).lexer.kind = .endOfFile
  · left
    rw [ht.lexer_advance hclean]
    exact (ht.regular.ended hended).scan.1.kind
  · have hlast := hnext.trans (Lexer.comesTo_scan ht.regular.sound hended)
    rw [← ht.lexer_advance hclean, List.append_assoc] at hlast
    obtain ⟨hkind, hspan, -⟩ := hpassed.stands
    set last := (s.advance env.src).lexer.token
    refine .inr ⟨_, groups, _, h.keep (.escaped backslash last) backslash last rfl ?fits
      (fun _ _ _ => rfl) rfl rfl (hspan ▸ rfl) rfl ?stop ?nodes ⟨_, hlast⟩ nofun⟩
    case fits => exact ⟨hkind.symm.trans hbackslash, hended⟩
    case stop =>
      rw [ParseState.Footed.prevStop_advance, ← ht.footed.lexer.stop_span]
      rfl
    case nodes => rw [(ParseState.advance_frame env.src).1, (ParseState.advance_frame env.src).1]

lemma tells_keptToken (hq : s.errorCount = 0 → q.Tracks env opened s)
    (hend : s.lexer.kind ≠ .endOfFile) (hname : s.lexer.kind ≠ .dollarIdentifier)
    (hvalue : ¬(s.lexer.kind = .mark .dollar ∧ s.peek env.src = .mark .openParen))
    (hclose : ¬(s.lexer.kind = .mark .closeParen ∧ q.depth = 0)) :
    Tells (.quoted env origin) s (keptToken q s.lexer.kind) fun q t => q.Tracks env opened t := by
  have covered (hclean : s.errorCount = 0) := (hq hclean).resolve_left hend
  refine .view ?_
  extract_lets start depth rest
  split
  case isTrue hbackslash =>
    rw [beq_iff_eq] at hbackslash
    have hdepth : depth = q.depth := by simp only [depth, hbackslash]
    refine .advance hs.settled hs fun ht hle => .advance ht.holds.settled ht.holds fun hu hle' => ?_
    refine .pure hu.holds fun hclean => ?_
    obtain ⟨pieces, groups, run, hcovers⟩ := covered (by omega)
    rw [hdepth]
    exact tracks_escaped hs hcovers ht.holds (by omega) hclean hbackslash
  case isFalse hplain =>
    rw [beq_iff_eq] at hplain
    refine .advance hs.settled hs fun ht hle => .pure ht.holds fun hclean => ?_
    obtain ⟨pieces, groups, run, hcovers⟩ := covered (by omega)
    refine tracks_plain hs hcovers hclean hend hplain hname hvalue ?_
    by_cases hopen : s.lexer.kind = .mark .openParen
    · simp [depth, hopen]
    by_cases hclosing : s.lexer.kind = .mark .closeParen
    · have hpos : q.depth ≠ 0 := fun h => hclose ⟨hclosing, h⟩
      rw [if_neg hopen, if_pos hclosing]
      simp only [depth, hclosing]
      omega
    · rw [if_neg hopen, if_neg hclosing]
      simp [depth]

/-- A name spliced in is a node by itself. -/
lemma tells_nameSplice : Tells (.quoted env origin) s nameSplice fun id t =>
    t.nodes.exprs.get? id = some ⟨.identifier ⟨s.lexer.value, s.lexer.span⟩ [], s.lexer.span⟩
      ∧ t.lexer = s.lexer.scan env.src := by
  refine .of_preserves hs hs.settled (preserves_nameSplice (Invariant.settled_quoted env origin))
    (fun s => preserves_nameSplice (Invariant.settled_builds env s)) ?_
  rintro _ _ ⟨⟩ hclean
  have hnamed : ParseState.Quoted env origin { s with names := s.names.insert s.lexer.value } :=
    hs.step (.intern s s.lexer.value) rfl
  exact ⟨Arena.get?_push_next .., hnamed.lexer_advance hclean⟩

/-- An expression is read from the current token on, and no token behind it is taken. -/
lemma ensures_callTo_expression {nesting : Nat}
    (hopened : opened.ComesTo env.src [] s.lexer.token s.lexer) :
    Ensures env s (callTo nesting .expression) fun id t =>
      (Ground.passing env opened).mem t ∧ s.Onward t ∧ t.EndsWith s.start id := by
  have hJ := Ground.settled_passing env opened
  have hmem : (Ground.passing env opened).mem s := by
    refine ⟨⟨⟨hs.reachable, hs.regular, ?_⟩, hs.footed⟩, fun _ _ passed _ hcomes u hu => ?_⟩
    · refine .token [] _ hopened.stands hopened.upcoming (List.forall_mem_singleton.2 ?_)
      exact hs.footed.lexer.stop_span.le
    · rw [← hcomes.passed_eq hopened.upcoming] at hu
      cases hu
  intro id t e
  obtain ⟨ht, honward, -⟩ := (laysOut_callTo hJ nesting).expression s.start s hmem id t e
  refine ⟨ht, honward, ?_⟩
  cases nesting with
  | zero => cases e
  | succ nesting => exact ends_expression (laysOut_callTo hJ nesting) hmem id t e

end

section

variable {nesting : Nat} (hcall : ∀ {α : Type} (g : Nonterminal α),
  Preserves (Invariant.quoted env origin) (callTo nesting g))

include hcall

/-- Behind the parenthesis of a splice, an expression is read up to the one that closes it. -/
lemma tells_spliced (hs : s.Quoted env origin) (hsound : opened.Sound env.src)
    (hopened : s.errorCount = 0 → opened.ComesTo env.src [] s.lexer.token s.lexer) :
    Tells (.quoted env origin) s (do
      let value ← callTo nesting .expression
      require (.mark .closeParen)
      return value) fun id t => ∃ inside closing node, closing.kind = .mark .closeParen
        ∧ t.nodes.exprs.get? id = some node ∧ node.span.start = s.start
        ∧ node.span.stop ≤ closing.span.start ∧ node.span.Contains inside
        ∧ opened.ComesTo env.src (inside ++ [closing]) t.lexer.token t.lexer := by
  refine .bind (P := fun id t => (Ground.passing env opened).mem t ∧ s.Onward t
    ∧ t.EndsWith s.start id) ?_ fun id t ht hle hread => ?_
  · refine .of_preserves hs hs.settled (hcall .expression) (goesOn_callTo nesting .expression)
      fun id t e hclean => ?_
    have hbuilds := (goesOn_callTo nesting .expression).ensures hs.settled id t e
    have hclean' : s.errorCount = 0 := Nat.le_zero.1 (hclean ▸ hbuilds.errorCount)
    exact ensures_callTo_expression hs (hopened hclean') id t e
  refine .bind (.require ht.holds.settled ht.holds _) fun _ u hu hle' hclosed =>
    .pure hu.holds fun hclean => ?_
  obtain ⟨hclosing, rfl⟩ := hclosed hclean
  have hclean' : t.errorCount = 0 := by omega
  obtain ⟨⟨⟨⟨-, -, hleads⟩, -⟩, hbehind⟩, honward, node, hnode, -, hspan⟩ := hread hclean'
  rw [ht.holds.kind_eq] at hclosing
  have hspan := hspan.resolve_left (ht.holds.not_excused hclean')
  have hlog : t.lexer.log = #[] := by
    by_contra hlog
    exact ht.holds.not_excused hclean' (.inl (.inr hlog))
  obtain ⟨inside, closing, hpassed⟩ := hleads.comesTo (by simp [hclosing]) (by simp [hclosing])
    (by simp +contextual [hclosing])
  have hnext := hpassed.trans (Lexer.comesTo_scan ht.holds.regular.sound (by simp [hclosing]))
  rw [← ht.holds.lexer_advance hclean] at hnext
  have hstop : node.span.stop = max t.prevStop s.start := by
    rw [hspan, ParseState.spanFrom, Span.stop_ofBounds (Nat.le_max_right _ _)]
  refine ⟨inside, closing, node, hpassed.stands.kind.symm.trans hclosing, ?_, ?_, ?_, fun u hu => ?_,
    hnext⟩
  · rw [(ParseState.advance_frame env.src).1]
    exact hnode
  · rw [hspan]
    rfl
  · rw [hstop, ← hpassed.stands.span]
    exact Nat.max_le.2 ⟨ht.holds.footed.prevStop_le, honward.start⟩
  · rw [hstop, hspan]
    refine ⟨(hopened (by omega)).start_le hsound hpassed u hu, ?_⟩
    exact (hbehind hlog hclosing inside closing hpassed u hu).trans (Nat.le_max_left _ _)

/-- An expression spliced in lies between its parentheses. -/
lemma tells_exprSplice (hs : s.Quoted env origin) (hdollar : s.lexer.kind = .mark .dollar)
    (hopen : s.peek env.src = .mark .openParen) :
    Tells (.quoted env origin) s (exprSplice (callTo nesting)) fun id t =>
      ∃ opening inside closing node, opening.kind = .mark .openParen
        ∧ closing.kind = .mark .closeParen ∧ t.nodes.exprs.get? id = some node
        ∧ opening.span.stop ≤ node.span.start ∧ node.span.stop ≤ closing.span.start
        ∧ node.span.Contains inside
        ∧ s.lexer.ComesTo env.src (opening :: (inside ++ [closing])) t.lexer.token t.lexer := by
  have hend : s.lexer.kind ≠ .endOfFile := by simp [hdollar]
  refine .advance hs.settled hs fun ht hle => ?_
  generalize hadvance : s.advance env.src = t at ht hle ⊢
  have hscan (hclean : t.errorCount = 0) : t.lexer = s.lexer.scan env.src := by
    rw [← hadvance] at hclean ⊢
    exact hs.lexer_advance hclean
  have hkind (hclean : t.errorCount = 0) : t.lexer.kind = .mark .openParen := by
    rw [hscan hclean]
    exact hopen
  refine .advance ht.holds.settled ht.holds fun hu hle' => ?_
  have hopened (hclean : (t.advance env.src).errorCount = 0) :
      t.lexer.ComesTo env.src [] (t.advance env.src).lexer.token (t.advance env.src).lexer := by
    have hparen := hkind (by omega)
    rw [ht.holds.lexer_advance hclean]
    exact Lexer.comesTo_scan ht.holds.regular.sound (by simp [hparen])
  have hbehind : t.lexer.pos ≤ (t.advance env.src).start := by
    rw [← ParseState.Footed.prevStop_advance env t]
    exact hu.holds.footed.prevStop_le
  refine Ensures.mono (fun id u ⟨hreaches, hle'', hread⟩ => ⟨hreaches, hle'', fun hclean => ?_⟩)
    (tells_spliced hcall hu.holds ht.holds.regular.sound hopened)
  obtain ⟨inside, closing, node, hclosing, hnode, hstart, hstop, hinside, hpassed⟩ := hread hclean
  have hclean' : t.errorCount = 0 := by omega
  rw [hscan hclean'] at hpassed
  refine ⟨(s.lexer.scan env.src).token, inside, closing, node, hopen, hclosing, hnode, ?_, hstop,
    hinside, (Lexer.comesTo_scan hs.regular.sound hend).trans hpassed⟩
  rw [← hscan hclean', hstart]
  exact ht.holds.footed.lexer.stop_span.trans_le hbehind

/-- Each round goes on with what has been read, or ends at a parenthesis that closes the quoted
code. -/
lemma tells_quotePartsRound (hs : s.Quoted env origin)
    (hq : s.errorCount = 0 → q.Tracks env opened s) :
    Tells (.quoted env origin) s (quotePartsRound (callTo nesting) q)
      (Sum.elim (fun q t => q.Tracks env opened t) (Closes env opened)) := by
  refine Tells.get ?_
  refine Tells.view ?_
  rw [hs.kind_eq]
  split
  case isTrue hstop =>
    refine .pure hs fun hclean hclosing => ?_
    have hdepth : q.depth = 0 := by simpa [hclosing] using hstop
    obtain hend | ⟨pieces, groups, run, hcovers⟩ := hq hclean
    · exact nomatch hclosing.symm.trans hend
    · exact hcovers.closes hdepth hclosing
  case isFalse hstop =>
    simp only [Bool.or_eq_true, Bool.and_eq_true, beq_iff_eq, not_or] at hstop
    obtain ⟨hend, hclose⟩ := hstop
    have covered (hclean : s.errorCount = 0) : ∃ pieces groups,
        (q.endRun s.prevStop).Covers env opened s pieces groups [] := by
      obtain ⟨pieces, groups, run, hcovers⟩ := (hq hclean).resolve_left hend
      exact ⟨pieces, hcovers.endRun⟩
    split
    case isTrue hname =>
      refine .bind (tells_nameSplice hs) fun id t ht hle hread => .pure ht.holds fun hclean => ?_
      obtain ⟨pieces, groups, hcovers⟩ := covered (by omega)
      obtain ⟨hnode, hscan⟩ := hread hclean
      obtain ⟨token, hpassed⟩ := hcovers.passed
      obtain ⟨hkind, hspan, hvalue⟩ := hpassed.stands
      have hnext := hpassed.trans (Lexer.comesTo_scan hs.regular.sound hend)
      rw [← hscan] at hnext
      rw [hspan, hvalue] at hnode
      exact .inr ⟨_, _, _, hcovers.splice (.name token) ht.exprs rfl
        (hkind.symm.trans (eq_of_beq hname)) (.name hnode) ⟨_, hnext⟩⟩
    case isFalse hname =>
      refine Tells.view ?_
      split
      case isTrue hvalue =>
        rw [Bool.and_eq_true, beq_iff_eq, beq_iff_eq] at hvalue
        obtain ⟨hdollar, hopen⟩ := hvalue
        refine .bind (tells_exprSplice hcall hs hdollar hopen) fun id t ht hle hread =>
          .pure ht.holds fun hclean => ?_
        obtain ⟨pieces, groups, hcovers⟩ := covered (by omega)
        obtain ⟨opening, inside, closing, node, hopening, hclosing, hnode, hstart, hstop, hinside,
          hpassed'⟩ := hread hclean
        obtain ⟨dollar, hpassed⟩ := hcovers.passed
        exact .inr ⟨_, _, _, hcovers.splice (.value dollar opening inside closing) ht.exprs rfl
          ⟨hpassed.stands.kind.symm.trans hdollar, hopening, hclosing⟩
          (.value hnode hstart hstop hinside) ⟨_, hpassed.trans hpassed'⟩⟩
      case isFalse hvalue =>
        rw [Bool.and_eq_true, beq_iff_eq, beq_iff_eq] at hvalue
        refine .bind (tells_keptToken hs hq hend ?_ hvalue hclose) fun q t ht _ hread =>
          .pure ht.holds hread
        exact fun e => hname (beq_iff_eq.2 e)

lemma tells_quoteParts (hs : s.Quoted env origin) (hsound : opened.Sound env.src)
    (hopened : s.errorCount = 0 → opened.ComesTo env.src [] s.lexer.token s.lexer) :
    Tells (.quoted env origin) s (quoteParts (callTo nesting)) (Closes env opened) := by
  refine .loop hs (fun hclean => ?_) fun q t ht hq => tells_quotePartsRound hcall ht hq
  exact .inr ⟨[], [], [], {
    sound := hsound
    split := rfl
    row := .nil
    quoted := .nil
    kept := fun _ hmem => nomatch hmem
    start := rfl
    stop := fun _ hmem => nomatch hmem
    passed := ⟨_, hopened hclean⟩
    separate := fun _ hmem => nomatch hmem }⟩

omit hcall in
/-- Behind the parenthesis that closes quoted code, its parts are read from the text that the scan
has. -/
lemma exists_text (horigin : origin.Sound env.src) (hs : s.Quoted env origin)
    (hkind : s.lexer.kind = .keyword .kwQuote) {opening : Token}
    (hopening : s.lexer.ComesTo env.src [] opening opened) (hopen : opening.kind = .mark .openParen)
    (ht : t.Quoted env origin) (hclosing : t.lexer.kind = .mark .closeParen)
    (hcloses : Closes env opened parts t) : ∃ q : QuoteText, q.tokens = origin.upcoming env.src
      ∧ q.Reads (t.advance env.src).nodes parts ((t.advance env.src).spanFrom s.start) := by
  obtain ⟨front, keyword, hkeyword⟩ := hs.leadsTo.comesTo (by simp [hkind]) (by simp [hkind])
    (by simp [hkind])
  obtain ⟨groups, hrow, hquoted, closing, hpassed⟩ := hcloses hclosing
  obtain ⟨q, hq, hreads⟩ := hkeyword.reads horigin hopening hpassed
    ⟨hkeyword.stands.kind.symm.trans hkind, hopen, hpassed.stands.kind.symm.trans hclosing⟩ hrow
    hquoted
  refine ⟨q, hq, ?_⟩
  rw [(ParseState.advance_frame env.src).1, ParseState.spanFrom, ParseState.Footed.prevStop_advance,
    ← ht.footed.lexer.stop_span, hpassed.stands.span, show s.start = s.lexer.span.start from rfl,
    hkeyword.stands.span]
  exact hreads

/-- Quoted code is read as the scan has it. -/
lemma makesAt_quote (horigin : origin.Sound env.src) :
    MakesAt (.quoted env origin) (.keyword .kwQuote) ExprForm.IsPrimary
      (quote (callTo nesting)) := by
  intro s hs hkind
  rw [hs.kind_eq] at hkind
  have whole (parts : List QuotePart) (t : ParseState)
      (ht : (Invariant.quoted env origin).Reaches s t) (htext : t.errorCount = 0 → ∃ q : QuoteText,
        q.tokens = origin.upcoming env.src ∧ q.Reads t.nodes parts (t.spanFrom s.start)) :
      Ensures env t (exprFrom s.start (.quote parts)) fun id u =>
        (Invariant.quoted env origin).Reaches s u ∧ u.nodes.Has id ExprForm.IsPrimary := by
    rintro _ _ ⟨⟩
    refine ⟨⟨ParseState.Quoted.alloc ht.holds fun hclean parts' e => ?_, ht.exprs.push _⟩, _,
      Arena.get?_push_next .., by simp [ExprForm.IsPrimary]⟩
    cases e
    exact htext hclean
  have hle := (ParseState.Builds.of_step hs.settled (.advance s : Step env s _)).errorCount
  have ht : (Invariant.quoted env origin).Reaches s (s.advance env.src) :=
    preserves_advance s hs () _ rfl
  refine .view (.advance (Ensures.bind (Tells.expect ht.holds.settled ht.holds _)
    fun found u ⟨hu, hle₁, hfound⟩ => ?_))
  dsimp only
  split
  case isFalse hmissing =>
    exact whole [] u (ht.trans hu) fun hclean => absurd (hfound hclean).1 hmissing
  case isTrue =>
    have hopening (hclean : u.errorCount = 0) : (s.advance env.src).lexer.token.kind = .mark .openParen
        ∧ s.lexer.ComesTo env.src [] (s.advance env.src).lexer.token (s.advance env.src).lexer
        ∧ (s.advance env.src).lexer.ComesTo env.src [] u.lexer.token u.lexer := by
      obtain ⟨-, hopen, rfl⟩ := hfound hclean
      rw [ht.holds.kind_eq] at hopen
      refine ⟨hopen, ?_, ?_⟩
      · rw [hs.lexer_advance (by omega)]
        exact Lexer.comesTo_scan hs.regular.sound (by simp [hkind])
      · rw [ht.holds.lexer_advance hclean]
        exact Lexer.comesTo_scan ht.holds.regular.sound (by simp [hopen])
    refine Ensures.bind (tells_quoteParts hcall hu.holds ht.holds.regular.sound
      fun hclean => (hopening hclean).2.2)
      fun parts v ⟨hv, hle₂, hcloses⟩ => ?_
    refine Ensures.bind (Tells.require hv.holds.settled hv.holds _) fun _ w ⟨hw, hle₃, hclosed⟩ => ?_
    refine whole parts w (((ht.trans hu).trans hv).trans hw) fun hclean => ?_
    obtain ⟨hclosing, rfl⟩ := hclosed hclean
    obtain ⟨hopen, hnext, -⟩ := hopening (by omega)
    exact exists_text horigin hs hkind hnext hopen hv.holds (hv.holds.kind_eq ▸ hclosing)
      (hcloses (by omega))

end

/-- All rules keep this up. -/
lemma preserves_quoted (horigin : origin.Sound env.src) (nesting : Nat) {α : Type} (g : Nonterminal α) :
    Preserves (Invariant.quoted env origin) (callTo nesting g) := by
  have hI := Invariant.settled_quoted env origin
  refine preserves_callTo hI (fun form _ hform _ => Invariant.allows_quoted hform) ?_ ?_ nesting g
  · exact fun call htype => makes_nameExpr hI htype fun _ _ => Invariant.allows_quoted nofun
  · exact fun nesting hcall => makesAt_quote hcall horigin

end Rule

/-! ## Whole parses -/

namespace ParseState.Quoted

/-- In front of a text without nodes nothing has been quoted. -/
lemma start (h : s.Fresh env.src) (hprevStop : env.src.isBoundary s.prevStop) :
    s.Quoted env s.lexer := by
  obtain ⟨hreachable, hfooted⟩ := h.mem_ground hprevStop
  have hkind : s.lexer.kind = .unknown := by cases h <;> rfl
  have hregular : s.lexer.Regular env.src := by
    cases h with
    | file => exact .ofSource _
    | expression offset => exact .seek _ _
  refine ⟨⟨⟨hreachable, hregular, .start hkind rfl⟩, hfooted⟩, fun _ id parts span hnode => ?_⟩
  rw [h.nodes] at hnode
  cases hnode

/-- Without diagnostics, quoted code is read as the scan has it. -/
lemma keepsTokens (h : s.Quoted env origin) (hkind : origin.kind ≠ .endOfFile) {settings : Settings}
    (hclean : settings.locate s.diagnostics = #[]) :
    s.nodes.KeepsTokens ((origin.scanAll env.src).1.map Prod.fst) := by
  have hkeeps := h.keeps (h.reachable.errorCount_eq_zero hclean)
  rwa [Lexer.upcoming, if_neg hkind] at hkeeps

end ParseState.Quoted

/-- In a parse without diagnostics all quoted code keeps each token of the scan once. -/
theorem quotes_keep_tokens (bytes : ByteArray) (settings : Settings) :
    (∀ p, parseFile bytes settings = some p → p.diagnostics = #[] →
      ∃ src, Source.ofBytes bytes = .ok src
        ∧ p.tree.nodes.KeepsTokens (((Lexer.ofSource src).scanAll src).1.map Prod.fst))
      ∧ ∀ offset p, parseExpression bytes offset settings = some p → p.diagnostics = #[] →
        ∃ src, Source.ofBytes bytes = .ok src ∧ p.nodes.KeepsTokens
          ((((Lexer.ofSource src).seek src (min offset bytes.size)).scanAll src).1.map Prod.fst) := by
  refine ⟨fun p h hclean => ?_, fun offset p h hclean => ?_⟩
  · have hcall (src : Source) (nesting : Nat) {α : Type} (g : Nonterminal α) :
        Preserves (Invariant.quoted ⟨src, settings, true⟩ (.ofSource src)) (Rule.callTo nesting g) :=
      Rule.preserves_quoted (Lexer.sound_ofSource src) nesting g
    obtain ⟨src, t, hsrc, ht, hnodes, hlog⟩ | ⟨span, -, hlog⟩ :=
      Invariant.of_parseFile (fun _ => Invariant.settled_quoted _ _) hcall h
        fun src _ => .start (.file _) Source.isBoundary_zero
    · rw [hlog] at hclean
      rw [hnodes]
      exact ⟨src, hsrc, ht.keepsTokens nofun hclean⟩
    · exact absurd (hlog ▸ hclean) (settings.encodingFault_ne_empty span)
  · have hcall (src : Source) (nesting : Nat) {α : Type} (g : Nonterminal α) :
        Preserves (Invariant.quoted ⟨src, settings, true⟩
          ((Lexer.ofSource src).seek src (min offset bytes.size))) (Rule.callTo nesting g) :=
      Rule.preserves_quoted (.seek _ _) nesting g
    obtain ⟨src, t, hsrc, ht, hnodes, hlog⟩ | ⟨span, -, hlog⟩ :=
      Invariant.of_parseExpression (fun _ => Invariant.settled_quoted _ _) hcall h
        fun src _ hoffset => .start (.expression _) hoffset
    · rw [hlog] at hclean
      rw [hnodes]
      exact ⟨src, hsrc, ht.keepsTokens nofun hclean⟩
    · exact absurd (hlog ▸ hclean) (settings.encodingFault_ne_empty span)

/-- A parenthesis behind a backslash, one that closes another, a name and a sum. -/
theorem quotes_keep_tokens_of_splices :
    (∃ p, parseFile "let a = quote(b $c)".toUTF8 {} = some p ∧ ∃ src,
      Source.ofBytes "let a = quote(b $c)".toUTF8 = .ok src
        ∧ p.tree.nodes.KeepsTokens (((Lexer.ofSource src).scanAll src).1.map Prod.fst))
      ∧ ∃ p, parseExpression "quote(a \\) (b) $c $(d + 1))".toUTF8 0 {} = some p
        ∧ p.nodes.exprs.get? p.expr = some ⟨.quote [.tokens ⟨6, 8⟩, .splice ⟨0⟩, .splice ⟨3⟩], ⟨0, 27⟩⟩
        ∧ ∃ src, Source.ofBytes "quote(a \\) (b) $c $(d + 1))".toUTF8 = .ok src
          ∧ p.nodes.KeepsTokens
            ((((Lexer.ofSource src).seek src (min 0 27)).scanAll src).1.map Prod.fst) := by
  have file : (parseFile "let a = quote(b $c)".toUTF8 {}).map
      (fun p => p.diagnostics.size) = some 0 := by decide +kernel
  have expression : (parseExpression "quote(a \\) (b) $c $(d + 1))".toUTF8 0 {}).map
      (fun p => (p.diagnostics.size, p.nodes.exprs.get? p.expr))
        = some (0, some ⟨.quote [.tokens ⟨6, 8⟩, .splice ⟨0⟩, .splice ⟨3⟩], ⟨0, 27⟩⟩) := by
    decide +kernel
  obtain ⟨p, hp, size⟩ := Option.map_eq_some_iff.1 file
  obtain ⟨q, hq, e⟩ := Option.map_eq_some_iff.1 expression
  obtain ⟨size', hquote⟩ := Prod.mk.inj e
  have clean := Array.eq_empty_of_size_eq_zero size
  have clean' := Array.eq_empty_of_size_eq_zero size'
  exact ⟨⟨p, hp, (quotes_keep_tokens _ _).1 p hp clean⟩, q, hq, hquote,
    (quotes_keep_tokens _ _).2 0 q hq clean'⟩

end CangjieSyntax
