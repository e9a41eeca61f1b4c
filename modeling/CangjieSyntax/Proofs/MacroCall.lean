import CangjieSyntax.Proofs.Termination
import CangjieSyntax.Proofs.Token.Session
import CangjieSyntax.Proofs.Token.Spaced
import CangjieSyntax.Proofs.TypeTerm.Arguments

/-!
# Macro calls

Whether an `@` starts a macro call is found by scanning ahead, up to the parenthesis that the input
stands in. If it does, the call is read by the rules of the grammar, which pass over characters that
belong to no token. Both take the same way: a path has no such characters in it, and inside brackets
neither counts them.
-/

namespace CangjieSyntax

variable {env : Env} {src : Source} {l m close : Lexer} {log : Log} {depth : Nat}
  {path : List Name} {s t : ParseState}

/-! ## What is walked ahead -/

namespace Lexer

/-- The current token as a name. -/
def name (l : Lexer) : Name :=
  ⟨l.value, l.span⟩

/-- Behind the current token stands a dotted path, and behind the path `m` is the current state. -/
inductive PathBehind (src : Source) : Lexer → List Name → Lexer → Prop
  | last {l : Lexer} (hname : (l.scan src).kind.isIdentifier)
    (hend : ((l.scan src).scan src).kind ≠ .mark .dot) :
    PathBehind src l [(l.scan src).name] ((l.scan src).scan src)
  | next {l m : Lexer} {path : List Name} (hname : (l.scan src).kind.isIdentifier)
    (hdot : ((l.scan src).scan src).kind = .mark .dot)
    (hrest : PathBehind src ((l.scan src).scan src) path m) :
    PathBehind src l ((l.scan src).name :: path) m

/-- Attributes in brackets at the current token, if they stand on its line, and the state behind
them. -/
inductive AttributesAt (src : Source) (l : Lexer) : Option Span → Lexer → Prop
  | absent (h : ¬(l.kind = .mark .openBracket ∧ l.flags.lineBreak = false)) :
    AttributesAt src l none l
  | present {close : Lexer} (hopen : l.kind = .mark .openBracket)
    (hline : l.flags.lineBreak = false) (hclose : l.closingBracket? src = some close) :
    AttributesAt src l (some (.ofBounds l.pos close.start)) (close.scan src)

/-- How many brackets are open behind a token. -/
def bracketsBehind (k : Kind) (depth : Nat) : Nat :=
  if k == .mark .closeBracket then depth - 1
  else if k == .mark .openBracket then depth + 1 else depth

/-- A scan that goes on with some brackets open finds the one that closes them all. -/
def ClosedBy (src : Source) (l : Lexer) (depth : Nat) (close : Lexer) : Prop :=
  ∃ steps, closingBracket?.go src steps depth l = some close

/-- The current token closes the brackets, or the one that does lies ahead. -/
inductive ClosedFrom (src : Source) (l : Lexer) (depth : Nat) (close : Lexer) : Prop
  | here (hkind : l.kind = .mark .closeBracket) (hdepth : depth = 0)
    (hstart : l.start = close.start) (hscan : l.scan src = close.scan src)
  | ahead (hend : l.kind ≠ .endOfFile)
    (hnot : ¬(l.kind = .mark .closeBracket ∧ depth = 0))
    (h : l.ClosedBy src (bracketsBehind l.kind depth) close)

lemma exists_pathBehind (h : l.behindPath? src = some m) : ∃ path, PathBehind src l path m := by
  have walk (steps : Nat) (l : Lexer) (h : behindPath?.go src steps l = some m) :
      ∃ path, PathBehind src l path m := by
    induction steps generalizing l with
    | zero => exact nomatch h
    | succ steps ih =>
      rw [behindPath?.go] at h
      dsimp only at h
      split at h
      case isTrue hname =>
        split at h
        case isTrue hdot =>
          obtain ⟨path, hpath⟩ := ih _ h
          exact ⟨_, .next hname (eq_of_beq hdot) hpath⟩
        case isFalse hdot =>
          cases h
          exact ⟨_, .last hname fun e => hdot (beq_iff_eq.2 e)⟩
      case isFalse => exact nomatch h
  exact walk _ l h

/-- Where a macro call is found ahead, its path ends at a parenthesis, perhaps behind attributes. -/
lemma exists_of_atMacroCall (h : l.atMacroCall src = true) : ∃ behind attributes paren,
    l.behindPath? src = some behind ∧ AttributesAt src behind attributes paren
      ∧ paren.kind = .mark .openParen ∧ paren.flags.lineBreak = false := by
  unfold atMacroCall at h
  rw [Option.any_eq_true] at h
  obtain ⟨paren, hfound, hparen⟩ := h
  rw [Bool.and_eq_true, beq_iff_eq, Bool.not_eq_true'] at hparen
  obtain ⟨behind, hpath, e⟩ := Option.bind_eq_some_iff.1 hfound
  split at e
  case isTrue hopen =>
    rw [Bool.and_eq_true, beq_iff_eq, Bool.not_eq_true'] at hopen
    obtain ⟨close, hclose, e⟩ := Option.bind_eq_some_iff.1 e
    cases e
    exact ⟨_, _, _, hpath, .present hopen.1 hopen.2 hclose, hparen⟩
  case isFalse hopen =>
    cases e
    refine ⟨_, _, _, hpath, .absent fun hboth => hopen ?_, hparen⟩
    rw [hboth.1, hboth.2]
    rfl

lemma scan_addFlags (src : Source) (l : Lexer) (flags : TokenFlags) :
    (l.addFlags flags).scan src = l.scan src :=
  rfl

/-! ## Brackets -/

namespace ClosedBy

/-- Only what lies ahead matters. -/
lemma congr (hscan : m.scan src = l.scan src) (h : l.ClosedBy src depth close) :
    m.ClosedBy src depth close := by
  obtain ⟨steps, h⟩ := h
  cases steps with
  | zero => exact nomatch h
  | succ steps =>
    refine ⟨steps + 1, ?_⟩
    rw [closingBracket?.go.eq_def] at h ⊢
    dsimp only at h ⊢
    rwa [hscan]

/-- The next token closes the brackets, or the one that does lies behind it. -/
lemma scan (h : l.ClosedBy src depth close) : (l.scan src).ClosedFrom src depth close := by
  obtain ⟨steps, h⟩ := h
  cases steps with
  | zero => exact nomatch h
  | succ steps =>
    rw [closingBracket?.go.eq_def] at h
    dsimp only at h
    split at h
    case h_1 hkind =>
      refine .ahead (by rw [hkind]; exact nofun) (by rw [hkind]; exact nofun) ⟨steps, ?_⟩
      rw [hkind]
      exact h
    case h_2 hkind =>
      cases h
      exact .here hkind rfl rfl rfl
    case h_3 hkind =>
      refine .ahead (by rw [hkind]; exact nofun) (by simp) ⟨steps, ?_⟩
      rw [hkind]
      exact h
    case h_4 => exact nomatch h
    case h_5 depth _ _ hopen hend hlast hclose =>
      have hnot : (l.scan src).kind ≠ .mark .closeBracket := fun hkind => by
        cases depth with
        | zero => exact hlast hkind rfl
        | succ depth => exact hclose depth hkind rfl
      refine .ahead hend (fun hboth => hnot hboth.1) ⟨steps, ?_⟩
      rw [bracketsBehind, if_neg (by simpa using hnot), if_neg (by simpa using hopen)]
      exact h

end ClosedBy

namespace ClosedFrom

lemma addFlags (h : l.ClosedFrom src depth close) (flags : TokenFlags) :
    (l.addFlags flags).ClosedFrom src depth close := by
  cases h with
  | here hkind hdepth hstart hscan => exact .here hkind hdepth hstart hscan
  | ahead hend hnot h => exact .ahead hend hnot (ClosedBy.congr (scan_addFlags src l flags) h)

/-- No bracket is a character that belongs to no token. -/
lemma closedBy_of_unknown (h : l.ClosedFrom src depth close) (hkind : l.kind = .unknown) :
    l.ClosedBy src depth close := by
  cases h with
  | here hclose => exact nomatch hkind.symm.trans hclose
  | ahead _ _ h =>
    rw [hkind] at h
    exact h

end ClosedFrom

/-- A scan passes over characters that belong to no token as well. -/
lemma ClosedBy.scanKnown (h : l.ClosedBy src depth close) :
    (l.scanKnown src).ClosedFrom src depth close := by
  have walk (rounds : Nat) (skipped : TokenFlags) (l : Lexer) (h : l.ClosedBy src depth close) :
      (scanKnown.go src (rounds + 1) skipped l).ClosedFrom src depth close := by
    induction rounds generalizing skipped l with
    | zero =>
      rw [scanKnown.go]
      split
      · exact h.scan
      · exact h.scan.addFlags skipped
    | succ rounds ih =>
      rw [scanKnown.go]
      split
      case isTrue hkind => exact ih _ _ (h.scan.closedBy_of_unknown hkind)
      case isFalse => exact h.scan.addFlags skipped
  exact walk src.size {} l h

end Lexer

/-! ## What the rules take -/

/-- A state outside attempts with some reports. -/
structure ParseState.Logs (log : Log) (s : ParseState) : Prop where
  settled : s.tentative = {}
  log : s.log = log

lemma ParseState.Logs.advance (h : s.Logs log) (src : Source) : (s.advance src).Logs log := by
  obtain ⟨tentative, errorCount, muted, -, hsettled, -, e⟩ := s.advance_eq src
  rw [e]
  exact ⟨hsettled h.settled, h.log⟩

lemma ParseState.eq_of_mem_log_report {span : Span} {m : Message} {args : List String}
    {d : Diagnostic} (h : d ∈ (s.report span m args).log) :
    d ∈ s.log ∨ d = m.diagnostic span args := by
  unfold report at h
  dsimp only at h
  split at h
  · exact .inl h
  · split at h
    · exact .inl h
    · exact Array.mem_push.1 h

/-- Behind a name of a path: the point in front of the rest, or the token behind the path. -/
def Lexer.PathFrom (src : Source) (l : Lexer) (rest : List Name) (m : Lexer) : Prop :=
  (rest = [] ∧ l = m ∧ m.kind ≠ .mark .dot) ∨ (l.kind = .mark .dot ∧ l.PathBehind src rest m)

lemma Lexer.PathBehind.isIdentifier (h : l.PathBehind src path m) :
    (l.scan src).kind.isIdentifier := by
  cases h with
  | last hname => exact hname
  | next hname => exact hname

lemma Kind.ne_unknown_of_isIdentifier {k : Kind} (h : k.isIdentifier) : k ≠ .unknown := by
  rintro rfl
  exact nomatch h

namespace Rule

section

variable (hs : s.Logs log) (hpath : l.PathBehind env.src path m) (hm : m.kind ≠ .unknown)
  (hlexer : s.lexer = l.scan env.src)

include hs hpath hm hlexer

lemma ensures_pathName : Ensures env s identifier fun name t => t.Logs log ∧
    ∃ rest, path = name :: rest ∧ t.lexer.PathFrom env.src rest m := by
  have hkind : s.kind.isIdentifier := by
    rw [ParseState.kind_of_settled hs.settled, hlexer]
    exact hpath.isIdentifier
  intro name t e
  rw [identifier_apply hkind] at e
  cases e
  have hnamed : { s with names := s.names.insert s.lexer.value }.Logs log := ⟨hs.settled, hs.log⟩
  refine ⟨hnamed.advance env.src, ?_⟩
  rw [ParseState.lexer_advance, hlexer]
  cases hpath with
  | last _ hend =>
    rw [Lexer.Facing.scanKnown_eq hm]
    exact ⟨[], rfl, .inl ⟨rfl, rfl, hend⟩⟩
  | next _ hdot hrest =>
    rw [Lexer.Facing.scanKnown_eq (by rw [hdot]; exact nofun)]
    exact ⟨_, rfl, .inr ⟨hdot, hrest⟩⟩

/-- The path is taken as it was walked. -/
lemma ensures_dottedName_behind : Ensures env s dottedName fun names t =>
    names = path ∧ t.Logs log ∧ t.lexer = m := by
  refine (ensures_pathName hs hpath hm hlexer).bind fun first t ⟨ht, rest, hfirst, hrest⟩ => ?_
  refine .loop_invariant (R := fun names t => t.Logs log ∧
    ∃ rest, path = names ++ rest ∧ t.lexer.PathFrom env.src rest m) ?_ ⟨ht, rest, hfirst, hrest⟩
  rintro names t ⟨ht, rest, rfl, hrest⟩
  refine .view ?_
  rw [ParseState.kind_of_settled ht.settled]
  obtain ⟨rfl, hlexer, hend⟩ | ⟨hdot, hpath⟩ := hrest
  · rw [if_neg (by simp [hlexer, hend])]
    exact .pure ⟨(List.append_nil names).symm, ht, hlexer⟩
  · have hname := hpath.isIdentifier
    rw [if_pos (by rw [Bool.and_eq_true, beq_iff_eq]; exact ⟨hdot, hname⟩)]
    have hnext : (t.advance env.src).lexer = t.lexer.scan env.src := by
      rw [ParseState.lexer_advance,
        Lexer.Facing.scanKnown_eq (Kind.ne_unknown_of_isIdentifier hname)]
    refine .advance <| (ensures_pathName (ht.advance env.src) hpath hm hnext).bind ?_
    rintro name u ⟨hu, rest, rfl, hrest⟩
    exact .pure ⟨hu, rest, by rw [List.append_assoc]; rfl, hrest⟩

end

/-- The attributes are what stands in the brackets that were walked. -/
lemma ensures_attributes (hs : s.Logs log) (hclose : s.lexer.ClosedBy env.src 0 close)
    (hknown : (close.scan env.src).kind ≠ .unknown) :
    Ensures env s (balanced .openBracket .closeBracket) fun span t =>
      span = .ofBounds s.lexer.pos close.start ∧ t.Logs log ∧ t.lexer = close.scan env.src := by
  refine .get (.advance ?_)
  refine .loop_invariant (R := fun depth t => t.Logs log ∧ t.lexer.ClosedFrom env.src depth close)
    ?_ ⟨hs.advance env.src, ?_⟩
  · rintro depth t ⟨ht, hfrom⟩
    refine .get ?_
    dsimp only
    rw [ParseState.kind_of_settled ht.settled]
    cases hfrom with
    | here hkind hdepth hstart hscan =>
      rw [if_neg (by simp [hkind]), if_pos (by simp [hkind, hdepth])]
      refine .advance (.pure ⟨?_, ht.advance env.src, ?_⟩)
      · rw [ParseState.start, hstart]
      · rw [ParseState.lexer_advance, Lexer.Facing.scanKnown_eq (by rwa [hscan]), hscan]
    | ahead hend hnot h =>
      rw [if_neg (by simpa using hend), if_neg (by simpa using hnot)]
      refine .advance (.pure ⟨ht.advance env.src, ?_⟩)
      rw [ParseState.lexer_advance]
      exact h.scanKnown
  · rw [ParseState.lexer_advance]
    exact hclose.scanKnown

/-- What stands in brackets starts behind the one that opens them, and the one that closes them is
all that can be missing. -/
lemma ensures_balanced (hs : s.Logs log) (opening closing : Punctuation) :
    Ensures env s (balanced opening closing) fun span t => span.start = s.lexer.pos ∧
      ∀ d ∈ t.log, d ∈ log ∨ ∃ span, d = Message.expected.diagnostic span [closing.text] := by
  refine .get (.advance ?_)
  refine .loop_invariant (R := fun _ t => t.Logs log) ?_ (hs.advance env.src)
  intro depth t ht
  refine .get ?_
  dsimp only
  split
  · refine .report (.pure ⟨rfl, fun d hd => ?_⟩)
    obtain hd | rfl := ParseState.eq_of_mem_log_report hd
    · exact .inl (ht.log ▸ hd)
    · exact .inr ⟨_, rfl⟩
  split
  · exact .advance (.pure ⟨rfl, fun d hd => .inl ((ht.advance env.src).log ▸ hd)⟩)
  · exact .advance (.pure (ht.advance env.src))

lemma ensures_exprFrom (start : Nat) (form : ExprForm) : Ensures env s (exprFrom start form)
    fun id t => t.log = s.log ∧ ∃ span, t.nodes.exprs.get? id = some ⟨form, span⟩ := by
  rintro id t ⟨⟩
  exact ⟨rfl, _, Arena.get?_push_next _ _⟩

/-- A macro call that was found ahead is read as it was walked. -/
lemma ensures_macroCall {attributes : Option Span} {behind paren : Lexer} (hs : s.Logs log)
    (hpath : s.lexer.PathBehind env.src path behind)
    (hattributes : behind.AttributesAt env.src attributes paren)
    (hparen : paren.kind = .mark .openParen) :
    Ensures env s macroCall fun id t => ∃ input : Span, input.start = paren.pos
      ∧ (∃ span, t.nodes.exprs.get? id = some ⟨.macroCall path attributes input, span⟩)
      ∧ ∀ d ∈ t.log, d ∈ log ∨ ∃ span,
        d = Message.expected.diagnostic span [Punctuation.closeParen.text] := by
  have hname := Kind.ne_unknown_of_isIdentifier hpath.isIdentifier
  have hknown : behind.kind ≠ .unknown := by
    cases hattributes with
    | absent => rw [hparen]; exact nofun
    | present hopen => rw [hopen]; exact nofun
  have hfirst : (s.advance env.src).lexer = s.lexer.scan env.src := by
    rw [ParseState.lexer_advance, Lexer.Facing.scanKnown_eq hname]
  refine .view (.advance ?_)
  refine (ensures_dottedName_behind (hs.advance env.src) hpath hknown hfirst).bind ?_
  rintro names t ⟨e, ht, rfl⟩
  obtain rfl := e.symm
  refine .view ?_
  extract_lets rest
  -- Behind the attributes, or without any, the parse is at the parenthesis.
  have hrest {u : ParseState} (hu : u.Logs log) (hlexer : u.lexer = paren) :
      Ensures env u (rest attributes) fun id t => ∃ input : Span, input.start = paren.pos
        ∧ (∃ span, t.nodes.exprs.get? id = some ⟨.macroCall path attributes input, span⟩)
        ∧ ∀ d ∈ t.log, d ∈ log ∨ ∃ span,
          d = Message.expected.diagnostic span [Punctuation.closeParen.text] := by
    refine .view ?_
    rw [if_pos (by rw [ParseState.kind_of_settled hu.settled, hlexer, hparen]; rfl)]
    refine (ensures_balanced hu _ _).bind fun input v ⟨hstart, hlog⟩ => ?_
    refine (ensures_exprFrom _ _).mono fun id w ⟨hsame, hid⟩ => ⟨input, hlexer ▸ hstart, hid, ?_⟩
    rw [hsame]
    exact hlog
  clear_value rest
  rw [ParseState.kind_of_settled ht.settled]
  cases hattributes with
  | absent hno =>
    rw [if_neg (by simpa using hno)]
    exact hrest ht rfl
  | present hopen hline hclose =>
    rw [if_pos (by simp [hopen, hline])]
    refine (ensures_attributes ht ⟨_, hclose⟩ (by rw [hparen]; exact nofun)).bind ?_
    rintro _ u ⟨rfl, hu, hlexer⟩
    exact hrest hu hlexer

end Rule

/-- Looking ahead over any number of tokens leaves the lexer as it was. -/
lemma Lexer.lookAhead_scanMany {α : Type} (f : Lexer → α) (l : Lexer) (count : Nat) :
    l.lookAhead (fun l => (f l, l.scanMany src count)) = (f l, l) := by
  have hlog : l.log.toList <+: (l.scanMany src count).log.toList := by
    induction count with
    | zero => exact List.prefix_refl _
    | succ count ih =>
      rw [scanMany_succ]
      exact ih.trans log_scan
  exact congrArg (Prod.mk _) (restore_of_isPrefix hlog)

/-- From every state of a parse outside attempts, a macro call that is found ahead is read: with the
path that was walked, with attributes exactly if brackets were, namely what stands inside them, and
with an input behind the parenthesis that was found. That parenthesis is never reported missing; all
that can be is the one that closes the input. Looking ahead leaves the lexer as it was. -/
theorem macroCall_of_atMacroCall (hfresh : s.Fresh env.src)
    (hvisits : Visits env (s.advance env.src) t) (hahead : t.lexer.atMacroCall env.src = true) :
    ∃ path behind attributes paren, t.lexer.behindPath? env.src = some behind
      ∧ t.lexer.PathBehind env.src path behind ∧ behind.AttributesAt env.src attributes paren
      ∧ paren.kind = .mark .openParen ∧ paren.flags.lineBreak = false
      ∧ (∀ count, t.lexer.lookAhead (fun l => (l.atMacroCall env.src, l.scanMany env.src count))
          = (true, t.lexer))
      ∧ ∃ id u input span, Rule.macroCall env t = some (id, u)
        ∧ u.nodes.exprs.get? id = some ⟨.macroCall path attributes input, span⟩
        ∧ input.start = paren.pos
        ∧ (∀ d ∈ u.log, d ∈ t.log ∨ ∃ span,
          d = Message.expected.diagnostic span [Punctuation.closeParen.text])
        ∧ ∀ span, Message.expected.diagnostic span [Punctuation.openParen.text] ∈ u.log →
          Message.expected.diagnostic span [Punctuation.openParen.text] ∈ t.log := by
  have ht := hfresh.visits hvisits
  have hsettled : t.tentative = {} := (Region.settled_behind env s.lexer).tentative ht
  obtain ⟨behind, attributes, paren, hbehind, hattributes, hparen, hline⟩ :=
    Lexer.exists_of_atMacroCall hahead
  obtain ⟨path, hpath⟩ := Lexer.exists_pathBehind hbehind
  refine ⟨path, behind, attributes, paren, hbehind, hpath, hattributes, hparen, hline,
    fun count => ?_, ?_⟩
  · rw [Lexer.lookAhead_scanMany, hahead]
  · obtain ⟨id, u, hrun⟩ := Rule.finishes_macroCall (K := .behind env s.lexer) (fun h => h.2.1)
      (Region.step _ ht (.advance t))
    obtain ⟨input, hstart, ⟨span, hid⟩, hlog⟩ :=
      Rule.ensures_macroCall ⟨hsettled, rfl⟩ hpath hattributes hparen id u hrun
    refine ⟨id, u, input, span, hrun, hid, hstart, hlog, fun span hmem => ?_⟩
    have htexts : Template.fill Message.expected.template [Punctuation.openParen.text]
        ≠ Template.fill Message.expected.template [Punctuation.closeParen.text] := by decide +kernel
    exact (hlog _ hmem).resolve_right fun ⟨_, e⟩ => htexts (congrArg Diagnostic.text e)

/-- Brackets inside the attributes, a character there that belongs to no token, and no parenthesis
that closes the input. -/
theorem macroCall_of_atMacroCall_with_attributes :
    let env : Env := { src := .ofString "@a.b[c[0] §](x", settings := {} }
    let t := (ParseState.ofSource env.src).advance env.src
    t.kind = .mark .atSign ∧ t.lexer.atMacroCall env.src = true
      ∧ ∃ path attributes input id u span, Rule.macroCall env t = some (id, u)
        ∧ u.nodes.exprs.get? id = some ⟨.macroCall path (some attributes) input, span⟩
        ∧ ∀ span, Message.expected.diagnostic span [Punctuation.openParen.text] ∉ u.log := by
  intro env t
  have hfresh : ParseState.Fresh env.src (.ofSource env.src) := .file .empty
  have hkind : t.kind = .mark .atSign := by decide +kernel
  have hahead : t.lexer.atMacroCall env.src = true := by decide +kernel
  have hbrackets : (t.lexer.behindPath? env.src).all
      (fun l => l.kind == .mark .openBracket && !l.flags.lineBreak) = true := by decide +kernel
  have hnone : t.log = #[] := by decide +kernel
  obtain ⟨path, behind, attributes, paren, hbehind, -, hattributes, -, -, -, id, u, input, span,
    hrun, hid, -, -, hlog⟩ := macroCall_of_atMacroCall hfresh .refl hahead
  refine ⟨hkind, hahead, path, ?_⟩
  rw [hbehind] at hbrackets
  cases hattributes with
  | absent hno => exact absurd (by simpa using hbrackets) hno
  | present =>
    refine ⟨_, input, id, u, span, hrun, hid, fun span hmem => ?_⟩
    have hold := hlog span hmem
    rw [hnone] at hold
    exact nomatch hold

end CangjieSyntax
