import CangjieSyntax.Proofs.Invariant.Grammar
import CangjieSyntax.Proofs.Layout.Footing

/-!
# Precedence in trees

The operands of an operation bind at least as strongly as it does itself, and those of equal
strength stand on the side to which the operator groups. A rule for operands above a level yields
none that binds less, and stops where no operator above the level stands. An outer rule that goes on
from there finds the same token: it cannot let a stronger operator take what the inner one has read.

Past the depth of nesting this can fail, as the rule for the right operand does not look for
operators there; that is a fatal fault, like each lexical one.
-/

namespace CangjieSyntax

open ExprForm (IsOperand IsPlain)

variable {env : Env} {s t u : ParseState} {nodes others : Nodes} {before : Prop}

/-! ## Grouped trees -/

namespace ExprForm

/-- The form binds more strongly than the given level, if it is an operation between operands. -/
def Exceeds (above : Nat) : ExprForm → Prop
  | .binary _ _ _ level => above < level.strength
  | _ => True

/-- The form may be the left operand of an operator: an operation in it binds more strongly, or as
strongly if its operator groups to the left. -/
def FitsLeft (op : BinaryOp) : ExprForm → Prop
  | .binary left _ _ level => op.precedence.strength < level.strength
      ∨ level.strength = op.precedence.strength ∧ left.associativity = .left
  | _ => True

/-- The form may be the right operand of an operator: an operation in it binds more strongly, or as
strongly if its operator groups to the right. -/
def FitsRight (op : BinaryOp) : ExprForm → Prop
  | .binary right _ _ level => op.precedence.strength < level.strength
      ∨ level.strength = op.precedence.strength ∧ right.associativity = .right
  | _ => True

end ExprForm

/-- An operation has the level of its operator, and its operands fit it. -/
def Nodes.Groups (nodes : Nodes) : ExprForm → Prop
  | .binary op lhs rhs level =>
    level = op.precedence ∧ nodes.Has lhs (ExprForm.FitsLeft op)
      ∧ nodes.Has rhs (ExprForm.FitsRight op)
  | .unary _ operand _ => nodes.Has operand IsOperand
  | _ => True

/-- All operations are grouped by their precedence. -/
def Nodes.Grouped (nodes : Nodes) : Prop :=
  ∀ id node, nodes.exprs.get? id = some node → nodes.Groups node.form

namespace Nodes

lemma Groups.grow {form : ExprForm} (h : nodes.Groups form)
    (hext : nodes.exprs.Extends others.exprs) : others.Groups form := by
  cases form with
  | binary op lhs rhs level =>
    obtain ⟨hlevel, hlhs, hrhs⟩ := h
    exact ⟨hlevel, hlhs.grow hext, hrhs.grow hext⟩
  | unary op operand level => exact Has.grow h hext
  | _ => trivial

lemma groups_of_isPlain {form : ExprForm} (h : form.IsPlain) : nodes.Groups form := by
  obtain ⟨hbinary, hunary, -⟩ := h
  cases form with
  | binary op lhs rhs level => exact absurd rfl (hbinary op lhs rhs level)
  | unary op operand level => exact absurd rfl (hunary op operand level)
  | _ => trivial

lemma groups_of_isChained {form : ExprForm} (h : form.isChained = true) : nodes.Groups form := by
  cases form with
  | binary | unary => exact nomatch h
  | _ => trivial

lemma Grouped.of_exprs (h : nodes.Grouped) (e : others.exprs = nodes.exprs) : others.Grouped := by
  intro id node hnode
  rw [e] at hnode
  exact (h id node hnode).grow (by rw [e]; exact .refl _)

/-- An operation may be added to the ones that its operands are among. -/
lemma Grouped.add {form : ExprForm} (h : nodes.Grouped) (hform : nodes.Groups form) (span : Span) :
    (nodes.add (.expr ⟨form, span⟩)).Grouped := by
  have hext : nodes.exprs.Extends (nodes.exprs.push ⟨form, span⟩) := (Arena.Extends.refl _).push _
  intro id node hnode
  obtain ⟨-, rfl⟩ | hold := get?_add_expr hnode
  · exact hform.grow hext
  · exact (h id node hold).grow hext

end Nodes

/-! ## Strengths and sides -/

namespace BinaryOp

/-- The side to which an operator groups is a matter of its level. -/
lemma associativity_eq {op op' : BinaryOp}
    (h : op.precedence.strength = op'.precedence.strength) :
    op.associativity = op'.associativity := by
  have side (op : BinaryOp) : op.associativity
      = if op.precedence.strength = Precedence.exponentiation.strength then .right else .left := by
    cases op <;> rfl
  rw [side, side, h]

lemma rightAbove_of_left {op : BinaryOp} (h : op.associativity = .left) :
    Rule.rightAbove op = op.precedence.strength := by
  rw [Rule.rightAbove, h]

lemma rightAbove_of_right {op : BinaryOp} (h : op.associativity = .right) :
    Rule.rightAbove op + 1 = op.precedence.strength := by
  cases op with
  | power => rfl
  | _ => exact nomatch h

/-- An operator that stops the right operand of an operation takes the operation as its left
operand. -/
lemma fitsLeft {op left : BinaryOp} {lhs rhs : ExprId}
    (h : op.precedence.strength ≤ Rule.rightAbove left) :
    (ExprForm.binary left lhs rhs left.precedence).FitsLeft op := by
  cases hside : left.associativity with
  | left =>
    rw [rightAbove_of_left hside] at h
    exact (Nat.lt_or_eq_of_le h).imp id fun e => ⟨e.symm, hside⟩
  | right =>
    have hbelow := rightAbove_of_right hside
    exact .inl (by omega)

/-- What binds more strongly than the level for the right operand of an operator may be it. -/
lemma fitsRight {op : BinaryOp} {form : ExprForm} (h : form.Exceeds (Rule.rightAbove op))
    (hgroups : nodes.Groups form) : form.FitsRight op := by
  cases form with
  | binary right lhs rhs level =>
    obtain ⟨rfl, -, -⟩ := hgroups
    change Rule.rightAbove op < right.precedence.strength at h
    cases hside : op.associativity with
    | left =>
      rw [rightAbove_of_left hside] at h
      exact .inl h
    | right =>
      have hbelow := rightAbove_of_right hside
      have hle : op.precedence.strength ≤ right.precedence.strength := by omega
      refine (Nat.lt_or_eq_of_le hle).imp id fun e => ⟨e.symm, ?_⟩
      exact (associativity_eq e.symm).trans hside
  | _ => trivial

end BinaryOp

/-! ## Fatal faults -/

/-- A scan adds lexical errors only, which are fatal. -/
lemma Lexer.isFatal_scan {src : Source} {l : Lexer} (h : ∀ d ∈ l.log, d.isFatal = true) :
    ∀ d ∈ (l.scan src).log, d.isFatal = true := by
  intro d hd
  obtain hd | ⟨e, -, rfl⟩ := mem_log_scan hd
  · exact h d hd
  · rfl

lemma Lexer.isFatal_scanKnown {src : Source} {l : Lexer} (h : ∀ d ∈ l.log, d.isFatal = true) :
    ∀ d ∈ (l.scanKnown src).log, d.isFatal = true :=
  scanKnown_of_first (P := fun m => ∀ d ∈ m.log, d.isFatal = true) (isFatal_scan h)
    (fun _ => isFatal_scan) fun _ _ => id

namespace Log

lemma hasFatal_iff {log : Log} : log.hasFatal = true ↔ ∃ d ∈ log, d.isFatal = true := by
  rw [hasFatal, Array.any_eq_true']

lemma hasFatal_sorted (log : Log) : log.sorted.hasFatal = log.hasFatal := by
  rw [Bool.eq_iff_iff, hasFatal_iff, hasFatal_iff]
  simp [sorted]

end Log

lemma Settings.hasFatal_locate (settings : Settings) (log : Log) :
    (settings.locate log).hasFatal = log.hasFatal := by
  unfold Settings.locate
  split
  · rw [Bool.eq_iff_iff, Log.hasFatal_iff, Log.hasFatal_iff]
    simp [Log.inFile, Diagnostic.inFile, Diagnostic.isFatal]
  · rfl

namespace ParseState

/-- Something fatal has been reported. Lexical errors always are. -/
def Fatal (s : ParseState) : Prop :=
  s.lexer.log ≠ #[] ∨ ∃ d ∈ s.log, d.isFatal = true

/-- Outside attempts, faults are held back only behind a fatal one, and one has been reported if it
was `before`. -/
structure Candid (before : Prop) (s : ParseState) : Prop where
  settled : s.tentative = {}
  fatal : before → s.Fatal
  lexical : ∀ d ∈ s.lexer.log, d.isFatal = true
  muted : s.muted = true → s.Fatal

/-- Unless something fatal has been reported, all operations are grouped. -/
structure Orderly (before : Prop) (s : ParseState) : Prop extends s.Candid before where
  grouped : s.Fatal ∨ s.nodes.Grouped

lemma Fatal.report (h : s.Fatal) (span : Span) (m : Message) (args : List String) :
    (s.report span m args).Fatal := by
  unfold ParseState.report
  dsimp only
  split
  · exact h
  · split
    · exact h
    · exact h.imp_right fun ⟨d, hd, hfatal⟩ => ⟨d, Array.mem_push_of_mem _ hd, hfatal⟩

/-- Nesting past the depth allowed is fatal. -/
lemma Candid.fatal_reportDepth (h : s.Candid before) (span : Span) (maxDepth : Nat) :
    (s.reportDepth span maxDepth).Fatal := by
  unfold ParseState.reportDepth
  rw [if_neg (by simp [isTentative, h.settled])]
  cases hmuted : s.muted with
  | true => simpa [Fatal, hmuted] using h.muted hmuted
  | false => exact .inr ⟨_, Array.mem_push_self, rfl⟩

lemma Fatal.advance (h : s.Fatal) (src : Source) : (s.advance src).Fatal := by
  obtain ⟨tentative, errorCount, muted, -, -, -, e⟩ := s.advance_eq src
  rw [e]
  refine h.imp_left fun hlog hnone => hlog ?_
  have hprefix := Lexer.log_scanKnown src s.lexer
  rw [hnone] at hprefix
  exact Array.toList_inj.1 (List.prefix_nil.1 hprefix)

end ParseState

namespace ParseState.Candid

/-- What keeps what is fatal keeps a state candid. -/
lemma of_frame (h : s.Candid before) (hsettled : t.tentative = {})
    (hlexical : ∀ d ∈ t.lexer.log, d.isFatal = true) (hfatal : s.Fatal → t.Fatal)
    (hmuted : t.muted = true → s.muted = true ∨ t.Fatal) : t.Candid before where
  settled := hsettled
  fatal := hfatal ∘ h.fatal
  lexical := hlexical
  muted hm := (hmuted hm).elim (fun hm => hfatal (h.muted hm)) id

lemma step (h : s.Candid before) (hstep : Step env s t) : t.Candid before := by
  have hsettled := hstep.settled h.settled
  cases hstep with
  | advance =>
    obtain ⟨tentative, errorCount, muted, -, -, hmuted, e'⟩ := s.advance_eq env.src
    refine h.of_frame hsettled ?_ (·.advance env.src) ?_
    · rw [e']
      exact Lexer.isFatal_scanKnown h.lexical
    · rw [e']
      exact fun hm => (hmuted hm).imp_right .inl
  | report span m args =>
    refine h.of_frame hsettled ?_ (·.report span m args) ?_
    · rw [(s.report_place span m args).1]
      exact h.lexical
    · intro hm
      left
      unfold ParseState.report at hm
      dsimp only at hm
      split at hm
      · exact hm
      · split at hm <;> exact hm
  | reportDepth span =>
    refine h.of_frame hsettled ?_ (fun _ => ?_) (fun _ => .inr ?_)
    · rw [(s.reportDepth_place span _).1]
      exact h.lexical
    · exact h.fatal_reportDepth span _
    · exact h.fatal_reportDepth span _
  | alloc => exact h.of_frame hsettled h.lexical id .inl
  | intern => exact h.of_frame hsettled h.lexical id .inl
  | deeper => exact h.of_frame hsettled h.lexical id .inl
  | shallower => exact h.of_frame hsettled h.lexical id .inl

lemma turn (h : s.Candid before) (hturn : Turn env s t) : t.Candid before := by
  have hsettled := hturn.settled h.settled
  cases hturn with
  | unmute => exact h.of_frame hsettled h.lexical id nofun
  | joinGreater =>
    have hlog : (s.lexer.joinGreater env.src).log = s.lexer.log := Lexer.log_joinGreater
    refine h.of_frame hsettled (hlog ▸ h.lexical) (fun hfatal => ?_) .inl
    unfold Fatal
    rw [hlog]
    exact hfatal
  | remember start => exact h.of_frame hsettled h.lexical id .inl
  | enclose owner => exact h.of_frame hsettled h.lexical id .inl
  | @commit u htries ok =>
    have inside := Inside.of_tries h.settled htries
    have hcontext := inside.context
    simp only [ParseState.context, Prod.mk.injEq] at hcontext
    obtain ⟨log, -, muted, -⟩ := hcontext
    have scanned := inside.scanned.resolve_left (by simp [ok])
    have hfatal : (s.commit u).Fatal ↔ s.Fatal := by
      change u.Fatal ↔ s.Fatal
      rw [Fatal, Fatal, scanned, log]
    refine h.of_frame hsettled (scanned ▸ h.lexical) hfatal.2 (fun hm => .inl ?_)
    exact muted ▸ hm
  | giveUp htries =>
    rw [(Inside.of_tries h.settled htries).giveUp_eq h.settled] at hsettled ⊢
    exact h.of_frame hsettled h.lexical id .inl

/-- What is fatal in a state is the starting point of another account of the same state. -/
lemma here (h : s.Candid before) : s.Candid s.Fatal :=
  { h with fatal := id }

/-- Whatever is fatal is among the diagnostics. -/
lemma hasFatal (h : s.Candid before) (hfatal : s.Fatal) (settings : Settings) :
    (settings.locate s.diagnostics).hasFatal = true := by
  rw [settings.hasFatal_locate, ParseState.diagnostics, Log.hasFatal_sorted, Log.hasFatal_iff]
  obtain hlog | ⟨d, hd, hfatal⟩ := hfatal
  · obtain ⟨d, hd⟩ := Array.exists_mem_of_ne_empty _ hlog
    exact ⟨d, Array.mem_append_left _ hd, h.lexical d hd⟩
  · exact ⟨d, Array.mem_append_right _ hd, hfatal⟩

/-- In front of a text a state is candid. -/
lemma start (hsettled : s.tentative = {}) (hlog : s.lexer.log = #[]) (hmuted : s.muted = false) :
    s.Candid False where
  settled := hsettled
  fatal := nofun
  lexical d hd := by simp [hlog] at hd
  muted hm := nomatch hmuted.symm.trans hm

end ParseState.Candid

namespace ParseState.Orderly

lemma step (h : s.Orderly before) (hstep : Step env s t) (e : t.nodes.exprs = s.nodes.exprs) :
    t.Orderly before :=
  ⟨h.toCandid.step hstep, h.grouped.imp (h.here.step hstep).fatal fun hgrouped => hgrouped.of_exprs e⟩

lemma turn (h : s.Orderly before) (hturn : Turn env s t) (e : t.nodes.exprs = s.nodes.exprs) :
    t.Orderly before :=
  ⟨h.toCandid.turn hturn, h.grouped.imp (h.here.turn hturn).fatal fun hgrouped => hgrouped.of_exprs e⟩

lemma alloc (h : s.Orderly before) {form : ExprForm} (hform : s.Fatal ∨ s.nodes.Groups form)
    (span : Span) :
    ParseState.Orderly before { s with nodes := s.nodes.add (.expr ⟨form, span⟩) } := by
  refine ⟨h.toCandid.of_frame h.settled h.lexical id .inl, ?_⟩
  obtain hfatal | hgrouped := h.grouped
  · exact .inl hfatal
  · exact hform.imp id fun hform => hgrouped.add hform span

end ParseState.Orderly

/-- The states that are orderly. -/
def Invariant.orderly (env : Env) (before : Prop) : Invariant env where
  holds := ParseState.Orderly before
  step h hstep e := ParseState.Orderly.step h hstep e

lemma Invariant.allows_orderly {form : ExprForm} (h : ∀ nodes : Nodes, nodes.Groups form) :
    (Invariant.orderly env before).Allows form :=
  fun s span hs => ParseState.Orderly.alloc hs (.inr (h s.nodes)) span

lemma Invariant.settled_orderly (env : Env) (before : Prop) :
    (Invariant.orderly env before).Settled where
  tentative h := h.settled
  turn h hturn e := ParseState.Orderly.turn h hturn e
  plain _ hform := Invariant.allows_orderly fun _ => Nodes.groups_of_isPlain hform
  placeholder {s _} h _ := by
    have hgroups : s.nodes.Groups .error := trivial
    exact ParseState.Orderly.alloc h (.inr hgroups) _

/-! ## Where operands stop -/

lemma Punctuation.joinGreater?_ne {src : Source} {pos stop : Nat} {p : Punctuation}
    (h : joinGreater? src pos = some (p, stop)) : p ≠ .greater := by
  unfold joinGreater? at h
  grind

/-- A `>` is joined only once. -/
lemma Lexer.joinGreater_joinGreater {src : Source} {l : Lexer} :
    (l.joinGreater src).joinGreater src = l.joinGreater src := by
  have once : l.joinGreater src = l ∨ (l.joinGreater src).kind ≠ .mark .greater := by
    unfold joinGreater
    split
    · split
      case h_1 hjoin => exact .inr fun e => Punctuation.joinGreater?_ne hjoin (Kind.mark.inj e)
      case h_2 => exact .inl rfl
    · exact .inl rfl
  obtain hsame | hjoined := once
  · rw [hsame, hsame]
  · rw [Lexer.joinGreater, if_neg hjoined]

namespace ParseState

/-- The state where an operator may stand: a `>` is joined to what touches it. -/
def joined (env : Env) (s : ParseState) : ParseState :=
  { s with lexer := s.lexer.joinGreater env.src }

lemma joined_joined (env : Env) (s : ParseState) : (s.joined env).joined env = s.joined env := by
  simp only [joined, Lexer.joinGreater_joinGreater]

/-- No operation that binds more strongly than the given level goes on here: there is no operator
above it, or a minus sign that starts a line. -/
def Halts (env : Env) (above : Nat) (s : ParseState) : Prop :=
  ∀ op, (s.joined env).lexer.kind.binaryOp? = some op → op.precedence.strength ≤ above
    ∨ op = .subtract ∧ (s.joined env).lexer.flags.lineBreak = true

/-- The expression binds more strongly than the given level, and nothing that does goes on behind
it. -/
structure Closed (env : Env) (above : Nat) (id : ExprId) (s : ParseState) : Prop where
  exceeds : s.nodes.Has id (ExprForm.Exceeds above)
  halts : s.Halts env above

/-- The expression can be the left operand of any operator here: if it is an operation, nothing that
its right operand would take goes on behind it. -/
def Leads (env : Env) (above : Nat) (id : ExprId) (s : ParseState) : Prop :=
  ∃ node, s.nodes.exprs.get? id = some node ∧ node.form.Exceeds above
    ∧ ∀ op lhs rhs level, node.form = .binary op lhs rhs level → s.Halts env (Rule.rightAbove op)

lemma Halts.joined {above : Nat} (h : s.Halts env above) : (s.joined env).Halts env above := by
  unfold Halts
  rw [joined_joined]
  exact h

lemma Leads.joined {above : Nat} {id : ExprId} (h : s.Leads env above id) :
    (s.joined env).Leads env above id := by
  obtain ⟨node, hnode, hexceeds, hhalts⟩ := h
  exact ⟨node, hnode, hexceeds, fun op lhs rhs level e => (hhalts op lhs rhs level e).joined⟩

lemma Fatal.joined (h : s.Fatal) : (s.joined env).Fatal :=
  h.imp_left fun hlog => Lexer.log_joinGreater.symm ▸ hlog

/-- An operator that stands here can take the expression as its left operand. -/
lemma Leads.fitsLeft {above : Nat} {id : ExprId} {op : BinaryOp} (h : s.Leads env above id)
    (hgrouped : s.nodes.Grouped) (hop : (s.joined env).lexer.kind.binaryOp? = some op)
    (hline : ¬(op = .subtract ∧ (s.joined env).lexer.flags.lineBreak = true)) :
    s.nodes.Has id (ExprForm.FitsLeft op) := by
  obtain ⟨node, hnode, -, hhalts⟩ := h
  have hgroups := hgrouped id node hnode
  refine ⟨node, hnode, ?_⟩
  cases hform : node.form with
  | binary left lhs rhs level =>
    rw [hform] at hgroups
    obtain ⟨rfl, -, -⟩ := hgroups
    exact BinaryOp.fitsLeft ((hhalts left lhs rhs _ hform op hop).resolve_right hline)
  | _ => trivial

/-- What is no operation leads anywhere. -/
lemma leads_of_has {above : Nat} {id : ExprId} {P : ExprForm → Prop} (h : s.nodes.Has id P)
    (hP : ∀ op lhs rhs level, ¬P (.binary op lhs rhs level)) : s.Leads env above id := by
  obtain ⟨node, hnode, hform⟩ := h
  refine ⟨node, hnode, ?_, fun op lhs rhs level e => absurd (e ▸ hform) (hP op lhs rhs level)⟩
  cases hnode' : node.form with
  | binary op lhs rhs level => exact absurd (hnode' ▸ hform) (hP op lhs rhs level)
  | _ => trivial

end ParseState

namespace Nonterminal

/-- What is known of the results of the rules called by name: an operand is one, and operands above
a level are closed, unless something fatal has been reported. -/
def Orders (env : Env) : {α : Type} → Nonterminal α → α → ParseState → Prop
  | _, .binary above, id, t => t.Fatal ∨ t.Closed env above id
  | _, .unary, id, t => t.nodes.Has id IsOperand
  | _, _, _, _ => True

end Nonterminal

/-- Rules that are called by name keep states orderly. -/
def Orders (env : Env) (call : Call) : Prop :=
  ∀ {α : Type} (g : Nonterminal α) (before : Prop) (s : ParseState), s.Orderly before →
    Ensures env s (call g) fun a t =>
      (Invariant.orderly env before).Reaches s t ∧ g.Orders env a t

namespace Rule

variable {call : Call}

variable (h : Orders env call)
  (htype : ∀ K : Invariant env, Preserves K (call .type))

include h in
lemma preserves_of_orders {α : Type} (g : Nonterminal α) :
    Preserves (Invariant.orderly env before) (call g) :=
  fun s hs => (h g before s hs).mono fun _ _ => And.left

include h htype

/-- Operators in front of an operand leave it an operand. -/
lemma makes_unary : Makes (Invariant.orderly env before) IsOperand (unary call) := by
  have hI := Invariant.settled_orderly env before
  refine .bind preserves_kind fun k => ?_
  split
  case h_1 op _ =>
    refine .bind preserves_start fun start => .bind preserves_advance fun _ => ?_
    have operand : Makes (Invariant.orderly env before) IsOperand
        (nested errorExpr (call .unary)) :=
      makes_nested_errorExpr hI (fun form hform => hform.isOperand) fun s hs => h .unary before s hs
    intro s hs
    refine (operand s hs).bind fun id t ht => ?_
    have hgroups : t.nodes.Groups (.unary op id op.precedence) := ht.2
    rintro _ _ ⟨⟩
    refine ⟨⟨ParseState.Orderly.alloc ht.1.holds (.inr hgroups) _, ht.1.exprs.push _⟩, _,
      Arena.get?_push_next .., ?_⟩
    simp [ExprForm.IsOperand]
  case h_2 =>
    have hname := makes_nameExpr hI htype fun name typeArgs s span hs => by
      have hgroups : s.nodes.Groups (.identifier name typeArgs) := trivial
      exact ParseState.Orderly.alloc hs (.inr hgroups) span
    have hchained (form : ExprForm) (hform : form.isChained = true) :
        (Invariant.orderly env before).Allows form := fun s span hs =>
      ParseState.Orderly.alloc hs (.inr (Nodes.groups_of_isChained hform)) span
    have hquote := makes_quote hI (preserves_of_orders h) fun parts s span hs => by
      have hgroups : s.nodes.Groups (.quote parts) := trivial
      exact ParseState.Orderly.alloc hs (.inr hgroups) span
    exact makes_steps hI
      (makes_chain hI (preserves_of_orders h) htype hchained hname (hquote.makesAt _))

omit h htype in
/-- Where an operator may stand, the state is the one in which it has been joined. -/
lemma operatorKind_apply (hs : s.tentative = {}) :
    operatorKind env s = some ((s.joined env).lexer.kind, s.joined env) := by
  change (if s.kind = .mark .greater then _ else _ : Rule Kind) env s = _
  rw [ParseState.kind_of_settled hs]
  split
  case isTrue => rfl
  case isFalse hkind =>
    have hsame : s.joined env = s := by
      rw [ParseState.joined, Lexer.joinGreater, if_neg hkind]
    rw [hsame]
    exact congrArg some (Prod.ext (ParseState.kind_of_settled hs) rfl)

omit htype in
lemma makes_range (lower : Option ExprId) (start : Nat) :
    Makes (Invariant.orderly env before) IsPlain (rangeTail call lower start) := by
  have hI := Invariant.settled_orderly env before
  have hcall {α : Type} (g : Nonterminal α) : Preserves (Invariant.orderly env before) (call g) :=
    preserves_of_orders h g
  unfold rangeTail
  grind

/-- What is known behind the operation that goes on behind an operand: it leads on itself, and if
there is none, no operator above the level stands there. -/
structure Continues (env : Env) (before : Prop) (above : Nat) (lhs : ExprId) (s : ParseState)
    (o : Option ExprId) (t : ParseState) : Prop where
  reaches : (Invariant.orderly env before).Reaches s t
  leads : t.Fatal ∨ t.Leads env above (o.getD lhs)
  halts : o = none → t.Halts env above

section

variable {above : Nat} {lhs : ExprId} (hs : s.Orderly before)
  (hlhs : s.Fatal ∨ s.Leads env above lhs)

include hs hlhs

omit h htype

/-- Where no operator above the level stands, what has been read is left as it is. -/
lemma continues_none (hhalts : s.Halts env above) :
    Ensures env s (Pure.pure none : Rule (Option ExprId)) (Continues env before above lhs s) :=
  .pure ⟨.refl hs, hlhs, fun _ => hhalts⟩

/-- An operation without a right operand leads on. -/
lemma continues_plain {r : Rule ExprId} (level : Nat)
    (hnone : (s.joined env).lexer.kind.binaryOp? = none)
    (hr : Makes (Invariant.orderly env before) IsPlain r) :
    Ensures env s (if level ≤ above then Pure.pure none else do return some (← r))
      (Continues env before above lhs s) := by
  split
  · exact continues_none hs hlhs fun op hop => nomatch hnone.symm.trans hop
  · refine (hr s hs).bind fun id u hu => .pure ⟨hu.1, .inr ?_, nofun⟩
    exact ParseState.leads_of_has hu.2 fun op lhs rhs level hplain => hplain.1 op lhs rhs level rfl

end

omit htype in
/-- An operator takes what stands in front if nothing that this could have taken stands here, and
its right operand is closed above the level that its side asks for. -/
lemma continues_operation {above start : Nat} {lhs : ExprId} {op : BinaryOp}
    (hs : s.Orderly before) (hlhs : s.Fatal ∨ s.nodes.Has lhs (ExprForm.FitsLeft op))
    (habove : above < op.precedence.strength) :
    Ensures env s (do
      advance
      let rhs ← call (.binary (rightAbove op))
      return some (← exprFrom start (.binary op lhs rhs op.precedence)))
      (Continues env before above lhs s) := by
  -- What is fatal in front of the operand is so behind it.
  have advanced : Preserves (Invariant.orderly env (before ∨ s.Fatal)) advance := preserves_advance
  have hs' : s.Orderly (before ∨ s.Fatal) := { hs with fatal := Or.rec hs.fatal id }
  refine (advanced s hs').bind fun _ t ht => ?_
  refine (h (.binary (rightAbove op)) _ t ht.holds).bind fun rhs u hu => ?_
  obtain ⟨hreaches, hrhs⟩ := ht.trans hu.1, hu.2
  have hgroups : u.Fatal ∨ u.nodes.Groups (.binary op lhs rhs op.precedence) := by
    obtain hfatal | hlhs := hlhs
    · exact .inl (hreaches.holds.fatal (.inr hfatal))
    · refine hrhs.elim .inl fun hclosed => hreaches.holds.grouped.imp_right fun hgrouped => ?_
      obtain ⟨node, hnode, hexceeds⟩ := hclosed.exceeds
      exact ⟨rfl, hreaches.has hlhs, node, hnode,
        BinaryOp.fitsRight hexceeds (hgrouped rhs node hnode)⟩
  rintro _ _ ⟨⟩
  have hnext := ParseState.Orderly.alloc hreaches.holds hgroups (u.spanFrom start)
  refine ⟨⟨{ hnext with fatal := hnext.fatal ∘ .inl }, hreaches.exprs.push _⟩, ?_, nofun⟩
  refine hrhs.imp_right fun hclosed => ⟨_, Arena.get?_push_next .., habove, ?_⟩
  rintro _ _ _ _ ⟨⟩
  exact hclosed.halts

/-- An operation takes what leads to it. -/
lemma ensures_continues {above start : Nat} {lhs : ExprId} (hs : s.Orderly before)
    (hlhs : s.Fatal ∨ s.Leads env above lhs) :
    Ensures env s (operation? call above start lhs) (Continues env before above lhs s) := by
  have hI := Invariant.settled_orderly env before
  intro o u e
  obtain ⟨k, t, ek, e⟩ := bind_eq_some.1 e
  have ht : (Invariant.orderly env before).Reaches s t := preserves_operatorKind hI s hs k t ek
  rw [operatorKind_apply hs.settled] at ek
  cases ek
  suffices hrest : Ensures env (s.joined env) _ (Continues env before above lhs (s.joined env)) by
    have hu := hrest o u e
    exact ⟨ht.trans hu.reaches, hu.leads, hu.halts⟩
  clear e
  have hleads : (s.joined env).Fatal ∨ (s.joined env).Leads env above lhs :=
    hlhs.imp (·.joined) (·.joined)
  have hjoined : (s.joined env).joined env = s.joined env := ParseState.joined_joined env s
  split
  case h_1 hk =>
    refine continues_plain ht.holds hleads _ (by rw [hjoined, hk]; rfl) ?_
    exact makes_typeTest hI htype start fun type => by simp [IsPlain]
  case h_2 hk =>
    refine continues_plain ht.holds hleads _ (by rw [hjoined, hk]; rfl) ?_
    exact makes_typeTest hI htype start fun type => by simp [IsPlain]
  case h_3 hk =>
    exact continues_plain ht.holds hleads _ (by rw [hjoined, hk]; rfl) (makes_range h _ start)
  case h_4 hk =>
    exact continues_plain ht.holds hleads _ (by rw [hjoined, hk]; rfl) (makes_range h _ start)
  case h_5 =>
    split
    case h_1 hnone =>
      refine continues_none ht.holds hleads fun op hop => ?_
      rw [hjoined, hnone] at hop
      cases hop
    case h_2 op hop =>
      have stop (hop' : op.precedence.strength ≤ above
          ∨ op = .subtract ∧ (s.joined env).lexer.flags.lineBreak = true) :
          Ensures env (s.joined env) (Pure.pure none : Rule (Option ExprId))
            (Continues env before above lhs (s.joined env)) := by
        refine continues_none ht.holds hleads fun op' h' => ?_
        rw [hjoined] at h' ⊢
        obtain rfl : op = op' := Option.some.inj (hop.symm.trans h')
        exact hop'
      split
      case isTrue hle => exact stop (.inl hle)
      case isFalse hlt =>
        refine .view ?_
        split
        case isTrue hline =>
          rw [Bool.and_eq_true, beq_iff_eq] at hline
          exact stop (.inr hline)
        case isFalse hline =>
          rw [Bool.and_eq_true, beq_iff_eq] at hline
          refine continues_operation h ht.holds ?_ (Nat.lt_of_not_le hlt)
          refine ht.holds.grouped.elim .inl fun hgrouped => ?_
          exact hlhs.imp (·.joined) fun hleads => hleads.fitsLeft hgrouped hop hline

/-- Operands above a level are closed, whatever the rounds end at. -/
lemma ensures_binary (above : Nat) (hs : s.Orderly before) :
    Ensures env s (binary call above) fun id t =>
      (Invariant.orderly env before).Reaches s t ∧ (t.Fatal ∨ t.Closed env above id) := by
  have hI := Invariant.settled_orderly env before
  refine ensures_nested hs (fun _ _ _ => Or.imp_right fun hclosed => ⟨hclosed.1, hclosed.2⟩)
    (fun span u e hu => ?_) fun u hu => ?_
  · -- Past the depth allowed something fatal has been reported.
    have hsilent : u.Silent span.start := e ▸ ParseState.silent_reportDepth hs.settled _ _ _
    intro id t erun
    refine ⟨(ensures_errorExpr hI hu hsilent id t erun).1, .inl ?_⟩
    cases erun
    have hfatal : u.Fatal := e ▸ hs.fatal_reportDepth _ _
    exact hfatal
  · refine .view (((makes_unary h htype) u hu).bind fun operand t ht => ?_)
    refine (Ensures.loop_invariant (R := fun lhs v => (Invariant.orderly env before).Reaches u v
      ∧ (v.Fatal ∨ v.Leads env above lhs)) (fun lhs v hv => ?_) ⟨ht.1, .inr ?_⟩)
    · refine (ensures_continues h htype hv.1.holds hv.2).bind fun o w hw => ?_
      cases o with
      | some id => exact .pure ⟨hv.1.trans hw.reaches, hw.leads⟩
      | none =>
        refine .pure ⟨hv.1.trans hw.reaches, hw.leads.imp_right fun hleads => ?_⟩
        obtain ⟨node, hnode, hexceeds, -⟩ := hleads
        exact ⟨⟨node, hnode, hexceeds⟩, hw.halts rfl⟩
    · exact ParseState.leads_of_has ht.2 fun op lhs rhs level hform => hform.1 op lhs rhs level rfl

omit h htype in
/-- All rules keep states orderly, as deep as they are nested. -/
lemma orders_callTo (nesting : Nat) : Orders env (callTo nesting) := by
  induction nesting with
  | zero => exact fun _ _ _ _ _ _ e => nomatch e
  | succ nesting ih =>
    intro α g before s hs
    have hI := Invariant.settled_orderly env before
    have hcall {α : Type} (g : Nonterminal α) :
        Preserves (Invariant.orderly env before) (callTo nesting g) := preserves_of_orders ih g
    have htype (K : Invariant env) : Preserves K (callTo nesting .type) :=
      preserves_callTo_type nesting K
    have hunary : Makes (Invariant.orderly env before) IsOperand (unary (callTo nesting)) :=
      makes_unary ih htype
    have hbinary (above : Nat) : Preserves (Invariant.orderly env before)
        (binary (callTo nesting) above) :=
      fun s hs => (ensures_binary ih htype above hs).mono fun _ _ => And.left
    have hassign (op : AssignOp) (target value : ExprId) :
        (Invariant.orderly env before).Allows (.assign op target value) :=
      Invariant.allows_orderly fun _ => trivial
    have hall := preserves_ofNonterminal hI hcall htype
      (preserves_statement hI hcall hassign hbinary) (preserves_expression hI hcall hassign hbinary)
      hbinary hunary.preserves g s hs
    cases g with
    | binary above => exact ensures_binary ih htype above hs
    | unary => exact hunary s hs
    | _ => exact hall.mono fun _ _ ht => ⟨ht, trivial⟩

end Rule

/-! ## Whole parses -/

/-- In front of a text without nodes a state is orderly. -/
lemma ParseState.Orderly.start (hsettled : s.tentative = {}) (hlog : s.lexer.log = #[])
    (hmuted : s.muted = false) (hnodes : s.nodes = {}) : s.Orderly False := by
  refine ⟨.start hsettled hlog hmuted, .inr fun id node hnode => ?_⟩
  simp [hnodes, Arena.get?] at hnode

/-- Unless something fatal is among the diagnostics, all operations are grouped. -/
lemma ParseState.Orderly.grouped_of_not_fatal (h : s.Orderly before) {settings : Settings}
    (hnot : (settings.locate s.diagnostics).hasFatal = false) : s.nodes.Grouped :=
  h.grouped.resolve_left fun hfatal =>
    Bool.false_ne_true (hnot.symm.trans (h.hasFatal hfatal settings))

lemma Settings.hasFatal_encodingFault (settings : Settings) (span : Span) :
    (settings.encodingFault span).hasFatal = true := by
  rw [Settings.encodingFault, settings.hasFatal_locate, Log.hasFatal_iff]
  exact ⟨_, Array.mem_singleton.2 rfl, rfl⟩

/-- A parse that reports nothing fatal, whatever else it reports, groups all operations by their
precedence. Each has the level of its operator. On its left nothing binds less, nor as strongly with
an operator that groups to the right, and on its right nothing binds less, nor as strongly with one
that groups to the left. Behind an operator in front of an operand there is no operation between
operands, range, cast or type check. -/
theorem parse_respects_precedence (bytes : ByteArray) (settings : Settings) :
    (∀ p, parseFile bytes settings = some p → p.isFatal = false → p.tree.nodes.Grouped)
      ∧ ∀ offset p, parseExpression bytes offset settings = some p → p.isFatal = false →
        p.nodes.Grouped := by
  have hI (src : Source) := Invariant.settled_orderly ⟨src, settings, true⟩ False
  have hcall (src : Source) (nesting : Nat) {α : Type} (g : Nonterminal α) :
      Preserves (Invariant.orderly ⟨src, settings, true⟩ False) (Rule.callTo nesting g) :=
    Rule.preserves_of_orders (Rule.orders_callTo nesting) g
  refine ⟨fun p h hnot => ?_, fun offset p h hnot => ?_⟩
  · rw [FileParse.isFatal] at hnot
    obtain ⟨src, t, -, ht, hnodes, hlog⟩ | ⟨span, -, hlog⟩ :=
      Invariant.of_parseFile hI hcall h fun _ _ => .start rfl rfl rfl rfl
    · rw [hnodes]
      exact ht.grouped_of_not_fatal (hlog ▸ hnot)
    · rw [hlog, settings.hasFatal_encodingFault] at hnot
      cases hnot
  · rw [ExprParse.isFatal] at hnot
    obtain ⟨src, t, -, ht, hnodes, hlog⟩ | ⟨span, -, hlog⟩ :=
      Invariant.of_parseExpression hI hcall h fun _ _ _ => .start rfl rfl rfl rfl
    · rw [hnodes]
      exact ht.grouped_of_not_fatal (hlog ▸ hnot)
    · rw [hlog, settings.hasFatal_encodingFault] at hnot
      cases hnot

/-- Operators of all sorts up to a missing operand, which is reported and not fatal, and a minus
sign that starts a line behind an expression. -/
theorem parse_respects_precedence_of_operators :
    (∃ p, parseFile "let x = -a - b ** c ** d * e as Int64 < f ..\n- g * !h ??".toUTF8 {} = some p
      ∧ p.diagnostics.size = 1 ∧ p.isFatal = false ∧ p.tree.nodes.Grouped)
      ∧ ∃ p, parseExpression "a - b - c ** d ** e\n- f".toUTF8 0 {} = some p
        ∧ p.next = 19 ∧ p.isFatal = false ∧ p.nodes.Grouped := by
  have file : (parseFile "let x = -a - b ** c ** d * e as Int64 < f ..\n- g * !h ??".toUTF8 {}).map
      (fun p => (p.diagnostics.size, p.isFatal)) = some (1, false) := by decide +kernel
  have expression : (parseExpression "a - b - c ** d ** e\n- f".toUTF8 0 {}).map
      (fun p => (p.next, p.isFatal)) = some (19, false) := by decide +kernel
  obtain ⟨p, hp, hdiagnostics⟩ := Option.map_eq_some_iff.1 file
  obtain ⟨q, hq, hnext⟩ := Option.map_eq_some_iff.1 expression
  obtain ⟨size, fatal⟩ := Prod.mk.inj hdiagnostics
  obtain ⟨next, fatal'⟩ := Prod.mk.inj hnext
  exact ⟨⟨p, hp, size, fatal, (parse_respects_precedence _ _).1 p hp fatal⟩, q, hq, next, fatal',
    (parse_respects_precedence _ _).2 0 q hq fatal'⟩

end CangjieSyntax
