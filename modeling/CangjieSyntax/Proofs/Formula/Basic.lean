import Mathlib.Data.List.Basic
import CangjieSyntax.Grammar.Expressions
import CangjieSyntax.Proofs.Grammar.Steps
import CangjieSyntax.Proofs.Token.Spaced

/-!
# Formulas

A formula is an expression that is made of names of one letter, operators and brackets. It is
written as a row of signs, in which nothing but the strength of the operators tells how it is
grouped. A formula is `Grouped` if it needs no more brackets than it has.
-/

namespace CangjieSyntax

/-- The mark that writes an operator in front of an operand. -/
def UnaryOp.mark : UnaryOp → Punctuation
  | negate => .minus
  | not => .bang

/-- An expression of names, operators and brackets. -/
inductive Formula where
  | name (c : Letter)
  | binary (op : BinaryOp) (left right : Formula)
  | unary (op : UnaryOp) (operand : Formula)
  | parens (inner : Formula)
  | unit
  | tuple (first : Formula) (others : List Formula)
  | array (items : List Formula)

namespace Formula

/-- A comma behind the last element, or none. -/
def trailing (comma : Bool) : List Sign :=
  if comma then [.mark .comma] else []

mutual

/-- The signs that write a formula. The only element of a tuple has a comma behind it. -/
def signs : Formula → List Sign
  | name c => [.letter c]
  | binary op left right => left.signs ++ .mark op.mark :: right.signs
  | unary op operand => .mark op.mark :: operand.signs
  | parens inner => .mark .openParen :: inner.signs ++ [.mark .closeParen]
  | unit => [.mark .openParen, .mark .closeParen]
  | tuple first others =>
    .mark .openParen :: first.signs ++ signsBehind others ++ trailing others.isEmpty
      ++ [.mark .closeParen]
  | array items => .mark .openBracket :: listed items ++ [.mark .closeBracket]

/-- The signs that write some formulas, with commas between them. -/
def listed : List Formula → List Sign
  | [] => []
  | t :: others => t.signs ++ signsBehind others

/-- The signs that write some formulas, each behind a comma. -/
def signsBehind : List Formula → List Sign
  | [] => []
  | t :: others => .mark .comma :: t.signs ++ signsBehind others

end

mutual

/-- The largest number of steps into a right operand, the operand of an operator in front of it, or
an element of a bracket, on the way to any place in a formula. -/
def steps : Formula → Nat
  | name _ | unit => 0
  | binary _ left right => max left.steps (right.steps + 1)
  | unary _ operand => operand.steps + 1
  | parens inner => inner.steps + 1
  | tuple first others => max (first.steps + 1) (stepsInto others)
  | array items => stepsInto items

/-- The largest number of steps in and below the elements of a bracket. -/
def stepsInto : List Formula → Nat
  | [] => 0
  | t :: others => max (t.steps + 1) (stepsInto others)

end

/-- Whether a formula is an operation with two operands. -/
def isBinary : Formula → Bool
  | binary .. => true
  | _ => false

end Formula

/-- Whether a formula may be the operand of an operator on the given side without brackets. An
operation must be stronger, or of the same level where operations of this level group to that
side. -/
def BinaryOp.Admits (op : BinaryOp) (side : Associativity) : Formula → Prop
  | .binary inner _ _ =>
    op.precedence.strength < inner.precedence.strength
      ∨ inner.precedence = op.precedence ∧ inner.associativity = side
  | _ => True

/-- The grouping of a formula is what the strength of its operators says. -/
inductive Formula.Grouped : Formula → Prop
  | name (c : Letter) : Grouped (.name c)
  | binary {op : BinaryOp} {left right : Formula} :
    op.Admits .left left → op.Admits .right right → Grouped left → Grouped right →
    Grouped (.binary op left right)
  | unary {op : UnaryOp} {operand : Formula} :
    operand.isBinary = false → Grouped operand → Grouped (.unary op operand)
  | parens {inner : Formula} : Grouped inner → Grouped (.parens inner)
  | unit : Grouped .unit
  | tuple {first : Formula} {others : List Formula} :
    Grouped first → (∀ t ∈ others, Grouped t) → Grouped (.tuple first others)
  | array {items : List Formula} : (∀ t ∈ items, Grouped t) → Grouped (.array items)

/-! ## The signs of a formula -/

namespace Formula

lemma signsBehind_eq (others : List Formula) :
    signsBehind others = others.flatMap fun t => .mark .comma :: t.signs := by
  induction others with
  | nil => rfl
  | cons t others ih => rw [signsBehind, ih, List.flatMap_cons]

lemma length_signsBehind (items : List Formula) : items.length ≤ (signsBehind items).length := by
  induction items with
  | nil => exact Nat.zero_le _
  | cons t items ih =>
    rw [signsBehind, List.length_append, List.length_cons, List.length_cons]
    omega

/-- The marks that an operand can start with. -/
def openers : List Punctuation :=
  [.minus, .bang, .openParen, .openBracket]

/-- A formula starts with a sign that an operand can start with. -/
lemma signs_eq_cons : ∀ t : Formula, ∃ head tail, t.signs = head :: tail
    ∧ ∀ p, head = .mark p → p ∈ openers
  | .name _ => ⟨_, _, rfl, fun _ e => nomatch e⟩
  | .binary op left right => by
    obtain ⟨head, tail, e, hhead⟩ := signs_eq_cons left
    refine ⟨head, tail ++ .mark op.mark :: right.signs, ?_, hhead⟩
    rw [signs, e, List.cons_append]
  | .unary op _ => by
    refine ⟨_, _, rfl, ?_⟩
    rintro p ⟨⟩
    cases op <;> decide
  | .parens _ | .unit | .tuple .. | .array _ => by
    refine ⟨_, _, rfl, ?_⟩
    rintro p ⟨⟩
    decide

lemma plain_binary (op : BinaryOp) : (Sign.mark op.mark).Plain := by
  cases op <;> decide

lemma plain_unary (op : UnaryOp) : (Sign.mark op.mark).Plain := by
  cases op <;> decide

lemma plain_signsBehind {items : List Formula} (h : ∀ t ∈ items, ∀ u ∈ t.signs, u.Plain) :
    ∀ u ∈ signsBehind items, u.Plain := by
  intro u hu
  rw [signsBehind_eq, List.mem_flatMap] at hu
  obtain ⟨t, ht, hu⟩ := hu
  obtain rfl | hu := List.mem_cons.1 hu
  · decide
  · exact h t ht u hu

lemma plain_trailing (comma : Bool) : ∀ u ∈ trailing comma, u.Plain := by
  cases comma <;> decide

/-- All signs of a formula can be written by themselves. -/
lemma Grouped.plain {t : Formula} (h : t.Grouped) : ∀ u ∈ t.signs, u.Plain := by
  have openParen : (Sign.mark .openParen).Plain := by decide
  have closeParen : (Sign.mark .closeParen).Plain := by decide
  have openBracket : (Sign.mark .openBracket).Plain := by decide
  have closeBracket : (Sign.mark .closeBracket).Plain := by decide
  induction h with
  | name c => simp [signs, Sign.Plain]
  | binary _ _ _ _ ihleft ihright =>
    rw [signs, List.forall_mem_append, List.forall_mem_cons]
    exact ⟨ihleft, plain_binary _, ihright⟩
  | unary _ _ ih =>
    rw [signs, List.forall_mem_cons]
    exact ⟨plain_unary _, ih⟩
  | parens _ ih => simpa [signs, or_imp, forall_and, openParen, closeParen] using ih
  | unit => simp [signs, openParen, closeParen]
  | @tuple first others _ _ ihfirst ihothers =>
    have hothers := plain_signsBehind ihothers
    have hcomma := plain_trailing others.isEmpty
    rw [signs]
    simp only [List.cons_append, List.forall_mem_cons, List.forall_mem_append]
    exact ⟨openParen, ⟨⟨ihfirst, hothers⟩, hcomma⟩, closeParen, fun _ h => nomatch h⟩
  | @array items _ ih =>
    have hitems : ∀ u ∈ listed items, u.Plain := by
      cases items with
      | nil => exact fun u hu => nomatch hu
      | cons first others =>
        obtain ⟨hfirst, hothers⟩ := List.forall_mem_cons.1 ih
        exact List.forall_mem_append.2 ⟨hfirst, plain_signsBehind hothers⟩
    rw [signs]
    simp only [List.cons_append, List.forall_mem_cons, List.forall_mem_append]
    exact ⟨openBracket, hitems, closeBracket, fun _ h => nomatch h⟩

lemma stepsInto_le {items : List Formula} (h : ∀ t ∈ items, t.steps < t.signs.length) :
    stepsInto items ≤ (signsBehind items).length := by
  induction items with
  | nil => exact Nat.zero_le _
  | cons t others ih =>
    obtain ⟨ht, hothers⟩ := List.forall_mem_cons.1 h
    have := ih hothers
    rw [stepsInto, signsBehind, List.length_append, List.length_cons]
    omega

/-- Each step into a formula passes a sign. -/
lemma Grouped.steps_lt {t : Formula} (h : t.Grouped) : t.steps < t.signs.length := by
  induction h with
  | name c => exact Nat.one_pos
  | binary _ _ _ _ ihleft ihright =>
    rw [steps, signs, List.length_append, List.length_cons]
    omega
  | unary _ _ ih =>
    rw [steps, signs, List.length_cons]
    omega
  | parens _ ih =>
    rw [steps, signs, List.length_append, List.length_cons]
    simp only [List.length_cons, List.length_nil]
    omega
  | unit => exact Nat.two_pos
  | tuple _ _ ihfirst ihothers =>
    have := stepsInto_le ihothers
    rw [steps, signs]
    simp only [List.length_append, List.length_cons, List.length_nil]
    omega
  | @array items _ ih =>
    cases items with
    | nil => exact Nat.two_pos
    | cons first others =>
      obtain ⟨hfirst, hothers⟩ := List.forall_mem_cons.1 ih
      have := stepsInto_le hothers
      rw [steps, stepsInto, signs, listed]
      simp only [List.length_append, List.length_cons, List.length_nil]
      omega

/-- How many operations lie one in the other as left operands. -/
def spine : Formula → Nat
  | binary _ left _ => left.spine + 1
  | _ => 0

lemma spine_lt : ∀ t : Formula, t.spine < t.signs.length
  | .binary op left right => by
    have := spine_lt left
    rw [spine, signs, List.length_append, List.length_cons]
    omega
  | .name _ | .unary .. | .parens _ | .unit | .tuple .. | .array _ =>
    Nat.succ_pos _

/-! ## Levels -/

/-- Whether a formula is stronger than the given level, so that an operand above it takes all of the
formula. -/
def BindsAbove (above : Nat) : Formula → Prop
  | binary op _ _ => above < op.precedence.strength
  | _ => True

/-- The strongest level of an operator that leaves a formula in front of it as it is. -/
def rightLevel : Formula → Nat
  | binary op _ _ => Rule.rightAbove op
  | _ => Precedence.member.strength

end Formula

/-- Whether some signs are none that an operand above the given level goes on with: a weaker
operator, a comma, a closing bracket, or the end. -/
def Sign.Stops (above : Nat) : List Sign → Prop
  | [] => True
  | .letter _ :: _ => False
  | .mark p :: _ =>
    p ∈ [.comma, .closeParen, .closeBracket]
      ∨ ∃ op : BinaryOp, op.mark = p ∧ op.precedence.strength ≤ above

lemma Sign.Stops.mono {above above' : Nat} {rest : List Sign} (hle : above ≤ above')
    (h : Sign.Stops above rest) : Sign.Stops above' rest := by
  obtain _ | ⟨_ | p, rest⟩ := rest
  · trivial
  · exact h
  · obtain h | ⟨op, rfl, hop⟩ := h
    · exact .inl h
    · exact .inr ⟨op, rfl, hop.trans hle⟩

namespace Formula

variable {op : BinaryOp} {above : Nat} {t : Formula} {rest : List Sign}

lemma strength_le (op : BinaryOp) : op.precedence.strength ≤ Precedence.member.strength := by
  cases op <;> decide

lemma strength_pos (op : BinaryOp) : 0 < op.precedence.strength := by
  cases op <;> decide

lemma rightAbove_of_left (h : op.associativity = .left) :
    Rule.rightAbove op = op.precedence.strength := by
  rw [Rule.rightAbove, h]

lemma rightAbove_of_right (h : op.associativity = .right) :
    Rule.rightAbove op = op.precedence.strength - 1 := by
  rw [Rule.rightAbove, h]

lemma le_rightAbove (op : BinaryOp) : op.precedence.strength ≤ Rule.rightAbove op + 1 := by
  have := strength_pos op
  cases h : op.associativity with
  | left => rw [rightAbove_of_left h]; omega
  | right => rw [rightAbove_of_right h]; omega

lemma rightAbove_le (op : BinaryOp) : Rule.rightAbove op ≤ op.precedence.strength := by
  cases h : op.associativity with
  | left => rw [rightAbove_of_left h]
  | right => rw [rightAbove_of_right h]; exact Nat.sub_le _ _

/-- Operators of one level group to the same side. -/
lemma associativity_eq {op op' : BinaryOp} (h : op.precedence = op'.precedence) :
    op.associativity = op'.associativity := by
  revert h
  cases op <;> cases op' <;> decide

/-- An operator leaves the formula on its left as it is. -/
lemma stops_of_admits_left (h : op.Admits .left t) :
    Sign.Stops t.rightLevel (.mark op.mark :: rest) := by
  right
  refine ⟨op, rfl, ?_⟩
  cases t with
  | binary inner left right =>
    obtain h | ⟨hlevel, hleft⟩ := h
    · exact Nat.le_of_lt_succ (h.trans_le (le_rightAbove inner))
    · rw [rightLevel, rightAbove_of_left hleft, hlevel]
  | _ => exact strength_le op

/-- A formula on the left of an operator is as strong as that. -/
lemma bindsAbove_of_admits_left (h : op.Admits .left t) (habove : above < op.precedence.strength) :
    t.BindsAbove above := by
  cases t with
  | binary inner left right =>
    show above < inner.precedence.strength
    obtain h | ⟨hlevel, -⟩ := h
    · exact habove.trans h
    · rwa [hlevel]
  | _ => trivial

/-- An operator takes all of the formula on its right. -/
lemma bindsAbove_of_admits_right (h : op.Admits .right t) : t.BindsAbove (Rule.rightAbove op) := by
  cases t with
  | binary inner left right =>
    -- An operator that groups to the right is read one level lower on that side.
    have hpos := strength_pos op
    show Rule.rightAbove op < inner.precedence.strength
    obtain h | ⟨hlevel, hright⟩ := h
    · exact (rightAbove_le op).trans_lt h
    · rw [rightAbove_of_right ((associativity_eq hlevel).symm.trans hright), hlevel]
      omega
  | _ => trivial

/-- What does not go on with an operand leaves a formula in front of it as it is. -/
lemma stops_rightLevel (ht : t.BindsAbove above) (h : Sign.Stops above rest) :
    Sign.Stops t.rightLevel rest := by
  cases t with
  | binary op left right =>
    have hle : above ≤ Rule.rightAbove op := Nat.le_of_lt_succ (ht.trans_le (le_rightAbove op))
    exact h.mono hle
  | _ =>
    obtain _ | ⟨_ | p, rest⟩ := rest
    · trivial
    · exact h
    · obtain h | ⟨op, rfl, -⟩ := h
      · exact .inl h
      · exact .inr ⟨op, rfl, strength_le op⟩

end Formula

/-- The expression at a place in some nodes is a formula. Operations have the level of their
operator with them. -/
inductive Nodes.Denotes (nodes : Nodes) : ExprId → Formula → Prop
  | name {id : ExprId} {name : Name} {span : Span} {c : Letter} :
    nodes.exprs.get? id = some ⟨.identifier name [], span⟩ → name.text = String.singleton c.char →
    Denotes nodes id (.name c)
  | binary {id lhs rhs : ExprId} {op : BinaryOp} {span : Span} {left right : Formula} :
    nodes.exprs.get? id = some ⟨.binary op lhs rhs op.precedence, span⟩ →
    Denotes nodes lhs left → Denotes nodes rhs right → Denotes nodes id (.binary op left right)
  | unary {id operand : ExprId} {op : UnaryOp} {span : Span} {inner : Formula} :
    nodes.exprs.get? id = some ⟨.unary op operand op.precedence, span⟩ →
    Denotes nodes operand inner → Denotes nodes id (.unary op inner)
  | parens {id operand : ExprId} {span : Span} {inner : Formula} :
    nodes.exprs.get? id = some ⟨.parenthesized operand, span⟩ →
    Denotes nodes operand inner → Denotes nodes id (.parens inner)
  | unit {id : ExprId} {span : Span} :
    nodes.exprs.get? id = some ⟨.unit, span⟩ → Denotes nodes id .unit
  | tuple {id : ExprId} {ids : List ExprId} {span : Span} {first : Formula}
      {others : List Formula} :
    nodes.exprs.get? id = some ⟨.tuple ids, span⟩ → ids.length = others.length + 1 →
    (∀ p ∈ ids.zip (first :: others), Denotes nodes p.1 p.2) →
    Denotes nodes id (.tuple first others)
  | array {id : ExprId} {ids : List ExprId} {span : Span} {items : List Formula} :
    nodes.exprs.get? id = some ⟨.array ids, span⟩ → ids.length = items.length →
    (∀ p ∈ ids.zip items, Denotes nodes p.1 p.2) → Denotes nodes id (.array items)

/-- The expressions at some places are the formulas of a list, in order. -/
structure Nodes.DenotesAll (nodes : Nodes) (ids : List ExprId) (items : List Formula) : Prop where
  length : ids.length = items.length
  denotes : ∀ p ∈ ids.zip items, nodes.Denotes p.1 p.2

namespace Nodes.Denotes

variable {nodes others : Nodes} {id : ExprId} {t u : Formula}

/-- A formula stays where it is when nodes are added. -/
lemma extend (hext : nodes.exprs.Extends others.exprs) (h : nodes.Denotes id t) :
    others.Denotes id t := by
  induction h with
  | name e ename => exact .name (hext.get?_eq e) ename
  | binary e _ _ ihleft ihright => exact .binary (hext.get?_eq e) ihleft ihright
  | unary e _ ih => exact .unary (hext.get?_eq e) ih
  | parens e _ ih => exact .parens (hext.get?_eq e) ih
  | unit e => exact .unit (hext.get?_eq e)
  | tuple e hlength _ ih => exact .tuple (hext.get?_eq e) hlength ih
  | array e hlength _ ih => exact .array (hext.get?_eq e) hlength ih

/-- Two lists of formulas are the same if each formula of the one at some place is the only one
there. -/
lemma eq_of_zip {ids : List ExprId} {ts us : List Formula} (ht : ids.length = ts.length)
    (hu : ids.length = us.length)
    (unique : ∀ p ∈ ids.zip ts, ∀ u, nodes.Denotes p.1 u → p.2 = u)
    (h : ∀ p ∈ ids.zip us, nodes.Denotes p.1 p.2) : ts = us := by
  induction ids generalizing ts us with
  | nil => rw [List.eq_nil_of_length_eq_zero ht.symm, List.eq_nil_of_length_eq_zero hu.symm]
  | cons id ids ih =>
    obtain _ | ⟨t, ts⟩ := ts
    · exact nomatch ht
    obtain _ | ⟨u, us⟩ := us
    · exact nomatch hu
    have e := unique (id, t) List.mem_cons_self u (h (id, u) List.mem_cons_self)
    have es := ih (Nat.succ.inj ht) (Nat.succ.inj hu)
      (fun p hp => unique p (List.mem_cons_of_mem _ hp))
      (fun p hp => h p (List.mem_cons_of_mem _ hp))
    exact congrArg₂ List.cons e es

/-- At most one formula is at a place. -/
theorem unique (h : nodes.Denotes id t) (h' : nodes.Denotes id u) : t = u := by
  induction h generalizing u with
  | @name _ _ _ c e ename =>
    cases h' with
    | @name _ _ _ c' e' ename' =>
      obtain ⟨rfl, -⟩ := by simpa using e.symm.trans e'
      obtain ⟨char, _, _⟩ := c
      obtain ⟨char', _, _⟩ := c'
      obtain rfl : char = char' := String.singleton_inj.1 (ename.symm.trans ename')
      rfl
    | binary e' | unary e' | parens e' | unit e' | tuple e' | array e' =>
      exact absurd (e.symm.trans e') (by simp)
  | binary e _ _ ihleft ihright =>
    cases h' with
    | binary e' hleft hright =>
      obtain ⟨⟨rfl, rfl, rfl, -⟩, -⟩ := by simpa using e.symm.trans e'
      rw [ihleft hleft, ihright hright]
    | name e' | unary e' | parens e' | unit e' | tuple e' | array e' =>
      exact absurd (e.symm.trans e') (by simp)
  | unary e _ ih =>
    cases h' with
    | unary e' hinner =>
      obtain ⟨⟨rfl, rfl, -⟩, -⟩ := by simpa using e.symm.trans e'
      rw [ih hinner]
    | name e' | binary e' | parens e' | unit e' | tuple e' | array e' =>
      exact absurd (e.symm.trans e') (by simp)
  | parens e _ ih =>
    cases h' with
    | parens e' hinner =>
      obtain ⟨rfl, -⟩ := by simpa using e.symm.trans e'
      rw [ih hinner]
    | name e' | binary e' | unary e' | unit e' | tuple e' | array e' =>
      exact absurd (e.symm.trans e') (by simp)
  | unit e =>
    cases h' with
    | unit => rfl
    | name e' | binary e' | unary e' | parens e' | tuple e' | array e' =>
      exact absurd (e.symm.trans e') (by simp)
  | tuple e hlength _ ih =>
    cases h' with
    | tuple e' hlength' hitems =>
      obtain ⟨rfl, -⟩ := by simpa using e.symm.trans e'
      obtain ⟨rfl, rfl⟩ := List.cons.inj (eq_of_zip hlength hlength' (fun p hp u => ih p hp) hitems)
      rfl
    | name e' | binary e' | unary e' | parens e' | unit e' | array e' =>
      exact absurd (e.symm.trans e') (by simp)
  | array e hlength _ ih =>
    cases h' with
    | array e' hlength' hitems =>
      obtain ⟨rfl, -⟩ := by simpa using e.symm.trans e'
      rw [eq_of_zip hlength hlength' (fun p hp u => ih p hp) hitems]
    | name e' | binary e' | unary e' | parens e' | unit e' | tuple e' =>
      exact absurd (e.symm.trans e') (by simp)

end Nodes.Denotes

namespace Nodes.DenotesAll

variable {nodes others : Nodes} {ids : List ExprId} {id : ExprId} {items : List Formula}
  {t : Formula}

lemma nil (nodes : Nodes) : nodes.DenotesAll [] [] :=
  ⟨rfl, fun _ h => nomatch h⟩

lemma extend (h : nodes.DenotesAll ids items) (hext : nodes.exprs.Extends others.exprs) :
    others.DenotesAll ids items :=
  ⟨h.length, fun p hp => (h.denotes p hp).extend hext⟩

/-- One more formula at a new place. -/
lemma snoc (h : nodes.DenotesAll ids items) (hext : nodes.exprs.Extends others.exprs)
    (hid : others.Denotes id t) : others.DenotesAll (ids ++ [id]) (items ++ [t]) := by
  constructor
  · rw [List.length_append, List.length_append, h.length]
    rfl
  · intro p hp
    rw [List.zip_append h.length, List.mem_append] at hp
    obtain hp | hp := hp
    · exact (h.denotes p hp).extend hext
    · obtain rfl : p = (id, t) := List.mem_singleton.1 hp
      exact hid

end Nodes.DenotesAll

end CangjieSyntax
