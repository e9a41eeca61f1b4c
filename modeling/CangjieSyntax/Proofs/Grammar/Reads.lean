import Mathlib.Tactic.Abel
import CangjieSyntax.Grammar.Rule
import CangjieSyntax.Proofs.Grammar.Steps
import CangjieSyntax.Proofs.Tree.Holding

/-!
# What rules hold

`Reads J pre r post` says of a rule `r` that is run inside a region `J` of states: it stays in the
region, comes back to the nesting it started with, and turns the parts `pre` that it is given into
the parts `post` of its result, whatever else is held meanwhile. A region is a set of states that no
step leaves; the states of a parse outside attempts are one, and those of an attempt are another.

Declarations are lost in one place only, where an accessor of a property takes the place of an earlier
one. A region in which properties may be read is one where declarations may be lost.

The rules of the grammar are read off with one lemma for each way of putting rules together.
-/

namespace CangjieSyntax

/-- States that no step of any reading leaves. -/
structure Region (env : Env) where
  mem : ParseState → Prop
  /-- Declarations may be lost. -/
  loses : Prop
  sound : ∀ {s}, mem s → s.Sound
  step : ∀ {s t}, mem s → Step env s t → mem t

/-- A region outside attempts, which no turn leaves either. -/
structure Region.Settled {env : Env} (J : Region env) : Prop where
  tentative : ∀ {s}, J.mem s → s.tentative = {}
  turn : ∀ {s t}, J.mem s → Turn env s t → J.mem t
  property : ∀ {s}, J.mem s → s.kind = .keyword .kwProp → J.loses

/-- All states of a parse outside attempts. -/
def Region.reachable (env : Env) : Region env where
  mem := Reachable env
  loses := True
  sound h := h.sound
  step := .step

lemma Region.settled_reachable (env : Env) : (Region.reachable env).Settled where
  tentative h := h.settled
  turn := .turn
  property _ _ := trivial

/-- The states of an attempt. -/
def Region.attempt (env : Env) {s : ParseState} (h : s.Sound) : Region env where
  mem := Tries env s
  loses := False
  sound htries := htries.sound h
  step := .tail

/-- The state `t` is nested as `s` is, and holds `post` in the place of `pre`. -/
structure Keeps (loses : Prop) (pre post : Multiset Part) (s t : ParseState) : Prop where
  depth : t.depth = s.depth
  enclosingType : t.enclosingType = s.enclosingType
  holds_of : ∀ {lossy : Prop}, (loses → lossy) → ∀ rest,
    Holds s.nodes s.Excused (pre + rest) lossy → Holds t.nodes t.Excused (post + rest) lossy

section

variable {env : Env} {α : Type}

/-- From one state on, a rule turns the parts `pre` into the parts `post` of its result. -/
def ReadsFrom (J : Region env) (s : ParseState) (pre : Multiset Part) (r : Rule α)
    (post : α → Multiset Part) : Prop :=
  ∀ a t, r env s = some (a, t) → J.mem t ∧ Keeps J.loses pre (post a) s t

/-- A rule turns the parts `pre` into the parts `post` of its result. -/
def Reads (J : Region env) (pre : Multiset Part) (r : Rule α) (post : α → Multiset Part) : Prop :=
  ∀ s, J.mem s → ReadsFrom J s pre r post

/-- A rule yields what it holds. -/
abbrev Yields [HasParts α] (J : Region env) (r : Rule α) : Prop :=
  Reads J 0 r parts

/-- A rule yields nothing that is held. -/
abbrev Quiet (J : Region env) (r : Rule α) : Prop :=
  Reads J 0 r fun _ => 0

end

variable {env : Env} {J : Region env} {α β : Type} {s t u : ParseState}
  {pre mid post held : Multiset Part}

namespace Keeps

variable {loses : Prop}

lemma holds (h : Keeps loses pre post s t) (rest : Multiset Part)
    (hold : Holds s.nodes s.Excused (pre + rest)) : Holds t.nodes t.Excused (post + rest) :=
  h.holds_of (fun _ => trivial) rest hold

lemma refl (s : ParseState) : Keeps loses pre pre s s :=
  ⟨rfl, rfl, fun _ _ h => h⟩

lemma trans (h : Keeps loses pre mid s u) (h' : Keeps loses mid post u t) :
    Keeps loses pre post s t :=
  ⟨h'.depth.trans h.depth, h'.enclosingType.trans h.enclosingType,
    fun himp rest hold => h'.holds_of himp rest (h.holds_of himp rest hold)⟩

lemma frame (h : Keeps loses pre post s t) (held : Multiset Part) :
    Keeps loses (held + pre) (held + post) s t := by
  refine ⟨h.depth, h.enclosingType, fun himp rest hold => ?_⟩
  refine (h.holds_of himp (held + rest) (hold.of_eq ?_)).of_eq ?_
  · abel
  · abel

/-- Nothing is allocated, and what was excused still is. -/
lemma of_frame (hframe : t.nodes = s.nodes ∧ t.depth = s.depth ∧ t.enclosingType = s.enclosingType)
    (hexcused : s.Excused → t.Excused) : Keeps loses pre pre s t := by
  obtain ⟨nodes, depth, enclosingType⟩ := hframe
  refine ⟨depth, enclosingType, fun _ rest hold => ?_⟩
  rw [nodes]
  exact hold.mono hexcused

/-- Parts that are no places may be held if they are as they should be. -/
lemma also (hrefs : refs held = 0) (hgood : ∀ p ∈ held, p.Good t.Excused)
    (h : Keeps loses pre post s t) : Keeps loses pre (held + post) s t := by
  refine ⟨h.depth, h.enclosingType, fun himp rest hold => ?_⟩
  exact ((h.holds_of himp rest hold).also hrefs hgood).of_eq (by abel)

lemma weaken (hpre : Sheds pre mid) (h : Keeps loses mid post s t) : Keeps loses pre post s t :=
  ⟨h.depth, h.enclosingType, fun himp rest hold => h.holds_of himp rest (hold.shed (hpre.add_right rest))⟩

lemma forget (hpost : Sheds mid post) (h : Keeps loses pre mid s t) : Keeps loses pre post s t :=
  ⟨h.depth, h.enclosingType, fun himp rest hold => (h.holds_of himp rest hold).shed (hpost.add_right rest)⟩

/-- What is excused pays for a placeholder. -/
lemma fault (h : Keeps loses 0 0 s t) (hexcused : t.Excused) : Keeps loses 0 {.fault} s t := by
  have excused : ∀ p ∈ ({.fault} : Multiset Part), p.Good t.Excused := by
    simpa [Part.Good] using hexcused
  exact (h.also rfl excused).forget (.of_eq (add_zero _))

end Keeps

namespace Rule

/-- What two rules in a row yield comes from what each of them yields. -/
lemma bind_eq_some {r : Rule α} {k : α → Rule β} {b : β} :
    (r >>= k) env s = some (b, t) ↔ ∃ a u, r env s = some (a, u) ∧ k a env u = some (b, t) := by
  change (r env s).bind (fun p => k p.1 env p.2) = _ ↔ _
  rw [Option.bind_eq_some_iff]
  constructor
  · rintro ⟨⟨a, u⟩, hr, hk⟩
    exact ⟨a, u, hr, hk⟩
  · rintro ⟨a, u, hr, hk⟩
    exact ⟨(a, u), hr, hk⟩

/-- Two rules in a row have no answer if one of them has none. -/
lemma bind_eq_none {r : Rule α} {k : α → Rule β} :
    (r >>= k) env s = none ↔ r env s = none ∨ ∃ a u, r env s = some (a, u) ∧ k a env u = none := by
  change (r env s).bind (fun p => k p.1 env p.2) = none ↔ _
  cases r env s with
  | none => simp
  | some p =>
    obtain ⟨a, u⟩ := p
    simp

lemma pure_eq_some {a b : α} : (pure a : Rule α) env s = some (b, t) ↔ a = b ∧ s = t := by
  change some (a, s) = some (b, t) ↔ _
  rw [Option.some.injEq, Prod.mk.injEq]

end Rule

section

variable {r : Rule α} {k : α → Rule β} {p : α → Multiset Part} {q : β → Multiset Part}

/-! ## One state -/

namespace ReadsFrom

lemma of_reads (hs : J.mem s) (h : Reads J pre r p) : ReadsFrom J s pre r p :=
  h s hs

lemma bind (h : ReadsFrom J s pre r p)
    (hk : ∀ a t, r env s = some (a, t) → J.mem t → ReadsFrom J t (p a) (k a) q) :
    ReadsFrom J s pre (r >>= k) q := by
  intro b t e
  obtain ⟨a, u, hr, hk'⟩ := Rule.bind_eq_some.1 e
  obtain ⟨hu, hkeeps⟩ := h a u hr
  obtain ⟨ht, hkeeps'⟩ := hk a u hr hu b t hk'
  exact ⟨ht, hkeeps.trans hkeeps'⟩

/-- A rule that looks at the state goes on from the same state. -/
lemma view {f : Source → ParseState → α} (h : ReadsFrom J s pre (k (f env.src s)) q) :
    ReadsFrom J s pre (Rule.view f >>= k) q :=
  h

lemma get {k : ParseState → Rule β} (h : ReadsFrom J s pre (k s) q) :
    ReadsFrom J s pre ((get : Rule ParseState) >>= k) q :=
  h

lemma weaken (hpre : Sheds pre mid) (h : ReadsFrom J s mid r p) : ReadsFrom J s pre r p := by
  intro a t e
  obtain ⟨ht, hkeeps⟩ := h a t e
  exact ⟨ht, hkeeps.weaken hpre⟩

end ReadsFrom

/-! ## Any state -/

namespace Reads

/-- The rule without an answer holds whatever is asked. -/
lemma endless : Reads J pre (Rule.endless : Rule α) p :=
  fun _ _ _ _ e => nomatch e

/-- Two rules in a row. -/
lemma bind (h : Reads J pre r p) (hk : ∀ a, Reads J (p a) (k a) q) : Reads J pre (r >>= k) q :=
  fun s hs => (h s hs).bind fun a t _ ht => hk a t ht

lemma frame (h : Reads J pre r p) (held : Multiset Part) :
    Reads J (held + pre) r fun a => held + p a := by
  intro s hs a t e
  obtain ⟨ht, hkeeps⟩ := h s hs a t e
  exact ⟨ht, hkeeps.frame held⟩

lemma of_eq (e : pre = mid) (h : Reads J mid r p) : Reads J pre r p :=
  e ▸ h

/-- What is spare may be given up before a rule. -/
lemma weaken (hpre : Sheds pre mid) (h : Reads J mid r p) : Reads J pre r p :=
  fun s hs => (h s hs).weaken hpre

/-- Where declarations may be lost, anything may be given up before a rule. -/
lemma lose (hloses : J.loses) (hpre : mid ≤ pre) (h : Reads J mid r p) : Reads J pre r p := by
  intro s hs a t e
  obtain ⟨ht, hkeeps⟩ := h s hs a t e
  refine ⟨ht, hkeeps.depth, hkeeps.enclosingType, fun himp rest hold => ?_⟩
  exact hkeeps.holds_of himp rest (hold.lose (himp hloses) (add_le_add_left hpre rest))

/-- What is spare may be given up behind a rule. -/
lemma forget {p' : α → Multiset Part} (hpost : ∀ a, Sheds (p a) (p' a)) (h : Reads J pre r p) :
    Reads J pre r p' := by
  intro s hs a t e
  obtain ⟨ht, hkeeps⟩ := h s hs a t e
  exact ⟨ht, hkeeps.forget (hpost a)⟩

lemma pure {a : α} (e : pre = p a) : Reads J pre (Pure.pure a : Rule α) p := by
  intro s hs b t h
  obtain ⟨rfl, rfl⟩ := Rule.pure_eq_some.1 h
  rw [e]
  exact ⟨hs, .refl s⟩

/-- The text of a name that is not empty may be held by any rule. -/
lemma spelt {text : String} (htext : text ≠ "") (h : Reads J (pre + {.name text}) r p) :
    Reads J pre r p := by
  intro s hs a t e
  obtain ⟨ht, hkeeps⟩ := h s hs a t e
  refine ⟨ht, hkeeps.depth, hkeeps.enclosingType, fun himp rest hold => hkeeps.holds_of himp rest ?_⟩
  have good : ∀ p ∈ ({.name text} : Multiset Part), p.Good s.Excused := by
    simp [Part.Good, htext]
  exact (hold.also rfl good).of_eq (by abel)

/-- A rule that uses some of what is held, and another one that uses the rest as well. -/
lemma use (h : Reads J mid r p) (hk : ∀ a, Reads J (held + p a) (k a) q) :
    Reads J (held + mid) (r >>= k) q :=
  (h.frame held).bind hk

/-- A rule that yields something behind which another one holds it as well. -/
lemma next [HasParts α] (h : Yields J r) (hk : ∀ a, Reads J (held + parts a) (k a) q) :
    Reads J held (r >>= k) q :=
  (h.use hk).of_eq (add_zero held).symm

/-- A rule that is the first one to yield something. -/
lemma first [HasParts α] (h : Yields J r) (hk : ∀ a, Reads J (parts a) (k a) q) :
    Reads J 0 (r >>= k) q :=
  h.bind hk

/-- A rule that yields nothing behind which another one holds the same. -/
lemma skip (h : Quiet J r) (hk : ∀ a, Reads J held (k a) q) : Reads J held (r >>= k) q := by
  exact .of_eq (add_zero held).symm (h.use fun a => (hk a).of_eq (add_zero held))

/-- A rule that is passed over on a condition. -/
lemma skip_unless {r : Rule Unit} {c : Prop} [Decidable c] {k : Rule β} (h : Quiet J r)
    (hk : Reads J held k q) : Reads J held (if c then k else r >>= fun _ => k) q := by
  split
  · exact hk
  · exact .skip h fun _ => hk

/-- A rule that is followed on a condition. -/
lemma skip_when {r : Rule Unit} {c : Prop} [Decidable c] {k : Rule β} (h : Quiet J r)
    (hk : Reads J held k q) : Reads J held (if c then r >>= fun _ => k else k) q := by
  split
  · exact .skip h fun _ => hk
  · exact hk

/-- A rule that looks at the state. -/
lemma view {f : Source → ParseState → α} (h : ∀ a, Reads J held (k a) q) :
    Reads J held (Rule.view f >>= k) q :=
  fun s hs => .view (h _ s hs)

lemma get {k : ParseState → Rule β} (h : ∀ s, Reads J held (k s) q) :
    Reads J held ((get : Rule ParseState) >>= k) q :=
  fun s hs => .get (h s s hs)

lemma read {k : Env → Rule β} (h : Reads J held (k env) q) :
    Reads J held ((read : Rule Env) >>= k) q :=
  h

/-- A step of the state that allocates nothing. -/
lemma modify {f : ParseState → ParseState} (hstep : ∀ s, J.mem s → J.mem (f s))
    (hframe : ∀ s, (f s).nodes = s.nodes ∧ (f s).depth = s.depth
      ∧ (f s).enclosingType = s.enclosingType)
    (hexcused : ∀ s, J.mem s → s.Excused → (f s).Excused) :
    Quiet J (modify f : Rule Unit) := by
  intro s hs a t e
  cases e
  exact ⟨hstep s hs, .of_frame (hframe s) (hexcused s hs)⟩

/-- Rules that repeat a step keep what each round keeps. -/
lemma loopUpTo {step : β → Rule (β ⊕ α)} (rounds : Nat)
    (h : ∀ b, Reads J (q b) (step b) (Sum.elim q p)) (b : β) :
    Reads J (q b) (Rule.loopUpTo step rounds b) p := by
  -- What `b` holds is the invariant of the rounds.
  induction rounds generalizing b with
  | zero => exact .endless
  | succ rounds ih =>
    unfold Rule.loopUpTo
    refine (h b).bind fun next => ?_
    cases next with
    | inl b => exact ih b
    | inr a => exact .pure rfl

lemma loop {step : β → Rule (β ⊕ α)} (h : ∀ b, Reads J (q b) (step b) (Sum.elim q p)) (b : β) :
    Reads J (q b) (Rule.loop step b) p :=
  .read (loopUpTo env.rounds h b)

/-- A repeated step that holds what it hands on. -/
lemma loop_parts [HasParts α] [HasParts β] {step : β → Rule (β ⊕ α)}
    (h : ∀ b, Reads J (parts b) (step b) parts) (b : β) :
    Reads J (parts b) (Rule.loop step b) parts :=
  loop h b

end Reads

end

/-! ## Rules that are called by name -/

/-- The parts that a rule called by name uses: the names in front of the rest of an import path. -/
def Nonterminal.uses {α : Type} : Nonterminal α → Multiset Part
  | .importPaths leading => parts leading
  | _ => 0

/-- The parts of what a rule called by name yields. -/
def Nonterminal.partsOf {α : Type} : Nonterminal α → α → Multiset Part
  | .statement, id | .expression, id | .binary _, id | .unary, id | .ifThen, id => parts id
  | .type, id => parts id
  | .pattern _, id => parts id
  | .blockItem, item => parts item
  | .declaration _, id => parts id
  | .importPaths _, items => parts items

/-- Rules that are called by name hold what they yield; a type may be read tentatively. -/
structure Obeys (J : Region env) (call : Call) : Prop where
  type : ∀ K : Region env, Yields K (call .type)
  all : ∀ {α : Type} (g : Nonterminal α), Reads J g.uses (call g) g.partsOf

namespace Obeys

variable {call : Call}

lemma statement (h : Obeys J call) : Yields J (call .statement) := h.all .statement

lemma expression (h : Obeys J call) : Yields J (call .expression) := h.all .expression

lemma binary (h : Obeys J call) (above : Nat) : Yields J (call (.binary above)) :=
  h.all (.binary above)

lemma unary (h : Obeys J call) : Yields J (call .unary) := h.all .unary

lemma ifThen (h : Obeys J call) : Yields J (call .ifThen) := h.all .ifThen

lemma pattern (h : Obeys J call) (place : PatternPlace) : Yields J (call (.pattern place)) :=
  h.all (.pattern place)

lemma blockItem (h : Obeys J call) : Yields J (call .blockItem) := h.all .blockItem

lemma declaration (h : Obeys J call) (place : DeclPlace) : Yields J (call (.declaration place)) :=
  h.all (.declaration place)

end Obeys

end CangjieSyntax
