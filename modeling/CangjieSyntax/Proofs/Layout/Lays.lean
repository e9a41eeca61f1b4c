import CangjieSyntax.Proofs.Layout.Footing

/-!
# How rules lay out what they read

`Lays J lo pre r post` says of a rule `r` that is run inside a region `J`: if the marks `pre` are
laid behind the offset `lo`, so are the marks `post` of its result, as long as nothing is reported;
and whatever is reported, all spans are valid. The rules of the grammar are read off with one lemma
for each way of putting rules together.
-/

namespace CangjieSyntax

/-- In the state `s` all spans are valid, and unless something has been reported all nodes are
nested and the marks are laid between `lo` and the last token taken. -/
structure Arranged (env : Env) (lo : Nat) (s : ParseState) (held : List Mark) : Prop where
  base : env.src.isBoundary lo
  le_start : lo ≤ s.lexer.start
  nodes : s.nodes.Valid env.src
  reports : ∀ d ∈ s.log, d.Valid env.src
  valid : ∀ m ∈ held, m.Valid env.src
  laid : ¬s.Excused → s.nodes.Nested ∧ Laid s.nodes lo s.prevStop held

section

variable {env : Env} {α : Type}

/-- From one state on, a rule goes on from offset to offset and brings about one thing from
another. -/
def BringsAbout (J : Ground env) (s : ParseState) (P : ParseState → Prop) (r : Rule α)
    (Q : α → ParseState → Prop) : Prop :=
  ∀ a t, r env s = some (a, t) → J.mem t ∧ s.Onward t ∧ (P s → Q a t)

/-- From one state on, a rule lays out the marks of its result behind those it is given. -/
def LaysFrom (J : Ground env) (lo : Nat) (s : ParseState) (pre : List Mark) (r : Rule α)
    (post : α → List Mark) : Prop :=
  ∀ a t, r env s = some (a, t) →
    J.mem t ∧ s.Onward t ∧ (Arranged env lo s pre → Arranged env lo t (post a))

/-- A rule lays out the marks of its result behind those it is given. -/
def Lays (J : Ground env) (lo : Nat) (pre : List Mark) (r : Rule α) (post : α → List Mark) : Prop :=
  ∀ s, J.mem s → LaysFrom J lo s pre r post

/-- A rule lays out the marks of its result. -/
abbrev Places [HasMarks α] (J : Ground env) (r : Rule α) : Prop :=
  ∀ lo, Lays J lo [] r marks

/-- A rule takes a token, or reports that it is missing. -/
abbrev Takes (J : Ground env) (r : Rule α) : Prop :=
  ∀ lo, Lays J lo [] r fun _ => [.token]

/-- A rule reports a fault. -/
abbrev Faults (J : Ground env) (r : Rule α) : Prop :=
  ∀ lo, Lays J lo [] r fun _ => [.fault]

end

variable {env : Env} {J : Ground env} {α β : Type} {s t u : ParseState} {lo : Nat}
  {pre post held ms : List Mark} {m : Mark}

namespace Arranged

/-- A fault has been reported. -/
lemma excused (h : Arranged env lo s held) (hm : .fault ∈ held) : s.Excused := by
  by_contra hnot
  exact (h.laid hnot).2.not_fault hm

/-- Behind a fault it makes no difference what is held. -/
lemma of_fault (h : Arranged env lo s held) (hfault : .fault ∈ held)
    (hms : ∀ m ∈ ms, m ∈ held ∨ m = .token ∨ m = .fault) : Arranged env lo s ms := by
  refine { h with valid := fun m hm => ?_, laid := absurd (h.excused hfault) }
  rcases hms m hm with hm | rfl | rfl
  · exact h.valid m hm
  · trivial
  · trivial

lemma sublist (h : Arranged env lo s held) (hsub : ms.Sublist held) : Arranged env lo s ms := by
  refine { h with valid := fun m hm => h.valid m (hsub.subset hm), laid := fun hnot => ?_ }
  obtain ⟨hnested, hlaid⟩ := h.laid hnot
  exact ⟨hnested, hlaid.sublist hsub⟩

/-- At any state a new stretch may be begun. -/
lemma fresh (h : Arranged env lo s held) (hs : s.Footed env) :
    Arranged env s.lexer.start s [] :=
  { h with
    base := hs.lexer.start
    le_start := Nat.le_refl _
    valid := fun _ hm => nomatch hm
    laid := fun hnot => ⟨(h.laid hnot).1, .nil⟩ }

/-- A stretch that was begun behind what is held continues it. -/
lemma append (h : Arranged env lo s held) (hs : s.Footed env) (honward : s.Onward t)
    (h' : Arranged env s.lexer.start t ms) : Arranged env lo t (held ++ ms) where
  base := h.base
  le_start := Nat.le_trans h.le_start h'.le_start
  nodes := h'.nodes
  reports := h'.reports
  valid m hm := (List.mem_append.1 hm).elim (h.valid m) (h'.valid m)
  laid hnot := by
    obtain ⟨hnested, hlaid'⟩ := h'.laid hnot
    obtain ⟨-, hlaid⟩ := h.laid (hnot ∘ honward.excused)
    exact ⟨hnested, (hlaid.grow honward.nodes).append hlaid' h.le_start hs.prevStop_le
      honward.prevStop⟩

/-- What is held is kept where only the bookkeeping changes. -/
lemma of_frame (h : Arranged env lo s held) (hstart : t.lexer.start = s.lexer.start)
    (hprevStop : t.prevStop = s.prevStop) (hnodes : t.nodes = s.nodes) (hlog : t.log = s.log)
    (hexcused : s.Excused → t.Excused) : Arranged env lo t held where
  base := h.base
  le_start := hstart ▸ h.le_start
  nodes := hnodes ▸ h.nodes
  reports := hlog ▸ h.reports
  valid := h.valid
  laid hnot := by
    rw [hnodes, hprevStop]
    exact h.laid (hnot ∘ hexcused)

/-- What is no node is held by any state. -/
lemma loose (h : Arranged env lo s held) (hms : ∀ m ∈ ms, m.Valid env.src)
    (hlaid : ∀ lo, Laid s.nodes lo s.prevStop ms) : Arranged env lo s (held ++ ms) := by
  refine { h with valid := fun m hm => ?_, laid := fun hnot => ?_ }
  · exact (List.mem_append.1 hm).elim (h.valid m) (hms m)
  · obtain ⟨hnested, hheld⟩ := h.laid hnot
    exact ⟨hnested, hheld.hold hlaid⟩

/-- A span is held by any state. -/
lemma hold (h : Arranged env lo s held) {span : Span} (hspan : span.Valid env.src) :
    Arranged env lo s (held ++ [.span span]) :=
  h.loose (fun m hm => by rw [List.mem_singleton.1 hm]; exact hspan) fun _ => .span span .nil

/-- So is an offset between characters. -/
lemma holdEdge (h : Arranged env lo s held) {pos : Nat} (hpos : env.src.isBoundary pos) :
    Arranged env lo s (held ++ [.edge pos]) :=
  h.loose (fun m hm => by rw [List.mem_singleton.1 hm]; exact hpos) fun _ => .edge pos .nil

/-- Where something has been read for certain, a token has been taken. -/
lemma begun (h : Arranged env lo s held) (hbegun : Begun held) :
    Arranged env lo s (.token :: held) := by
  refine { h with valid := fun m hm => ?_, laid := fun hnot => ?_ }
  · rcases List.mem_cons.1 hm with rfl | hm
    · trivial
    · exact h.valid m hm
  · obtain ⟨hnested, hlaid⟩ := h.laid hnot
    exact ⟨hnested, .token (hlaid.le_of_begun hbegun) hlaid⟩

end Arranged

/-! ## What rules bring about -/

namespace BringsAbout

variable {r : Rule α} {k : α → Rule β} {P : ParseState → Prop} {Q : α → ParseState → Prop}
  {R : β → ParseState → Prop}

lemma bind (h : BringsAbout J s P r Q)
    (hk : ∀ a t, r env s = some (a, t) → J.mem t → BringsAbout J t (Q a) (k a) R) :
    BringsAbout J s P (r >>= k) R := by
  intro b t e
  obtain ⟨a, u, hr, hk'⟩ := Rule.bind_eq_some.1 e
  obtain ⟨hu, honward, hQ⟩ := h a u hr
  obtain ⟨ht, honward', hR⟩ := hk a u hr hu b t hk'
  exact ⟨ht, honward.trans honward', hR ∘ hQ⟩

lemma pure {a : α} (hs : J.mem s) (hPQ : P s → Q a s) : BringsAbout J s P (Pure.pure a : Rule α) Q := by
  intro b t e
  obtain ⟨rfl, rfl⟩ := Rule.pure_eq_some.1 e
  exact ⟨hs, .refl s, hPQ⟩

/-- What holds between the rounds of a repeated step is its invariant. -/
lemma loopUpTo {step : β → Rule (β ⊕ α)} (rounds : Nat)
    (h : ∀ b s, J.mem s → BringsAbout J s (R b) (step b) (Sum.elim R Q)) (b : β) (hs : J.mem s) :
    BringsAbout J s (R b) (Rule.loopUpTo step rounds b) Q := by
  induction rounds generalizing b s with
  | zero => exact fun _ _ e => nomatch e
  | succ rounds ih =>
    unfold Rule.loopUpTo
    refine (h b s hs).bind fun next t _ ht => ?_
    cases next with
    | inl b => exact ih b ht
    | inr a => exact .pure ht id

lemma loop {step : β → Rule (β ⊕ α)}
    (h : ∀ b s, J.mem s → BringsAbout J s (R b) (step b) (Sum.elim R Q)) (b : β) (hs : J.mem s) :
    BringsAbout J s (R b) (Rule.loop step b) Q :=
  fun a t e => loopUpTo env.rounds h b hs a t e

end BringsAbout

section

variable {r : Rule α} {k : α → Rule β} {p : α → List Mark} {q : β → List Mark}

/-! ## One state -/

namespace LaysFrom

lemma bind (h : LaysFrom J lo s pre r p)
    (hk : ∀ a t, r env s = some (a, t) → J.mem t → LaysFrom J lo t (p a) (k a) q) :
    LaysFrom J lo s pre (r >>= k) q :=
  BringsAbout.bind (P := (Arranged env lo · pre)) (Q := fun a => (Arranged env lo · (p a)))
    (R := fun b => (Arranged env lo · (q b))) h hk

/-- A rule that looks at the state goes on from the same state. -/
lemma view {f : Source → ParseState → α} (h : LaysFrom J lo s pre (k (f env.src s)) q) :
    LaysFrom J lo s pre (Rule.view f >>= k) q :=
  h

lemma get {k : ParseState → Rule β} (h : LaysFrom J lo s pre (k s) q) :
    LaysFrom J lo s pre ((MonadState.get : Rule ParseState) >>= k) q :=
  h

/-- What is held may be seen in another way. -/
lemma arrange (hms : Arranged env lo s pre → Arranged env lo s ms) (h : LaysFrom J lo s ms r p) :
    LaysFrom J lo s pre r p := by
  intro a t e
  obtain ⟨ht, honward, harranged⟩ := h a t e
  exact ⟨ht, honward, harranged ∘ hms⟩

lemma weaken (hsub : ms.Sublist pre) (h : LaysFrom J lo s ms r p) : LaysFrom J lo s pre r p :=
  h.arrange fun hpre => hpre.sublist hsub

/-- What is laid by a rule from the current token on is laid behind what is held. -/
lemma frame (hs : J.mem s) (h : LaysFrom J s.lexer.start s [] r p) (held : List Mark) :
    LaysFrom J lo s held r fun a => held ++ p a := by
  intro a t e
  obtain ⟨ht, honward, harranged⟩ := h a t e
  refine ⟨ht, honward, fun hheld => ?_⟩
  exact hheld.append (J.footed hs) honward (harranged (hheld.fresh (J.footed hs)))

/-- A rule that begins a stretch of its own. -/
lemma fresh (hs : J.mem s) (h : LaysFrom J s.lexer.start s [] r p) : LaysFrom J lo s [] r p :=
  h.frame hs []

end LaysFrom

/-! ## Any state -/

namespace Lays

/-- The rule without an answer lays out whatever is asked. -/
lemma endless : Lays J lo pre (Rule.endless : Rule α) p :=
  fun _ _ _ _ e => nomatch e

/-- Two rules in a row. -/
lemma bind (h : Lays J lo pre r p) (hk : ∀ a, Lays J lo (p a) (k a) q) :
    Lays J lo pre (r >>= k) q :=
  fun s hs => (h s hs).bind fun a t _ ht => hk a t ht

lemma of_eq (e : pre = ms) (h : Lays J lo ms r p) : Lays J lo pre r p :=
  e ▸ h

/-- Some of what is held may be left out before a rule. -/
lemma weaken (hsub : ms.Sublist pre) (h : Lays J lo ms r p) : Lays J lo pre r p :=
  fun s hs => (h s hs).weaken hsub

/-- Some of what is held may be left out behind a rule. -/
lemma forget {p' : α → List Mark} (hsub : ∀ a, (p' a).Sublist (p a)) (h : Lays J lo pre r p) :
    Lays J lo pre r p' := by
  intro s hs a t e
  obtain ⟨ht, honward, harranged⟩ := h s hs a t e
  exact ⟨ht, honward, fun hpre => (harranged hpre).sublist (hsub a)⟩

lemma pure {a : α} (hsub : (p a).Sublist pre) : Lays J lo pre (Pure.pure a : Rule α) p :=
  fun _ hs => BringsAbout.pure (P := (Arranged env lo · pre)) (Q := fun a => (Arranged env lo · (p a))) hs
    fun hpre => hpre.sublist hsub

/-- What is laid by a rule wherever it stands is laid behind what is held. -/
lemma frame (h : ∀ lo, Lays J lo [] r p) (held : List Mark) :
    Lays J lo held r fun a => held ++ p a :=
  fun s hs => (h s.lexer.start s hs).frame hs held

/-- Spans may be used by a rule and are held all the same. -/
lemma again {spans : List Mark} (hspans : ∀ m ∈ spans, ∃ span, m = .span span)
    (hsub : spans.Sublist held) (h : ∀ lo, Lays J lo spans r p) :
    Lays J lo held r fun a => held ++ p a := by
  intro s hs a t e
  obtain ⟨ht, honward, harranged⟩ := h s.lexer.start s hs a t e
  refine ⟨ht, honward, fun hheld => hheld.append (J.footed hs) honward (harranged ?_)⟩
  have hfresh := (hheld.fresh (J.footed hs)).loose (fun m hm => hheld.valid m (hsub.subset hm))
    fun _ => .of_spans hspans
  exact hfresh

/-- A rule behind which another one uses what is held as well. -/
lemma use (h : ∀ lo, Lays J lo [] r p) (hk : ∀ a, Lays J lo (held ++ p a) (k a) q) :
    Lays J lo held (r >>= k) q :=
  (frame h held).bind hk

/-- A rule that yields something behind which another one holds it as well. -/
lemma next [HasMarks α] (h : Places J r) (hk : ∀ a, Lays J lo (held ++ marks a) (k a) q) :
    Lays J lo held (r >>= k) q :=
  use h hk

/-- A rule that is the first one to yield something. -/
lemma first [HasMarks α] (h : Places J r) (hk : ∀ a, Lays J lo (marks a) (k a) q) :
    Lays J lo [] (r >>= k) q :=
  (h lo).bind hk

/-- A rule that takes a token. -/
lemma take (h : Takes J r) (hk : ∀ a, Lays J lo (held ++ [.token]) (k a) q) :
    Lays J lo held (r >>= k) q :=
  use h hk

/-- A rule that reports a fault. -/
lemma faulty (h : Faults J r) (hk : ∀ a, Lays J lo (held ++ [.fault]) (k a) q) :
    Lays J lo held (r >>= k) q :=
  use h hk

/-- A rule behind which only what was held before is used. -/
lemma skip (h : ∀ lo, Lays J lo [] r p) (hk : ∀ a, Lays J lo held (k a) q) :
    Lays J lo held (r >>= k) q :=
  use h fun a => (hk a).weaken (List.sublist_append_left _ _)

/-- A rule that is passed over on a condition. -/
lemma skip_unless {r : Rule Unit} {p : Unit → List Mark} {c : Prop} [Decidable c] {k : Rule β}
    (h : ∀ lo, Lays J lo [] r p) (hk : Lays J lo held k q) :
    Lays J lo held (if c then k else r >>= fun _ => k) q := by
  split
  · exact hk
  · exact .skip h fun _ => hk

/-- A rule that is followed on a condition. -/
lemma skip_when {r : Rule Unit} {p : Unit → List Mark} {c : Prop} [Decidable c] {k : Rule β}
    (h : ∀ lo, Lays J lo [] r p) (hk : Lays J lo held k q) :
    Lays J lo held (if c then r >>= fun _ => k else k) q := by
  split
  · exact .skip h fun _ => hk
  · exact hk

/-- A rule that looks at the state. -/
lemma view {f : Source → ParseState → α} (h : ∀ a, Lays J lo held (k a) q) :
    Lays J lo held (Rule.view f >>= k) q :=
  fun s hs => .view (h _ s hs)

lemma get {k : ParseState → Rule β} (h : ∀ s, Lays J lo held (k s) q) :
    Lays J lo held ((get : Rule ParseState) >>= k) q :=
  fun s hs => h s s hs

lemma read {k : Env → Rule β} (h : Lays J lo held (k env) q) :
    Lays J lo held ((read : Rule Env) >>= k) q :=
  h

/-- A valid span may be held. -/
lemma hold {span : Span} (hspan : span.Valid env.src) (h : Lays J lo (pre ++ [.span span]) r p) :
    Lays J lo pre r p :=
  fun s hs => (h s hs).arrange fun hpre => hpre.hold hspan

lemma holdEdge {pos : Nat} (hpos : env.src.isBoundary pos)
    (h : Lays J lo (pre ++ [.edge pos]) r p) : Lays J lo pre r p :=
  fun s hs => (h s hs).arrange fun hpre => hpre.holdEdge hpos

/-- Where something has been read for certain, a token has been taken. -/
lemma begun (hbegun : Begun pre) (h : Lays J lo (.token :: pre) r p) : Lays J lo pre r p :=
  fun s hs => (h s hs).arrange fun hpre => hpre.begun hbegun

/-- A span that is held stays valid. -/
lemma keep (span : Span) (hspan : .span span ∈ pre) (h : Lays J lo pre r p) :
    Lays J lo pre r fun a => .span span :: p a := by
  intro s hs a t e
  obtain ⟨ht, honward, harranged⟩ := h s hs a t e
  refine ⟨ht, honward, fun hpre => { harranged hpre with valid := fun m hm => ?_, laid := ?_ }⟩
  · rcases List.mem_cons.1 hm with rfl | hm
    · exact hpre.valid _ hspan
    · exact (harranged hpre).valid m hm
  · intro hnot
    obtain ⟨hnested, hlaid⟩ := (harranged hpre).laid hnot
    exact ⟨hnested, .span span hlaid⟩

/-- Behind a fault it makes no difference what is held. -/
lemma of_fault (ms : List Mark) (hfault : .fault ∈ pre) (h : Lays J lo ms r p)
    (hms : ∀ m ∈ ms, m ∈ pre ∨ m = .token ∨ m = .fault) : Lays J lo pre r p :=
  fun s hs => (h s hs).arrange fun hpre => hpre.of_fault hfault hms

/-- So it does behind a rule that has reported a fault. -/
lemma excuse {p' : α → List Mark} (hfault : ∀ a, .fault ∈ p a) (h : Lays J lo pre r p)
    (hp : ∀ a, ∀ m ∈ p' a, m ∈ p a ∨ m = .token ∨ m = .fault) : Lays J lo pre r p' := by
  intro s hs a t e
  obtain ⟨ht, honward, harranged⟩ := h s hs a t e
  exact ⟨ht, honward, fun hpre => (harranged hpre).of_fault (hfault a) (hp a)⟩

/-- A rule that begins a stretch of its own. -/
lemma start {k : Nat → Rule β} (h : ∀ lo, env.src.isBoundary lo → Lays J lo [] (k lo) q) :
    Lays J lo [] (Rule.start >>= k) q :=
  fun s hs => .view (.fresh hs (h _ (J.footed hs).lexer.start s hs))

/-- The offset of the current token lies between characters. -/
lemma edge {k : Nat → Rule β} (h : ∀ pos, env.src.isBoundary pos → Lays J lo held (k pos) q) :
    Lays J lo held (Rule.start >>= k) q :=
  fun s hs => .view (h _ (J.footed hs).lexer.start s hs)

/-- The span of the current token is valid. -/
lemma tokenSpan {k : Span → Rule β}
    (h : ∀ span, span.Valid env.src → Lays J lo held (k span) q) :
    Lays J lo held (Rule.tokenSpan >>= k) q :=
  fun s hs => .view (h _ (J.footed hs).lexer.span s hs)

/-- So is a span from an offset between characters up to the last token taken. -/
lemma spanFrom {pos : Nat} {k : Span → Rule β} (hpos : env.src.isBoundary pos)
    (h : ∀ span, span.Valid env.src → Lays J lo held (k span) q) :
    Lays J lo held (Rule.spanFrom pos >>= k) q :=
  fun s hs => .view (h _ ((J.footed hs).spanFrom hpos) s hs)

/-- Rules that repeat a step lay out what each round lays out. -/
lemma loop {step : β → Rule (β ⊕ α)} (h : ∀ b, Lays J lo (q b) (step b) (Sum.elim q p)) (b : β) :
    Lays J lo (q b) (Rule.loop step b) p := by
  refine fun s hs => BringsAbout.loop (R := fun b => (Arranged env lo · (q b)))
    (Q := fun a => (Arranged env lo · (p a))) (fun b s hs => ?_) b hs
  intro next t e
  obtain ⟨ht, honward, harranged⟩ := h b s hs next t e
  refine ⟨ht, honward, fun hb => ?_⟩
  cases next <;> exact harranged hb

/-- A repeated step that lays out what it hands on. -/
lemma loop_marks [HasMarks α] [HasMarks β] {step : β → Rule (β ⊕ α)}
    (h : ∀ b, Lays J lo (marks b) (step b) marks) (b : β) :
    Lays J lo (marks b) (Rule.loop step b) marks :=
  loop h b

end Lays

end

/-! ## Rules that are called by name -/

/-- The marks that a rule called by name uses: the names in front of the rest of an import path. -/
def Nonterminal.heldMarks {α : Type} : Nonterminal α → List Mark
  | .importPaths leading => marks leading
  | _ => []

/-- The marks of what a rule called by name yields. -/
def Nonterminal.marksOf {α : Type} : Nonterminal α → α → List Mark
  | .statement, id | .expression, id | .binary _, id | .unary, id | .ifThen, id => marks id
  | .type, id => marks id
  | .pattern _, id => marks id
  | .blockItem, item => marks item
  | .declaration _, id => marks id
  | .importPaths _, items => marks items

/-- Rules that are called by name lay out what they yield; a type may be read tentatively. -/
structure LaysOut (J : Ground env) (call : Call) : Prop where
  type : ∀ K : Ground env, Places K (call .type)
  all : ∀ {α : Type} (g : Nonterminal α) (lo : Nat), Lays J lo g.heldMarks (call g) g.marksOf

namespace LaysOut

variable {call : Call}

lemma statement (h : LaysOut J call) : Places J (call .statement) := h.all .statement

lemma expression (h : LaysOut J call) : Places J (call .expression) := h.all .expression

lemma binary (h : LaysOut J call) (above : Nat) : Places J (call (.binary above)) :=
  h.all (.binary above)

lemma unary (h : LaysOut J call) : Places J (call .unary) := h.all .unary

lemma ifThen (h : LaysOut J call) : Places J (call .ifThen) := h.all .ifThen

lemma pattern (h : LaysOut J call) (place : PatternPlace) : Places J (call (.pattern place)) :=
  h.all (.pattern place)

lemma blockItem (h : LaysOut J call) : Places J (call .blockItem) := h.all .blockItem

lemma declaration (h : LaysOut J call) (place : DeclPlace) : Places J (call (.declaration place)) :=
  h.all (.declaration place)

end LaysOut

end CangjieSyntax
