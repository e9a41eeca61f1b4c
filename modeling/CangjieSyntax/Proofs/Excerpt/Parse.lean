import Mathlib.Order.WellFounded
import CangjieSyntax.Proofs.Excerpt.Lookahead
import CangjieSyntax.Proofs.Parse
import CangjieSyntax.Proofs.Twin.File

/-!
# Parses abreast

Where lexers in two texts stand at the same token whatever they do, parses of the two texts take the
same tokens, and so they come to the same tree and the same diagnostics, up to their places. One such
text is the end of another one: an expression does not depend on what stands in front of it, but for
a point at its start, which selects a member behind an operand.
-/

namespace CangjieSyntax

variable {src src' : Source} {m : Move} {R : Lexer → Lexer → Prop} {l l' : Lexer} {α : Type}

/-! ## Moved parses -/

/-- A moved log is in order if the log is. -/
lemma Log.map_sorted (m : Move) (log : Log) :
    log.sorted.map (move m) = Log.sorted (log.map (move m)) := by
  unfold Log.sorted
  rw [List.map_toArray, Array.toList_map, List.map_mergeSort]
  intro d _ e _
  exact decide_eq_decide.2 m.strict.le_iff_le.symm

lemma Settings.map_locate (settings : Settings) (m : Move) (log : Log) :
    (settings.locate log).map (move m) = settings.locate (log.map (move m)) := by
  unfold Settings.locate
  split
  · simp only [Log.inFile, Array.map_map]
    rfl
  · rfl

instance : Moves FileParse where
  move m p :=
    { tree := { move m p.tree with nodes := Nodes.appendMoved {} m p.tree.nodes }
      diagnostics := p.diagnostics.map (move m) }
  move_refl p := by simp [Nodes.appendMoved_refl]

instance : Moves ExprParse where
  move m p :=
    { nodes := Nodes.appendMoved {} m p.nodes, expr := move m p.expr, next := m.pos p.next
      diagnostics := p.diagnostics.map (move m) }
  move_refl p := by
    have next : Move.refl.pos p.next = p.next := rfl
    simp [Nodes.appendMoved_refl, next]

/-! ## The two parses -/

namespace Lexer.Bisimulation

lemma size_le (b : Bisimulation src src' m R) : src.size ≤ src'.size :=
  b.size_eq ▸ m.strict.le_apply

/-- The parses of the two texts. Both are allowed as many rounds where offsets have 32 bits. -/
def twins (b : Bisimulation src src' m R) (settings : Settings) : Twins where
  env := { src, settings }
  env' := { src := src', settings }
  shift := m
  base := {}
  before := #[]
  lexBefore := #[]
  errors := 0
  tentative := false
  exact := True
  good _ := True
  mirrored := src'.size ≤ 2 ^ 32
  lexes := R
  base_counts := b.counts.symm
  rounds_le := Env.rounds_le_rounds b.size_le
  rounds_eq h := Env.rounds_eq_rounds (Nat.le_trans b.size_le h) h
  counts _ := b.counts
  all_good _ _ := trivial
  depth := .inl rfl
  regressive := ⟨fun _ _ => trivial, fun _ => trivial, fun _ => trivial, fun _ => trivial⟩
  exhausted := .inl trivial
  same h := (b.abreast h).same
  sees h := b.sees h
  log h := by rw [(b.abreast h).log, Array.empty_append]
  scanKnown h := b.scanKnown h
  joinGreater h := b.joinGreater h

variable (b : Bisimulation src src' m R) (settings : Settings)

lemma mirror : (b.twins settings).Mirror :=
  ⟨fun _ => trivial, rfl, trivial, rfl, rfl, rfl, fun h hk => b.restore h hk⟩

include b

/-- In front of the first token, of a file or of an expression. -/
lemma alike (h : R l l') (names : NameTable) (prevStop : Nat) :
    (b.twins settings).Alike { lexer := l, names, prevStop }
      { lexer := l', names, prevStop := m.pos prevStop } where
  lexes := h
  nodes := by
    change {} = Nodes.appendMoved {} m {}
    simp [Nodes.appendMoved, Arena.appendMoved]
  names := trivial
  log := by
    change #[] = #[] ++ Array.map (move m) #[]
    rw [Array.map_empty, Array.empty_append]
  depth := rfl
  prevStop := rfl
  prevKind := rfl
  prevText := by
    have empty (src : Source) : (Span.empty 0).text? src = String.fromUTF8? .empty := by
      unfold Span.text? Source.slice?
      rw [if_pos ⟨Source.isBoundary_zero, le_rfl, Nat.zero_le _⟩]
      change String.fromUTF8? (src.bytes.extract 0 0) = _
      rw [ByteArray.extract_same]
    exact (empty src').trans (empty src).symm
  settled _ := ⟨rfl, rfl⟩
  tried := nofun
  comparisons p := by simp
  muted := rfl
  lastErrorStart p := by simp
  errorCount := rfl
  enclosingType := rfl

/-- What is reported in states that are alike at the end. -/
lemma diagnostics {t t' : ParseState} (h : (b.twins settings).Alike t t') :
    settings.locate t'.diagnostics = (settings.locate t.diagnostics).map (move m) := by
  have log : t'.log = #[] ++ t.log.map (move m) := h.log
  rw [Settings.map_locate, ParseState.diagnostics, ParseState.diagnostics, Log.map_sorted,
    Array.map_append, (b.abreast h.lexes).log, log, Array.empty_append]

/-- Whatever is parsed is parsed from both texts, or neither of them has a parse. -/
lemma map_runFrom {β : Type} {rule : Call → Rule α} {f : α → α} {s s' : ParseState}
    (hrule : ∀ {call call' : Call}, Calls (b.twins settings) call call' →
      CangjieSyntax.Follows (b.twins settings) (rule call) f (rule call'))
    (hs : (b.twins settings).Alike s s') {g g' : α × ParseState → β}
    (hg : ∀ {a t t'}, (b.twins settings).Alike t t' → g' (f a, t') = g (a, t))
    (hsize : src'.size ≤ 2 ^ 32 ∨ (Rule.runFrom { src, settings } rule s).isSome) :
    (Rule.runFrom { src := src', settings } rule s').map g'
      = (Rule.runFrom { src, settings } rule s).map g := by
  have start : CangjieSyntax.Follows (b.twins settings) Rule.begin id Rule.begin :=
    .bind_id Rule.follows_advance fun _ => Rule.follows_unmute
  have calls := Rule.calls_callTo (b.mirror settings)
    (Nat.mul_le_mul_left 16 (b.twins settings).rounds_le)
    fun h => congrArg (16 * ·) ((b.twins settings).rounds_eq h)
  have follows := start.bind_id fun _ => hrule calls
  cases hrun : Rule.runFrom { src, settings } rule s with
  | none =>
    rw [hrun] at hsize
    have hrun' : Rule.runFrom { src := src', settings } rule s' = none :=
      follows.fails (hsize.resolve_right nofun) hs hrun
    rw [hrun']
    rfl
  | some found =>
    obtain ⟨a, t⟩ := found
    obtain ⟨t', hrun', halike⟩ := follows.run hs hrun trivial
    have hrun' : Rule.runFrom { src := src', settings } rule s' = some (f a, t') := hrun'
    rw [hrun']
    exact congrArg some (hg halike)

/-- Files are parsed alike from lexers at the same token. -/
lemma parseFile_eq (h : R (ofSource src) (ofSource src')) (hzero : m.pos 0 = 0) (names : NameTable)
    (hsize : src'.size ≤ 2 ^ 32 ∨ (src.parseFile settings names).isSome) :
    (src'.parseFile settings names).map Prod.fst
      = ((src.parseFile settings names).map Prod.fst).map (move m) := by
  have hs := b.alike settings h names 0
  rw [hzero] at hs
  unfold Source.parseFile at hsize ⊢
  rw [Option.isSome_map] at hsize
  simp only [Option.map_map]
  refine b.map_runFrom settings (f := move m) Rule.follows_file hs (fun {tree t t'} halike => ?_) hsize
  have nodes : t'.nodes = Nodes.appendMoved {} m t.nodes := halike.nodes
  dsimp only [Function.comp_apply]
  rw [b.diagnostics settings halike, nodes]
  rfl

/-- Expressions are parsed alike from lexers at the same token. -/
lemma parseExpression_eq {offset : Nat}
    (h : R ((ofSource src).seek src offset) ((ofSource src').seek src' (m.pos offset)))
    (hsize : src'.size ≤ 2 ^ 32 ∨ (src.parseExpression offset settings).isSome) :
    src'.parseExpression (m.pos offset) settings
      = (src.parseExpression offset settings).map (move m) := by
  have hs := b.alike settings h .empty offset
  unfold Source.parseExpression at hsize ⊢
  rw [Option.isSome_map] at hsize
  simp only [Option.map_map]
  refine b.map_runFrom settings (f := move m) Rule.follows_statement hs (fun {expr t t'} halike => ?_)
    hsize
  have nodes : t'.nodes = Nodes.appendMoved {} m t.nodes := halike.nodes
  have prevStop : t'.prevStop = m.pos t.prevStop := halike.prevStop
  dsimp only [Function.comp_apply]
  rw [b.diagnostics settings halike, nodes, prevStop]
  rfl

end Lexer.Bisimulation

/-! ## Behind another text -/

lemma Source.size_toUTF8 (text : String) : text.toUTF8.size = text.toList.utf8Encode.size :=
  congrArg ByteArray.size (ofString text).bytes_eq_utf8Encode

lemma Source.ahead_append {front text : String} :
    (ofString (front ++ text)).Ahead front.toUTF8.size text.toList :=
  ⟨front.toList, String.toList_append, size_toUTF8 front⟩

/-- What stands behind a text stands by itself as well. -/
lemma Source.excerpt_append {front text : String}
    (hpoint : (ofString text).byteAt 0 = some 0x2E →
      (ofString front).byteIs (front.toUTF8.size - 1) Numeral.endsOperand = false) :
    (ofString text).Excerpt (ofString (front ++ text)) (.behind front.toUTF8.size ⟨0, 0, 0, 0⟩) 0
      (ofString text).size := by
  have htext : (ofString (front ++ text)).text.toList = front.toList ++ text.toList :=
    String.toList_append
  have hfront : (ofString (front ++ text)).Ahead 0 (front.toList ++ text.toList) := htext ▸ ahead_zero
  refine excerpt_to_end ahead_zero ahead_append ?_ fun h => ?_
  · exact fun _ => Nat.add_assoc _ _ _
  · change (front.toUTF8.size != 0 && (ofString (front ++ text)).byteIs (front.toUTF8.size - 1)
      Numeral.endsOperand) = false
    cases hempty : front.toUTF8.size with
    | zero => rfl
    | succ last =>
      -- The byte in front of the point is the last one of the text in front.
      have hlast : last < (encoded front.toList).length := by
        rw [← size_utf8Encode, ← size_toUTF8]
        omega
      have hsame : (ofString (front ++ text)).byteAt last = (ofString front).byteAt last := by
        have halone : (ofString front).Ahead 0 front.toList := ahead_zero
        have hleft := hfront.byteAt last
        have hright := halone.byteAt last
        rw [Nat.zero_add, encoded_append, List.getElem?_append_left hlast] at hleft
        rw [Nat.zero_add] at hright
        exact hleft.trans hright.symm
      have := hpoint h
      rw [hempty, Nat.add_sub_cancel] at this
      rw [Nat.add_sub_cancel, byteIs, hsame]
      exact this

/-- In front of an offset, wherever it lies in the other text. -/
lemma Lexer.abreast_seek {offset : Nat} (hpos : src.isBoundary offset)
    (hsize : m.pos offset ≤ src'.size) :
    ((ofSource src).seek src offset).Abreast src src' m
      ((ofSource src').seek src' (m.pos offset)) := by
  have here : ((ofSource src).seek src offset).pos = offset :=
    Nat.min_eq_left (Source.le_size_of_isBoundary hpos)
  have here' : ((ofSource src').seek src' (m.pos offset)).pos = m.pos offset :=
    Nat.min_eq_left hsize
  have same : ((ofSource src').seek src' (m.pos offset)).pos
      = m.pos ((ofSource src).seek src offset).pos := by
    rw [here', here]
  exact
    { same := ⟨same, same, rfl, rfl, rfl, rfl, rfl⟩
      modes := rfl
      log := Array.map_empty.symm
      regular := .seek offset _
      regular' := .seek _ _
      boundary := here.symm ▸ hpos
      start_le := le_rfl }

/-- An expression is parsed behind another text as it is by itself, unless it starts with a point
and an operand ends in front of it. If the text is so long that its offsets do not fit in 32 bits,
the expression by itself must have a parse. -/
theorem parseExpression_append {front text : String} (settings : Settings)
    (hpoint : (Source.ofString text).byteAt 0 = some 0x2E →
      (Source.ofString front).byteIs (front.toUTF8.size - 1) Numeral.endsOperand = false)
    (hsize : (front ++ text).toUTF8.size ≤ 2 ^ 32
      ∨ (parseExpression text.toUTF8 0 settings).isSome) :
    parseExpression (front ++ text).toUTF8 front.toUTF8.size settings
      = (parseExpression text.toUTF8 0 settings).map
        (move (.behind front.toUTF8.size ⟨0, 0, 0, 0⟩)) := by
  have w := Source.excerpt_append hpoint
  have tail : (Source.ofString (front ++ text)).Ahead front.toUTF8.size text.toList :=
    Source.ahead_append
  have size_eq : (Source.ofString (front ++ text)).size
      = front.toUTF8.size + (Source.ofString text).size := by
    rw [tail.size_eq, ← Source.size_toUTF8]
    rfl
  have b := w.bisimulation size_eq rfl
  have hstart : (Source.ofString text).isBoundary 0 := Source.ahead_zero.isBoundary
  have hle : (Move.behind front.toUTF8.size ⟨0, 0, 0, 0⟩).pos 0
      ≤ (Source.ofString (front ++ text)).size := by
    rw [size_eq]
    exact Nat.le_add_right _ _
  have h := Lexer.abreast_seek hstart hle
  rw [parseExpression_of_isBoundary tail.isBoundary]
  rw [parseExpression_of_isBoundary Source.ahead_zero.isBoundary] at hsize ⊢
  have start : (Move.behind front.toUTF8.size ⟨0, 0, 0, 0⟩).pos 0 = front.toUTF8.size := rfl
  have hparse := b.parseExpression_eq settings h hsize
  rwa [start] at hparse

/-- Behind a name a point selects a member, behind a sign it starts a number. -/
example :
    (parseExpression "a.5".toUTF8 1 {}).all (·.diagnostics.isEmpty) = false
      ∧ (parseExpression "+.5".toUTF8 1 {}).all (·.diagnostics.isEmpty) = true := by
  decide +kernel

end CangjieSyntax
