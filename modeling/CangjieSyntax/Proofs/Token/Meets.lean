import Mathlib.Logic.Function.Iterate
import CangjieSyntax.Proofs.Token.Joining

/-!
# The kinds of tokens ahead

A scan that begins at a token of the code of a file comes to the same tokens as one that begins in
front of the file: how many braces are open there makes no difference, since a closing brace that
matches none is one all the same.
-/

namespace CangjieSyntax

variable {src : Source} {modes modes' : List Mode} {pos : Nat}

/-- Two stacks that differ at most in the count of braces of the outermost code. -/
inductive Mode.Alike : List Mode → List Mode → Prop
  | nil : Alike [] []
  | outermost (braces braces' : Nat) : Alike [.code braces] [.code braces']
  | push (m : Mode) {modes modes' : List Mode} (h : Alike modes modes') :
    Alike (m :: modes) (m :: modes')

namespace Mode.Alike

lemma length_eq (h : Alike modes modes') : modes'.length = modes.length := by
  induction h with
  | nil => rfl
  | outermost => rfl
  | push m _ ih => rw [List.length_cons, List.length_cons, ih]

lemma drop (h : Alike modes modes') (n : Nat) : Alike (modes.drop n) (modes'.drop n) := by
  induction h generalizing n with
  | nil => rw [List.drop_nil]; exact .nil
  | outermost braces braces' =>
    cases n with
    | zero => exact .outermost braces braces'
    | succ n => rw [List.drop_succ_cons, List.drop_succ_cons, List.drop_nil]; exact .nil
  | push m h ih =>
    cases n with
    | zero => exact .push m h
    | succ n => exact ih n

/-- A token does the same to both stacks. -/
lemma apply (h : Alike modes modes') (change : ModeChange) :
    Alike (change.apply modes) (change.apply modes') := by
  cases change with
  | stay => exact h
  | enter m => exact .push m h
  | leave =>
    have htail := h.drop 1
    rwa [List.drop_one, List.drop_one] at htail
  | unwind =>
    change Alike (modes.drop _) (modes'.drop _)
    rw [h.length_eq]
    exact h.drop _
  | openBrace =>
    cases h with
    | nil => exact .nil
    | outermost braces braces' => exact .outermost _ _
    | push m h =>
      cases m with
      | code braces => exact .push _ h
      | text quote multiLine => exact .push _ h
  | closeBrace =>
    cases h with
    | nil => exact .nil
    | outermost braces braces' => exact .outermost _ _
    | push m h =>
      cases m with
      | code braces => exact .push _ h
      | text quote multiLine => exact .push _ h

end Mode.Alike

namespace Lexeme

open Mode (Alike)

lemma closeBrace_alike (h : Alike modes modes') :
    closeBrace modes' pos = closeBrace modes pos := by
  have hcond : (Mode.top modes' = .code 0 ∧ 1 < modes'.length)
      ↔ (Mode.top modes = .code 0 ∧ 1 < modes.length) := by
    cases h with
    | nil => rfl
    | outermost => simp
    | push m h => simp [Mode.top, h.length_eq]
  simp only [closeBrace, hcond]

/-- The next token does not depend on the count of braces of the outermost code. -/
lemma read_alike (h : Alike modes modes') : read src modes' pos = read src modes pos := by
  have hend (stop : Nat) : endOfFile src modes' stop = endOfFile src modes stop := by
    simp only [endOfFile, h.length_eq]
  have hcode (stop : Nat) (first : UInt8) :
      readCode src modes' stop first = readCode src modes stop first := by
    simp only [readCode, closeBrace_alike h]
  unfold read
  cases h with
  | nil => rfl
  | outermost => simp only [Mode.top, hend, hcode]
  | push m h => simp only [Mode.top, hend, hcode]

end Lexeme

/-- There is no gap in front of a token. -/
lemma Gap.read_stop (src : Source) (pos : Nat) :
    Gap.read src (Gap.read src pos).stop = { stop := (Gap.read src pos).stop } := by
  fun_induction Gap.read src pos with
  | case1 pos hnone =>
    dsimp only
    rw [Gap.read]
    split
    case h_1 => rfl
    case h_2 b hb => exact absurd (hb.symm.trans hnone) (Option.some_ne_none b)
  | case2 _ _ _ _ _ ih => exact ih
  | case3 _ _ _ _ _ _ ih => exact ih
  | case4 _ _ _ _ _ _ _ ih => exact ih
  | case5 _ _ _ _ _ _ _ _ _ ih => exact ih
  | case6 pos b hb hbreak hblank hline hopen =>
    dsimp only
    rw [Gap.read]
    split
    case h_1 hnone => exact absurd (hb.symm.trans hnone) (Option.some_ne_none b)
    case h_2 b' hb' =>
      obtain rfl : b' = b := Option.some.inj (hb'.symm.trans hb)
      rw [if_neg hbreak, if_neg hblank, if_neg hline, dif_neg hopen]

/-- A token of code is the same without the gap in front of it. -/
lemma Lexeme.read_stop (pos : Nat) (hcode : (Mode.top modes).isCode) :
    (read src modes pos).1 = (Gap.read src pos).stop
      ∧ (read src modes (Gap.read src pos).stop).2.kind = (read src modes pos).2.kind
      ∧ (read src modes (Gap.read src pos).stop).2.stop = (read src modes pos).2.stop
      ∧ (read src modes (Gap.read src pos).stop).2.change = (read src modes pos).2.change := by
  unfold read
  cases hmode : Mode.top modes with
  | text => exact nomatch hmode ▸ hcode
  | code => simp only [Gap.read_stop, and_self]

namespace Lexer

variable {l m last : Lexer} {states : List Lexer} {allowed : Kind → Prop} {k : Kind}

/-- A scan from a state on comes to a token of a kind. -/
def Meets (src : Source) (l : Lexer) (k : Kind) : Prop :=
  ∃ t ∈ (l.scanAll src).1, t.1.kind = k

lemma Scans.unique {states' : List Lexer} {last' : Lexer} (h : Scans src l states last)
    (h' : Scans src l states' last') : states' = states := by
  induction h generalizing states' with
  | last hkind =>
    cases h' with
    | last => rfl
    | next hkind' => exact absurd hkind hkind'
  | next hkind _ ih =>
    cases h' with
    | last hkind' => exact absurd hkind' hkind
    | next _ rest' => rw [ih rest']

lemma Scans.meets_iff (h : l.Sound src) (hscans : Scans src l states last) :
    l.Meets src k ↔ ∃ m ∈ states, m.kind = k := by
  obtain ⟨states', last', hscans', e⟩ := h.scanAll_eq
  obtain rfl := hscans.unique hscans'
  unfold Meets
  rw [e]
  constructor
  · rintro ⟨t, ht, rfl⟩
    obtain ⟨m, hm, rfl⟩ := List.mem_map.1 ht
    exact ⟨m, hm, rfl⟩
  · rintro ⟨m, hm, rfl⟩
    exact ⟨_, List.mem_map_of_mem hm, rfl⟩

/-- Only tokens of the kinds that a scan comes to remain. -/
lemma Sound.remains_iff (h : l.Sound src) :
    (∃ log, Remains src allowed log l) ↔ ∀ k, l.Meets src k → allowed k := by
  constructor
  · rintro ⟨log, states, last, hscans, hstates, -⟩ k hk
    obtain ⟨m, hm, rfl⟩ := (hscans.meets_iff h).1 hk
    exact hstates m hm
  · intro hall
    obtain ⟨states, last, hscans, -⟩ := h.scanAll_eq
    exact ⟨_, states, last, hscans, fun m hm => hall _ ((hscans.meets_iff h).2 ⟨m, hm, rfl⟩), rfl⟩

/-- Behind a token a scan comes to no further kinds. -/
lemma Sound.meets_of_scan (h : l.Sound src) (hk : (l.scan src).Meets src k) : l.Meets src k := by
  obtain ⟨log, hremains⟩ := h.remains_iff.2 fun k (hk : l.Meets src k) => hk
  exact h.advances.sound.remains_iff.1 ⟨log, (hremains.scan h).1⟩ k hk

/-! ## Scans that begin later -/

/-- The next token from one state on is the one from the other on, up to what is in front of it. -/
structure Shadows (src : Source) (l m : Lexer) : Prop where
  kind : (m.scan src).kind = (l.scan src).kind
  pos : (m.scan src).pos = (l.scan src).pos
  modes : Mode.Alike (l.scan src).modes (m.scan src).modes

lemma Shadows.of_alike (hpos : m.pos = l.pos) (hmodes : Mode.Alike l.modes m.modes) :
    Shadows src l m := by
  have hread : Lexeme.read src m.modes m.pos = Lexeme.read src l.modes l.pos := by
    rw [hpos, Lexeme.read_alike hmodes]
  refine ⟨?_, ?_, ?_⟩
  · rw [scan, scan, hread]
    rfl
  · rw [scan, scan, hread]
    rfl
  · rw [scan, scan, hread]
    exact hmodes.apply _

/-- The token is the same without the gap in front of it. -/
lemma Shadows.of_start (hcode : (Mode.top l.modes).isCode) (hpos : m.pos = (l.scan src).start)
    (hmodes : Mode.Alike l.modes m.modes) : Shadows src l m := by
  obtain ⟨hstart, hkind, hstop, hchange⟩ := @Lexeme.read_stop src _ l.pos hcode
  have hread : Lexeme.read src m.modes m.pos
      = Lexeme.read src l.modes (Gap.read src l.pos).stop := by
    rw [← hstart, hpos, Lexeme.read_alike hmodes]
    rfl
  refine ⟨?_, ?_, ?_⟩
  · rw [scan, scan, hread]
    exact hkind
  · rw [scan, scan, hread]
    exact hstop
  · change Mode.Alike ((Lexeme.read src l.modes l.pos).2.change.apply l.modes)
      ((Lexeme.read src m.modes m.pos).2.change.apply m.modes)
    rw [hread, hchange]
    exact hmodes.apply _

/-- Scans that come to the same next token come to tokens of the same kinds from there on. -/
lemma Shadows.scans (h : Shadows src l m) (hscans : Scans src l states last) :
    ∃ states' last', Scans src m states' last' ∧ states'.map Lexer.kind = states.map Lexer.kind := by
  induction hscans generalizing m with
  | last hkind => exact ⟨_, _, .last (h.kind.trans hkind), by simp [h.kind]⟩
  | next hkind _ ih =>
    obtain ⟨states', last', hscans', hkinds⟩ := ih (.of_alike h.pos h.modes)
    refine ⟨_, last', .next (fun hend => hkind (h.kind.symm.trans hend)) hscans', ?_⟩
    simp [h.kind, hkinds]

lemma Shadows.meets_iff (h : Shadows src l m) (hl : l.Sound src) (hm : m.Sound src) :
    m.Meets src k ↔ l.Meets src k := by
  obtain ⟨states, last, hscans, -⟩ := hl.scanAll_eq
  obtain ⟨states', last', hscans', hkinds⟩ := h.scans hscans
  rw [hscans'.meets_iff hm, hscans.meets_iff hl]
  have hmem := congrArg (k ∈ ·) hkinds
  simpa only [List.mem_map, eq_iff_iff] using hmem

end Lexer

/-- A scan of the text comes to a token at the offset in the outermost code, or to the gap in front
of one. -/
def Source.AtToken (src : Source) (offset : Nat) : Prop :=
  ∃ n, let l := (Lexer.scan src)^[n] (Lexer.ofSource src)
    l.depth = 1 ∧ (l.pos = offset ∨ (l.scan src).start = offset)

/-- From a token of the outermost code on, a scan comes to no other kinds of tokens than from the
start of the text on. -/
theorem Lexer.meets_of_atToken {offset : Nat} {k : Kind} (h : src.AtToken offset)
    (hk : ((ofSource src).seek src offset).Meets src k) : (ofSource src).Meets src k := by
  obtain ⟨n, hdepth, hplace⟩ := h
  have hreach (n : Nat) : ((scan src)^[n] (ofSource src)).Sound src
      ∧ ∀ k, ((scan src)^[n] (ofSource src)).Meets src k → (ofSource src).Meets src k := by
    induction n with
    | zero => exact ⟨sound_ofSource src, fun _ h => h⟩
    | succ n ih =>
      rw [Function.iterate_succ_apply']
      exact ⟨ih.1.advances.sound, fun k hk => ih.2 k (ih.1.meets_of_scan hk)⟩
  obtain ⟨hsound, hmeets⟩ := hreach n
  generalize (scan src)^[n] (ofSource src) = l at *
  have hmodes : Mode.Alike l.modes [.code 0] := by
    obtain ⟨braces, hbottom⟩ := hsound.stacked.bottom
    obtain ⟨m, hm⟩ := List.length_eq_one_iff.1 hdepth
    rw [hm] at hbottom ⊢
    cases hbottom
    exact .outermost braces 0
  have hcode : (Mode.top l.modes).isCode := by
    generalize l.modes = modes at hmodes
    cases hmodes with
    | outermost => rfl
    | push => rfl
  have hseek : ((ofSource src).seek src offset).Sound src := .seek offset (ofSource src)
  have hadvances := hsound.advances
  refine hmeets k ((Shadows.meets_iff ?_ hsound hseek).1 hk)
  have hle := hadvances.start_le.trans hadvances.le_size
  obtain rfl | rfl := hplace
  · exact .of_alike (Nat.min_eq_left (hadvances.le_start.trans hle)) hmodes
  · exact .of_start hcode (Nat.min_eq_left hle) hmodes

end CangjieSyntax
