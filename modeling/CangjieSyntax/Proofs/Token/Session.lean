import CangjieSyntax.Proofs.Token.Access
import CangjieSyntax.Proofs.Token.Joining

/-!
# Sessions

A lexer may be used in any way: besides reading on, states are saved and restored in any order, the
place is moved to any offset, and tokens are looked at ahead. However it is used, all accesses are in
range, the current token lies in the text, and the modes are stacked as they should be. From there on
reading comes to the end of the text and stays at it, and looking ahead leaves no trace.
-/

namespace CangjieSyntax

variable {src : Source} {l m : Lexer}

namespace Lexer

/-- The state after some tokens. -/
def scanMany (src : Source) : Nat → Lexer → Lexer
  | 0, l => l
  | count + 1, l => scanMany src count (l.scan src)

/-- The state after some tokens, with all accesses checked. -/
def scanManyChecked (src : Source) : Nat → Lexer → Option Lexer
  | 0, l => some l
  | count + 1, l => do scanManyChecked src count (← l.scanChecked src)

end Lexer

/-- What can be done with a lexer. -/
inductive Operation where
  | scan
  | joinGreater
  | save
  /-- Going back to a saved state, by its number. With a number too large this does nothing. -/
  | restore (number : Nat)
  | seek (pos : Nat)
  /-- Looking at some tokens ahead. -/
  | lookAhead (count : Nat)
  | addFlags (flags : TokenFlags)
  /-- Taking out all that is in the log. -/
  | takeLog

/-- A lexer in use, and the states saved so far. -/
structure Session where
  lexer : Lexer
  saved : List Lexer := []

namespace Session

variable {s : Session} {op : Operation} {ops : List Operation}

/-- The session after an operation. -/
def step (src : Source) (s : Session) : Operation → Session
  | .scan => { s with lexer := s.lexer.scan src }
  | .joinGreater => { s with lexer := s.lexer.joinGreater src }
  | .save => { s with saved := s.saved ++ [s.lexer] }
  | .restore number =>
    match s.saved[number]? with
    | some l => { s with lexer := l.restore s.lexer }
    | none => s
  | .seek pos => { s with lexer := s.lexer.seek src pos }
  | .lookAhead count =>
    { s with lexer := (s.lexer.lookAhead fun l => ((), l.scanMany src count)).2 }
  | .addFlags flags => { s with lexer := s.lexer.addFlags flags }
  | .takeLog => { s with lexer := { s.lexer with log := #[] } }

/-- The session after an operation, with all accesses checked. Other operations than the ones that
read or move look at bytes only where there may be none. -/
def stepChecked (src : Source) (s : Session) : Operation → Option Session
  | .scan => do return { s with lexer := ← s.lexer.scanChecked src }
  | .seek pos => do return { s with lexer := ← s.lexer.seekChecked src pos }
  | .lookAhead count => do
    return { s with lexer := s.lexer.restore (← s.lexer.scanManyChecked src count) }
  | op => some (s.step src op)

/-- The session after some operations. -/
def run (src : Source) (s : Session) (ops : List Operation) : Session :=
  ops.foldl (step src) s

/-- The session after some operations, with all accesses checked. -/
def runChecked (src : Source) (s : Session) (ops : List Operation) : Option Session :=
  ops.foldlM (stepChecked src) s

end Session

/-! ## What every operation keeps -/

namespace Lexer

/-- The current token lies in the text, and reading may go on behind it. -/
structure InRange (src : Source) (l : Lexer) : Prop where
  sound : l.Sound src
  start_le : l.start ≤ l.pos
  le_size : l.pos ≤ src.size

namespace InRange

lemma ofSource (src : Source) : (ofSource src).InRange src :=
  ⟨sound_ofSource src, Nat.zero_le _, Source.le_size_of_isBoundary (isBoundary_ofSource src)⟩

lemma scan (h : l.InRange src) : (l.scan src).InRange src :=
  ⟨h.sound.advances.sound, h.sound.advances.start_le, h.sound.advances.le_size⟩

lemma joinGreater (h : l.InRange src) : (l.joinGreater src).InRange src := by
  unfold Lexer.joinGreater
  split
  case isTrue =>
    split
    case h_1 p stop hjoin =>
      obtain ⟨hstop, hlt, -⟩ := Punctuation.joinGreater?_stop hjoin
      exact ⟨⟨h.sound.stacked, .inl hstop⟩, Nat.le_trans h.start_le (Nat.le_of_lt hlt),
        Source.le_size_of_isBoundary hstop⟩
    case h_2 => exact h
  case isFalse => exact h

lemma seek (pos : Nat) (l : Lexer) : (l.seek src pos).InRange src :=
  ⟨.seek pos l, Nat.le_refl _, Nat.min_le_right _ _⟩

lemma restore (h : m.InRange src) (l : Lexer) : (m.restore l).InRange src :=
  ⟨⟨h.sound.stacked, h.sound.placed⟩, h.start_le, h.le_size⟩

lemma addFlags (h : l.InRange src) (flags : TokenFlags) : (l.addFlags flags).InRange src :=
  ⟨⟨h.sound.stacked, h.sound.placed⟩, h.start_le, h.le_size⟩

lemma takeLog (h : l.InRange src) : InRange src { l with log := #[] } :=
  ⟨⟨h.sound.stacked, h.sound.placed⟩, h.start_le, h.le_size⟩

lemma scanManyChecked_eq {count : Nat} (h : l.InRange src) :
    l.scanManyChecked src count = some (l.scanMany src count) := by
  induction count generalizing l with
  | zero => rfl
  | succ count ih =>
    unfold scanManyChecked scanMany
    rw [h.sound.scanChecked_eq]
    exact ih h.scan

end InRange

end Lexer

namespace Session

variable {s : Session} {op : Operation} {ops : List Operation}

/-- The lexer and all saved states are in range. -/
structure InRange (src : Source) (s : Session) : Prop where
  lexer : s.lexer.InRange src
  saved : ∀ l ∈ s.saved, l.InRange src

namespace InRange

/-- Every operation keeps a session in range. -/
lemma step (h : s.InRange src) (op : Operation) : (s.step src op).InRange src := by
  cases op with
  | scan => exact ⟨h.lexer.scan, h.saved⟩
  | joinGreater => exact ⟨h.lexer.joinGreater, h.saved⟩
  | save =>
    refine ⟨h.lexer, fun l hl => ?_⟩
    obtain hl | hl := List.mem_append.1 hl
    · exact h.saved l hl
    · exact List.eq_of_mem_singleton hl ▸ h.lexer
  | restore number =>
    unfold Session.step
    dsimp only
    split
    case h_1 l hl => exact ⟨(h.saved l (List.mem_of_getElem? hl)).restore s.lexer, h.saved⟩
    case h_2 => exact h
  | seek pos => exact ⟨.seek pos s.lexer, h.saved⟩
  | lookAhead count => exact ⟨h.lexer.restore _, h.saved⟩
  | addFlags flags => exact ⟨h.lexer.addFlags flags, h.saved⟩
  | takeLog => exact ⟨h.lexer.takeLog, h.saved⟩

/-- In a session in range every access of the next operation is in range. -/
lemma stepChecked_eq (h : s.InRange src) (op : Operation) :
    s.stepChecked src op = some (s.step src op) := by
  cases op with
  | scan => simp [stepChecked, Session.step, h.lexer.sound.scanChecked_eq]
  | seek pos => simp [stepChecked, Session.step, h.lexer.sound.seekChecked_eq]
  | lookAhead count =>
    simp [stepChecked, Session.step, h.lexer.scanManyChecked_eq, Lexer.lookAhead]
  | joinGreater | save | restore | addFlags | takeLog => rfl

lemma run (h : s.InRange src) (ops : List Operation) : (s.run src ops).InRange src := by
  induction ops generalizing s with
  | nil => exact h
  | cons op ops ih => exact ih (h.step op)

lemma runChecked_eq (h : s.InRange src) (ops : List Operation) :
    s.runChecked src ops = some (s.run src ops) := by
  induction ops generalizing s with
  | nil => rfl
  | cons op ops ih =>
    rw [runChecked, List.foldlM_cons, h.stepChecked_eq op]
    exact ih (h.step op)

end InRange

/-- However a lexer is used, no access is out of range or inside a character and no difference is
below zero. The current token lies in the text, and code and the text of strings take turns in the
modes above the code of the file. -/
theorem runChecked_ofSource (src : Source) (ops : List Operation) :
    ∃ s, runChecked src { lexer := .ofSource src } ops = some s
      ∧ s = run src { lexer := .ofSource src } ops
      ∧ s.lexer.start ≤ s.lexer.pos ∧ s.lexer.pos ≤ src.size ∧ Mode.Stacked s.lexer.modes := by
  have h : InRange src { lexer := .ofSource src } := ⟨.ofSource src, fun _ hl => nomatch hl⟩
  obtain ⟨hlexer, -⟩ := h.run ops
  exact ⟨_, h.runChecked_eq ops, rfl, hlexer.start_le, hlexer.le_size, hlexer.sound.stacked⟩

end Session

/-! ## Reading up to the end of the text -/

namespace Lexer

lemma scanMany_succ (count : Nat) (l : Lexer) :
    l.scanMany src (count + 1) = (l.scanMany src count).scan src := by
  induction count generalizing l with
  | zero => rfl
  | succ count ih => exact ih (l.scan src)

lemma scanMany_add (count more : Nat) (l : Lexer) :
    l.scanMany src (count + more) = (l.scanMany src count).scanMany src more := by
  induction more with
  | zero => rfl
  | succ more ih => rw [← Nat.add_assoc, scanMany_succ, ih, scanMany_succ]

lemma InRange.scanMany (h : l.InRange src) (count : Nat) : (l.scanMany src count).InRange src := by
  induction count with
  | zero => exact h
  | succ count ih =>
    rw [scanMany_succ]
    exact ih.scan

/-- Each token that is not the end of the text leaves fewer ahead, and there is one ahead at the
end. -/
lemma Sound.exists_endOfFile (h : l.Sound src) :
    ∃ count < l.ahead src, (l.scanMany src (count + 1)).kind = .endOfFile := by
  induction hn : l.ahead src using Nat.strongRecOn generalizing l with
  | ind n ih =>
    have hstep := h.advances
    by_cases hkind : (l.scan src).kind = .endOfFile
    · have hpos := h.stacked.length_pos
      exact ⟨0, by unfold ahead at hn; omega, hkind⟩
    · have hlt := hn ▸ hstep.ahead_lt hkind
      obtain ⟨count, hcount, hend⟩ := ih _ hlt hstep.sound rfl
      exact ⟨count + 1, by omega, hend⟩

/-- At the end of the text reading on changes nothing but the flags of the token. -/
lemma Ended.scanMany (h : l.Ended src) (hstart : l.start = src.size) (count : Nat) :
    (l.scanMany src count).Ended src ∧ (l.scanMany src count).start = src.size
      ∧ (l.scanMany src count).log = l.log := by
  induction count with
  | zero => exact ⟨h, hstart, rfl⟩
  | succ count ih =>
    obtain ⟨hended, -, hlog⟩ := ih
    obtain ⟨hnext, hsame⟩ := hended.scan
    have hsound : (l.scanMany src count).Sound src := by
      obtain ⟨braces, hmodes⟩ := hended.modes
      exact ⟨hmodes ▸ .outermost braces, .inl (hended.pos ▸ Source.isBoundary_size)⟩
    rw [scanMany_succ]
    exact ⟨hnext, (hsound.advances.ended hnext.kind).2, hsame.trans hlog⟩

end Lexer

namespace Session

/-- However a lexer has been used, reading on comes to the end of the text within two tokens for each
byte ahead and one for each mode. Whenever the end has been read, all tokens behind it are the end
again: empty, at the end of the text, in the code of the file, with nothing more reported. -/
theorem scanMany_ends (src : Source) (ops : List Operation) :
    let l := (run src { lexer := .ofSource src } ops).lexer
    (∃ count, count + 1 ≤ 2 * (src.size - l.pos) + l.depth
        ∧ (l.scanMany src (count + 1)).kind = .endOfFile)
      ∧ ∀ count, (l.scanMany src (count + 1)).kind = .endOfFile → ∀ more,
        let later := l.scanMany src (count + 1 + more)
        later.kind = .endOfFile ∧ later.span = .empty src.size
          ∧ (∃ braces, later.modes = [.code braces])
          ∧ later.log = (l.scanMany src (count + 1)).log := by
  have hrange : InRange src { lexer := .ofSource src } := ⟨.ofSource src, fun _ hl => nomatch hl⟩
  have hl := (hrange.run ops).lexer
  generalize (run src { lexer := .ofSource src } ops).lexer = l at hl
  refine ⟨hl.sound.exists_endOfFile, fun count hend more => ?_⟩
  have hbefore := hl.scanMany count
  rw [Lexer.scanMany_succ] at hend
  obtain ⟨hended, hstart⟩ := hbefore.sound.advances.ended hend
  obtain ⟨hlater, hstart, hlog⟩ := hended.scanMany hstart more
  rw [Lexer.scanMany_add, Lexer.scanMany_succ]
  refine ⟨hlater.kind, ?_, hlater.modes, hlog⟩
  rw [Lexer.span, hlater.pos, hstart, Span.ofBounds, Nat.sub_self, Span.empty]

/-- A text that ends in a hole of a string is at its end with the third token, two modes deep, and
stays there. -/
theorem scanMany_ends_in_hole :
    let src := Source.ofString "\"$\x7b "
    let l := (run src { lexer := .ofSource src } [.scan]).lexer
    l.depth = 2 ∧ (l.scanMany src (1 + 1)).kind = .endOfFile
      ∧ ∀ more, (l.scanMany src (1 + 1 + more)).kind = .endOfFile
        ∧ (l.scanMany src (1 + 1 + more)).span = .empty src.size
        ∧ (∃ braces, (l.scanMany src (1 + 1 + more)).modes = [.code braces])
        ∧ (l.scanMany src (1 + 1 + more)).log = (l.scanMany src (1 + 1)).log := by
  intro src l
  have hend : (l.scanMany src (1 + 1)).kind = .endOfFile := by decide +kernel
  exact ⟨by decide +kernel, hend, (scanMany_ends src [.scan]).2 1 hend⟩

end Session

/-! ## Looking ahead -/

namespace Lexer

/-- What may be done with a lexer ahead: reading, joining, moving and marking in any order, as what
has been found so far suggests, and looking further ahead from there. -/
inductive Probe (src : Source) : {α : Type} → StateM Lexer α → Prop
  | pure {α : Type} (a : α) : Probe src (Pure.pure a)
  | bind {α β : Type} {f : StateM Lexer α} {g : α → StateM Lexer β} (hf : Probe src f)
    (hg : ∀ a, Probe src (g a)) : Probe src (f >>= g)
  | get : Probe src MonadState.get
  | scan : Probe src (modify (scan src))
  | joinGreater : Probe src (modify (joinGreater src))
  | seek (pos : Nat) : Probe src (modify (seek src pos))
  | addFlags (flags : TokenFlags) : Probe src (modify (addFlags · flags))
  | lookAhead {α : Type} {f : StateM Lexer α} (hf : Probe src f) :
    Probe src fun l => l.lookAhead f

variable {α : Type} {f : StateM Lexer α}

/-- Whatever is done ahead, the log is only added to. -/
lemma Probe.log_isPrefix (h : Probe src f) (l : Lexer) : l.log.toList <+: (f l).2.log.toList := by
  induction h generalizing l with
  | pure a => exact List.prefix_refl _
  | bind hf hg ihf ihg => exact (ihf l).trans (ihg _ _)
  | get => exact List.prefix_refl _
  | scan => exact log_scan
  | joinGreater =>
    have hsame : (l.joinGreater src).log = l.log := log_joinGreater
    exact hsame ▸ List.prefix_refl _
  | seek pos => exact List.prefix_refl _
  | addFlags flags => exact List.prefix_refl _
  | @lookAhead α f hf ih =>
    have hsame : (l.restore (f l).2).log = l.log := congrArg log (restore_of_isPrefix (ih l))
    exact hsame ▸ List.prefix_refl _

end Lexer

namespace Session

/-- Looking ahead leaves no trace: the state is found again as it was, with its log, and whatever is
done next goes as if nothing had been looked at. -/
theorem lookAhead_unobservable {α : Type} {f : StateM Lexer α} (hf : Lexer.Probe src f)
    (s : Session) :
    (s.lexer.lookAhead f).2 = s.lexer
      ∧ ∀ ops, run src { s with lexer := (s.lexer.lookAhead f).2 } ops = run src s ops := by
  have hsame : (s.lexer.lookAhead f).2 = s.lexer :=
    Lexer.restore_of_isPrefix (hf.log_isPrefix s.lexer)
  refine ⟨hsame, fun ops => ?_⟩
  rw [hsame]

/-- The kind of the first token of a text. -/
def probeStart (src : Source) : StateM Lexer Kind := do
  modify (Lexer.seek src 0)
  modify (Lexer.scan src)
  return (← get).kind

/-- Looking ahead over a string, and back to the start of the text from behind it. -/
def probeString (src : Source) : StateM Lexer (Kind × Nat) := do
  modify (Lexer.scan src)
  modify (Lexer.scan src)
  modify (Lexer.scan src)
  let kind ← fun l => l.lookAhead (probeStart src)
  modify (Lexer.joinGreater src)
  modify (Lexer.addFlags · { trivia := true })
  return (kind, (← get).log.size)

/-- The error in the string is found ahead and found again later. -/
theorem lookAhead_unobservable_over_string :
    let src := Source.ofString "a \"un"
    let s := run src { lexer := .ofSource src } [.scan]
    Lexer.Probe src (probeString src)
      ∧ (s.lexer.lookAhead (probeString src)).1 = (.identifier, 1) ∧ s.lexer.log = #[]
      ∧ (s.lexer.lookAhead (probeString src)).2 = s.lexer
      ∧ ∀ ops, run src { s with lexer := (s.lexer.lookAhead (probeString src)).2 } ops
        = run src s ops := by
  intro src s
  have hprobe : Lexer.Probe src (probeString src) :=
    .bind .scan fun _ => .bind .scan fun _ => .bind .scan fun _ =>
      .bind (.lookAhead (.bind (.seek 0) fun _ => .bind .scan fun _ => .bind .get fun _ => .pure _))
        fun _ => .bind .joinGreater fun _ => .bind (.addFlags _) fun _ => .bind .get fun _ => .pure _
  exact ⟨hprobe, by decide +kernel, by decide +kernel, lookAhead_unobservable hprobe s⟩

end Session

end CangjieSyntax
