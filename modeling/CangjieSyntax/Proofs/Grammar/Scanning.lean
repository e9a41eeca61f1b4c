import CangjieSyntax.Proofs.Grammar.Reads
import CangjieSyntax.Proofs.Token.Joining

/-!
# A parse and a scan

A parse looks ahead, tries readings and gives them up, and joins marks; a scan only goes on. Still a
scan that goes on from any state of a parse comes to the same last log as one that goes on from the
first state, and no step of the grammar adds a lexical error to the log.
-/

namespace CangjieSyntax

variable {env : Env} {allowed : Kind → Prop} {log : Log} {s t u : ParseState}

/-- A state whose scan comes to tokens of certain kinds only, and to a certain last log. -/
structure ParseState.Scanning (env : Env) (allowed : Kind → Prop) (log : Log) (s : ParseState) :
    Prop where
  regular : s.lexer.Regular env.src
  remains : s.lexer.Remains env.src allowed log
  grammatical : ∀ d ∈ s.log, d.fault ≠ .lexical

lemma Message.fault_ne_lexical (m : Message) : m.fault ≠ .lexical := by
  cases m <;> exact nofun

namespace ParseState

lemma grammatical_push {span : Span} {m : Message} {args : List String}
    (h : ∀ d ∈ s.log, d.fault ≠ .lexical) :
    ∀ d ∈ s.log.push (m.diagnostic span args), d.fault ≠ .lexical := by
  intro d hd
  obtain hd | rfl := Array.mem_push.1 hd
  · exact h d hd
  · exact m.fault_ne_lexical

namespace Scanning

lemma step (h : s.Scanning env allowed log) (hstep : Step env s t) : t.Scanning env allowed log := by
  cases hstep with
  | advance =>
    obtain ⟨tentative, errorCount, muted, -, -, -, e⟩ := s.advance_eq env.src
    rw [e]
    obtain ⟨hregular, hremains⟩ := h.remains.scanKnown h.regular
    exact ⟨hregular, hremains, h.grammatical⟩
  | report span m args =>
    unfold ParseState.report
    split
    · exact ⟨h.regular, h.remains, h.grammatical⟩
    · dsimp only
      split
      · exact ⟨h.regular, h.remains, h.grammatical⟩
      · exact ⟨h.regular, h.remains, grammatical_push h.grammatical⟩
  | reportDepth span =>
    unfold ParseState.reportDepth
    split
    · exact ⟨h.regular, h.remains, h.grammatical⟩
    · refine ⟨h.regular, h.remains, ?_⟩
      dsimp only
      split
      · exact h.grammatical
      · exact grammatical_push h.grammatical
  | alloc => exact ⟨h.regular, h.remains, h.grammatical⟩
  | intern => exact ⟨h.regular, h.remains, h.grammatical⟩
  | deeper => exact ⟨h.regular, h.remains, h.grammatical⟩
  | shallower => exact ⟨h.regular, h.remains, h.grammatical⟩

lemma tries (h : s.Scanning env allowed log) (htries : Tries env s u) :
    u.Scanning env allowed log := by
  induction htries with
  | refl => exact ⟨h.regular, h.remains, h.grammatical⟩
  | tail _ hstep ih => exact ih.step hstep

lemma turn (hmarks : ∀ p, allowed (.mark p)) (h : s.Scanning env allowed log)
    (hsettled : s.tentative = {}) (hturn : Turn env s t) : t.Scanning env allowed log := by
  cases hturn with
  | unmute => exact ⟨h.regular, h.remains, h.grammatical⟩
  | joinGreater =>
    exact ⟨h.regular.joinGreater, (Lexer.Remains.joinGreater_iff hmarks h.regular).2 h.remains,
      h.grammatical⟩
  | remember start => exact ⟨h.regular, h.remains, h.grammatical⟩
  | enclose owner => exact ⟨h.regular, h.remains, h.grammatical⟩
  | commit htries ok =>
    obtain ⟨hregular, hremains, hgrammatical⟩ := h.tries htries
    exact ⟨hregular, hremains, hgrammatical⟩
  | giveUp htries =>
    -- What an attempt has scanned is scanned again.
    rw [(Inside.of_tries hsettled htries).giveUp_eq hsettled]
    exact ⟨h.regular, h.remains, h.grammatical⟩

end Scanning

end ParseState

/-- The states of a parse outside attempts whose scan comes to a certain last log. -/
def Region.scanning (env : Env) (allowed : Kind → Prop) (log : Log) : Region env where
  mem s := Reachable env s ∧ s.Scanning env allowed log
  loses := True
  sound h := h.1.sound
  step h hstep := ⟨.step h.1 hstep, h.2.step hstep⟩

lemma Region.settled_scanning (env : Env) (log : Log) (hmarks : ∀ p, allowed (.mark p)) :
    (Region.scanning env allowed log).Settled where
  tentative h := h.1.settled
  turn h hturn := ⟨.turn h.1 hturn, h.2.turn hmarks h.1.settled hturn⟩
  property _ _ := trivial

/-- In front of a file. -/
lemma ParseState.scanning_ofSource (env : Env) (names : NameTable) :
    { ParseState.ofSource env.src with names }.Scanning env (fun _ => True)
      ((Lexer.ofSource env.src).scanAll env.src).2.log := by
  refine ⟨.ofSource env.src, ?_, fun d hd => nomatch hd⟩
  obtain ⟨states, last, hscans, e⟩ := (Lexer.sound_ofSource env.src).scanAll_eq
  rw [e]
  exact ⟨states, last, hscans, fun _ _ => trivial, rfl⟩

end CangjieSyntax
