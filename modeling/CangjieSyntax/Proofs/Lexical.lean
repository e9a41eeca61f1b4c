import Mathlib.Tactic.Lemma
import CangjieSyntax.Diagnostic.Basic
import CangjieSyntax.Proofs.Grammar.Scanning
import CangjieSyntax.Proofs.Parse

/-!
# Lexical errors of a parse

The lexical errors that the parse of a file reports are those of a scan of the text, each of them
once and in the order of their places.

Sorting a log by places keeps the order of entries at one place. Entries of one sort can therefore be
picked out before or after sorting.
-/

namespace CangjieSyntax

section Lists

variable {α : Type} {le : α → α → Bool} {p : α → Bool}

/-- Sorting puts a first entry between the smaller ones and the others. -/
lemma exists_mergeSort_cons (trans : ∀ a b c, le a b → le b c → le a c)
    (total : ∀ a b, le a b || le b a) (a : α) (l : List α) :
    ∃ smaller others, (a :: l).mergeSort le = smaller ++ a :: others
      ∧ l.mergeSort le = smaller ++ others ∧ (∀ b ∈ smaller, !le a b) ∧ ∀ b ∈ others, le a b := by
  obtain ⟨smaller, others, hcons, hsplit, hsmaller⟩ := List.mergeSort_cons trans total a l
  refine ⟨smaller, others, hcons, hsplit, hsmaller, ?_⟩
  have hsorted := List.pairwise_mergeSort trans total (a :: l)
  rw [hcons, List.pairwise_append, List.pairwise_cons] at hsorted
  exact hsorted.2.1.1

/-- There is one way to split a list into entries without a property and others with it. -/
lemma append_split_unique {xs ys xs' ys' : List α} (h : xs ++ ys = xs' ++ ys')
    (hxs : ∀ b ∈ xs, !p b) (hys : ∀ b ∈ ys, p b) (hxs' : ∀ b ∈ xs', !p b)
    (hys' : ∀ b ∈ ys', p b) : xs = xs' ∧ ys = ys' := by
  have pick {xs ys : List α} (hxs : ∀ b ∈ xs, !p b) (hys : ∀ b ∈ ys, p b) :
      (xs ++ ys).filter p = ys := by
    rw [List.filter_append, List.filter_eq_self.2 hys,
      List.filter_eq_nil_iff.2 fun b hb => by simpa using hxs b hb, List.nil_append]
  obtain rfl : ys = ys' := by rw [← pick hxs hys, h, pick hxs' hys']
  exact ⟨List.append_cancel_right h, rfl⟩

theorem filter_mergeSort (trans : ∀ a b c, le a b → le b c → le a c)
    (total : ∀ a b, le a b || le b a) (l : List α) :
    (l.mergeSort le).filter p = (l.filter p).mergeSort le := by
  induction l with
  | nil => simp
  | cons a l ih =>
    obtain ⟨smaller, others, hcons, hsplit, hsmaller, hothers⟩ :=
      exists_mergeSort_cons trans total a l
    rw [hsplit, List.filter_append] at ih
    rw [hcons, List.filter_append]
    by_cases ha : p a
    · rw [List.filter_cons_of_pos ha, List.filter_cons_of_pos ha]
      obtain ⟨smaller', others', hcons', hsplit', hsmaller', hothers'⟩ :=
        exists_mergeSort_cons trans total a (l.filter p)
      obtain ⟨rfl, rfl⟩ := append_split_unique (p := le a) (ih.trans hsplit')
        (fun b hb => hsmaller b (List.mem_filter.1 hb).1)
        (fun b hb => hothers b (List.mem_filter.1 hb).1) hsmaller' hothers'
      exact hcons'.symm
    · rw [List.filter_cons_of_neg ha, List.filter_cons_of_neg ha]
      exact ih

end Lists

/-- Picking entries out of a sorted log. -/
theorem Log.filter_sorted (log : Log) (p : Diagnostic → Bool) :
    log.sorted.filter p = Log.sorted (log.filter p) := by
  apply Array.toList_inj.1
  unfold Log.sorted
  rw [Array.toList_filter, List.toList_toArray, List.toList_toArray, Array.toList_filter]
  refine filter_mergeSort (fun a b c hab hbc => ?_) (fun a b => ?_) _
  · rw [decide_eq_true_eq] at hab hbc ⊢
    exact Nat.le_trans hab hbc
  · rw [Bool.or_eq_true, decide_eq_true_eq, decide_eq_true_eq]
    exact Nat.le_total _ _

end CangjieSyntax

namespace CangjieSyntax

variable {env : Env} {s t : ParseState} {src : Source} {α β : Type}

namespace Rule

/-- A repeated rule ends where a round yields its result. -/
lemma loop_ends {step : β → Rule (β ⊕ α)} {P : ParseState → Prop}
    (h : ∀ b s a t, step b env s = some (.inr a, t) → P t) {b : β} {a : α}
    (hloop : loop step b env s = some (a, t)) : P t := by
  have rounds (n : Nat) {b : β} {s : ParseState} (hrun : loopUpTo step n b env s = some (a, t)) :
      P t := by
    induction n generalizing b s with
    | zero => exact nomatch hrun
    | succ n ih =>
      obtain ⟨next, u, hstep, hrest⟩ := bind_eq_some.1 hrun
      cases next with
      | inl b => exact ih hrest
      | inr a' =>
        obtain ⟨-, rfl⟩ := pure_eq_some.1 hrest
        exact h b s a' u hstep
  exact rounds env.rounds hloop

/-- A file is read up to the end of the text. -/
lemma kind_file {call : Call} {tree : FileTree} (h : file call env s = some (tree, t)) :
    t.kind = .endOfFile := by
  refine loop_ends (P := fun t => t.kind = .endOfFile) (fun tree s tree' t hstep => ?_) h
  obtain ⟨k, u, hkind, hrest⟩ := bind_eq_some.1 hstep
  cases hkind
  split at hrest
  case isTrue hend =>
    obtain ⟨-, rfl⟩ := pure_eq_some.1 hrest
    exact beq_iff_eq.1 hend
  case isFalse =>
    split at hrest
    · obtain ⟨_, _, -, hrest⟩ := bind_eq_some.1 hrest
      exact nomatch (pure_eq_some.1 hrest).1
    · obtain ⟨_, _, -, hrest⟩ := bind_eq_some.1 hrest
      obtain ⟨_, _, -, hrest⟩ := bind_eq_some.1 hrest
      obtain ⟨_, _, -, hrest⟩ := bind_eq_some.1 hrest
      exact nomatch (pure_eq_some.1 hrest).1

lemma kind_runFrom_file {tree : FileTree} (h : runFrom env file s = some (tree, t)) :
    t.kind = .endOfFile := by
  obtain ⟨_, _, -, hfile⟩ := bind_eq_some.1 h
  exact kind_file hfile

end Rule

/-! ## The log -/

/-- A scan adds lexical errors only. -/
lemma Lexer.Scans.lexical {l last : Lexer} {states : List Lexer} (h : Scans src l states last)
    (hlexical : ∀ d ∈ l.log, d.fault = .lexical) : ∀ d ∈ last.log, d.fault = .lexical := by
  have scan {l : Lexer} (h : ∀ d ∈ l.log, d.fault = .lexical) :
      ∀ d ∈ (l.scan src).log, d.fault = .lexical := by
    intro d hd
    change d ∈ l.log ++ (Lexeme.read src l.modes l.pos).2.errors.map _ at hd
    rw [← Array.mem_toList_iff, Array.toList_appendList, List.mem_append, Array.mem_toList_iff] at hd
    obtain hd | hd := hd
    · exact h d hd
    · obtain ⟨e, -, rfl⟩ := List.mem_map.1 hd
      rfl
  induction h with
  | last => exact scan hlexical
  | next _ _ ih => exact ih (scan hlexical)

lemma Settings.filter_locate (settings : Settings) (log : Log) (fault : Fault) :
    (settings.locate log).filter (·.fault == fault)
      = settings.locate (log.filter (·.fault == fault)) := by
  unfold Settings.locate
  split
  · unfold Log.inFile
    rw [Array.filter_map]
    rfl
  · rfl

/-- The lexical errors in the log of a parse. -/
lemma ParseState.filter_diagnostics (hlexical : ∀ d ∈ s.lexer.log, d.fault = .lexical)
    (hgrammatical : ∀ d ∈ s.log, d.fault ≠ .lexical) :
    s.diagnostics.filter (·.fault == .lexical) = s.lexer.log.sorted := by
  have hall : s.lexer.log.filter (·.fault == .lexical) = s.lexer.log := by
    rw [Array.filter_eq_self]
    exact fun d hd => by simp [hlexical d hd]
  have hnone : s.log.filter (·.fault == .lexical) = #[] := by
    rw [Array.filter_eq_empty_iff]
    exact fun d hd => by simp [hgrammatical d hd]
  rw [ParseState.diagnostics, Log.filter_sorted, Array.filter_append Array.size_append, hall, hnone,
    Array.append_empty]

/-- The state behind a file that is read from its start. -/
lemma Rule.filter_runFrom_file {names : NameTable} {tree : FileTree}
    (h : runFrom env file { ParseState.ofSource env.src with names } = some (tree, t)) :
    t.diagnostics.filter (·.fault == .lexical)
      = Log.sorted ((Lexer.ofSource env.src).scanAll env.src).2.log := by
  have hJ : (Region.scanning env (fun _ => True)
      ((Lexer.ofSource env.src).scanAll env.src).2.log).Settled :=
    Region.settled_scanning env _ fun _ => trivial
  obtain ⟨⟨hreachable, ht⟩, -⟩ := runFrom_keeps hJ (fun _ => yields_file hJ)
    ⟨.file names, ParseState.scanning_ofSource env names⟩ h
  have hkind : t.lexer.kind = .endOfFile := by
    have hend := kind_runFrom_file h
    rwa [ParseState.kind, hreachable.settled, if_neg Bool.false_ne_true] at hend
  have hlog := ht.remains.log_eq (ht.regular.ended hkind)
  have hlexical : ∀ d ∈ t.lexer.log, d.fault = .lexical := by
    obtain ⟨states, last, hscans, e⟩ := (Lexer.sound_ofSource env.src).scanAll_eq
    rw [hlog, e]
    exact hscans.lexical fun d hd => nomatch hd
  rw [ParseState.filter_diagnostics hlexical ht.grammatical, hlog]

/-- A parse neither loses nor repeats a lexical error: those it reports are the ones of a scan of
the text from its start to its end, in the order of their places. -/
theorem lexical_parseFile {bytes : ByteArray} {settings : Settings} {p : FileParse}
    (hsrc : Source.ofBytes bytes = .ok src) (h : parseFile bytes settings = some p) :
    p.diagnostics.filter (·.fault == .lexical)
        = settings.locate (Log.sorted ((Lexer.ofSource src).scanAll src).2.log)
      ∧ ((Lexer.ofSource src).scanAll src).2.kind = .endOfFile := by
  have hsound := Lexer.sound_ofSource src
  obtain ⟨states, last, hscans, e⟩ := hsound.scanAll_eq
  refine ⟨?_, by rw [e]; exact (hscans.ended hsound).kind⟩
  obtain ⟨⟨_, names⟩, hinto, rfl⟩ := Option.map_eq_some_iff.1 h
  unfold parseFileInto at hinto
  rw [hsrc] at hinto
  obtain ⟨⟨tree, t⟩, hrun, e⟩ := Option.map_eq_some_iff.1 hinto
  cases e
  rw [← Rule.filter_runFrom_file hrun]
  exact settings.filter_locate t.diagnostics .lexical

/-- A call whose type arguments are tried first, an operator made of a `>`, and six lexical errors
before, in and behind a string. -/
theorem lexical_parseFile_of_call :
    ∃ src p,
      Source.ofBytes "func f() \x7b g<A<B>>(x >>= 1, `y) ¤ \"a\\q$\x7b b ¤ \x7d\n\x7d /* z".toUTF8
          = .ok src
        ∧ parseFile "func f() \x7b g<A<B>>(x >>= 1, `y) ¤ \"a\\q$\x7b b ¤ \x7d\n\x7d /* z".toUTF8 {}
          = some p
        ∧ ((Lexer.ofSource src).scanAll src).2.log.size = 6
        ∧ p.diagnostics.filter (·.fault == .lexical)
          = Log.sorted ((Lexer.ofSource src).scanAll src).2.log := by
  have hsrc := Source.ofBytes_toUTF8
    "func f() \x7b g<A<B>>(x >>= 1, `y) ¤ \"a\\q$\x7b b ¤ \x7d\n\x7d /* z"
  have hsome : (parseFile
      "func f() \x7b g<A<B>>(x >>= 1, `y) ¤ \"a\\q$\x7b b ¤ \x7d\n\x7d /* z".toUTF8 {}).isSome := by
    decide +kernel
  obtain ⟨p, hp⟩ := Option.isSome_iff_exists.1 hsome
  exact ⟨_, p, hsrc, hp, by decide +kernel, (lexical_parseFile hsrc hp).1⟩

end CangjieSyntax
