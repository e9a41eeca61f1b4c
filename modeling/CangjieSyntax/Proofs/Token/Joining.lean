import CangjieSyntax.Proofs.Token.Change
import CangjieSyntax.Proofs.Token.Scan

/-!
# What remains of a scan

Reading on from a state leads through certain tokens to a certain last log. Taking a token leaves
what remains as it is, and so does joining a `>` with the bytes that touch it: from any offset in a
run of the bytes `=` and `>` on, the tokens are marks that end with the run at the latest, so the run
is left at the same place whatever tokens it is cut into.
-/

namespace CangjieSyntax

variable {src : Source} {pos i : Nat} {b : UInt8} {l m last : Lexer} {states : List Lexer}

/-! ## Runs of bytes that join -/

/-- The bytes that a `>` may be joined with. -/
def Byte.joins (b : UInt8) : Bool :=
  b == 0x3D || b == 0x3E

namespace Punctuation

lemma munchTable_joins : ∀ entry ∈ munchTable, ∀ b ∈ entry.1.head?, Byte.joins b →
    ∀ b ∈ entry.1, Byte.joins b := by
  decide +kernel

lemma exists_munchTable_joins (h : Byte.joins b) : ∃ entry ∈ munchTable, entry.1 = [b] := by
  rw [Byte.joins, Bool.or_eq_true, beq_iff_eq, beq_iff_eq] at h
  obtain rfl | rfl := h
  · exact ⟨([0x3D], .equals), by decide +kernel, rfl⟩
  · exact ⟨([0x3E], .greater), by decide +kernel, rfl⟩

/-- A mark that starts in a run ends in it. -/
lemma munch?_of_joins (hb : src.byteAt pos = some b) (h : Byte.joins b) :
    ∃ p stop, munch? src pos = some (p, stop) ∧ pos < stop ∧ stop ≤ src.skipWhile Byte.joins pos := by
  obtain ⟨single, hsingle, hword⟩ := exists_munchTable_joins h
  have hfound : (munchTable.find? fun entry => src.startsWith pos entry.1).isSome := by
    rw [List.find?_isSome]
    exact ⟨single, hsingle, by rw [hword]; simp [Source.startsWith, hb]⟩
  obtain ⟨entry, hentry⟩ := Option.isSome_iff_exists.1 hfound
  have hmem := List.mem_of_find?_eq_some hentry
  have hstarts := List.find?_some hentry
  obtain ⟨hne, -⟩ := munchTable_ascii entry hmem
  obtain ⟨d, word, hcons⟩ := List.exists_cons_of_ne_nil hne
  have hd : d = b := by
    rw [hcons, Source.startsWith, Bool.and_eq_true, beq_iff_eq, hb, Option.some.injEq] at hstarts
    exact hstarts.1.symm
  have hjoins := munchTable_joins entry hmem b (by simp [hcons, hd]) h
  refine ⟨entry.2, pos + entry.1.length, by rw [munch?, hentry]; rfl, ?_,
    Source.le_skipWhile_of_startsWith hstarts hjoins⟩
  have := List.length_pos_iff.2 hne
  omega

/-- What a `>` is joined with belongs to the run behind it. -/
lemma joinGreater?_stop {p : Punctuation} {stop : Nat} (h : joinGreater? src pos = some (p, stop)) :
    src.isBoundary stop ∧ pos < stop ∧ stop ≤ src.skipWhile Byte.joins pos := by
  unfold joinGreater? at h
  split at h
  case isTrue hgreater =>
    rw [beq_iff_eq] at hgreater
    have hrun := Source.lt_skipWhile hgreater (p := Byte.joins) (by decide)
    split at h
    case isTrue hequals =>
      cases h
      rw [beq_iff_eq] at hequals
      have hbehind := Source.lt_skipWhile hequals (p := Byte.joins) (by decide)
      rw [Source.skipWhile_in_run (Nat.le_succ pos) hrun] at hbehind
      exact ⟨Source.isBoundary_behind_ascii hequals (by decide), by omega, hbehind⟩
    case isFalse =>
      cases h
      exact ⟨Source.isBoundary_behind_ascii hgreater (by decide), Nat.lt_succ_self pos, hrun⟩
  case isFalse =>
    split at h
    case isTrue hequals =>
      cases h
      simp only [Bool.and_eq_true, beq_iff_eq] at hequals
      exact ⟨Source.isBoundary_behind_ascii hequals.1.1 (by decide), Nat.lt_succ_self pos,
        Source.lt_skipWhile hequals.1.1 (by decide)⟩
    case isFalse => exact nomatch h

end Punctuation

lemma Gap.read_of_joins (hb : src.byteAt pos = some b) (h : Byte.joins b) :
    read src pos = { stop := pos } := by
  rw [Byte.joins, Bool.or_eq_true, beq_iff_eq, beq_iff_eq] at h
  rw [read]
  split
  case h_1 => rfl
  case h_2 b' hb' =>
    obtain rfl : b = b' := Option.some.inj (hb.symm.trans hb')
    obtain rfl | rfl := h <;> simp [Byte.isLineBreak, Byte.isBlank]

/-- The bytes that join are neither quotes nor digits, and they start no word. -/
lemma Lexeme.readCode_of_joins (modes : List Mode) (hb : src.byteAt pos = some b)
    (h : Byte.joins b) : readCode src modes pos b = readMark src pos := by
  rw [Byte.joins, Bool.or_eq_true, beq_iff_eq, beq_iff_eq] at h
  have hword : Word.startsAt src pos = false := by
    obtain rfl | rfl := h
    · rw [Word.startsAt, (Source.charAt_of_ascii hb (by decide)).1]
      decide
    · rw [Word.startsAt, (Source.charAt_of_ascii hb (by decide)).1]
      decide
  unfold readCode
  cases (src.byteAt (pos + 1)).bind Quote.ofByte? with
  | none =>
    obtain rfl | rfl := h <;>
      simp [Byte.isDigit, Numeral.startsWithPoint, hb, Quote.ofByte?, hword]
  | some quote =>
    obtain rfl | rfl := h <;>
      simp [Byte.isDigit, Numeral.startsWithPoint, hb, Quote.ofByte?, hword]

namespace Lexer

/-- In a run the next token is a mark that ends in the run, and nothing else changes. -/
lemma scan_of_joins (hcode : (Mode.top l.modes).isCode) (hb : src.byteAt l.pos = some b)
    (h : Byte.joins b) :
    (∃ p, (l.scan src).kind = .mark p) ∧ (l.scan src).modes = l.modes ∧ (l.scan src).log = l.log
      ∧ l.pos < (l.scan src).pos ∧ (l.scan src).pos ≤ src.skipWhile Byte.joins l.pos := by
  obtain ⟨p, stop, hmunch, hlt, hle⟩ := Punctuation.munch?_of_joins hb h
  have hgap := Gap.read_of_joins hb h
  obtain ⟨lexeme, e, ⟨hnone, -⟩ | ⟨first, hfirst, rfl⟩⟩ := scan_of_code src hcode
  · simp [hgap, hb] at hnone
  · rw [hgap] at hfirst e
    obtain rfl : b = first := Option.some.inj (hb.symm.trans hfirst)
    rw [e, Lexeme.readCode_of_joins l.modes hb h, Lexeme.readMark, hmunch]
    exact ⟨⟨p, rfl⟩, rfl, Array.append_empty, hlt, hle⟩

end Lexer

/-! ## Modes behind a `>` -/

namespace Lexeme

variable {modes : List Mode} {first : UInt8}

/-- Reading a `>` leaves the modes alone. -/
lemma change_of_greater (hfirst : src.byteAt pos = some first)
    (h : (readCode src modes pos first).kind = .mark .greater) :
    (readCode src modes pos first).change = .stay := by
  obtain ⟨-, e⟩ | ⟨-, e⟩ | ⟨quote, -, e⟩ | hplain := @readCode_cases src modes pos first hfirst
  · rw [e] at h
    exact nomatch h
  · rw [e, closeBrace] at h
    split at h <;> exact nomatch h
  · rw [e, StringText.readStart] at h
    split at h <;> exact nomatch h
  · exact hplain.change

lemma kind_stringText (quote : Quote) (multiLine : Bool) :
    (StringText.read src quote multiLine pos).kind ≠ .mark .greater := by
  unfold StringText.read StringText.unterminated
  split
  · exact nofun
  split
  · exact nofun
  split
  · exact nofun
  split <;> exact nofun

end Lexeme

namespace Lexer

/-- Only in code there is a `>`, and code goes on behind it. -/
lemma isCode_of_greater (h : (l.scan src).kind = .mark .greater) :
    (Mode.top (l.scan src).modes).isCode := by
  cases hmode : Mode.top l.modes with
  | text quote multiLine =>
    rw [scan_of_text hmode] at h
    exact absurd h (Lexeme.kind_stringText quote multiLine)
  | code braces =>
    have hcode : (Mode.top l.modes).isCode := by rw [hmode]; rfl
    obtain ⟨lexeme, e, ⟨-, rfl⟩ | ⟨first, hfirst, rfl⟩⟩ := scan_of_code src hcode
    · rw [e] at h
      exact nomatch Lexeme.endOfFile_kind.symm.trans h
    · rw [e] at h ⊢
      change (Mode.top (ModeChange.apply (Lexeme.readCode ..).change l.modes)).isCode
      rw [Lexeme.change_of_greater hfirst h]
      exact hcode

end Lexer

/-! ## What remains -/

namespace Lexer

/-- A state that reading on from a place in code can come to. -/
structure Regular (src : Source) (l : Lexer) : Prop where
  sound : l.Sound src
  ended : l.kind = .endOfFile → l.Ended src
  greater : l.kind = .mark .greater → (Mode.top l.modes).isCode

/-- A scan that goes on from a state comes to tokens of certain kinds only, and to a certain last
log. -/
def Remains (src : Source) (allowed : Kind → Prop) (log : Log) (l : Lexer) : Prop :=
  ∃ states last, Scans src l states last ∧ (∀ m ∈ states, allowed m.kind) ∧ last.log = log

variable {allowed : Kind → Prop} {log : Log}

namespace Regular

lemma ofSource (src : Source) : (ofSource src).Regular src :=
  ⟨sound_ofSource src, nofun, nofun⟩

lemma seek (pos : Nat) (l : Lexer) : (l.seek src pos).Regular src :=
  ⟨.seek pos l, nofun, nofun⟩

lemma scan (h : l.Regular src) : (l.scan src).Regular src :=
  ⟨h.sound.advances.sound, fun hkind => (h.sound.advances.ended hkind).1, isCode_of_greater⟩

lemma addFlags (h : l.Regular src) (flags : TokenFlags) : (l.addFlags flags).Regular src :=
  ⟨⟨h.sound.stacked, h.sound.placed⟩, fun hkind =>
    ⟨hkind, (h.ended hkind).pos, (h.ended hkind).modes⟩, h.greater⟩

lemma joinGreater (h : l.Regular src) : (l.joinGreater src).Regular src := by
  unfold Lexer.joinGreater
  split
  · split
    case h_1 p stop hjoin =>
      obtain ⟨hstop, -⟩ := Punctuation.joinGreater?_stop hjoin
      refine ⟨⟨h.sound.stacked, .inl hstop⟩, nofun, fun _ => h.greater ?_⟩
      assumption
    case h_2 => exact h
  · exact h

end Regular

namespace Remains

/-- What remains is a matter of the place, the modes and the log. -/
lemma congr (hpos : m.pos = l.pos) (hmodes : m.modes = l.modes) (hlog : m.log = l.log) :
    Remains src allowed log m ↔ Remains src allowed log l := by
  have hscan : m.scan src = l.scan src := by
    unfold scan accept
    rw [hpos, hmodes, hlog]
  have key {l m : Lexer} (hscan : m.scan src = l.scan src) (h : Remains src allowed log l) :
      Remains src allowed log m := by
    obtain ⟨states, last, hscans, hrest⟩ := h
    refine ⟨states, last, ?_, hrest⟩
    cases hscans with
    | last hkind =>
      rw [← hscan] at hkind ⊢
      exact .last hkind
    | next hkind rest =>
      rw [← hscan] at hkind rest ⊢
      exact .next hkind rest
  exact ⟨key hscan.symm, key hscan⟩

/-- Taking a token that is not the end of the text. -/
lemma scan_iff (hkind : (l.scan src).kind ≠ .endOfFile) (hallowed : allowed (l.scan src).kind) :
    Remains src allowed log (l.scan src) ↔ Remains src allowed log l := by
  constructor
  · rintro ⟨states, last, hscans, hstates, hlog⟩
    exact ⟨_, last, .next hkind hscans, List.forall_mem_cons.2 ⟨hallowed, hstates⟩, hlog⟩
  · rintro ⟨states, last, hscans, hstates, hlog⟩
    cases hscans with
    | last hend => exact absurd hend hkind
    | next _ rest => exact ⟨_, last, rest, (List.forall_mem_cons.1 hstates).2, hlog⟩

/-- Taking a token leaves what remains as it is. -/
lemma scan (h : l.Sound src) (hremains : Remains src allowed log l) :
    Remains src allowed log (l.scan src) ∧ allowed (l.scan src).kind := by
  obtain ⟨states, last, hscans, hstates, hlog⟩ := hremains
  cases hscans with
  | last hend =>
    obtain ⟨hended, hsame⟩ := (h.advances.ended hend).1.scan
    have hallowed := List.forall_mem_singleton.1 hstates
    refine ⟨⟨_, _, .last hended.kind, ?_, hsame.trans hlog⟩, hallowed⟩
    rw [List.forall_mem_singleton, hended.kind, ← hend]
    exact hallowed
  | next hkind rest =>
    obtain ⟨hallowed, hrest⟩ := List.forall_mem_cons.1 hstates
    exact ⟨⟨_, last, rest, hrest, hlog⟩, hallowed⟩

/-- All of a run may be passed over at once. -/
lemma run_iff (hmarks : ∀ p, allowed (.mark p)) (hcode : (Mode.top l.modes).isCode) :
    Remains src allowed log { l with pos := src.skipWhile Byte.joins l.pos }
      ↔ Remains src allowed log l := by
  -- Each token in the run leaves the place closer to its end.
  induction hn : src.skipWhile Byte.joins l.pos - l.pos using Nat.strongRecOn generalizing l with
  | ind n ih =>
    obtain heq | hlt := Nat.eq_or_lt_of_le (src.le_skipWhile Byte.joins l.pos)
    · rw [← heq]
    · obtain ⟨b, hb, hjoins⟩ := Source.byteAt_in_run (Nat.le_refl _) hlt
      obtain ⟨⟨p, hkind⟩, hmodes, hlog, hmoves, hle⟩ := scan_of_joins hcode hb hjoins
      have hend := Source.skipWhile_in_run (Nat.le_of_lt hmoves) hle
      have hrest := ih _ (by omega) (l := l.scan src) (by rw [hmodes]; exact hcode) rfl
      rw [hend] at hrest
      have hstep : Remains src allowed log (l.scan src) ↔ Remains src allowed log l :=
        scan_iff (by rw [hkind]; exact nofun) (by rw [hkind]; exact hmarks p)
      refine Iff.trans ?_ (hrest.trans hstep)
      exact congr rfl hmodes.symm hlog.symm

/-- Joining a `>` with what touches it leaves what remains as it is. -/
theorem joinGreater_iff (hmarks : ∀ p, allowed (.mark p)) (h : l.Regular src) :
    Remains src allowed log (l.joinGreater src) ↔ Remains src allowed log l := by
  unfold Lexer.joinGreater
  split
  case isTrue hgreater =>
    have hcode := h.greater hgreater
    split
    case h_1 p stop hjoin =>
      obtain ⟨-, hlt, hle⟩ := Punctuation.joinGreater?_stop hjoin
      have hjoined := @run_iff src { l with kind := .mark p, pos := stop } allowed log hmarks hcode
      rw [← hjoined, ← run_iff hmarks hcode]
      exact congr (Source.skipWhile_in_run (Nat.le_of_lt hlt) hle) rfl rfl
    case h_2 => rfl
  case isFalse => rfl

lemma addFlags (h : Remains src allowed log l) (flags : TokenFlags) :
    Remains src allowed log (l.addFlags flags) :=
  (congr (l := l) (m := l.addFlags flags) rfl rfl rfl).2 h

lemma scanKnown (h : l.Regular src) (hremains : Remains src allowed log l) :
    (l.scanKnown src).Regular src ∧ Remains src allowed log (l.scanKnown src) :=
  scanKnown_induction (P := fun m => m.Regular src ∧ Remains src allowed log m)
    (fun _ h => ⟨h.1.scan, (h.2.scan h.1.sound).1⟩)
    (fun _ flags h => ⟨h.1.addFlags flags, h.2.addFlags flags⟩) ⟨h, hremains⟩

/-- At the end of the text nothing remains to be reported. -/
lemma log_eq (h : l.Ended src) (hremains : Remains src allowed log l) : l.log = log := by
  obtain ⟨states, last, hscans, -, hlog⟩ := hremains
  obtain ⟨hended, hsame⟩ := h.scan
  cases hscans with
  | last => exact hsame.symm.trans hlog
  | next hkind => exact absurd hended.kind hkind

end Remains

end Lexer

end CangjieSyntax
