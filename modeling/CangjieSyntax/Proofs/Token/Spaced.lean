import CangjieSyntax.Proofs.Token.Sign

/-!
# Texts with a space between the tokens

Where signs are written with a space between them, the lexer scans them one by one. `l.Facing src
signs` says that it stands at the first of some signs. A mark that starts with `>` is read in two
steps: the lexer scans the `>`, and what is left is joined to it where an operator may stand.
-/

namespace CangjieSyntax

variable {src : Source} {l : Lexer} {t : Sign} {signs rest : List Sign}

lemma Sign.taken_append_left : ∀ t : Sign, t.Plain → t.taken ++ t.left = t.text.toList := by
  have key : ∀ p ∈ Sign.marks, (Sign.mark p).taken ++ (Sign.mark p).left = p.text.toList := by
    decide +kernel
  intro t ht
  cases t with
  | letter c => simp [taken, left, text]
  | mark p => exact key p ht

lemma Sign.length_spaced (rest : List Sign) :
    rest.length ≤ (Source.encoded (Sign.spaced rest)).length := by
  induction rest with
  | nil => exact Nat.zero_le _
  | cons t rest ih =>
    have e : Sign.spaced (t :: rest) = ' ' :: t.text.toList ++ Sign.spaced rest := rfl
    have hspace : (Source.encoded (' ' :: t.text.toList)).length
        = (Source.encoded t.text.toList).length + 1 := rfl
    rw [e, Source.encoded_append, List.length_append, hspace, List.length_cons]
    omega

/-- The token that the lexer has read is the first of some signs, or the end of the text. What is
left of the sign may have been joined to it or not; the other signs lie ahead. -/
inductive Lexer.HasRead (src : Source) (l : Lexer) : List Sign → Prop
  | endOfFile : l.kind = .endOfFile → HasRead src l []
  | scanned {t : Sign} {rest : List Sign} :
    l.kind = t.scanned → l.value = t.value → src.Ahead l.pos (t.left ++ Sign.spaced rest) →
    HasRead src l (t :: rest)
  | joined {t : Sign} {rest : List Sign} :
    l.kind = t.kind → l.value = t.value → src.Ahead l.pos (Sign.spaced rest) →
    HasRead src l (t :: rest)

/-- The lexer stands at the first of some signs, which are written on one line. -/
structure Lexer.Facing (src : Source) (l : Lexer) (signs : List Sign) : Prop where
  modes : l.modes = [.code 0]
  log : l.log = #[]
  sameLine : l.flags.lineBreak = false
  less : l.kind = .mark .less → l.flags.separated
  plain : ∀ t ∈ signs, t.Plain
  read : l.HasRead src signs

/-- The kind that the lexer finds in front of some signs. -/
def Sign.front : List Sign → Kind
  | [] => .endOfFile
  | t :: _ => t.scanned

/-- The kind of the first of some signs. -/
def Sign.headKind : List Sign → Kind
  | [] => .endOfFile
  | t :: _ => t.kind

namespace Lexer.Facing

lemma ahead_left {pos : Nat} (ht : t.Plain)
    (h : src.Ahead pos (t.text.toList ++ Sign.spaced rest)) :
    src.Ahead (t.lexeme pos).stop (t.left ++ Sign.spaced rest) := by
  rw [← t.taken_append_left ht, List.append_assoc] at h
  rw [Sign.lexeme, ← Source.size_utf8Encode]
  exact h.drop

/-- The lexer stands at the signs whose first one it reads without an error. -/
lemma of_read {start : Nat} {lexeme : Lexeme} (hmodes : l.modes = [.code 0]) (hlog : l.log = #[])
    (hread : Lexeme.read src [.code 0] l.pos = (start, lexeme)) (herrors : lexeme.errors = [])
    (hchange : lexeme.change = .stay) (hline : lexeme.flags.lineBreak = false)
    (hless : lexeme.kind = .mark .less → lexeme.flags.separated) (hplain : ∀ u ∈ signs, u.Plain)
    (hfound : (l.accept start lexeme).HasRead src signs) :
    l.scan src = l.accept start lexeme ∧ (l.scan src).Facing src signs := by
  have e : l.scan src = l.accept start lexeme := by
    rw [Lexer.scan, hmodes, hread]
  rw [e]
  refine ⟨rfl, ?_, ?_, hline, hless, hplain, hfound⟩
  · rw [Lexer.accept, hchange]
    exact hmodes
  · show l.log ++ (lexeme.errors.map fun e => e.1.diagnostic e.2.span) = #[]
    rw [hlog, herrors]
    rfl

/-- In front of a sign at the very start of a text, the lexer reads that sign. -/
lemma scan_first (hmodes : l.modes = [.code 0]) (hlog : l.log = #[])
    (hplain : ∀ u ∈ t :: rest, u.Plain) (hless : t ≠ .mark .less)
    (h : src.Ahead l.pos (t.text.toList ++ Sign.spaced rest)) :
    (l.scan src).Facing src (t :: rest) := by
  have ht := hplain t List.mem_cons_self
  have hscanned : t.scanned ≠ .mark .less := by
    intro e
    cases t with
    | letter c => exact nomatch e
    | mark p =>
      rw [Sign.scanned] at e
      split at e
      · exact nomatch e
      · exact hless (congrArg Sign.mark (Kind.mark.inj e))
  exact (of_read hmodes hlog (read_sign ht h) rfl rfl rfl (absurd · hscanned) hplain
    (.scanned rfl rfl (ahead_left ht h))).2

/-- In front of signs that each stand behind a space, the lexer reads the first of them. -/
lemma scan (hmodes : l.modes = [.code 0]) (hlog : l.log = #[])
    (hplain : ∀ u ∈ signs, u.Plain) (h : src.Ahead l.pos (Sign.spaced signs)) :
    (l.scan src).Facing src signs ∧ (l.scan src).kind = Sign.front signs := by
  cases signs with
  | nil =>
    obtain ⟨e, hfacing⟩ := of_read hmodes hlog (read_end h) rfl rfl rfl (fun e => nomatch e) hplain
      (.endOfFile rfl)
    exact ⟨hfacing, congrArg Lexer.kind e⟩
  | cons t rest =>
    have ht := hplain t List.mem_cons_self
    have h' : src.Ahead l.pos (' ' :: (t.text.toList ++ Sign.spaced rest)) := h
    obtain ⟨e, hfacing⟩ := of_read hmodes hlog (read_spaced_sign ht h') rfl rfl rfl (fun _ => rfl)
      hplain (.scanned rfl rfl (ahead_left ht h'.tail))
    exact ⟨hfacing, congrArg Lexer.kind e⟩

lemma scanKnown_eq (h : (l.scan src).kind ≠ .unknown) : l.scanKnown src = l.scan src := by
  have hflags (f : TokenFlags) : f.union {} = f := by
    simp [TokenFlags.union]
  rw [scanKnown, scanKnown.go, if_neg h, addFlags, hflags]

lemma kind_ne_unknown (h : l.Facing src signs) : l.kind ≠ .unknown := by
  cases h.read with
  | endOfFile e => rw [e]; exact fun e => nomatch e
  | @scanned t _ e => rw [e]; cases t <;> exact fun e => nomatch e
  | @joined t _ e => rw [e]; cases t <;> exact fun e => nomatch e

/-- No token in front of some signs is passed over. -/
lemma scanKnown_facing (h : (l.scan src).Facing src signs) :
    (l.scanKnown src).Facing src signs := by
  rwa [scanKnown_eq h.kind_ne_unknown]

/-- What a `>` and the bytes that touch it become in front of further signs. -/
lemma joinGreater?_mark {p : Punctuation} {pos : Nat} (hp : p ∈ Sign.marks)
    (hgreater : (Sign.mark p).scanned = .mark .greater)
    (h : src.Ahead pos ((Sign.mark p).left ++ Sign.spaced rest)) :
    Punctuation.joinGreater? src pos = if p.isJoined then some (p, pos + 1) else none := by
  have key : ∀ p ∈ Sign.marks, (Sign.mark p).scanned = .mark .greater →
      p = .greater ∨ p = .greaterEquals ∨ p = .greaterGreater := by
    decide +kernel
  have hspace := head?_encoded_spaced rest
  have hne (b : UInt8) (hb : b ≠ 0x20) :
      ((Source.encoded (Sign.spaced rest))[0]? == some b) = false := by
    rw [beq_eq_false_iff_ne, ← List.head?_eq_getElem?]
    exact fun e => hb (hspace b e)
  obtain rfl | rfl | rfl := key p hp hgreater
  · have hat : src.byteAt pos = (Source.encoded (Sign.spaced rest))[0]? := h.byteAt 0
    rw [Punctuation.joinGreater?, hat, hne 0x3E (by decide), hne 0x3D (by decide)]
    rfl
  · have hat : src.byteAt pos = some 0x3D := h.byteAt 0
    have hnext : src.byteAt (pos + 1) = (Source.encoded (Sign.spaced rest))[0]? := h.byteAt 1
    rw [Punctuation.joinGreater?, hat, hnext, bne, bne, hne 0x3E (by decide), hne 0x3D (by decide)]
    rfl
  · have hat : src.byteAt pos = some 0x3E := h.byteAt 0
    have hnext : src.byteAt (pos + 1) = (Source.encoded (Sign.spaced rest))[0]? := h.byteAt 1
    rw [Punctuation.joinGreater?, hat, hnext, hne 0x3D (by decide)]
    rfl

lemma left_of_isJoined {p : Punctuation} (hp : p ∈ Sign.marks) (h : p.isJoined) :
    ∃ c : Char, c.utf8Size = 1 ∧ (Sign.mark p).left = [c] := by
  have key : ∀ p ∈ Sign.marks, p.isJoined → (Sign.mark p).left = ['=']
      ∨ (Sign.mark p).left = ['>'] := by
    decide +kernel
  obtain e | e := key p hp h
  · exact ⟨_, rfl, e⟩
  · exact ⟨_, rfl, e⟩

/-- Where a `>` has been scanned, what is left of the sign lies ahead, if anything is left. -/
lemma ahead_left_of_greater (h : l.Facing src (t :: rest)) (hgreater : l.kind = .mark .greater) :
    t.scanned = .mark .greater ∧ src.Ahead l.pos (t.left ++ Sign.spaced rest) := by
  cases h.read with
  | scanned hkind _ hahead => exact ⟨hkind.symm.trans hgreater, hahead⟩
  | joined hkind _ hahead =>
    have e : t.kind = .mark .greater := hkind.symm.trans hgreater
    cases t with
    | letter c => exact nomatch e
    | mark p =>
      obtain rfl : p = .greater := Kind.mark.inj e
      exact ⟨rfl, hahead⟩

/-- Any other sign is scanned as a whole. -/
lemma kind_of_ne_greater (h : l.Facing src (t :: rest)) (hgreater : l.kind ≠ .mark .greater) :
    l.kind = t.kind := by
  cases h.read with
  | joined hkind => exact hkind
  | scanned hkind =>
    rw [hkind] at hgreater ⊢
    cases t with
    | letter c => rfl
    | mark p =>
      rw [Sign.scanned] at hgreater ⊢
      split
      case isTrue hp =>
        rw [if_pos hp] at hgreater
        exact absurd rfl hgreater
      case isFalse => rfl

lemma value_eq (h : l.Facing src (t :: rest)) : l.value = t.value := by
  cases h.read <;> assumption

lemma joinGreater_cons (h : l.Facing src (t :: rest)) :
    (l.joinGreater src).Facing src (t :: rest) ∧ (l.joinGreater src).kind = t.kind := by
  by_cases hgreater : l.kind = .mark .greater
  case neg =>
    rw [Lexer.joinGreater, if_neg hgreater]
    exact ⟨h, h.kind_of_ne_greater hgreater⟩
  case pos =>
    obtain ⟨hscanned, hahead⟩ := h.ahead_left_of_greater hgreater
    cases t with
    | letter c => exact nomatch hscanned
    | mark p =>
      have hp := h.plain _ List.mem_cons_self
      rw [Lexer.joinGreater, if_pos hgreater, joinGreater?_mark hp hscanned hahead]
      cases hjoined : p.isJoined with
      | true =>
        -- What is left is one character of one byte, which joining takes.
        obtain ⟨c, hsize, hc⟩ := left_of_isJoined hp hjoined
        rw [hc] at hahead
        have hrest := Source.Ahead.tail hahead
        rw [hsize] at hrest
        refine ⟨⟨h.modes, h.log, h.sameLine, fun e => ?_, h.plain, ?_⟩, rfl⟩
        · rw [Kind.mark.inj e] at hjoined
          exact nomatch hjoined
        · exact .joined rfl h.value_eq hrest
      | false =>
        have e : (Sign.mark p).scanned = .mark p := by
          simp [Sign.scanned, hjoined]
        exact ⟨h, hgreater.trans (hscanned.symm.trans e)⟩

/-- Joining completes the sign that the lexer stands at. -/
lemma joinGreater (h : l.Facing src signs) :
    (l.joinGreater src).Facing src signs ∧ (l.joinGreater src).kind = Sign.headKind signs := by
  cases signs with
  | cons t rest => exact h.joinGreater_cons
  | nil =>
    have hkind : l.kind = .endOfFile := by
      cases h.read
      assumption
    rw [Lexer.joinGreater, if_neg (by rw [hkind]; exact fun e => nomatch e)]
    exact ⟨h, hkind⟩

/-- Behind a sign that the lexer has read as a whole, the others lie ahead. -/
lemma ahead (h : l.Facing src (t :: rest)) (hkind : l.kind = t.kind) :
    src.Ahead l.pos (Sign.spaced rest) := by
  cases h.read with
  | joined _ _ hahead => exact hahead
  | scanned hscanned _ hahead =>
    cases t with
    | letter c => exact hahead
    | mark p =>
      have e : (if p.isJoined then Punctuation.greater else p) = p :=
        Kind.mark.inj (hscanned.symm.trans hkind)
      cases hp : p.isJoined with
      | true =>
        rw [if_pos hp] at e
        rw [← e] at hp
        exact nomatch hp
      | false =>
        have hleft : (Sign.mark p).left = [] := by
          simp [Sign.left, hp]
        rwa [hleft] at hahead

/-- The token behind a sign that the lexer has read as a whole. -/
lemma scan_next (h : l.Facing src (t :: rest)) (hkind : l.kind = t.kind) :
    (l.scan src).Facing src rest ∧ (l.scan src).kind = Sign.front rest :=
  scan h.modes h.log (fun u hu => h.plain u (List.mem_cons_of_mem _ hu)) (h.ahead hkind)

lemma scanKnown_next (h : l.Facing src (t :: rest)) (hkind : l.kind = t.kind) :
    (l.scanKnown src).Facing src rest :=
  scanKnown_facing (h.scan_next hkind).1

/-- A text has a byte for each sign behind the first one. -/
lemma length_le (h : l.Facing src signs) : signs.length ≤ src.size + 1 := by
  cases h.read with
  | endOfFile => exact Nat.zero_le _
  | @scanned t rest _ _ hahead =>
    have := hahead.size_eq
    have := Sign.length_spaced rest
    rw [Source.size_utf8Encode, Source.encoded_append, List.length_append] at *
    rw [List.length_cons]
    omega
  | @joined t rest _ _ hahead =>
    have := hahead.size_eq
    have := Sign.length_spaced rest
    rw [Source.size_utf8Encode] at *
    rw [List.length_cons]
    omega

end Lexer.Facing

end CangjieSyntax
