import CangjieSyntax.Proofs.Token.Session

/-!
# Flags and reports

What is wrong with a token is told twice: by a flag on the token, and by an error in the log. A literal
that is not closed, an escape that stands for nothing, the width of a number and a character that
belongs to no token are each found in one place of the reading, which sets the flag and reports the
error together. So whatever stands in a text, the flags of a token and the errors that were found while
it was read agree.
-/

namespace CangjieSyntax

variable {src : Source} {modes : List Mode} {pos start fence : Nat} {first : UInt8}

namespace LexErrors

variable {codes codes' : List Nat} {errors rest : LexErrors} {e : LexError} {b : Bounds}

/-- Some error has one of the codes. -/
def Report (codes : List Nat) (errors : LexErrors) : Prop :=
  ∃ e ∈ errors, e.1.code ∈ codes

/-- All errors have one of the codes. -/
def Only (codes : List Nat) (errors : LexErrors) : Prop :=
  ∀ e ∈ errors, e.1.code ∈ codes

@[simp] lemma report_nil : ¬ Report codes [] :=
  fun ⟨_, he, _⟩ => nomatch he

@[simp] lemma report_cons :
    Report codes ((e, b) :: rest) ↔ e.code ∈ codes ∨ rest.Report codes := by
  simp [Report]

@[simp] lemma report_append :
    Report codes (errors ++ rest) ↔ errors.Report codes ∨ rest.Report codes := by
  simp [Report, or_and_right, exists_or]

lemma only_nil : Only codes [] :=
  fun _ he => nomatch he

lemma Only.cons (he : e.code ∈ codes) (h : rest.Only codes) : Only codes ((e, b) :: rest) :=
  List.forall_mem_cons.2 ⟨he, h⟩

lemma Only.append (h : errors.Only codes) (h' : rest.Only codes) : Only codes (errors ++ rest) :=
  List.forall_mem_append.2 ⟨h, h'⟩

/-- Errors with other codes report none of the codes. -/
lemma Only.not_report (h : errors.Only codes) (hne : ∀ code ∈ codes, code ∉ codes') :
    ¬ errors.Report codes' :=
  fun ⟨e, he, hcode⟩ => hne _ (h e he) hcode

/-- The codes of literals that are not closed. -/
def unclosed : List Nat :=
  [1001, 1002, 1003, 1004]

/-- The codes of escapes that stand for nothing. -/
def badEscape : List Nat :=
  [1008, 1009, 1010]

/-- The code of a character that belongs to no token. -/
def badCharacter : List Nat :=
  [1013]

/-- The codes of all other errors, which no flag tells of. -/
def unflagged : List Nat :=
  [1005, 1006, 1007, 1011, 1012, 1014, 1015]

/-- The errors inside a literal, of which a flag tells whether some escape stands for nothing. -/
structure Inside (invalidEscape : Bool) (errors : LexErrors) : Prop where
  only : errors.Only (badEscape ++ unflagged)
  flag : invalidEscape ↔ errors.Report badEscape

namespace Inside

variable {invalid invalid' : Bool}

lemma nil : Inside false [] :=
  ⟨only_nil, by simp⟩

/-- An error that is not about an escape. -/
lemma single (he : e.code ∈ unflagged) : Inside false [(e, b)] := by
  refine ⟨only_nil.cons (List.mem_append_right _ he), ?_⟩
  have hne : e.code ∉ badEscape := fun h => (by decide : ∀ c ∈ badEscape, c ∉ unflagged) _ h he
  simp [hne]

lemma append (h : errors.Inside invalid) (h' : rest.Inside invalid') :
    Inside (invalid || invalid') (errors ++ rest) :=
  ⟨h.only.append h'.only, by rw [Bool.or_eq_true, h.flag, h'.flag, report_append]⟩

lemma concat (h : errors.Inside invalid) (he : e.code ∈ unflagged) :
    Inside invalid (errors ++ [(e, b)]) := by
  have := h.append (single (b := b) he)
  rwa [Bool.or_false] at this

end Inside

end LexErrors

open LexErrors

/-- The flags of a token, its width and its kind agree with the errors found in it. -/
structure Lexeme.Agrees (l : Lexeme) : Prop where
  unterminated : l.flags.unterminated ↔ l.errors.Report unclosed
  invalidEscape : l.flags.invalidEscape ↔ l.errors.Report badEscape
  suffixed : l.flags.suffixed ↔ l.suffix.isSome
  unknown : l.kind = .unknown ↔ l.errors.Report badCharacter

namespace Lexeme.Agrees

variable {l : Lexeme} {e : LexError} {b : Bounds}

/-- A known token with what was found inside it. -/
lemma of_inside (h : l.errors.Inside l.flags.invalidEscape)
    (hunterminated : l.flags.unterminated = false) (hsuffixed : l.flags.suffixed ↔ l.suffix.isSome)
    (hkind : l.kind ≠ .unknown) : l.Agrees where
  unterminated := iff_of_false (by simp [hunterminated]) (h.only.not_report (by decide))
  invalidEscape := h.flag
  suffixed := hsuffixed
  unknown := iff_of_false hkind (h.only.not_report (by decide))

/-- A known token of which no flag tells anything. -/
lemma of_unflagged (h : l.errors.Only unflagged) (hunterminated : l.flags.unterminated = false)
    (hescape : l.flags.invalidEscape = false) (hsuffixed : l.flags.suffixed ↔ l.suffix.isSome)
    (hkind : l.kind ≠ .unknown) : l.Agrees := by
  refine of_inside ⟨fun e he => List.mem_append_right _ (h e he), ?_⟩ hunterminated hsuffixed hkind
  exact iff_of_false (by simp [hescape]) (h.not_report (by decide))

/-- A known token with nothing wrong in it. -/
lemma of_clean (herrors : l.errors = []) (hflags : l.flags = {}) (hsuffix : l.suffix = none)
    (hkind : l.kind ≠ .unknown) : l.Agrees :=
  of_unflagged (herrors ▸ only_nil) (by rw [hflags]) (by rw [hflags])
    (by simp [hflags, hsuffix]) hkind

end Lexeme.Agrees

/-! ## Words, marks and numbers -/

lemma Word.agrees_read : (read src pos).Agrees := by
  unfold read
  dsimp only
  split
  · exact .of_clean rfl rfl rfl nofun
  · split <;> exact .of_clean rfl rfl rfl nofun

lemma Word.agrees_readRaw : (readRaw src pos).Agrees := by
  unfold readRaw
  dsimp only
  generalize (if startsAt src (pos + 1) then skip src (pos + 1) else pos + 1) = stop
  split
  · exact .of_clean rfl rfl rfl nofun
  · exact .of_unflagged (only_nil.cons (by decide)) rfl rfl (by simp) nofun

lemma Word.agrees_readDollar : (readDollar src pos).Agrees := by
  unfold readDollar
  split <;> exact .of_clean rfl rfl rfl nofun

/-- Between characters a mark stands, or a character that is reported. -/
lemma Lexeme.agrees_readMark (hpos : src.isBoundary pos) (hlt : pos < src.size) :
    (readMark src pos).Agrees := by
  unfold readMark
  split
  · exact .of_clean rfl rfl rfl nofun
  · obtain ⟨c, hc⟩ := Source.charAt_of_isBoundary hpos hlt
    rw [hc]
    constructor <;> simp [unclosed, badEscape, badCharacter, LexError.code]

namespace Numeral

/-- In a number without its width nothing can be missing but digits. -/
structure Body.Agrees (body : Body) : Prop where
  only : body.errors.Only unflagged
  flags : body.flags.unterminated = false ∧ body.flags.invalidEscape = false
    ∧ body.flags.suffixed = false

lemma agrees_readBased (base : Base) : (readBased src start base).Agrees := by
  have flags : base.flags.unterminated = false ∧ base.flags.invalidEscape = false
      ∧ base.flags.suffixed = false := by
    cases base <;> exact ⟨rfl, rfl, rfl⟩
  have missing {c : Prop} [Decidable c] {b : Bounds} :
      Only unflagged (if c then [] else [(.digitExpected, b)]) := by
    split
    · exact only_nil
    · exact only_nil.cons (by decide)
  unfold readBased
  dsimp only
  split
  · split
    · exact ⟨only_nil, flags⟩
    · exact ⟨missing, flags⟩
  · split
    · exact ⟨missing.append (only_nil.cons (by decide)), flags⟩
    · exact ⟨missing, flags⟩

lemma agrees_readDecimal : (readDecimal src start).Agrees := by
  unfold readDecimal
  dsimp only
  split
  · exact ⟨only_nil, rfl, rfl, rfl⟩
  · split <;> exact ⟨only_nil, rfl, rfl, rfl⟩

lemma agrees_readPointFirst : (readPointFirst src start).Agrees :=
  ⟨only_nil, rfl, rfl, rfl⟩

/-- The flag for a width is set just where there is one. -/
lemma agrees_withSuffix {body : Body} (h : body.Agrees) : (withSuffix src start body).Agrees := by
  have hkind : (withSuffix src start body).kind ≠ .unknown := by
    rw [kind_withSuffix]
    split <;> exact nofun
  obtain ⟨hunterminated, hescape, hsuffixed⟩ := h.flags
  unfold withSuffix at hkind ⊢
  dsimp only at hkind ⊢
  generalize (if body.isFloat then floatSuffixes else integerSuffixes) = suffixes at hkind ⊢
  split
  case isTrue hword =>
    rw [if_pos hword] at hkind
    split
    case isTrue hsuffix =>
      rw [if_pos hsuffix] at hkind
      exact .of_unflagged h.only hunterminated hescape (by simp) hkind
    case isFalse hsuffix =>
      rw [if_neg hsuffix] at hkind
      exact .of_unflagged (h.only.append (only_nil.cons (by simp [LexError.code, unflagged])))
        hunterminated hescape (by simp [hsuffixed]) hkind
  case isFalse hword =>
    rw [if_neg hword] at hkind
    exact .of_unflagged h.only hunterminated hescape (by simp [hsuffixed]) hkind

lemma agrees_read : (read src start).Agrees := by
  refine agrees_withSuffix ?_
  split
  · exact agrees_readBased _
  · exact agrees_readDecimal

end Numeral

/-! ## Strings, runes and bytes -/

/-- An escape that stands for nothing is reported as such. -/
lemma Escape.code_of_error {rule : EscapeRule} {e : LexError × Bounds}
    (h : (read src rule start).error = some e) : e.1.code ∈ badEscape := by
  unfold read at h
  split at h
  · cases h
  split at h
  · unfold readCodePoint at h
    dsimp only at h
    split at h
    · split at h
      · cases h
        simp [LexError.code, badEscape]
      · split at h
        · cases h
        · cases h
          simp [LexError.code, badEscape]
    · cases h
      simp [LexError.code, badEscape]
  · split at h
    · cases h
    · cases h
      simp [LexError.code, badEscape]

lemma Escape.inside_read (rule : EscapeRule) :
    LexErrors.Inside (read src rule start).error.isSome (read src rule start).error.toList := by
  cases he : (read src rule start).error with
  | none => exact .nil
  | some e =>
    have hcode := code_of_error he
    exact ⟨only_nil.cons (List.mem_append_left _ hcode), iff_of_true rfl ⟨e, by simp, hcode⟩⟩

namespace StringText

variable {quote : Quote} {multiLine : Bool}

lemma inside_readContent :
    (readContent src quote multiLine pos).errors.Inside
      (readContent src quote multiLine pos).invalidEscape := by
  fun_induction readContent src quote multiLine pos with
  | case1 | case2 => exact .nil
  | case3 pos _ _ _ escape rest ih => exact (Escape.inside_read .text).append ih
  | case4 pos _ _ _ c rest ih => exact ih

/-- A string that is not closed ends with an empty token that says so. -/
lemma agrees_unterminated : (unterminated pos).Agrees := by
  constructor <;> simp [unterminated, unclosed, badEscape, badCharacter, LexError.code]

lemma agrees_read (quote : Quote) (multiLine : Bool) : (read src quote multiLine pos).Agrees := by
  unfold read
  split
  · exact agrees_unterminated
  split
  · exact .of_clean rfl rfl rfl nofun
  split
  · exact .of_clean rfl rfl rfl nofun
  split
  · exact agrees_unterminated
  · exact .of_inside inside_readContent rfl (by simp) nofun

lemma agrees_readStart (quote : Quote) : (readStart src quote pos).Agrees := by
  unfold readStart
  split <;> exact .of_clean rfl rfl rfl nofun

end StringText

/-- A literal that is not closed, with what was found inside it. -/
lemma Lexeme.Agrees.of_unclosed {l : Lexeme} {inside : LexErrors} {e : LexError} {b : Bounds}
    (herrors : l.errors = inside ++ [(e, b)]) (h : inside.Inside l.flags.invalidEscape)
    (he : e.code ∈ unclosed) (hunterminated : l.flags.unterminated = true)
    (hsuffixed : l.flags.suffixed ↔ l.suffix.isSome) (hkind : l.kind ≠ .unknown) : l.Agrees where
  unterminated := iff_of_true hunterminated (by simp [herrors, he])
  invalidEscape := by
    have hne : e.code ∉ badEscape := (by decide : ∀ c ∈ unclosed, c ∉ badEscape) _ he
    simp [herrors, h.flag, hne]
  suffixed := hsuffixed
  unknown := by
    have hne : e.code ∉ badCharacter := (by decide : ∀ c ∈ unclosed, c ∉ badCharacter) _ he
    have hinside : ¬ inside.Report badCharacter := h.only.not_report (by decide)
    simp [herrors, hkind, hinside, hne]

namespace CharLiteral

lemma inside_readBody (isByte : Bool) :
    (readBody src isByte pos).errors.Inside (readBody src isByte pos).invalidEscape := by
  unfold readBody
  split
  · exact Escape.inside_read _
  · dsimp only
    split
    · exact .single (by decide)
    · exact .nil

lemma agrees_read (isByte : Bool) (quote : Quote) : (read src isByte quote start).Agrees := by
  have hkind : (if isByte then Kind.byteLiteral else .runeLiteral) ≠ .unknown := by
    split <;> exact nofun
  have body : (readBody src isByte (start + 2)).errors.Inside _ := inside_readBody isByte
  unfold read
  dsimp only
  split
  · exact .of_unclosed (List.nil_append _).symm .nil (by decide) rfl (by simp) hkind
  split
  · exact .of_unflagged (only_nil.cons (by decide)) rfl rfl (by simp) hkind
  split
  · exact .of_inside body rfl (by simp) hkind
  split
  · exact .of_inside (body.concat (by decide)) rfl (by simp) hkind
  · exact .of_unclosed rfl body (by decide) rfl (by simp) hkind

lemma inside_readByteText :
    (readByteText src pos).errors.Inside (readByteText src pos).invalidEscape := by
  fun_induction readByteText src pos with
  | case1 | case2 | case3 => exact .nil
  | case4 pos _ _ _ _ escape rest ih => exact (Escape.inside_read .byte).append ih
  | case5 pos _ _ _ _ c stop rest _ ih => exact ih
  | case6 pos _ _ _ _ c stop rest _ ih => exact (Inside.single (by decide)).append ih

lemma agrees_readByteString : (readByteString src start).Agrees := by
  have body : (readByteText src (start + 2)).errors.Inside _ := inside_readByteText
  unfold readByteString
  dsimp only
  cases hclosed : (readByteText src (start + 2)).closed with
  | true => exact .of_inside body rfl (by simp) nofun
  | false => exact .of_unclosed rfl body (by decide) rfl (by simp) nofun

end CharLiteral

namespace RawString

lemma agrees_read (quote : Quote) : (read src fence quote start).Agrees := by
  unfold read
  dsimp only
  split
  · exact .of_unflagged only_nil rfl rfl (by simp) nofun
  · split
    · exact .of_unclosed (List.nil_append _).symm .nil (by simp [LexError.code, unclosed]) rfl
        (by simp) nofun
    · exact .of_unclosed (List.nil_append _).symm .nil (by simp [LexError.code, unclosed]) rfl
        (by simp) nofun

lemma agrees_readHash : (readHash src start).Agrees := by
  unfold readHash
  dsimp only
  split
  · exact agrees_read _
  · exact .of_clean rfl rfl rfl nofun

end RawString

/-! ## Any token -/

lemma Gap.only_errors : (read src pos).errors.Only [1005] := by
  fun_induction read src pos with
  | case1 | case6 => exact only_nil
  | case2 pos b _ _ rest ih | case3 pos b _ _ _ rest ih | case4 pos b _ _ _ _ rest ih => exact ih
  | case5 pos b _ _ _ _ _ comment rest ih =>
    dsimp only
    split
    · exact ih
    · exact .cons (by decide) ih

namespace Lexeme

lemma agrees_closeBrace : (closeBrace modes pos).Agrees := by
  unfold closeBrace
  split <;> exact .of_clean rfl rfl rfl nofun

lemma agrees_endOfFile : (endOfFile src modes pos).Agrees := by
  unfold endOfFile
  split
  · exact .of_unflagged (only_nil.cons (by decide)) rfl rfl (by simp) nofun
  · exact .of_clean rfl rfl rfl nofun

lemma agrees_readCode (hpos : src.isBoundary pos) (hfirst : src.byteAt pos = some first) :
    (readCode src modes pos first).Agrees := by
  have word : (if Word.startsAt src pos then Word.read src pos else readMark src pos).Agrees := by
    split
    · exact Word.agrees_read
    · exact agrees_readMark hpos (Source.lt_size_of_byteAt hfirst)
  unfold readCode
  dsimp only
  split
  · exact .of_clean rfl rfl rfl nofun
  split
  · exact agrees_closeBrace
  split
  · exact Word.agrees_readDollar
  split
  · exact RawString.agrees_readHash
  split
  · exact Word.agrees_readRaw
  split
  · exact Numeral.agrees_read
  split
  · exact Numeral.agrees_withSuffix Numeral.agrees_readPointFirst
  split
  · exact StringText.agrees_readStart _
  · split
    · exact CharLiteral.agrees_read false _
    split
    · split
      · exact CharLiteral.agrees_read true .single
      · exact CharLiteral.agrees_readByteString
    · exact word
  · exact word

/-- The gap in front of a token is read with it. What is wrong in a gap is told by no flag. -/
lemma Agrees.behind {l : Lexeme} (h : l.Agrees) (gap : Gap) (hgap : gap.errors.Only [1005]) :
    Agrees { l with flags := gap.flags.union l.flags, errors := gap.errors ++ l.errors } where
  unterminated := by
    have hno : ¬ gap.errors.Report unclosed := hgap.not_report (by decide)
    simp [TokenFlags.union, Gap.flags, h.unterminated, hno]
  invalidEscape := by
    have hno : ¬ gap.errors.Report badEscape := hgap.not_report (by decide)
    simp [TokenFlags.union, Gap.flags, h.invalidEscape, hno]
  suffixed := by simp [TokenFlags.union, Gap.flags, h.suffixed]
  unknown := by
    have hno : ¬ gap.errors.Report badCharacter := hgap.not_report (by decide)
    simp [h.unknown, hno]

/-- From a place between characters on, the next token agrees with what is reported on the way. -/
theorem agrees_read (modes : List Mode) (h : src.isBoundary pos) :
    (read src modes pos).2.Agrees := by
  unfold read
  split
  · exact StringText.agrees_read _ _
  · dsimp only
    split
    · exact agrees_endOfFile.behind _ Gap.only_errors
    case h_2 first hfirst =>
      exact (agrees_readCode (Gap.stop_read h).1 hfirst).behind _ Gap.only_errors

end Lexeme

/-! ## Any use of a lexer -/

/-- An operation that does not move the place into the inside of a character. -/
def Operation.KeepsBetween (src : Source) : Operation → Prop
  | seek pos => src.isBoundary (min pos src.size)
  | _ => True

lemma Lexer.isBoundary_joinGreater {l : Lexer} (h : src.isBoundary l.pos) :
    src.isBoundary (l.joinGreater src).pos := by
  unfold joinGreater
  split
  · split
    case h_1 p stop hjoin => exact (Punctuation.joinGreater?_stop hjoin).1
    case h_2 => exact h
  · exact h

namespace Session

variable {s : Session} {op : Operation} {ops : List Operation}

/-- The place of the lexer, and of every saved state, lies between characters. -/
structure Between (src : Source) (s : Session) : Prop where
  range : s.InRange src
  lexer : src.isBoundary s.lexer.pos
  saved : ∀ l ∈ s.saved, src.isBoundary l.pos

lemma Between.ofSource (src : Source) : Between src { lexer := .ofSource src } :=
  ⟨⟨.ofSource src, fun _ hl => nomatch hl⟩, Lexer.isBoundary_ofSource src, fun _ hl => nomatch hl⟩

lemma Between.step (h : s.Between src) (hop : op.KeepsBetween src) : (s.step src op).Between src := by
  have range := h.range.step op
  cases op with
  | scan =>
    exact ⟨range, (Lexer.advances_of_isBoundary h.range.lexer.sound h.lexer).2.boundary, h.saved⟩
  | joinGreater => exact ⟨range, Lexer.isBoundary_joinGreater h.lexer, h.saved⟩
  | save =>
    refine ⟨range, h.lexer, fun l hl => ?_⟩
    obtain hl | hl := List.mem_append.1 hl
    · exact h.saved l hl
    · exact List.eq_of_mem_singleton hl ▸ h.lexer
  | restore number =>
    unfold Session.step at range ⊢
    dsimp only at range ⊢
    split at range
    case h_1 l hl => exact ⟨range, h.saved l (List.mem_of_getElem? hl), h.saved⟩
    case h_2 => exact h
  | seek pos => exact ⟨range, hop, h.saved⟩
  | lookAhead count | addFlags flags | takeLog => exact ⟨range, h.lexer, h.saved⟩

lemma Between.run (h : s.Between src) (hops : ∀ op ∈ ops, op.KeepsBetween src) :
    (s.run src ops).Between src := by
  induction ops generalizing s with
  | nil => exact h
  | cons op ops ih =>
    obtain ⟨hop, hops⟩ := List.forall_mem_cons.1 hops
    exact ih (h.step hop) hops

/-- However a lexer has been used between the characters of a text, the next token agrees with what
is reported on the way to its end: a flag tells whether a literal is not closed, another one whether
an escape stands for nothing, a third one whether there is a width, and the token is unknown just
where a character is reported as belonging to no token. -/
theorem flags_agree_with_reports (src : Source) {ops : List Operation}
    (hops : ∀ op ∈ ops, op.KeepsBetween src) :
    let l := (run src { lexer := .ofSource src } ops).lexer
    let next := l.scan src
    ∃ reported : Log, next.log = l.log ++ reported
      ∧ (next.flags.unterminated ↔ ∃ d ∈ reported, d.code ∈ [1001, 1002, 1003, 1004])
      ∧ (next.flags.invalidEscape ↔ ∃ d ∈ reported, d.code ∈ [1008, 1009, 1010])
      ∧ (next.flags.suffixed ↔ next.suffix.isSome)
      ∧ (next.kind = .unknown ↔ ∃ d ∈ reported, d.code = 1013) := by
  intro l next
  have hl : src.isBoundary l.pos := ((Between.ofSource src).run hops).lexer
  have agrees := Lexeme.agrees_read l.modes hl
  set lexeme := (Lexeme.read src l.modes l.pos).2
  let reported : Log := (lexeme.errors.map fun e => e.1.diagnostic e.2.span).toArray
  have report (codes : List Nat) :
      (∃ d ∈ reported, d.code ∈ codes) ↔ lexeme.errors.Report codes := by
    simp [reported, Report, LexError.diagnostic]
  refine ⟨reported, ?_, ?_, ?_, ?_, ?_⟩
  · exact Array.toList_inj.1 (by simp [next, Lexer.scan, Lexer.accept, reported, lexeme])
  · rw [report]
    exact agrees.unterminated
  · rw [report]
    exact agrees.invalidEscape
  · exact agrees.suffixed
  · have := report badCharacter
    simp only [badCharacter, List.mem_singleton] at this
    rw [this]
    exact agrees.unknown

/-- A byte string that is not closed, with two escapes in it that stand for nothing. -/
theorem flags_agree_with_reports_of_byteString :
    let src := Source.ofString "é b\"\\q\\u\x7b110000\x7d"
    let ops : List Operation := [.seek 2]
    let l := (run src { lexer := .ofSource src } ops).lexer
    let next := l.scan src
    (∀ op ∈ ops, op.KeepsBetween src)
      ∧ next.flags.unterminated ∧ next.flags.invalidEscape
      ∧ (next.log.map (·.code)) = #[1008, 1009, 1001]
      ∧ ∃ reported : Log, next.log = l.log ++ reported
        ∧ (next.flags.unterminated ↔ ∃ d ∈ reported, d.code ∈ [1001, 1002, 1003, 1004])
        ∧ (next.flags.invalidEscape ↔ ∃ d ∈ reported, d.code ∈ [1008, 1009, 1010])
        ∧ (next.flags.suffixed ↔ next.suffix.isSome)
        ∧ (next.kind = .unknown ↔ ∃ d ∈ reported, d.code = 1013) := by
  intro src ops l next
  have hops : ∀ op ∈ ops, op.KeepsBetween src := by
    intro op hop
    obtain rfl := List.mem_singleton.1 hop
    change src.isBoundary (min 2 src.size)
    decide +kernel
  exact ⟨hops, by decide +kernel, by decide +kernel, by decide +kernel,
    flags_agree_with_reports src hops⟩

end Session

end CangjieSyntax
