import CangjieSyntax.Proofs.Token.Change
import CangjieSyntax.Proofs.Token.Scan

/-!
# Strings and holes are balanced

In a text that is scanned without errors every string is closed by the quotes that opened it, every
hole by the first brace that matches none inside it, and the depth behind a token counts the strings
and holes around it. `Balanced` says so by a grammar of tokens, which knows nothing of modes; that a
scan keeps to it is shown by splitting the tokens ahead at the one that closes the innermost mode.
-/

namespace CangjieSyntax

/-- The quotes that open and close a string. -/
def Quote.fence (quote : Quote) (multiLine : Bool) : List UInt8 :=
  List.replicate (if multiLine then 3 else 1) quote.byte

/-- The token is of a kind and written with certain bytes. -/
structure Token.Written (src : Source) (kind : Kind) (bytes : List UInt8) (t : Token) : Prop where
  kind : t.kind = kind
  starts : src.startsWith t.span.start bytes
  stop : t.span.stop = t.span.start + bytes.length

/-- What tokens stand in: the code of the file, the code of a hole, or the text of a string. -/
inductive Enclosure where
  | file
  | hole
  | string
  deriving DecidableEq

/-- Runs of tokens, each with the depth behind it, in which everything closes that opens: strings
with their own quotes, holes, and in holes the braces of code. In the file itself braces need not
match. The depth is one more for each string and each hole around a token. -/
inductive Balanced (src : Source) : Enclosure → Nat → List (Token × Nat) → Prop
  | nil (around : Enclosure) (depth : Nat) : Balanced src around depth []
  | plain {around : Enclosure} {depth : Nat} {t : Token} {rest : List (Token × Nat)}
    (hcode : around ≠ .string) (hkind : t.kind.isPlain) (hrest : Balanced src around depth rest) :
    Balanced src around depth ((t, depth) :: rest)
  | content {depth : Nat} {t : Token} {rest : List (Token × Nat)}
    (hkind : t.kind = .stringContent) (hrest : Balanced src .string depth rest) :
    Balanced src .string depth ((t, depth) :: rest)
  | brace {depth : Nat} {t : Token} {rest : List (Token × Nat)}
    (hkind : t.kind = .mark .openBrace ∨ t.kind = .mark .closeBrace)
    (hrest : Balanced src .file depth rest) : Balanced src .file depth ((t, depth) :: rest)
  | braces {depth : Nat} {opening closing : Token} {inner rest : List (Token × Nat)}
    (hopening : opening.Written src (.mark .openBrace) [0x7B])
    (hinner : Balanced src .hole depth inner)
    (hclosing : closing.Written src (.mark .closeBrace) [0x7D])
    (hrest : Balanced src .hole depth rest) :
    Balanced src .hole depth ((opening, depth) :: (inner ++ (closing, depth) :: rest))
  | hole {depth : Nat} {opening closing : Token} {inner rest : List (Token × Nat)}
    (hopening : opening.Written src .interpolationStart [0x24, 0x7B])
    (hinner : Balanced src .hole (depth + 1) inner)
    (hclosing : closing.Written src .interpolationEnd [0x7D])
    (hrest : Balanced src .string depth rest) :
    Balanced src .string depth ((opening, depth + 1) :: (inner ++ (closing, depth) :: rest))
  | string {around : Enclosure} {depth : Nat} {opening closing : Token}
    {inner rest : List (Token × Nat)} (hcode : around ≠ .string) (quote : Quote) (multiLine : Bool)
    (hopening : opening.Written src (if multiLine then .multiLineStringStart else .stringStart)
      (quote.fence multiLine))
    (hinner : Balanced src .string (depth + 1) inner)
    (hclosing : closing.Written src .stringEnd (quote.fence multiLine))
    (hrest : Balanced src around depth rest) :
    Balanced src around depth ((opening, depth + 1) :: (inner ++ (closing, depth) :: rest))

/-- What the innermost of a stack of modes reads. -/
def Mode.enclosure : List Mode → Enclosure
  | .text .. :: _ => .string
  | .code _ :: _ :: _ => .hole
  | [.code _] | [] => .file

variable {src : Source} {pos braces : Nat} {modes outer : List Mode} {quote : Quote}
  {multiLine : Bool} {l e last : Lexer} {states : List Lexer} {mode : Mode}

namespace StringText

lemma startsWith_fence (h : closes src quote multiLine pos) :
    src.startsWith pos (quote.fence multiLine) := by
  cases multiLine with
  | true => exact h
  | false => simpa [closes, Quote.fence, Source.startsWith] using h

/-- A piece of a string in which no error is found: the quotes that close the string, the mark that
opens a hole, or content. -/
lemma read_cases (h : (read src quote multiLine pos).errors = []) :
    (src.startsWith pos (quote.fence multiLine) ∧ read src quote multiLine pos
        = { kind := .stringEnd, stop := pos + (quote.fence multiLine).length, change := .leave })
      ∨ (src.startsWith pos [0x24, 0x7B] ∧ read src quote multiLine pos
        = { kind := .interpolationStart, stop := pos + 2, change := .enter (.code 0) })
      ∨ ((read src quote multiLine pos).kind = .stringContent
        ∧ (read src quote multiLine pos).change = .stay) := by
  unfold read at h ⊢
  split
  case isTrue hend =>
    rw [if_pos hend] at h
    exact nomatch h
  case isFalse hend =>
    rw [if_neg hend] at h
    split
    case isTrue hcloses =>
      refine .inl ⟨startsWith_fence hcloses, ?_⟩
      rw [Quote.fence, List.length_replicate]
    case isFalse hcloses =>
      rw [if_neg hcloses] at h
      split
      case isTrue hopens => exact .inr (.inl ⟨by simpa [opensHole, Source.startsWith] using hopens, rfl⟩)
      case isFalse hopens =>
        rw [if_neg hopens] at h
        split
        case isTrue hbreaks =>
          rw [if_pos hbreaks] at h
          exact nomatch h
        case isFalse => exact .inr (.inr ⟨rfl, rfl⟩)

/-- The quotes that open a string. -/
lemma readStart_written (hfirst : src.byteAt pos = some quote.byte) :
    ∃ multiLine, src.startsWith pos (quote.fence multiLine) ∧ readStart src quote pos
      = { kind := if multiLine then .multiLineStringStart else .stringStart
          stop := pos + (quote.fence multiLine).length, change := .enter (.text quote multiLine) } := by
  unfold readStart
  split
  case isTrue hthree =>
    refine ⟨true, ?_, rfl⟩
    change (src.byteAt pos == some quote.byte && src.startsWith (pos + 1) [quote.byte, quote.byte])
    rw [hfirst, hthree]
    exact Bool.and_eq_true_iff.2 ⟨beq_self_eq_true _, rfl⟩
  case isFalse => exact ⟨false, by simp [Quote.fence, Source.startsWith, hfirst], rfl⟩

end StringText

namespace Lexer

/-- The token with the depth behind it. -/
def mark (l : Lexer) : Token × Nat :=
  (l.token, l.depth)

/-- The token closes a mode: the text of a string, the code of a hole, or the last brace opened in
that code. -/
def Closes (src : Source) (outer : List Mode) (e : Lexer) : Mode → Prop
  | .text quote multiLine => e.token.Written src .stringEnd (quote.fence multiLine) ∧ e.modes = outer
  | .code 0 => e.token.Written src .interpolationEnd [0x7D] ∧ e.modes = outer
  | .code (braces + 1) =>
    e.token.Written src (.mark .closeBrace) [0x7D] ∧ e.modes = .code braces :: outer

lemma written {kind : Kind} {bytes : List UInt8} (hkind : e.kind = kind)
    (hbytes : src.startsWith e.start bytes) (hpos : e.pos = e.start + bytes.length) :
    e.token.Written src kind bytes := by
  have hle : e.start ≤ e.pos := hpos ▸ Nat.le_add_right _ _
  exact ⟨hkind, hbytes, (Span.stop_ofBounds hle).trans hpos⟩

lemma errors_of_log_accept {start : Nat} {lexeme : Lexeme}
    (h : (l.accept start lexeme).log = #[]) : lexeme.errors = [] := by
  have e := congrArg Array.toList h
  simp only [accept, Array.toList_appendList, List.append_eq_nil_iff, List.map_eq_nil_iff] at e
  exact e.2

/-- What the next token of a string does. -/
lemma scan_text_cases (hmodes : l.modes = .text quote multiLine :: outer)
    (hlog : (l.scan src).log = #[]) :
    Closes src outer (l.scan src) (.text quote multiLine)
      ∨ ((l.scan src).token.Written src .interpolationStart [0x24, 0x7B]
        ∧ (l.scan src).modes = .code 0 :: l.modes)
      ∨ ((l.scan src).kind = .stringContent ∧ (l.scan src).modes = l.modes) := by
  have hscan : l.scan src = l.accept l.pos (StringText.read src quote multiLine l.pos) :=
    scan_of_text (by rw [hmodes]; rfl)
  have herrors : (StringText.read src quote multiLine l.pos).errors = [] :=
    errors_of_log_accept (hscan ▸ hlog)
  rw [hscan]
  obtain ⟨hbytes, e⟩ | ⟨hbytes, e⟩ | ⟨hkind, hchange⟩ := StringText.read_cases herrors
  · refine .inl ⟨?_, ?_⟩
    · rw [e]
      exact written rfl hbytes rfl
    · rw [e, accept, hmodes]
      rfl
  · refine .inr (.inl ⟨?_, ?_⟩)
    · rw [e]
      exact written rfl hbytes rfl
    · rw [e]
      rfl
  · exact .inr (.inr ⟨hkind, by rw [accept, hchange]; rfl⟩)

/-- What the next token of code does. -/
lemma scan_code_cases (hmodes : l.modes = .code braces :: outer) (hlog : (l.scan src).log = #[]) :
    (outer = [] ∧ (l.scan src).kind = .endOfFile)
      ∨ ((l.scan src).token.Written src (.mark .openBrace) [0x7B]
        ∧ (l.scan src).modes = .code (braces + 1) :: outer)
      ∨ (outer = [] ∧ (l.scan src).kind = .mark .closeBrace
        ∧ (l.scan src).modes = [.code (braces - 1)])
      ∨ (outer ≠ [] ∧ Closes src outer (l.scan src) (.code braces))
      ∨ (∃ quote multiLine, (l.scan src).token.Written src
          (if multiLine then .multiLineStringStart else .stringStart) (quote.fence multiLine)
        ∧ (l.scan src).modes = .text quote multiLine :: l.modes)
      ∨ ((l.scan src).kind.isPlain ∧ (l.scan src).modes = l.modes) := by
  have hcode : (Mode.top l.modes).isCode := by rw [hmodes]; rfl
  obtain ⟨lexeme, hscan, hread⟩ := scan_of_code src hcode
  generalize Gap.read src l.pos = gap at hscan hread
  have herrors : lexeme.errors = [] :=
    (List.append_eq_nil_iff.1 (errors_of_log_accept (hscan ▸ hlog))).2
  rw [hscan]
  obtain ⟨-, rfl⟩ | ⟨first, hfirst, rfl⟩ := hread
  · left
    refine ⟨?_, Lexeme.endOfFile_kind⟩
    unfold Lexeme.endOfFile at herrors
    by_cases hlen : 1 < l.modes.length
    · rw [if_pos hlen] at herrors
      exact nomatch herrors
    · rw [hmodes] at hlen
      simpa using hlen
  right
  have hbyte : src.startsWith gap.stop [first] := by simp [Source.startsWith, hfirst]
  obtain ⟨rfl, e⟩ | ⟨rfl, e⟩ | ⟨quote, rfl, e⟩ | hplain :=
    @Lexeme.readCode_cases src l.modes gap.stop first hfirst
  · left
    refine ⟨?_, ?_⟩
    · rw [e]
      exact written rfl hbyte rfl
    · rw [e, accept, hmodes]
      rfl
  · right
    rw [e, Lexeme.closeBrace]
    by_cases hhole : Mode.top l.modes = .code 0 ∧ 1 < l.modes.length
    · rw [if_pos hhole]
      right; left
      rw [hmodes] at hhole
      obtain ⟨htop, hlen⟩ := hhole
      obtain rfl : braces = 0 := Mode.code.inj htop
      refine ⟨by rintro rfl; simp at hlen, written rfl hbyte rfl, ?_⟩
      rw [accept, hmodes]
      rfl
    · rw [if_neg hhole]
      have hmodes' : (ModeChange.closeBrace.apply l.modes) = .code (braces - 1) :: outer := by
        rw [hmodes]
        rfl
      by_cases houter : outer = []
      · left
        exact ⟨houter, rfl, by rw [accept, hmodes', houter]⟩
      · right; left
        refine ⟨houter, ?_⟩
        cases braces with
        | zero =>
          refine absurd ⟨by rw [hmodes]; rfl, ?_⟩ hhole
          rw [hmodes, List.length_cons]
          exact Nat.succ_lt_succ (List.length_pos_iff.2 houter)
        | succ braces => exact ⟨written rfl hbyte rfl, hmodes'⟩
  · right; right; right; left
    obtain ⟨multiLine, hbytes, hstart⟩ := StringText.readStart_written hfirst
    rw [e, hstart]
    exact ⟨quote, multiLine, written rfl hbytes rfl, rfl⟩
  · right; right; right; right
    exact ⟨hplain.kind, by rw [accept, hplain.change]; rfl⟩

/-- Errors that have been reported stay in the log. -/
lemma Scans.log_scan_eq (h : Scans src l states last) (hlog : last.log = #[]) :
    (l.scan src).log = #[] := by
  have hprefix : (l.scan src).log.toList <+: last.log.toList := by
    clear hlog
    induction h with
    | last => exact List.prefix_refl _
    | next _ _ ih => exact log_scan.trans ih
  rw [hlog, Array.toList_empty, List.prefix_nil] at hprefix
  exact Array.toList_eq_nil_iff.1 hprefix

/-- The tokens ahead of a stack of modes: what each mode still holds is balanced, and a token that
closes the mode follows it, up to the end of the text. -/
inductive Unwinds (src : Source) (last : Lexer) : List Mode → List Lexer → Prop
  | outermost {inner : List Lexer} (braces : Nat) (hkind : last.kind = .endOfFile)
    (hdepth : last.depth = 1) (hinner : Balanced src .file 1 (inner.map mark)) :
    Unwinds src last [.code braces] (inner ++ [last])
  | closing {mode : Mode} {outer : List Mode} {inner rest : List Lexer} {e : Lexer}
    (houter : outer ≠ []) (hcloses : Closes src outer e mode)
    (hinner : Balanced src (Mode.enclosure (mode :: outer)) (outer.length + 1) (inner.map mark))
    (hrest : Unwinds src last e.modes rest) : Unwinds src last (mode :: outer) (inner ++ e :: rest)

/-- What is balanced by itself may stand in front. -/
lemma Unwinds.prepend {piece : List Lexer} (h : Unwinds src last modes states)
    (hpiece : ∀ ts, Balanced src (Mode.enclosure modes) modes.length ts →
      Balanced src (Mode.enclosure modes) modes.length (piece.map mark ++ ts)) :
    Unwinds src last modes (piece ++ states) := by
  cases h with
  | outermost braces hkind hdepth hinner =>
    rw [← List.append_assoc]
    exact .outermost braces hkind hdepth (List.map_append ▸ hpiece _ hinner)
  | closing houter hcloses hinner hrest =>
    rw [← List.append_assoc]
    exact .closing houter hcloses (List.map_append ▸ hpiece _ hinner) hrest

/-- A token that changes no mode may stand in front. -/
lemma Unwinds.token (o : Lexer) (h : Unwinds src last modes states)
    (hpiece : ∀ ts, Balanced src (Mode.enclosure modes) modes.length ts →
      Balanced src (Mode.enclosure modes) modes.length (o.mark :: ts)) :
    Unwinds src last modes (o :: states) :=
  @Unwinds.prepend src modes last states [o] h hpiece

/-- A token may stand in front that opens the innermost mode, if what closes it leads back. -/
lemma Unwinds.enclose (o : Lexer) (h : Unwinds src last (mode :: outer) states) (houter : outer ≠ [])
    (hback : ∀ e, Closes src outer e mode → e.modes = modes)
    (hpiece : ∀ inner e ts, Closes src outer e mode → e.modes = modes →
      Balanced src (Mode.enclosure (mode :: outer)) (outer.length + 1) inner →
      Balanced src (Mode.enclosure modes) modes.length ts →
      Balanced src (Mode.enclosure modes) modes.length (o.mark :: (inner ++ e.mark :: ts))) :
    Unwinds src last modes (o :: states) := by
  cases h with
  | outermost => exact absurd rfl houter
  | @closing _ _ inner rest e _ hcloses hinner hrest =>
    have he := hback e hcloses
    have hprepend := @prepend src modes last rest (o :: (inner ++ [e])) (he ▸ hrest) fun ts hts => by
      simpa using hpiece _ e ts hcloses he hinner hts
    simpa using hprepend

/-- A token that closes something does not end the text. -/
lemma Closes.kind_ne (h : Closes src outer e mode) : e.kind ≠ .endOfFile := by
  cases mode with
  | text => exact fun hkind => nomatch h.1.kind.symm.trans hkind
  | code braces =>
    cases braces with
    | zero => exact fun hkind => nomatch h.1.kind.symm.trans hkind
    | succ => exact fun hkind => nomatch h.1.kind.symm.trans hkind

lemma mark_eq {depth : Nat} (h : l.modes.length = depth) : l.mark = (l.token, depth) := by
  rw [mark, Lexer.depth, h]

/-- A token of a string in front of what follows it. -/
lemma unwinds_next_of_text (hmodes : l.modes = .text quote multiLine :: outer) (houter : outer ≠ [])
    (hlog : (l.scan src).log = #[]) (hrest : Unwinds src last (l.scan src).modes states) :
    Unwinds src last l.modes (l.scan src :: states) := by
  obtain hcloses | ⟨hwritten, hopens⟩ | ⟨hkind, hsame⟩ := scan_text_cases hmodes hlog
  · rw [hmodes]
    exact @Unwinds.closing src last _ outer [] states _ houter hcloses (.nil _ _) hrest
  · rw [hopens] at hrest
    refine hrest.enclose _ (hmodes ▸ nofun) (fun e h => h.2) fun inner e ts h he hinner hts => ?_
    rw [mark_eq (congrArg List.length hopens), mark_eq (congrArg List.length he)]
    rw [hmodes] at hinner hts ⊢
    exact .hole hwritten hinner h.1 hts
  · rw [hsame] at hrest
    refine hrest.token _ fun ts hts => ?_
    rw [mark_eq (congrArg List.length hsame)]
    rw [hmodes] at hts ⊢
    exact .content hkind hts

/-- A token of code in front of what follows it. -/
lemma unwinds_next_of_code (hmodes : l.modes = .code braces :: outer)
    (hkind : (l.scan src).kind ≠ .endOfFile) (hlog : (l.scan src).log = #[])
    (hrest : Unwinds src last (l.scan src).modes states) :
    Unwinds src last l.modes (l.scan src :: states) := by
  have hcode : Mode.enclosure l.modes ≠ .string := by
    rw [hmodes]
    cases outer <;> exact nofun
  obtain ⟨-, hend⟩ | ⟨hwritten, hopens⟩ | ⟨rfl, hkind, hcloses⟩ | ⟨houter, hcloses⟩
    | ⟨quote, multiLine, hwritten, hopens⟩ | ⟨hplain, hsame⟩ := scan_code_cases hmodes hlog
  · exact absurd hend hkind
  · rw [hopens] at hrest
    have hdepth := congrArg List.length hopens
    by_cases houter : outer = []
    · subst houter
      rw [hmodes]
      cases hrest with
      | outermost _ hlast hone hinner =>
        refine @Unwinds.outermost src last (l.scan src :: _) braces hlast hone ?_
        rw [List.map_cons, mark_eq hdepth]
        exact .brace (.inl hwritten.kind) hinner
      | closing houter => exact absurd rfl houter
    · refine hrest.enclose _ houter (fun e h => h.2.trans hmodes.symm) fun inner e ts h he hinner hts => ?_
      rw [mark_eq hdepth, mark_eq (congrArg List.length he)]
      obtain ⟨mode, outer, rfl⟩ := List.exists_cons_of_ne_nil houter
      rw [hmodes] at hts ⊢
      exact .braces hwritten hinner h.1 hts
  · rw [hcloses] at hrest
    rw [hmodes]
    cases hrest with
    | outermost _ hlast hone hinner =>
      refine @Unwinds.outermost src last (l.scan src :: _) braces hlast hone ?_
      rw [List.map_cons, mark_eq (congrArg List.length hcloses)]
      exact .brace (.inr hkind) hinner
    | closing houter => exact absurd rfl houter
  · rw [hmodes]
    exact @Unwinds.closing src last _ outer [] states _ houter hcloses (.nil _ _) hrest
  · rw [hopens] at hrest
    refine hrest.enclose _ (hmodes ▸ nofun) (fun e h => h.2) fun inner e ts h he hinner hts => ?_
    rw [mark_eq (congrArg List.length hopens), mark_eq (congrArg List.length he)]
    exact .string hcode quote multiLine hwritten hinner h.1 hts
  · rw [hsame] at hrest
    refine hrest.token _ fun ts hts => ?_
    rw [mark_eq (congrArg List.length hsame)]
    exact .plain hcode hplain hts

/-- Without errors the text ends in the code of the file. -/
lemma modes_of_endOfFile (h : l.Sound src) (hkind : (l.scan src).kind = .endOfFile)
    (hlog : (l.scan src).log = #[]) : ∃ braces, l.modes = [.code braces] := by
  have hwritten {kind : Kind} {bytes : List UInt8} (h : (l.scan src).token.Written src kind bytes) :
      kind = .endOfFile := h.kind.symm.trans hkind
  obtain ⟨mode, outer, hmodes⟩ := List.exists_cons_of_ne_nil h.stacked.ne_nil
  cases mode with
  | text quote multiLine =>
    obtain hcloses | ⟨hopens, -⟩ | ⟨hcontent, -⟩ := scan_text_cases hmodes hlog
    · exact absurd hkind hcloses.kind_ne
    · exact nomatch hwritten hopens
    · exact nomatch hcontent.symm.trans hkind
  | code braces =>
    obtain ⟨rfl, -⟩ | ⟨hopens, -⟩ | ⟨-, hcloses, -⟩ | ⟨-, hcloses⟩ | ⟨quote, multiLine, hopens, -⟩
      | ⟨hplain, -⟩ := scan_code_cases hmodes hlog
    · exact ⟨braces, hmodes⟩
    · exact nomatch hwritten hopens
    · exact nomatch hcloses.symm.trans hkind
    · exact absurd hkind hcloses.kind_ne
    · cases multiLine <;> exact nomatch hwritten hopens
    · rw [hkind] at hplain
      exact nomatch hplain

/-- A scan without errors closes all modes in turn. -/
theorem Scans.unwinds (h : l.Sound src) (hscans : Scans src l states last) (hlog : last.log = #[]) :
    Unwinds src last l.modes states := by
  induction hscans with
  | @last l hkind =>
    obtain ⟨braces, hmodes⟩ := modes_of_endOfFile h hkind hlog
    obtain ⟨braces', hended⟩ := (h.advances.ended hkind).1.modes
    rw [hmodes]
    exact @Unwinds.outermost src _ [] braces hkind (congrArg List.length hended) (.nil _ _)
  | @next l _ _ hkind hrest ih =>
    obtain ⟨mode, outer, hmodes⟩ := List.exists_cons_of_ne_nil h.stacked.ne_nil
    have hnext := ih h.advances.sound hlog
    have hclean := (Scans.next hkind hrest).log_scan_eq hlog
    cases mode with
    | text quote multiLine =>
      refine unwinds_next_of_text hmodes ?_ hclean hnext
      rintro rfl
      have hlen := h.stacked.one_lt_length (by rw [hmodes]; rfl)
      rw [hmodes] at hlen
      exact absurd hlen (Nat.lt_irrefl 1)
    | code braces => exact unwinds_next_of_code hmodes hkind hclean hnext

/-- In a text that is scanned without errors strings and holes are balanced, and none is open at the
end of the text: each string closes with its own quotes and each hole with the first brace that
matches none inside it, the innermost first. The depth behind a token is one and one more for each
string and hole around it. -/
theorem scanAll_balanced (src : Source) (h : ((ofSource src).scanAll src).2.log = #[]) :
    ∃ body last, ((ofSource src).scanAll src).1 = body ++ [(last, 1)] ∧ last.kind = .endOfFile
      ∧ Balanced src .file 1 body := by
  have hsound := sound_ofSource src
  obtain ⟨states, last, hscans, e⟩ := hsound.scanAll_eq
  rw [e] at h ⊢
  have hunwinds : Unwinds src last [.code 0] states := hscans.unwinds hsound h
  cases hunwinds with
  | @outermost inner _ hkind hdepth hinner =>
    refine ⟨inner.map mark, last.token, ?_, hkind, hinner⟩
    rw [List.map_append, List.map_singleton, ← hdepth]
    rfl
  | closing houter => exact absurd rfl houter

/-- A string with a lambda in its hole, and in the lambda another string. -/
theorem scanAll_balanced_of_lambda :
    let src := Source.ofString "f(\"$\x7b \x7b => '\x7d' \x7d \x7d\")"
    ((ofSource src).scanAll src).2.log = #[] ∧ ((ofSource src).scanAll src).1.length = 14
      ∧ ∃ body last, ((ofSource src).scanAll src).1 = body ++ [(last, 1)] ∧ last.kind = .endOfFile
        ∧ Balanced src .file 1 body := by
  refine ⟨by decide +kernel, by decide +kernel, scanAll_balanced _ ?_⟩
  decide +kernel

end Lexer

end CangjieSyntax
