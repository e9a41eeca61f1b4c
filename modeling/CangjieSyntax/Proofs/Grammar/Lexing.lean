import CangjieSyntax.Proofs.Spans

/-!
# A parse on its way along a scan

A parse takes tokens, joins marks and gives readings up, and its lexer never leaves the way of the
plain scan: the tokens of the scan are those behind the lexer, whose errors are in its log, and those
ahead of it. A `>` joined with what touches it may hide a few marks of the scan, all of them in one
run of bytes; the lexer is compared behind that run.

Which tokens of the scan lie between two states of a parse is told by those that lie ahead of each.
-/

namespace CangjieSyntax

variable {src : Source} {l m last : Lexer} {states rest : List Lexer}

namespace Lexer

/-- From a state on a scan goes through the given states; at the end of the text, through none. -/
def Yields (src : Source) (l : Lexer) (states : List Lexer) : Prop :=
  (∃ last, Scans src l states last)
    ∨ states = [] ∧ l.pos = src.size ∧ ∃ braces, l.modes = [.code braces]

/-- A state on the way of a scan: some of its states lie behind, with what they have reported, and
the scan goes on through the others. -/
structure Along (src : Source) (states : List Lexer) (l : Lexer) : Prop where
  sound : l.Sound src
  parts : ∃ behind ahead, states = behind ++ ahead ∧ (∀ m ∈ behind, m.log.toList <+: l.log.toList)
    ∧ l.Yields src ahead

/-- The state behind the run of bytes that a `>` in code may be joined with. -/
def behindRun (src : Source) (l : Lexer) : Lexer :=
  { l with pos := if (Mode.top l.modes).isCode then src.skipWhile Byte.joins l.pos else l.pos }

/-- Where no mark can be joined, there is no run. -/
lemma behindRun_of_not (h : ¬((Mode.top l.modes).isCode ∧ src.byteIs l.pos Byte.joins)) :
    l.behindRun src = l := by
  unfold behindRun
  split
  case isFalse => rfl
  case isTrue hcode =>
    cases hb : src.byteAt l.pos with
    | none => rw [Source.skipWhile_none hb]
    | some b =>
      rw [Source.skipWhile_neg hb (Bool.eq_false_iff.2 fun hjoins => h ⟨hcode, ?_⟩)]
      exact Source.byteIs_iff.2 ⟨b, hb, hjoins⟩

/-- From inside a run its end is the same. -/
lemma pos_behindRun (hmodes : m.modes = l.modes) (hcode : (Mode.top l.modes).isCode)
    (hlt : l.pos < m.pos) (hle : m.pos ≤ src.skipWhile Byte.joins l.pos) :
    (m.behindRun src).pos = (l.behindRun src).pos := by
  change ite _ _ _ = ite _ _ _
  rw [hmodes, if_pos hcode, if_pos hcode]
  exact Source.skipWhile_in_run (Nat.le_of_lt hlt) hle

/-- How a scan goes on is a matter of the place, the modes and the log. -/
lemma Yields.congr (h : l.Yields src states) (hpos : m.pos = l.pos) (hmodes : m.modes = l.modes)
    (hlog : m.log = l.log) : m.Yields src states := by
  have hscan : m.scan src = l.scan src := by
    unfold scan accept
    rw [hpos, hmodes, hlog]
  obtain ⟨last, hscans⟩ | ⟨rfl, hend, hcode⟩ := h
  · refine .inl ⟨last, ?_⟩
    cases hscans with
    | last hkind =>
      rw [← hscan] at hkind ⊢
      exact .last hkind
    | next hkind rest =>
      rw [← hscan] at hkind rest ⊢
      exact .next hkind rest
  · exact .inr ⟨rfl, hpos.trans hend, hmodes ▸ hcode⟩

/-- The tokens of a scan start behind the place where it starts. -/
lemma Scans.le_start (h : l.Sound src) (hscans : Scans src l states last) :
    ∀ m ∈ states, l.pos ≤ m.start := by
  induction hscans with
  | last => exact List.forall_mem_singleton.2 h.advances.le_start
  | next _ _ ih =>
    have hstep := h.advances
    refine List.forall_mem_cons.2 ⟨hstep.le_start, fun m hm => ?_⟩
    exact Nat.le_trans (Nat.le_trans hstep.le_start hstep.start_le) (ih hstep.sound m hm)

/-- Of the tokens of a scan each one ends in front of the next ones. -/
lemma Scans.pairwise_token (h : l.Sound src) (hscans : Scans src l states last) :
    (states.map token).Pairwise fun t u => t.span.stop ≤ u.span.start := by
  induction hscans with
  | last => exact List.pairwise_singleton _ _
  | @next l _ states _ rest ih =>
    have hstep := h.advances
    refine List.pairwise_cons.2 ⟨fun u hu => ?_, ih hstep.sound⟩
    obtain ⟨m, hm, rfl⟩ := List.mem_map.1 hu
    exact (Span.stop_ofBounds hstep.start_le).trans_le (rest.le_start hstep.sound m hm)

lemma Scans.log_isPrefix (h : Scans src l states last) : l.log.toList <+: last.log.toList := by
  induction h with
  | last => exact log_scan
  | next _ _ ih => exact log_scan.trans ih

/-- What has been reported on the way is in the last log. -/
lemma Scans.log_isPrefix_of_mem (h : Scans src l states last) :
    ∀ m ∈ states, m.log.toList <+: last.log.toList := by
  induction h with
  | last => exact List.forall_mem_singleton.2 (List.prefix_refl _)
  | next _ rest ih => exact List.forall_mem_cons.2 ⟨rest.log_isPrefix, ih⟩

namespace Along

lemma congr (h : l.Along src states) (hpos : m.pos = l.pos) (hmodes : m.modes = l.modes)
    (hlog : m.log = l.log) : m.Along src states := by
  obtain ⟨behind, ahead, rfl, hbehind, hahead⟩ := h.parts
  refine ⟨⟨hmodes ▸ h.sound.stacked, ?_⟩, behind, ahead, rfl, hlog ▸ hbehind,
    hahead.congr hpos hmodes hlog⟩
  rw [hpos, hmodes]
  exact h.sound.placed

/-- In front of a scan. -/
lemma of_scans (h : l.Sound src) (hscans : Scans src l states last) : l.Along src states :=
  ⟨h, [], states, rfl, List.forall_mem_nil _, .inl ⟨last, hscans⟩⟩

/-- Taking a token, one more state lies behind. -/
lemma scan (h : l.Along src states) : (l.scan src).Along src states := by
  obtain ⟨behind, ahead, rfl, hbehind, hahead⟩ := h.parts
  have hkept : ∀ m ∈ behind, m.log.toList <+: (l.scan src).log.toList := fun m hm =>
    (hbehind m hm).trans log_scan
  have hmore : ∀ m ∈ behind ++ [l.scan src], m.log.toList <+: (l.scan src).log.toList :=
    List.forall_mem_append.2 ⟨hkept, List.forall_mem_singleton.2 (List.prefix_refl _)⟩
  refine ⟨h.sound.advances.sound, ?_⟩
  obtain ⟨last, hscans⟩ | ⟨rfl, hend, hcode⟩ := hahead
  · cases hscans with
    | last hkind =>
      obtain ⟨hended, -⟩ := h.sound.advances.ended hkind
      exact ⟨_, [], (List.append_nil _).symm, hmore, .inr ⟨rfl, hended.pos, hended.modes⟩⟩
    | next _ rest => exact ⟨_, _, by simp, hmore, .inl ⟨_, rest⟩⟩
  · have hended : ({ l with kind := .endOfFile } : Lexer).Ended src := ⟨rfl, hend, hcode⟩
    obtain ⟨hscan, -⟩ := hended.scan
    exact ⟨behind, [], rfl, hkept, .inr ⟨rfl, hscan.pos, hscan.modes⟩⟩

/-- The marks in a run may all be taken. -/
lemma run (hcode : (Mode.top l.modes).isCode) (h : l.Along src states) :
    Along src states { l with pos := src.skipWhile Byte.joins l.pos } := by
  -- Each mark in the run leaves the place closer to its end.
  induction hn : src.skipWhile Byte.joins l.pos - l.pos using Nat.strongRecOn generalizing l with
  | ind n ih =>
    obtain heq | hlt := Nat.eq_or_lt_of_le (src.le_skipWhile Byte.joins l.pos)
    · rwa [← heq]
    · obtain ⟨b, hb, hjoins⟩ := Source.byteAt_in_run (Nat.le_refl _) hlt
      obtain ⟨-, hmodes, hlog, hmoves, hle⟩ := scan_of_joins hcode hb hjoins
      have hend := Source.skipWhile_in_run (Nat.le_of_lt hmoves) hle
      have hrest := ih _ (by omega) (l := l.scan src) (by rw [hmodes]; exact hcode) h.scan rfl
      rw [hend] at hrest
      exact hrest.congr rfl hmodes.symm hlog.symm

lemma behindRun (h : l.Along src states) : (l.behindRun src).Along src states := by
  by_cases hcode : (Mode.top l.modes).isCode
  · exact (h.run hcode).congr (if_pos hcode) rfl rfl
  · exact h.congr (if_neg hcode) rfl rfl

lemma scan_behindRun (h : (l.behindRun src).Along src states) :
    ((l.scan src).behindRun src).Along src states := by
  by_cases hrun : (Mode.top l.modes).isCode ∧ src.byteIs l.pos Byte.joins
  · -- A mark of the run is taken, which leads no further than the run does.
    obtain ⟨hcode, hjoins⟩ := hrun
    obtain ⟨b, hb, hjoins⟩ := Source.byteIs_iff.1 hjoins
    obtain ⟨-, hmodes, hlog, hmoves, hle⟩ := scan_of_joins hcode hb hjoins
    exact h.congr (pos_behindRun hmodes hcode hmoves hle) hmodes hlog
  · rw [behindRun_of_not hrun] at h
    exact h.scan.behindRun

lemma joinGreater_behindRun (hregular : l.Regular src) (h : (l.behindRun src).Along src states) :
    ((l.joinGreater src).behindRun src).Along src states := by
  unfold Lexer.joinGreater
  split
  case isTrue hgreater =>
    have hcode := hregular.greater hgreater
    split
    case h_1 p stop hjoin =>
      obtain ⟨-, hlt, hle⟩ := Punctuation.joinGreater?_stop hjoin
      exact h.congr (pos_behindRun rfl hcode hlt hle) rfl rfl
    case h_2 => exact h
  case isFalse => exact h

/-- A state of the scan lies behind a state on its way, with what it has reported, or ahead. -/
lemma mem_states (h : (l.behindRun src).Along src states) (hm : m ∈ states) :
    m.log.toList <+: l.log.toList ∨ l.pos ≤ m.start := by
  obtain ⟨behind, ahead, rfl, hbehind, hahead⟩ := h.parts
  obtain hm | hm := List.mem_append.1 hm
  · exact .inl (hbehind m hm)
  · obtain ⟨last, hscans⟩ | ⟨rfl, -⟩ := hahead
    · have hle : l.pos ≤ (l.behindRun src).pos := by
        change l.pos ≤ ite _ _ _
        split
        · exact src.le_skipWhile Byte.joins l.pos
        · exact Nat.le_refl _
      exact .inr (Nat.le_trans hle (hscans.le_start h.sound m hm))
    · exact nomatch hm

end Along

end Lexer

/-! ## What a parse keeps of its lexer -/

/-- A property of lexers that taking and joining tokens keep. -/
structure Lexer.Kept (src : Source) (P : Lexer → Prop) : Prop where
  scan : ∀ {l}, l.Regular src → P l → P (l.scan src)
  addFlags : ∀ {l} (flags : TokenFlags), P l → P (l.addFlags flags)
  joinGreater : ∀ {l}, l.Regular src → P l → P (l.joinGreater src)

/-- A log of lexical errors is kept. -/
lemma Lexer.kept_lexical (src : Source) : Kept src fun l => ∀ d ∈ l.log, d.fault = .lexical where
  scan _ h d hd := (mem_log_scan hd).elim (h d) (by rintro ⟨e, -, rfl⟩; rfl)
  addFlags _ h := h
  joinGreater _ h := by rwa [log_joinGreater]

/-- The way of a scan is kept. -/
lemma Lexer.kept_along (src : Source) (states : List Lexer) :
    Kept src fun l => (l.behindRun src).Along src states where
  scan _ h := h.scan_behindRun
  addFlags _ h := h.congr rfl rfl rfl
  joinGreater hregular h := h.joinGreater_behindRun hregular

namespace Lexer.Kept

variable {P Q : Lexer → Prop} {env : Env} {s t : ParseState}

lemma and (h : Kept src P) (h' : Kept src Q) : Kept src fun l => P l ∧ Q l where
  scan hregular hl := ⟨h.scan hregular hl.1, h'.scan hregular hl.2⟩
  addFlags flags hl := ⟨h.addFlags flags hl.1, h'.addFlags flags hl.2⟩
  joinGreater hregular hl := ⟨h.joinGreater hregular hl.1, h'.joinGreater hregular hl.2⟩

lemma scanKnown (h : Kept src P) (hregular : l.Regular src) (hl : P l) :
    (l.scanKnown src).Regular src ∧ P (l.scanKnown src) :=
  scanKnown_induction (P := fun m => m.Regular src ∧ P m)
    (fun _ hm => ⟨hm.1.scan, h.scan hm.1 hm.2⟩)
    (fun _ flags hm => ⟨hm.1.addFlags flags, h.addFlags flags hm.2⟩) ⟨hregular, hl⟩

lemma step (h : Kept env.src P) (hs : s.lexer.Regular env.src ∧ P s.lexer) (hstep : Step env s t) :
    t.lexer.Regular env.src ∧ P t.lexer := by
  cases hstep with
  | advance =>
    obtain ⟨tentative, errorCount, muted, -, -, -, e⟩ := s.advance_eq env.src
    rw [e]
    exact h.scanKnown hs.1 hs.2
  | report span m args =>
    rw [(s.report_place span m args).1]
    exact hs
  | reportDepth span =>
    rw [(s.reportDepth_place span env.settings.maxDepth).1]
    exact hs
  | alloc | intern | deeper | shallower => exact hs

lemma tries (h : Kept env.src P) (hs : s.lexer.Regular env.src ∧ P s.lexer)
    (htries : Tries env s t) : t.lexer.Regular env.src ∧ P t.lexer := by
  induction htries with
  | refl => exact hs
  | tail _ hstep ih => exact h.step ih hstep

lemma turn (h : Kept env.src P) (hs : s.lexer.Regular env.src ∧ P s.lexer)
    (hsettled : s.tentative = {}) (hturn : Turn env s t) : t.lexer.Regular env.src ∧ P t.lexer := by
  cases hturn with
  | unmute | remember start | enclose owner => exact hs
  | joinGreater => exact ⟨hs.1.joinGreater, h.joinGreater hs.1 hs.2⟩
  | commit htries ok =>
    have hu := h.tries hs htries
    exact hu
  | giveUp htries =>
    -- What an attempt has taken is taken back.
    rw [(Inside.of_tries hsettled htries).giveUp_eq hsettled]
    exact hs

/-- The states of a parse whose lexers have a property that is kept. -/
def region (h : Kept env.src P) : Region env where
  mem s := Reachable env s ∧ s.lexer.Regular env.src ∧ P s.lexer
  loses := True
  sound hs := hs.1.sound
  step hs hstep := ⟨.step hs.1 hstep, h.step hs.2 hstep⟩

lemma settled_region (h : Kept env.src P) : h.region.Settled where
  tentative hs := hs.1.settled
  turn hs hturn := ⟨.turn hs.1 hturn, h.turn hs.2 hs.1.settled hturn⟩
  property _ _ := trivial

end Lexer.Kept

/-! ## The tokens ahead -/

/-- What may join with a `>` is no parenthesis. -/
lemma Punctuation.munch?_ne_closeParen {pos stop : Nat} {b : UInt8} {p : Punctuation}
    (hb : src.byteAt pos = some b) (h : Byte.joins b) (hmunch : munch? src pos = some (p, stop)) :
    p ≠ .closeParen := by
  have table : ∀ entry ∈ munchTable, entry.2 = .closeParen → entry.1 = [0x29] := by
    decide +kernel
  obtain ⟨entry, hentry, e⟩ := Option.map_eq_some_iff.1 hmunch
  cases e
  intro hclose
  have hstarts := List.find?_some hentry
  rw [table entry (List.mem_of_find?_eq_some hentry) hclose, Source.startsWith, hb] at hstarts
  simp only [Bool.and_eq_true, beq_iff_eq, Option.some.injEq] at hstarts
  obtain rfl := hstarts.1
  exact absurd h (by decide)

lemma Punctuation.joinGreater?_ne_closeParen {pos stop : Nat} {p : Punctuation}
    (h : joinGreater? src pos = some (p, stop)) : p ≠ .closeParen := by
  unfold joinGreater? at h
  grind

namespace Lexer

/-- The tokens that a scan from a state on comes to, the last of which is the end of the text. There
are none behind it. -/
def upcoming (src : Source) (l : Lexer) : List Token :=
  if l.kind = .endOfFile then [] else (l.scanAll src).1.map Prod.fst

/-- A token is the current one, whatever lies in front of it. -/
structure StandsAt (l : Lexer) (t : Token) : Prop where
  kind : l.kind = t.kind
  span : l.span = t.span
  value : l.value = t.value

/-- A scan from `l` has passed some tokens when the state `m` is reached, none of which lies ahead of
it. A `>` joined with what touches it counts as passed with the whole run. -/
inductive LeadsTo (src : Source) (l m : Lexer) : Prop
  | start (hkind : m.kind = .unknown) (h : l.upcoming src = m.upcoming src)
  | token (passed : List Token) (t : Token) (ht : m.StandsAt t)
    (h : l.upcoming src = passed ++ t :: m.upcoming src)
    (hpassed : ∀ u ∈ passed ++ [t], u.span.stop ≤ m.pos)
  | joined (passed : List Token) (p : Punctuation) (hkind : m.kind = .mark p) (hp : p ≠ .closeParen)
    (h : l.upcoming src = passed ++ (m.behindRun src).upcoming src)
    (hpassed : ∀ u ∈ passed, u.span.stop ≤ (m.behindRun src).pos)
  | ended (hkind : m.kind = .endOfFile)

lemma standsAt_token (l : Lexer) : l.StandsAt l.token :=
  ⟨rfl, rfl, rfl⟩

/-- Which tokens lie ahead is a matter of the place and the modes. -/
lemma upcoming_congr (hkind : m.kind = .endOfFile ↔ l.kind = .endOfFile) (hpos : m.pos = l.pos)
    (hmodes : m.modes = l.modes) (hlog : m.log = l.log) : m.upcoming src = l.upcoming src := by
  have hscan : m.scan src = l.scan src := by
    unfold scan accept
    rw [hpos, hmodes, hlog]
  have hgo (rounds : Nat) : scanAll.go src (rounds + 1) m = scanAll.go src (rounds + 1) l := by
    simp only [scanAll.go, hscan]
  unfold upcoming scanAll depth
  simp only [hkind, hmodes, hgo]

/-- Every token but the end of the text has others behind it. -/
lemma upcoming_eq (h : l.Sound src) (hkind : l.kind ≠ .endOfFile) :
    l.upcoming src = (l.scan src).token :: (l.scan src).upcoming src := by
  obtain ⟨states, last, hscans, e⟩ := h.scanAll_eq
  unfold upcoming
  rw [if_neg hkind, e]
  cases hscans with
  | last hend => rw [if_pos hend]; rfl
  | next hnext rest =>
    obtain ⟨states', last', hscans', e'⟩ := h.advances.sound.scanAll_eq
    rw [if_neg hnext, e', ← rest.unique hscans']
    simp

/-- The tokens ahead lie one behind the other. -/
lemma pairwise_upcoming (h : l.Sound src) :
    (l.upcoming src).Pairwise fun t u => t.span.stop ≤ u.span.start := by
  unfold upcoming
  split
  · exact .nil
  · obtain ⟨states, last, hscans, e⟩ := h.scanAll_eq
    rw [e, List.map_map]
    exact hscans.pairwise_token h

lemma kind_scan_of_joins {b : UInt8} (hcode : (Mode.top l.modes).isCode)
    (hb : src.byteAt l.pos = some b) (h : Byte.joins b) :
    (l.scan src).kind ≠ .mark .closeParen := by
  obtain ⟨p, stop, hmunch, -⟩ := Punctuation.munch?_of_joins hb h
  have hgap := Gap.read_of_joins hb h
  obtain ⟨lexeme, e, ⟨hnone, -⟩ | ⟨first, hfirst, rfl⟩⟩ := scan_of_code src hcode
  · simp [hgap, hb] at hnone
  · rw [hgap] at hfirst e
    obtain rfl : b = first := Option.some.inj (hb.symm.trans hfirst)
    rw [e, Lexeme.readCode_of_joins l.modes hb h, Lexeme.readMark, hmunch]
    exact fun hkind => Punctuation.munch?_ne_closeParen hb h hmunch (Kind.mark.inj hkind)

lemma upcoming_run (h : l.Sound src) (hkind : l.kind ≠ .endOfFile)
    (hcode : (Mode.top l.modes).isCode) : ∃ run,
      l.upcoming src = run ++ upcoming src { l with pos := src.skipWhile Byte.joins l.pos }
        ∧ ∀ u ∈ run, u.span.stop ≤ src.skipWhile Byte.joins l.pos := by
  -- Each mark in the run leaves the place closer to its end.
  induction hn : src.skipWhile Byte.joins l.pos - l.pos using Nat.strongRecOn generalizing l with
  | ind n ih =>
    obtain heq | hlt := Nat.eq_or_lt_of_le (src.le_skipWhile Byte.joins l.pos)
    · exact ⟨[], by rw [← heq]; rfl, fun _ hmem => nomatch hmem⟩
    · obtain ⟨b, hb, hjoins⟩ := Source.byteAt_in_run (Nat.le_refl _) hlt
      obtain ⟨⟨p, hmark⟩, hmodes, hlog, hmoves, hle⟩ := scan_of_joins hcode hb hjoins
      have hnext : (l.scan src).kind ≠ .endOfFile := by
        rw [hmark]
        exact nofun
      have hend := Source.skipWhile_in_run (Nat.le_of_lt hmoves) hle
      obtain ⟨run, hrun, hpassed⟩ := ih _ (by omega) (l := l.scan src) h.advances.sound hnext
        (by rw [hmodes]; exact hcode) rfl
      rw [hend] at hpassed
      have hstop : (l.scan src).token.span.stop = (l.scan src).pos :=
        Span.stop_ofBounds h.advances.start_le
      refine ⟨(l.scan src).token :: run, ?_, List.forall_mem_cons.2 ⟨hstop.trans_le hle, hpassed⟩⟩
      have hsame : upcoming src { l.scan src with pos := src.skipWhile Byte.joins l.pos }
          = upcoming src { l with pos := src.skipWhile Byte.joins l.pos } :=
        upcoming_congr (iff_of_false hnext hkind) rfl hmodes hlog
      rw [upcoming_eq h hkind, hrun, hend, hsame, List.cons_append]

namespace LeadsTo

lemma congr (h : l.LeadsTo src m) {m' : Lexer} (hkind : m'.kind = m.kind) (hspan : m'.span = m.span)
    (hvalue : m'.value = m.value) (hpos : m'.pos = m.pos) (hmodes : m'.modes = m.modes)
    (hlog : m'.log = m.log) : l.LeadsTo src m' := by
  have hsame : m'.upcoming src = m.upcoming src :=
    upcoming_congr (by rw [hkind]) hpos hmodes hlog
  cases h with
  | start hunknown h => exact .start (hkind.trans hunknown) (h.trans hsame.symm)
  | token passed t ht h hpassed =>
    exact .token passed t ⟨hkind.trans ht.kind, hspan.trans ht.span, hvalue.trans ht.value⟩
      (hsame ▸ h) (hpos ▸ hpassed)
  | joined passed p hmark hp h hpassed =>
    have hrun : (m.behindRun src).pos = (m'.behindRun src).pos := by
      simp only [behindRun, hpos, hmodes]
    refine .joined passed p (hkind.trans hmark) hp (h.trans (congrArg (passed ++ ·) ?_))
      (hrun ▸ hpassed)
    exact upcoming_congr (show _ ↔ m'.kind = _ by rw [hkind]; rfl) hrun hmodes.symm hlog.symm
  | ended hend => exact .ended (hkind.trans hend)

/-- Unless a mark of a run comes next, what has been passed ends where the scan goes on. -/
lemma passed (h : l.LeadsTo src m) (hkind : m.kind ≠ .endOfFile) :
    (∃ passed, l.upcoming src = passed ++ m.upcoming src ∧ ∀ u ∈ passed, u.span.stop ≤ m.pos)
      ∨ ((Mode.top m.modes).isCode ∧ src.byteIs m.pos Byte.joins) ∧ ∃ passed,
        l.upcoming src = passed ++ (m.behindRun src).upcoming src
          ∧ ∀ u ∈ passed, u.span.stop ≤ (m.behindRun src).pos := by
  cases h with
  | start _ h => exact .inl ⟨[], h, fun _ hmem => nomatch hmem⟩
  | token passed t ht h hpassed =>
    exact .inl ⟨passed ++ [t], h.trans (by rw [List.append_assoc]; rfl), hpassed⟩
  | joined passed p _ _ h hpassed =>
    by_cases hrun : (Mode.top m.modes).isCode ∧ src.byteIs m.pos Byte.joins
    · exact .inr ⟨hrun, passed, h, hpassed⟩
    · rw [behindRun_of_not hrun] at h hpassed
      exact .inl ⟨passed, h, hpassed⟩
  | ended hend => exact absurd hend hkind

lemma scan (hregular : m.Regular src) (h : l.LeadsTo src m) : l.LeadsTo src (m.scan src) := by
  by_cases hkind : m.kind = .endOfFile
  · exact .ended (hregular.ended hkind).scan.1.kind
  obtain ⟨passed, h, hpassed⟩ | ⟨⟨hcode, hjoins⟩, passed, h, hpassed⟩ := h.passed hkind
  · have hadvances := hregular.sound.advances
    refine .token passed _ (standsAt_token _) (upcoming_eq hregular.sound hkind ▸ h) ?_
    refine List.forall_mem_append.2 ⟨fun u hu => ?_, List.forall_mem_singleton.2 ?_⟩
    · exact (hpassed u hu).trans (hadvances.le_start.trans hadvances.start_le)
    · exact (Span.stop_ofBounds hadvances.start_le).le
  · -- A mark of the run is taken, which leads no further than the run does.
    obtain ⟨b, hb, hjoins⟩ := Source.byteIs_iff.1 hjoins
    have hnot := kind_scan_of_joins hcode hb hjoins
    obtain ⟨⟨q, hq⟩, hmodes, hlog, hmoves, hle⟩ := scan_of_joins hcode hb hjoins
    have hnext : (m.scan src).kind ≠ .endOfFile := by
      rw [hq]
      exact nofun
    have hend := pos_behindRun hmodes hcode hmoves hle
    have hsame : ((m.scan src).behindRun src).upcoming src = (m.behindRun src).upcoming src :=
      upcoming_congr (iff_of_false hnext hkind) hend hmodes hlog
    exact .joined passed q hq (fun e => hnot (e ▸ hq)) (hsame ▸ h) (hend ▸ hpassed)

lemma joinGreater (hregular : m.Regular src) (h : l.LeadsTo src m) :
    l.LeadsTo src (m.joinGreater src) := by
  unfold Lexer.joinGreater
  split
  case isFalse => exact h
  case isTrue hgreater =>
    split
    case h_2 => exact h
    case h_1 p stop hjoin =>
      have hcode := hregular.greater hgreater
      have hkind : m.kind ≠ .endOfFile := by
        rw [hgreater]
        exact nofun
      obtain ⟨-, hlt, hle⟩ := Punctuation.joinGreater?_stop hjoin
      have hend : (behindRun src { m with kind := .mark p, pos := stop }).pos = (m.behindRun src).pos :=
        pos_behindRun rfl hcode hlt hle
      have hsame : (behindRun src { m with kind := .mark p, pos := stop }).upcoming src
          = (m.behindRun src).upcoming src :=
        upcoming_congr (iff_of_false nofun hkind) hend rfl rfl
      have join (passed : List Token)
          (h : l.upcoming src = passed ++ (m.behindRun src).upcoming src)
          (hpassed : ∀ u ∈ passed, u.span.stop ≤ (m.behindRun src).pos) :
          l.LeadsTo src { m with kind := .mark p, pos := stop } :=
        .joined passed p rfl (Punctuation.joinGreater?_ne_closeParen hjoin) (hsame ▸ h) (hend ▸ hpassed)
      cases h with
      | start hunknown => exact nomatch hgreater.symm.trans hunknown
      | token passed t ht h hpassed =>
        obtain ⟨run, hrun, hbound⟩ := upcoming_run hregular.sound hkind hcode
        have hbehind : m.behindRun src = { m with pos := src.skipWhile Byte.joins m.pos } := by
          rw [Lexer.behindRun, if_pos hcode]
        rw [← hbehind] at hrun
        refine join (passed ++ [t] ++ run) ?_ (List.forall_mem_append.2 ⟨fun u hu => ?_, fun u hu => ?_⟩)
        · rw [h, hrun]
          simp
        · rw [hbehind]
          exact (hpassed u hu).trans (src.le_skipWhile Byte.joins m.pos)
        · rw [hbehind]
          exact hbound u hu
      | joined passed q _ _ h hpassed => exact join passed h hpassed
      | ended hend => exact absurd hend hkind

end LeadsTo

/-- Where a scan has led to is kept. -/
lemma kept_leadsTo (src : Source) (l : Lexer) : Kept src (l.LeadsTo src) where
  scan hregular h := h.scan hregular
  addFlags _ h := h.congr rfl rfl rfl rfl rfl rfl
  joinGreater hregular h := h.joinGreater hregular

end Lexer

end CangjieSyntax
