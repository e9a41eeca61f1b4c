import CangjieSyntax.Proofs.Pattern.Alternation
import CangjieSyntax.Proofs.Quote

/-!
# What headers and imports begin with

What an item of a file is, is decided by the first token behind its modifiers. Looking ahead,
words that can be modifiers are passed over whatever stands behind them; when the item is read, such
a word is a modifier only in front of a token on its line. So a package header or an import begins,
behind its modifiers, with the keywords it was known by, unless a line ends behind one of the words.
Then it begins with that word, and a fault is met.
-/

namespace CangjieSyntax

variable {env : Env} {src : Source} {origin k l : Lexer} {tokens : List Token} {ms : List Modifier}
  {s t : ParseState}

/-! ## Words and what they lead to -/

/-- A word that is a modifier in front of a declaration. -/
def Token.Spells (t : Token) (m : Modifier) : Prop :=
  t.kind = .identifier ∧ Modifier.ofWord? t.value = some m

/-- Among some tokens, modifiers stand in a row from an offset on, with others behind them. -/
def Modifiers.LeadAt (ms : Modifiers) (tokens : List Token) (start : Nat) (rest : List Token) :
    Prop :=
  ∃ before words list, tokens = before ++ (words ++ rest)
    ∧ (words ++ rest).head?.map (·.span.start) = some start ∧ ms = .ofList list
    ∧ List.Forall₂ Token.Spells words list

/-- Behind its modifiers, the import begins with a keyword of its own. -/
def ImportDecl.Begins (d : ImportDecl) (tokens : List Token) : Prop :=
  ∃ keyword rest, d.modifiers.LeadAt tokens d.span.start (keyword :: rest)
    ∧ (keyword.kind = .keyword .kwFrom ∨ keyword.kind = .keyword .kwImport)

/-- Behind its modifiers, the header begins with its keyword, perhaps behind that of macros. -/
def PackageHeader.Begins (header : PackageHeader) (tokens : List Token) : Prop :=
  ∃ keyword rest, keyword.kind = .keyword .kwPackage
    ∧ ((header.isMacro = false ∧ header.modifiers.LeadAt tokens header.span.start (keyword :: rest))
      ∨ header.isMacro = true ∧ ∃ first, first.kind = .keyword .kwMacro
        ∧ header.modifiers.LeadAt tokens header.span.start (first :: keyword :: rest))

/-- Behind some modifiers stands a word that could be one, but the line ends behind it. -/
def Modifiers.BreakOff (ms : Modifiers) (tokens : List Token) (start : Nat) : Prop :=
  ∃ word m next rest, ms.LeadAt tokens start (word :: next :: rest) ∧ word.Spells m
    ∧ next.flags.lineBreak = true

/-- The import begins with a keyword of its own, or breaks off in a faulty text. -/
def ImportDecl.Starts (d : ImportDecl) (tokens : List Token) (faulty : Prop) : Prop :=
  d.Begins tokens ∨ d.modifiers.BreakOff tokens d.span.start ∧ faulty

/-- The header begins with its keyword, or breaks off in a faulty text. -/
def PackageHeader.Starts (header : PackageHeader) (tokens : List Token) (faulty : Prop) : Prop :=
  header.Begins tokens ∨ header.modifiers.BreakOff tokens header.span.start ∧ faulty

/-- All imports of a file and its header start as they should, or break off in a faulty text. -/
structure FileTree.Starts (tree : FileTree) (tokens : List Token) (faulty : Prop) : Prop where
  imports : ∀ d ∈ tree.imports, d.Starts tokens faulty
  package : ∀ header ∈ tree.package, header.Starts tokens faulty

lemma FileTree.Starts.mono {tree : FileTree} {faulty faulty' : Prop}
    (h : tree.Starts tokens faulty) (himp : faulty → faulty') : tree.Starts tokens faulty' where
  imports d hd := (h.imports d hd).imp_right (And.imp_right himp)
  package header hheader := (h.package header hheader).imp_right (And.imp_right himp)

namespace Lexer

/-- From the current token on, words that can be modifiers stand in front of another token. -/
inductive WordsTo (src : Source) : Lexer → List Modifier → Lexer → Prop
  | here (l : Lexer) : WordsTo src l [] l
  | word {l k : Lexer} {m : Modifier} {ms : List Modifier} (hkind : l.kind = .identifier)
    (hword : Modifier.ofWord? l.value = some m) (hrest : WordsTo src (l.scan src) ms k) :
    WordsTo src l (m :: ms) k

lemma isModifierWord_iff : l.isModifierWord = true ↔
    l.kind = .identifier ∧ ∃ m, Modifier.ofWord? l.value = some m := by
  rw [isModifierWord, Bool.and_eq_true, beq_iff_eq, Option.isSome_iff_exists]

lemma exists_wordsTo (hkind : l.kindAfterModifiers src ≠ .identifier) :
    ∃ ms k, l.WordsTo src ms k ∧ k.kind = l.kindAfterModifiers src := by
  have walk (steps : Nat) (l : Lexer) (h : kindAfterModifiers.go src steps l ≠ .identifier) :
      ∃ ms k, l.WordsTo src ms k ∧ k.kind = kindAfterModifiers.go src steps l := by
    induction steps generalizing l with
    | zero => exact ⟨[], l, .here l, rfl⟩
    | succ steps ih =>
      rw [kindAfterModifiers.go] at h ⊢
      split
      case isTrue hword =>
        rw [if_pos hword] at h
        obtain ⟨ms, k, hrest, e⟩ := ih _ h
        obtain ⟨hkind, m, hm⟩ := isModifierWord_iff.1 hword
        exact ⟨m :: ms, k, .word hkind hm hrest, e⟩
      case isFalse => exact ⟨[], l, .here l, rfl⟩
  exact walk _ l hkind

/-- The `macro` that comes first is the one behind the words. -/
lemma WordsTo.scan_package (h : l.WordsTo src ms k) (hfirst : k.kind = .keyword .kwMacro)
    (hahead : l.macroPackageAhead src = true) : (k.scan src).kind = .keyword .kwPackage := by
  unfold macroPackageAhead at hahead
  generalize l.steps src = steps at hahead
  induction h generalizing steps with
  | here =>
    cases steps with
    | zero => exact nomatch hahead
    | succ steps =>
      rw [macroPackageAhead.go, if_pos (by simp [hfirst])] at hahead
      exact eq_of_beq hahead
  | word hkind _ _ ih =>
    cases steps with
    | zero => exact nomatch hahead
    | succ steps =>
      rw [macroPackageAhead.go, if_neg (by simp [hkind])] at hahead
      exact ih hfirst steps hahead

end Lexer

/-! ## The modifiers that are taken -/

namespace Lexer

/-- A token behind words that tells what an item is. -/
def TellsItem (k : Lexer) : Prop :=
  k.kind = .keyword .kwPackage ∨ k.kind = .keyword .kwMacro ∨ k.kind = .keyword .kwImport
    ∨ k.kind = .keyword .kwFrom

/-- In front of a token that tells what an item is stands no join of marks. -/
lemma WordsTo.ordinary (h : l.WordsTo src ms k) (hk : k.TellsItem) :
    l.kind ≠ .unknown ∧ l.kind ≠ .endOfFile ∧ ∀ p, l.kind = .mark p → p = .closeParen := by
  cases h with
  | here => obtain h | h | h | h := hk <;> simp [h]
  | word hkind => simp [hkind]

/-- In front of another word or a keyword, a word is a modifier unless a line ends behind it. -/
lemma WordsTo.atModifier (hkind : l.kind = .identifier) {m : Modifier}
    (hword : Modifier.ofWord? l.value = some m) (h : (l.scan src).WordsTo src ms k)
    (hk : k.TellsItem) : l.atModifier src = !(l.scan src).flags.lineBreak := by
  unfold Lexer.atModifier
  rw [isModifierWord_iff.2 ⟨hkind, m, hword⟩]
  cases h with
  | here => obtain h | h | h | h := hk <;> simp [h, Kind.isDeclarationKeyword]
  | word hnext => simp [hnext]

lemma WordsTo.concat {m : Modifier} (h : l.WordsTo src ms k) (hkind : k.kind = .identifier)
    (hword : Modifier.ofWord? k.value = some m) : l.WordsTo src (ms ++ [m]) (k.scan src) := by
  induction h with
  | here => exact .word hkind hword (.here _)
  | word hkind' hword' _ ih => exact .word hkind' hword' (ih hkind hword)

/-- The token that tells what an item is, or a word behind which a line ends. -/
def EndsWords (src : Source) (l k : Lexer) : Prop :=
  l = k ∨ l.kind = .identifier ∧ (∃ m, Modifier.ofWord? l.value = some m)
    ∧ (l.scan src).flags.lineBreak = true

end Lexer

lemma Modifiers.ofList_concat (list : List Modifier) (m : Modifier) :
    ofList (list ++ [m]) = (ofList list).insert m := by
  rw [ofList, List.foldl_append]
  rfl

namespace Rule

/-- Modifiers are taken up to the token that tells what the item is, or up to the end of a line. -/
lemma ensures_modifiers (hsettled : s.tentative = {}) (h : s.lexer.WordsTo env.src ms k)
    (hk : k.TellsItem) : Ensures env s (modifiers []) fun taken t => t.tentative = {}
      ∧ s.errorCount ≤ t.errorCount ∧ ∃ list, taken = .ofList list
      ∧ s.lexer.WordsTo env.src list t.lexer ∧ t.lexer.EndsWords env.src k := by
  refine .loop_invariant (R := fun taken t => t.tentative = {} ∧ s.errorCount ≤ t.errorCount
    ∧ ∃ list ahead, taken = .ofList list ∧ s.lexer.WordsTo env.src list t.lexer
      ∧ t.lexer.WordsTo env.src ahead k) ?_ ⟨hsettled, le_rfl, [], ms, rfl, .here _, h⟩
  rintro _ t ⟨ht, hcount, list, ahead, rfl, hbehind, hahead⟩
  have hkind : t.kind = t.lexer.kind := ParseState.kind_of_settled ht
  cases hahead with
  | here =>
    have hnone : t.modifier? env.src = none := by
      unfold ParseState.modifier?
      rw [hkind]
      obtain h | h | h | h := hk <;> rw [h]
    refine .view ?_
    rw [hnone]
    exact .pure ⟨ht, hcount, list, rfl, hbehind, .inl rfl⟩
  | @word _ _ m _ hword hm hrest =>
    have hmodifier : t.modifier? env.src
        = if (t.lexer.scan env.src).flags.lineBreak then none else some m := by
      unfold ParseState.modifier? ParseState.atModifier
      rw [hkind, hword]
      dsimp only
      rw [Lexer.WordsTo.atModifier hword hm hrest hk, hm]
      cases (t.lexer.scan env.src).flags.lineBreak <;> rfl
    refine .view ?_
    cases hline : (t.lexer.scan env.src).flags.lineBreak with
    | true =>
      rw [hmodifier, if_pos hline]
      exact .pure ⟨ht, hcount, list, rfl, hbehind, .inr ⟨hword, ⟨m, hm⟩, hline⟩⟩
    | false =>
      rw [hmodifier, if_neg (by simp [hline])]
      have hstep : Step env t (t.advance env.src) := .advance t
      have hnext : (t.advance env.src).lexer = t.lexer.scan env.src := by
        rw [ParseState.lexer_advance, Lexer.Facing.scanKnown_eq (hrest.ordinary hk).1]
      refine .advance (.pure ⟨hstep.settled ht, hcount.trans hstep.grows.errorCount, list ++ [m], _,
        (Modifiers.ofList_concat list m).symm, ?_, hnext ▸ hrest⟩)
      rw [hnext]
      exact hbehind.concat hword hm

end Rule

/-! ## Tokens in front of the item -/

namespace Lexer

/-- The words are the tokens that come next. -/
lemma WordsTo.passes {t : Token} (h : l.WordsTo src ms k) (hsound : l.Sound src)
    (ht : l.StandsAt t) : ∃ words last, k.StandsAt last ∧ List.Forall₂ Token.Spells words ms
      ∧ k.Sound src ∧ t :: l.upcoming src = words ++ last :: k.upcoming src := by
  induction h generalizing t with
  | here l => exact ⟨[], t, ht, .nil, hsound, rfl⟩
  | @word l k m ms hkind hword _ ih =>
    obtain ⟨words, last, hlast, hspells, hk, e⟩ := ih hsound.advances.sound (standsAt_token _)
    have hspelled : t.Spells m := ⟨ht.kind.symm.trans hkind, ht.value ▸ hword⟩
    refine ⟨t :: words, last, hlast, .cons hspelled hspells, hk, ?_⟩
    rw [upcoming_eq hsound (by simp [hkind]), e]
    rfl

/-- The modifiers that are taken lead, up to the token in front of which they end. -/
lemma WordsTo.leadAt (h : l.WordsTo src ms k) (hsound : l.Sound src)
    (hl : ∃ passed t, origin.ComesTo src passed t l) : k.Sound src ∧ ∃ last, k.StandsAt last
      ∧ (Modifiers.ofList ms).LeadAt (origin.upcoming src) l.span.start
        (last :: k.upcoming src) := by
  obtain ⟨passed, t, ht⟩ := hl
  obtain ⟨words, last, hlast, hspells, hk, e⟩ := h.passes hsound ht.stands
  refine ⟨hk, last, hlast, passed, words, ms, ?_, ?_, rfl, hspells⟩
  · rw [ht.upcoming, e]
  · rw [← e, ht.stands.span]
    rfl

end Lexer

/-! ## Items -/

section

variable {α β : Type} {k : Bool → Rule β} {c : Kind} {Q : β → ParseState → Prop}

lemma Ensures.optional_of_kind (hc : s.kind = c) (h : Ensures env (s.advance env.src) (k true) Q) :
    Ensures env s (Rule.optional c >>= k) Q := by
  intro b u e
  obtain ⟨taken, t, htaken, hrest⟩ := Rule.bind_eq_some.1 e
  cases (Rule.optional_of_kind hc).symm.trans htaken
  exact h b u hrest

lemma Ensures.optional_of_kind_ne (hc : s.kind ≠ c) (h : Ensures env s (k false) Q) :
    Ensures env s (Rule.optional c >>= k) Q := by
  intro b u e
  obtain ⟨taken, t, htaken, hrest⟩ := Rule.bind_eq_some.1 e
  cases (Rule.optional_of_kind_ne hc).symm.trans htaken
  exact h b u hrest

end

namespace Rule

variable {nesting : Nat}

/-- The lexer is on the way of a scan. -/
abbrev Along (env : Env) (origin : Lexer) (s : ParseState) : Prop :=
  Reachable env s ∧ s.lexer.Regular env.src ∧ origin.LeadsTo env.src s.lexer

/-- The modifiers that are taken lead up to the token that tells what the item is, or break off. -/
lemma ensures_leading (hs : Along env origin s) (h : s.lexer.WordsTo env.src ms k)
    (hk : k.TellsItem) : Ensures env s (modifiers []) fun taken t => t.tentative = {}
      ∧ ((t.lexer = k ∧ k.Sound env.src ∧ ∃ last, k.StandsAt last
          ∧ taken.LeadAt (origin.upcoming env.src) s.start (last :: k.upcoming env.src))
        ∨ t.kind = .identifier ∧ taken.BreakOff (origin.upcoming env.src) s.start) := by
  obtain ⟨hreachable, hregular, hleads⟩ := hs
  refine (ensures_modifiers hreachable.settled h hk).mono ?_
  rintro _ t ⟨ht, -, list, rfl, hwords, hends⟩
  obtain ⟨hknown, hend, hmark⟩ := h.ordinary hk
  obtain ⟨hsound, last, hlast, hlead⟩ :=
    hwords.leadAt hregular.sound (hleads.comesTo hknown hend hmark)
  obtain rfl | ⟨hword, ⟨m, hm⟩, hline⟩ := hends
  · exact ⟨ht, .inl ⟨rfl, hsound, last, hlast, hlead⟩⟩
  · rw [Lexer.upcoming_eq hsound (by simp [hword])] at hlead
    refine ⟨ht, .inr ⟨(ParseState.kind_of_settled ht).trans hword, last, m, _, _, hlead, ?_, hline⟩⟩
    exact ⟨hlast.kind.symm.trans hword, hlast.value ▸ hm⟩

/-- A token that is not there is a fault. -/
lemma ensures_require_of_ne {c : Kind} (hs : s.tentative = {}) (hc : s.kind ≠ c) :
    Ensures env s (require c) fun _ t => t.tentative = {} ∧ t.errorCount ≠ 0 := by
  refine (Tells.require (I := .builds env s) hs (.refl hs) c).mono ?_
  rintro _ t ⟨hbuilds, -, hfound⟩
  exact ⟨hbuilds.holds.settled, fun hclean => hc (hfound hclean).1⟩

/-- An import begins with its keyword, or breaks off with a fault. -/
lemma ensures_importDecl (hs : Along env origin s) (hclass : itemClass env.src s = .import) :
    Ensures env s (importDecl (callTo nesting)) fun d t =>
      d.Starts (origin.upcoming env.src) (t.errorCount ≠ 0) := by
  have hkind : s.lexer.kindAfterModifiers env.src = .keyword .kwFrom
      ∨ s.lexer.kindAfterModifiers env.src = .keyword .kwImport := by
    unfold itemClass at hclass
    split at hclass
    case h_2 => split at hclass <;> exact nomatch hclass
    all_goals simp_all
  have hitem : s.lexer.kindAfterModifiers env.src ≠ .identifier := by
    obtain h | h := hkind <;> simp [h]
  obtain ⟨ms, k, hwords, e⟩ := Lexer.exists_wordsTo hitem
  rw [← e] at hkind
  have hk : k.TellsItem := .inr (.inr hkind.symm)
  refine .view ((ensures_leading hs hwords hk).bind ?_)
  rintro taken t ⟨ht, ⟨-, -, last, hlast, hlead⟩ | ⟨hword, hbreak⟩⟩
  · refine .behind fun module _ => ?_
    refine .behind fun _ _ => ?_
    refine .behind fun items _ => ?_
    exact .view (.pure (.inl ⟨last, _, hlead, hlast.kind ▸ hkind⟩))
  · have hpaths : GoesOn env (separated (.mark .comma) (callTo nesting (.importPaths []))) :=
      fun s => preserves_separated _ (goesOn_callTo nesting (.importPaths []) s)
    refine .bind (P := fun _ u => u = t) ?_ fun module u hu => ?_
    · exact .optional_of_kind_ne (by simp [hword]) (.pure rfl)
    · subst hu
      refine (ensures_require_of_ne ht (by simp [hword])).bind fun _ u ⟨hu, hfault⟩ => ?_
      refine (hpaths.ensures hu).bind fun items v hv => ?_
      have := hv.errorCount
      exact .view (.pure (.inr ⟨hbreak, by omega⟩))

/-- A header begins with its keyword, or breaks off with a fault. -/
lemma ensures_packageHeader (hs : Along env origin s) (hclass : itemClass env.src s = .header) :
    Ensures env s packageHeader fun header t =>
      header.Starts (origin.upcoming env.src) (t.errorCount ≠ 0) := by
  have hkind : s.lexer.kindAfterModifiers env.src = .keyword .kwPackage
      ∨ s.lexer.kindAfterModifiers env.src = .keyword .kwMacro
        ∧ s.lexer.macroPackageAhead env.src = true := by
    unfold itemClass at hclass
    split at hclass
    case h_1 h => exact .inl h
    case h_2 h =>
      split at hclass
      case isTrue hahead => exact .inr ⟨h, hahead⟩
      case isFalse => exact nomatch hclass
    all_goals exact nomatch hclass
  have hitem : s.lexer.kindAfterModifiers env.src ≠ .identifier := by
    obtain h | ⟨h, -⟩ := hkind <;> simp [h]
  obtain ⟨ms, k, hwords, e⟩ := Lexer.exists_wordsTo hitem
  rw [← e] at hkind
  have hk : k.TellsItem := hkind.imp id fun h => .inl h.1
  refine .view ((ensures_leading hs hwords hk).bind ?_)
  rintro taken t ⟨ht, ⟨rfl, hsound, last, hlast, hlead⟩ | ⟨hword, hbreak⟩⟩
  · have hcurrent := ParseState.kind_of_settled ht
    obtain hpackage | ⟨hfirst, hahead⟩ := hkind
    · refine .optional_of_kind_ne (by simp [hcurrent, hpackage]) ?_
      refine .behind fun _ _ => ?_
      refine .behind fun path _ => ?_
      exact .view (.pure (.inl ⟨last, _, hlast.kind ▸ hpackage, .inl ⟨rfl, hlead⟩⟩))
    · refine .optional_of_kind (hcurrent.trans hfirst) ?_
      refine .behind fun _ _ => ?_
      refine .behind fun path _ => ?_
      rw [Lexer.upcoming_eq hsound (by simp [hfirst])] at hlead
      refine .view (.pure (.inl ⟨(t.lexer.scan env.src).token, _, ?_, .inr ⟨rfl, last, ?_, hlead⟩⟩))
      · exact hwords.scan_package hfirst hahead
      · exact hlast.kind ▸ hfirst
  · refine .optional_of_kind_ne (by simp [hword]) ?_
    refine (ensures_require_of_ne ht (by simp [hword])).bind fun _ u ⟨hu, hfault⟩ => ?_
    have hpath : GoesOn env dottedName := fun s => preserves_dottedName
    refine (hpath.ensures hu).bind fun path v hv => ?_
    have := hv.errorCount
    exact .view (.pure (.inr ⟨hbreak, by omega⟩))

/-! ## Files -/

variable {tree : FileTree}

/-- A declaration adds neither an import nor a header. -/
lemma ensures_placeDeclaration (call : Call) : Ensures env s (placeDeclaration call tree)
    fun new _ => new.imports = tree.imports ∧ new.package = tree.package := by
  refine .behind fun id t => .get ?_
  split
  · split
    · exact .reportAt (.pure ⟨rfl, rfl⟩)
    · exact .pure ⟨rfl, rfl⟩
  · exact .pure ⟨rfl, rfl⟩

/-- An item that is put in its place starts as it should. -/
lemma ensures_placeItem (hs : Along env origin s)
    (htree : tree.Starts (origin.upcoming env.src) (s.errorCount ≠ 0)) :
    Ensures env s (placeItem (callTo nesting) tree) fun new t =>
      new.Starts (origin.upcoming env.src) (t.errorCount ≠ 0) := by
  have hgoes : GoesOn env (placeItem (callTo nesting) tree) := fun s =>
    preserves_placeItem (Invariant.settled_builds env s) (fun g => goesOn_callTo nesting g s) tree
  suffices hnew : Ensures env s (placeItem (callTo nesting) tree) fun new t =>
      (∀ d ∈ new.imports, d ∈ tree.imports
        ∨ d.Starts (origin.upcoming env.src) (t.errorCount ≠ 0))
      ∧ ∀ header ∈ new.package, header ∈ tree.package
        ∨ header.Starts (origin.upcoming env.src) (t.errorCount ≠ 0) by
    intro new t e
    obtain ⟨himports, hpackage⟩ := hnew new t e
    have hcount := (hgoes.ensures hs.1.settled new t e).errorCount
    have hkept : tree.Starts (origin.upcoming env.src) (t.errorCount ≠ 0) :=
      htree.mono (by omega)
    exact ⟨fun d hd => (himports d hd).elim (hkept.imports d) id,
      fun header hheader => (hpackage header hheader).elim (hkept.package header) id⟩
  refine .view ?_
  split
  case h_1 hclass =>
    refine (ensures_packageHeader hs hclass).bind fun header t hheader => ?_
    split
    · exact .reportAt (.pure ⟨fun d hd => .inl hd, fun old hold => .inl hold⟩)
    · refine .pure ⟨fun d hd => .inl hd, fun new hnew => .inr ?_⟩
      cases hnew
      exact hheader
  case h_2 hclass =>
    refine (ensures_importDecl hs hclass).bind fun d t hd => ?_
    refine .pure ⟨fun new hnew => ?_, fun old hold => .inl hold⟩
    obtain hold | hnew := List.mem_append.1 hnew
    · exact .inl hold
    · exact .inr (List.mem_singleton.1 hnew ▸ hd)
  case h_3 =>
    refine (ensures_placeDeclaration _).mono fun new t ⟨himports, hpackage⟩ => ?_
    exact ⟨fun d hd => .inl (himports ▸ hd), fun header hheader => .inl (hpackage ▸ hheader)⟩

/-- In each round the imports and the header start as they should. -/
lemma ensures_fileRound (hs : Along env origin s)
    (htree : tree.Starts (origin.upcoming env.src) (s.errorCount ≠ 0)) :
    Ensures env s (fileRound (callTo nesting) tree) fun next t => Along env origin t
      ∧ ((Sum.elim id id next : FileTree).Starts (origin.upcoming env.src) (t.errorCount ≠ 0)) := by
  have hJ := (Lexer.kept_leadsTo env.src origin).settled_region
  have hreads := reads_fileRound hJ (obeys_callTo hJ nesting) tree s hs
  suffices hstarts : Ensures env s (fileRound (callTo nesting) tree) fun next t =>
      (Sum.elim id id next : FileTree).Starts (origin.upcoming env.src) (t.errorCount ≠ 0) from
    fun next t e => ⟨(hreads next t e).1, hstarts next t e⟩
  refine .view ?_
  split
  · exact .pure htree
  split
  · have hstep : Step env s (s.advance env.src) := .advance s
    have hcount := hstep.grows.errorCount
    exact .advance (.pure (htree.mono (by omega)))
  · refine .get ?_
    have hends (t : ParseState) : GoesOn env (endFileItem t.start t.errorCount) := fun s =>
      preserves_endFileItem (Invariant.settled_builds env s) _ _
    have hitem := reads_placeItem tree hJ (obeys_callTo hJ nesting) s hs
    intro next u e
    obtain ⟨new, t, hnew, hrest⟩ := bind_eq_some.1 e
    obtain ⟨_, v, hend, hpure⟩ := bind_eq_some.1 hrest
    obtain ⟨rfl, rfl⟩ := pure_eq_some.1 hpure
    have hcount := ((hends s).ensures (hitem new t hnew).1.1.settled _ _ hend).errorCount
    exact (ensures_placeItem hs htree new t hnew).mono (by omega)

lemma ensures_file (hs : Along env origin s) :
    Ensures env s (file (callTo nesting)) fun tree t => Along env origin t
      ∧ tree.Starts (origin.upcoming env.src) (t.errorCount ≠ 0) := by
  have hnone : FileTree.Starts {} (origin.upcoming env.src) (s.errorCount ≠ 0) :=
    ⟨fun _ hd => (List.not_mem_nil hd).elim, nofun⟩
  refine .loop_invariant (R := fun tree t => Along env origin t
    ∧ tree.Starts (origin.upcoming env.src) (t.errorCount ≠ 0)) (fun tree t ht => ?_) ⟨hs, hnone⟩
  refine (ensures_fileRound ht.1 ht.2).mono fun next u hu => ?_
  cases next <;> exact hu

end Rule

/-- Whatever text is parsed as a file, each import and the header begin, behind the modifiers that
are recorded in them, with the keywords they are known by. Or else a line ends behind a word there
that could be a modifier, and something is reported. -/
theorem parseFile_starts {bytes : ByteArray} {settings : Settings} {p : FileParse}
    (hsrc : Source.ofBytes bytes = .ok src) (h : parseFile bytes settings = some p) :
    p.tree.Starts (((Lexer.ofSource src).scanAll src).1.map Prod.fst) (p.diagnostics ≠ #[]) := by
  let env : Env := ⟨src, settings, true⟩
  let s : ParseState := { ParseState.ofSource src with names := .empty }
  have hquoted : s.Quoted env s.lexer := .start (.file .empty) Source.isBoundary_zero
  have hs : Rule.Along env (.ofSource src) s := hquoted.ground.1
  rw [parseFile, parseFileInto, hsrc] at h
  obtain ⟨⟨p, names⟩, hparse, rfl⟩ := Option.map_eq_some_iff.1 h
  obtain ⟨⟨tree, u⟩, hrun, e⟩ := Option.map_eq_some_iff.1 hparse
  cases e
  obtain ⟨_, t, hbegin, hfile⟩ := Rule.bind_eq_some.1 (hrun : Rule.runFrom env Rule.file s = _)
  have hJ := (Lexer.kept_leadsTo env.src (.ofSource src)).settled_region
  have hquiet : Quiet (Lexer.kept_leadsTo env.src (.ofSource src)).region Rule.begin :=
    .skip Rule.quiet_advance fun _ => Rule.quiet_unmute hJ
  obtain ⟨hu, hstarts⟩ := Rule.ensures_file (hquiet s hs _ t hbegin).1 tree u hfile
  rw [Lexer.upcoming, if_neg (by simp [Lexer.ofSource])] at hstarts
  have hfaulty : u.errorCount ≠ 0 → settings.locate u.diagnostics ≠ #[] := fun hfault hclean =>
    hfault (hu.1.errorCount_eq_zero hclean)
  obtain ⟨himports, hpackage⟩ := hstarts.mono hfaulty
  exact ⟨himports, hpackage⟩

end CangjieSyntax
