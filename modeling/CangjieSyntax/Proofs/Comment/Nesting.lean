import Mathlib.Data.List.Infix
import CangjieSyntax.Proofs.Comment.Parse
import CangjieSyntax.Proofs.Excerpt.Tokens
import CangjieSyntax.Proofs.Token.Tile

/-!
# Nested comments

The marks of comments are read from left to right, no two of them overlapping. A comment goes from
its opening on up to the shortest stretch of the text in which as many marks close as open. So the
search for bytes that matter finds what a reading character by character finds.
-/

namespace CangjieSyntax

variable {src : Source} {pos stop stop' outer : Nat} {closed closed' : Bool} {c d : Char}
  {cs v w rest : List Char}

namespace BlockComment

/-- The two marks of comments. -/
inductive Mark where
  | opening
  | closing
  deriving DecidableEq

/-- The marks of a text from left to right. No two of them overlap. -/
def marks : List Char → List Mark
  | '/' :: '*' :: cs => .opening :: marks cs
  | '*' :: '/' :: cs => .closing :: marks cs
  | _ :: cs => marks cs
  | [] => []

/-- Comments are opened in a stretch, and as many marks close as open. -/
structure Balanced (w : List Char) : Prop where
  opens : .opening ∈ marks w
  count_eq : (marks w).count .closing = (marks w).count .opening

/-- What a reading character by character leaves behind the inside of a comment, which may be inside
some others; nothing if a comment is left open. -/
def behind? (outer : Nat) : List Char → Option (List Char)
  | '/' :: '*' :: cs => behind? (outer + 1) cs
  | '*' :: '/' :: cs =>
    match outer with
    | 0 => some cs
    | outer + 1 => behind? outer cs
  | _ :: cs => behind? outer cs
  | [] => none

/-! ## Stretches -/

/-- All comments that a stretch lies in are closed in it, and those opened in it as well. -/
def Ends (outer : Nat) (w : List Char) : Prop :=
  (marks w).count .closing = (marks w).count .opening + (outer + 1)

lemma not_ends_nil (outer : Nat) : ¬Ends outer [] :=
  fun h => nomatch h

lemma not_ends_singleton (outer : Nat) (c : Char) : ¬Ends outer [c] := by
  have hnone : marks [c] = [] := by
    rw [marks]
    · rfl
    · rintro _ - ⟨⟩
    · rintro _ - ⟨⟩
  intro h
  rw [Ends, hnone] at h
  exact nomatch h

lemma ends_opening : Ends outer ('/' :: '*' :: w) ↔ Ends (outer + 1) w := by
  have hmarks : marks ('/' :: '*' :: w) = .opening :: marks w := rfl
  rw [Ends, Ends, hmarks, List.count_cons_self, List.count_cons_of_ne (by decide)]
  omega

lemma ends_closing : Ends (outer + 1) ('*' :: '/' :: w) ↔ Ends outer w := by
  have hmarks : marks ('*' :: '/' :: w) = .closing :: marks w := rfl
  rw [Ends, Ends, hmarks, List.count_cons_self, List.count_cons_of_ne (by decide)]
  omega

/-- The shortest stretch at the start of a text in which the comments are closed. -/
structure EndsFirst (outer : Nat) (w cs : List Char) : Prop where
  ends : Ends outer w
  first : ∀ v, v <+: cs → Ends outer v → w.length ≤ v.length

/-- Behind two characters, what holds of every longer stretch holds of every stretch that ends. -/
lemma forall_ends_of_pair {P : List Char → Prop}
    (h : ∀ v, v <+: cs → Ends outer (c :: d :: v) → P (c :: d :: v)) :
    ∀ v, v <+: c :: d :: cs → Ends outer v → P v := by
  intro v hv hends
  match v with
  | [] => exact absurd hends (not_ends_nil outer)
  | [a] => exact absurd hends (not_ends_singleton outer a)
  | a :: b :: v =>
    obtain ⟨rfl, hv'⟩ := List.cons_prefix_cons.1 hv
    obtain ⟨rfl, hv''⟩ := List.cons_prefix_cons.1 hv'
    exact h v hv'' hends

/-- Where no mark starts, a character belongs to none. -/
lemma ends_skip (hopen : ∀ cs', c = '/' → cs = '*' :: cs' → False)
    (hclose : ∀ cs', c = '*' → cs = '/' :: cs' → False) (hv : v <+: cs) :
    Ends outer (c :: v) ↔ Ends outer v := by
  have hmarks : marks (c :: v) = marks v := by
    rw [marks]
    · rintro v' hc rfl
      obtain ⟨more, rfl⟩ := hv
      exact hopen _ hc rfl
    · rintro v' hc rfl
      obtain ⟨more, rfl⟩ := hv
      exact hclose _ hc rfl
  rw [Ends, Ends, hmarks]

/-- The plain reading stops behind the shortest stretch that ends, if there is one. -/
lemma behind?_spec (outer : Nat) (cs : List Char) :
    (∀ rest, behind? outer cs = some rest → ∃ w, cs = w ++ rest ∧ EndsFirst outer w cs)
      ∧ (behind? outer cs = none → ∀ v, v <+: cs → ¬Ends outer v) := by
  fun_induction behind? outer cs with
  | case1 outer cs ih =>
    refine ⟨fun rest h => ?_, fun h => ?_⟩
    · obtain ⟨w, rfl, hends, hfirst⟩ := ih.1 rest h
      refine ⟨'/' :: '*' :: w, rfl, ends_opening.2 hends, forall_ends_of_pair fun v hv hv' => ?_⟩
      exact Nat.add_le_add_right (hfirst v hv (ends_opening.1 hv')) 2
    · exact forall_ends_of_pair fun v hv hv' => absurd (ends_opening.1 hv') (ih.2 h v hv)
  | case2 cs =>
    refine ⟨?_, fun h => nomatch h⟩
    rintro _ ⟨⟩
    exact ⟨['*', '/'], rfl, rfl, forall_ends_of_pair fun v _ _ => Nat.le_add_left 2 v.length⟩
  | case3 cs outer ih =>
    refine ⟨fun rest h => ?_, fun h => ?_⟩
    · obtain ⟨w, rfl, hends, hfirst⟩ := ih.1 rest h
      refine ⟨'*' :: '/' :: w, rfl, ends_closing.2 hends, forall_ends_of_pair fun v hv hv' => ?_⟩
      exact Nat.add_le_add_right (hfirst v hv (ends_closing.1 hv')) 2
    · exact forall_ends_of_pair fun v hv hv' => absurd (ends_closing.1 hv') (ih.2 h v hv)
  | case4 outer c cs hopen hclose ih =>
    have skip {P : List Char → Prop} (h : ∀ v, v <+: cs → Ends outer v → P (c :: v)) :
        ∀ v, v <+: c :: cs → Ends outer v → P v := by
      intro v hv hends
      cases v with
      | nil => exact absurd hends (not_ends_nil outer)
      | cons a v =>
        obtain ⟨rfl, hv'⟩ := List.cons_prefix_cons.1 hv
        exact h v hv' ((ends_skip hopen hclose hv').1 hends)
    refine ⟨fun rest h => ?_, fun h => ?_⟩
    · obtain ⟨w, rfl, hends, hfirst⟩ := ih.1 rest h
      refine ⟨c :: w, rfl, (ends_skip hopen hclose (List.prefix_append w rest)).2 hends, ?_⟩
      exact skip fun v hv hv' => Nat.succ_le_succ (hfirst v hv hv')
    · exact skip fun v hv hv' => absurd hv' (ih.2 h v hv)
  | case5 outer =>
    refine ⟨fun _ h => (nomatch h), fun _ v hv => ?_⟩
    rw [List.prefix_nil.1 hv]
    exact not_ends_nil outer

/-! ## The search -/

/-- Two marks ahead are two characters ahead. -/
lemma startsWith_ahead {b b' : UInt8} (h : src.Ahead pos cs)
    (hc : String.utf8EncodeChar c = [b]) (hd : String.utf8EncodeChar d = [b']) :
    src.startsWith pos [b, b'] ↔ ∃ rest, cs = c :: d :: rest := by
  have hsize : c.utf8Size = 1 := by
    rw [← String.length_utf8EncodeChar, hc]
    rfl
  rw [Source.startsWith_pair]
  constructor
  · rintro ⟨hb, hb'⟩
    obtain ⟨rest, rfl⟩ := h.eq_cons hb hc
    have htail := h.tail
    rw [hsize] at htail
    obtain ⟨rest, rfl⟩ := htail.eq_cons hb' hd
    exact ⟨rest, rfl⟩
  · rintro ⟨rest, rfl⟩
    have htail := h.tail
    rw [hsize] at htail
    have hfirst := h.byteAt 0
    have hsecond := htail.byteAt 0
    rw [Source.encoded_cons, hc] at hfirst
    rw [Source.encoded_cons, hd] at hsecond
    exact ⟨hfirst, hsecond⟩

/-- A character in which no mark starts belongs to the comment with all of its bytes. -/
lemma Spans.skipChar (hahead : src.Ahead pos (c :: cs))
    (hopen : ¬src.startsWith pos [0x2F, 0x2A]) (hclose : ¬src.startsWith pos [0x2A, 0x2F])
    (h : Spans src outer (pos + c.utf8Size) stop closed) : Spans src outer pos stop closed := by
  by_cases hc : c.utf8Size = 1
  · rw [hc] at h
    exact .skip (Source.lt_size_of_charAt hahead.charAt) hclose hopen h
  · have hplain : ∀ b ∈ String.utf8EncodeChar c, !isMark b := by
      intro b hb
      have hlarge := not_ascii_of_mem_utf8EncodeChar hc hb
      have hne (d : UInt8) (hd : d < 0x80) : (b == d) = false :=
        beq_eq_false_iff_ne.2 fun e => absurd hd (UInt8.not_lt.2 (e ▸ hlarge))
      rw [isMark, hne _ (by decide), hne _ (by decide), hne _ (by decide)]
      rfl
    have hstarts : src.startsWith pos (String.utf8EncodeChar c) := by
      rw [Source.startsWith_eq hahead.byteAt, Source.encoded_cons]
      exact List.isPrefixOf_iff_prefix.2 (List.prefix_append ..)
    have hrun := Source.le_skipWhile_of_startsWith hstarts hplain
    rw [String.length_utf8EncodeChar] at hrun
    exact h.of_run (Nat.le_add_right ..) hrun

/-- The search agrees with the plain reading. -/
lemma spans_behind? (outer : Nat) (h : src.Ahead pos cs) :
    ∃ stop, src.Ahead stop ((behind? outer cs).getD [])
      ∧ Spans src outer pos stop (behind? outer cs).isSome := by
  have opening : String.utf8EncodeChar '/' = [0x2F] := rfl
  have star : String.utf8EncodeChar '*' = [0x2A] := rfl
  fun_induction behind? outer cs generalizing pos with
  | case1 outer cs ih =>
    obtain ⟨stop, hstop, hspans⟩ := ih h.tail.tail
    exact ⟨stop, hstop, .openInner ((startsWith_ahead h opening star).2 ⟨cs, rfl⟩) hspans⟩
  | case2 cs =>
    exact ⟨pos + 2, h.tail.tail, .close ((startsWith_ahead h star opening).2 ⟨cs, rfl⟩)⟩
  | case3 cs outer ih =>
    obtain ⟨stop, hstop, hspans⟩ := ih h.tail.tail
    exact ⟨stop, hstop, .closeInner ((startsWith_ahead h star opening).2 ⟨cs, rfl⟩) hspans⟩
  | case4 outer c cs hopen hclose ih =>
    obtain ⟨stop, hstop, hspans⟩ := ih h.tail
    refine ⟨stop, hstop, .skipChar h ?_ ?_ hspans⟩
    · rw [startsWith_ahead h opening star]
      rintro ⟨rest, e⟩
      exact hopen rest (List.cons.inj e).1 (List.cons.inj e).2
    · rw [startsWith_ahead h star opening]
      rintro ⟨rest, e⟩
      exact hclose rest (List.cons.inj e).1 (List.cons.inj e).2
  | case5 outer =>
    refine ⟨pos, h, ?_⟩
    have hsize : pos = src.size := by
      rw [h.size_eq]
      rfl
    rw [hsize]
    exact .unclosed outer

/-- The search agrees with the plain reading, wherever it starts. -/
lemma read_behind? (outer : Nat) (h : src.Ahead pos cs) :
    src.Ahead (read src pos outer).stop ((behind? outer cs).getD [])
      ∧ (read src pos outer).closed = (behind? outer cs).isSome := by
  obtain ⟨stop, hstop, hspans⟩ := spans_behind? outer h
  obtain ⟨hread, hclosed⟩ := hspans.read_eq
  exact ⟨hread ▸ hstop, hclosed⟩

/-! ## Balanced stretches -/

/-- A stretch goes from an opening mark at the start of a text up to where, for the first time, as
many marks close as open. -/
structure Nests (w cs : List Char) : Prop where
  starts : w <+: cs
  balanced : Balanced w
  shortest : ∀ v, v <+: cs → Balanced v → w.length ≤ v.length

/-- A balanced stretch of a comment is its opening and an inside that ends. -/
lemma balanced_iff (hv : v <+: '/' :: '*' :: cs) :
    Balanced v ↔ ∃ inside, v = '/' :: '*' :: inside ∧ Ends 0 inside := by
  have hcount (inside : List Char) : Ends 0 inside
      ↔ (marks ('/' :: '*' :: inside)).count .closing
        = (marks ('/' :: '*' :: inside)).count .opening := by
    have hmarks : marks ('/' :: '*' :: inside) = .opening :: marks inside := rfl
    rw [hmarks, List.count_cons_self, List.count_cons_of_ne (by decide)]
    rfl
  constructor
  · rintro ⟨hopens, hbalanced⟩
    match v with
    | [] => exact nomatch hopens
    | [a] =>
      obtain ⟨rfl, -⟩ := List.cons_prefix_cons.1 hv
      exact nomatch hopens
    | a :: b :: inside =>
      obtain ⟨rfl, hv'⟩ := List.cons_prefix_cons.1 hv
      obtain ⟨rfl, -⟩ := List.cons_prefix_cons.1 hv'
      exact ⟨inside, rfl, (hcount inside).2 hbalanced⟩
  · rintro ⟨inside, rfl, hends⟩
    exact ⟨List.mem_cons_self, (hcount inside).1 hends⟩

/-- What the plain reading makes of a comment, said by its stretches. -/
lemma behind?_of_nests (h : Nests w ('/' :: '*' :: cs)) :
    ∃ rest, '/' :: '*' :: cs = w ++ rest ∧ behind? 0 cs = some rest := by
  obtain ⟨inside, rfl, hends⟩ := (balanced_iff h.starts).1 h.balanced
  have hinside : inside <+: cs := by
    obtain ⟨rest, e⟩ := h.starts
    exact ⟨rest, (List.cons.inj (List.cons.inj e).2).2⟩
  cases hread : behind? 0 cs with
  | none => exact absurd hends ((behind?_spec 0 cs).2 hread inside hinside)
  | some rest =>
    obtain ⟨w, rfl, hw⟩ := (behind?_spec 0 cs).1 rest hread
    -- Neither of the two stretches is longer than the other one.
    have hle := hw.first inside hinside hends
    have hge := h.shortest ('/' :: '*' :: w) ⟨rest, rfl⟩
      ((balanced_iff ⟨rest, rfl⟩).2 ⟨w, rfl, hw.ends⟩)
    have hge' : inside.length ≤ w.length := Nat.le_of_add_le_add_right (b := 2) hge
    have hsame : inside = w := List.IsPrefix.eq_of_length
      (List.prefix_of_prefix_length_le hinside (List.prefix_append w rest) hge') (by omega)
    exact ⟨rest, by rw [hsame]; rfl, rfl⟩

lemma behind?_of_not_balanced (h : ∀ w, w <+: '/' :: '*' :: cs → ¬Balanced w) :
    behind? 0 cs = none := by
  cases hread : behind? 0 cs with
  | none => rfl
  | some rest =>
    obtain ⟨w, rfl, hw⟩ := (behind?_spec 0 cs).1 rest hread
    have hstarts : '/' :: '*' :: w <+: '/' :: '*' :: (w ++ rest) := ⟨rest, rfl⟩
    exact absurd ((balanced_iff hstarts).2 ⟨w, rfl, hw.ends⟩) (h _ hstarts)

end BlockComment

/-- Comments nest. From its opening on, a comment goes up to the end of the shortest stretch in which
as many marks close as open, and nothing is reported; if there is no such stretch, it takes the rest
of the text, and the one report is at its opening. Inside a comment, within any number of others, the
search for its marks stops where the plain reading stops. -/
theorem blockComments_nest (h : src.Ahead pos cs) (hopen : ['/', '*'] <+: cs) :
    (∀ w, BlockComment.Nests w cs →
      (BlockComment.read src (pos + 2) 0).stop = pos + (Source.encoded w).length
        ∧ Gap.read src pos = { Gap.read src (pos + (Source.encoded w).length) with
            lineBreak := (BlockComment.read src (pos + 2) 0).lineBreak
              || (Gap.read src (pos + (Source.encoded w).length)).lineBreak
            trivia := true })
      ∧ ((∀ w, w <+: cs → ¬BlockComment.Balanced w) →
        (BlockComment.read src (pos + 2) 0).stop = src.size
          ∧ Gap.read src pos = { stop := src.size
                                 lineBreak := (BlockComment.read src (pos + 2) 0).lineBreak
                                 trivia := true
                                 errors := [(.unterminatedComment, ⟨pos, pos + 2⟩)] })
      ∧ ∀ {pos : Nat} {cs : List Char} (outer : Nat), src.Ahead pos cs →
        src.Ahead (BlockComment.read src pos outer).stop ((BlockComment.behind? outer cs).getD [])
          ∧ (BlockComment.read src pos outer).closed = (BlockComment.behind? outer cs).isSome
          ∧ ((BlockComment.read src pos outer).lineBreak ↔
            src.HasLineFeed pos (BlockComment.read src pos outer).stop) := by
  obtain ⟨inside, rfl⟩ : ∃ inside, cs = '/' :: '*' :: inside := hopen.imp fun _ e => e.symm
  have hinside : src.Ahead (pos + 2) inside := h.tail.tail
  have hstarts : src.startsWith pos [0x2F, 0x2A] :=
    (BlockComment.startsWith_ahead h rfl rfl).2 ⟨inside, rfl⟩
  have hgap := Gap.read_of_blockComment hstarts
  obtain ⟨hstop, hclosed⟩ := BlockComment.read_behind? 0 hinside
  refine ⟨fun w hw => ?_, fun hnone => ?_, fun outer h => ?_⟩
  · obtain ⟨rest, e, hbehind⟩ := BlockComment.behind?_of_nests hw
    rw [hbehind] at hstop hclosed
    have hwidth : (BlockComment.read src (pos + 2) 0).stop = pos + (Source.encoded w).length := by
      have hsize := h.size_eq
      change src.size = pos + ('/' :: '*' :: inside).utf8Encode.size at hsize
      rw [e, Source.size_utf8Encode, Source.encoded_append, List.length_append] at hsize
      have hsize' := hstop.size_eq
      rw [Source.size_utf8Encode, Option.getD_some] at hsize'
      omega
    refine ⟨hwidth, ?_⟩
    rw [hgap, Gap.behindComment, hclosed, hwidth]
    rfl
  · have hbehind := BlockComment.behind?_of_not_balanced hnone
    rw [hbehind] at hstop hclosed
    have hend : (BlockComment.read src (pos + 2) 0).stop = src.size := hstop.size_eq.symm
    refine ⟨hend, ?_⟩
    rw [hgap, Gap.behindComment, hclosed, hend, Gap.read_none (Source.byteAt_size src), Bool.or_false]
    rfl
  · obtain ⟨hstop, hclosed⟩ := BlockComment.read_behind? outer h
    have hsize := Source.le_size_of_isBoundary h.isBoundary
    exact ⟨hstop, hclosed, (BlockComment.spans_read src _ outer hsize).2⟩

instance (w : List Char) : Decidable (BlockComment.Balanced w) :=
  decidable_of_iff (.opening ∈ BlockComment.marks w
      ∧ (BlockComment.marks w).count .closing = (BlockComment.marks w).count .opening)
    ⟨fun h => ⟨h.1, h.2⟩, fun h => ⟨h.opens, h.count_eq⟩⟩

/-- Marks that share characters, in a comment that is closed and in one that is not. -/
theorem blockComments_nest_of_overlaps :
    ['/', '*'] <+: "/*/**/*/ x".toList ∧ ['/', '*'] <+: "/*/*/".toList
      ∧ BlockComment.Nests "/*/**/*/".toList "/*/**/*/ x".toList
      ∧ (BlockComment.read (.ofString "/*/**/*/ x") 2 0).stop = 8
      ∧ (∀ w, w <+: "/*/*/".toList → ¬BlockComment.Balanced w)
      ∧ Gap.read (.ofString "/*/*/") 0
        = { stop := 5, trivia := true, errors := [(.unterminatedComment, ⟨0, 2⟩)] } := by
  have hopen : ['/', '*'] <+: "/*/**/*/ x".toList := by decide
  have hopen' : ['/', '*'] <+: "/*/*/".toList := by decide
  have hnests : BlockComment.Nests "/*/**/*/".toList "/*/**/*/ x".toList := by
    have hshortest : ∀ v ∈ "/*/**/*/ x".toList.inits, BlockComment.Balanced v →
        "/*/**/*/".toList.length ≤ v.length := by decide
    exact ⟨by decide, by decide, fun v hv => hshortest v ((List.mem_inits v _).2 hv)⟩
  have hnone : ∀ w ∈ "/*/*/".toList.inits, ¬BlockComment.Balanced w := by decide
  have hnone' (w : List Char) (hw : w <+: "/*/*/".toList) : ¬BlockComment.Balanced w :=
    hnone w ((List.mem_inits w _).2 hw)
  have hfirst := @blockComments_nest (.ofString "/*/**/*/ x") 0 _ Source.ahead_zero hopen
  have hsecond := @blockComments_nest (.ofString "/*/*/") 0 _ Source.ahead_zero hopen'
  have hbreak : (BlockComment.read (.ofString "/*/*/") 2 0).lineBreak = false := by
    decide +kernel
  refine ⟨hopen, hopen', hnests, (hfirst.1 _ hnests).1, hnone', ?_⟩
  rw [(hsecond.2.1 hnone').2, Nat.zero_add, hbreak]
  rfl

end CangjieSyntax
