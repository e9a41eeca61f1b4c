import Mathlib.Data.List.Basic
import CangjieSyntax.Text.Template

/-!
# Filling templates

A template whose braces all belong to placeholders is a row of pieces. Putting an argument in is a
pass over the whole text, what earlier arguments have brought in included. An argument without
braces brings in no placeholder, so that what a pass leaves is a row of pieces again, and all the
passes together put each argument in its own places at once, in whatever order they are made.
-/

namespace CangjieSyntax.Template

/-- The character is no brace. -/
def IsPlain (c : Char) : Prop :=
  c ≠ '\x7b' ∧ c ≠ '\x7d'

instance (c : Char) : Decidable (IsPlain c) :=
  inferInstanceAs (Decidable (_ ∧ _))

/-- A piece of a template. -/
inductive Piece where
  | char (c : Char) (plain : IsPlain c)
  /-- The placeholder of the argument with the given number. -/
  | slot (i : Nat)

/-- A piece as it stands in a template. -/
def Piece.written : Piece → List Char
  | char c _ => [c]
  | slot i => placeholder i

/-- The text of a row of pieces. -/
def write (pieces : List Piece) : List Char :=
  pieces.flatMap Piece.written

/-- What stands for a piece once all arguments are put in; a placeholder without an argument is
kept. -/
def Piece.filled (args : List String) : Piece → List Char
  | char c _ => [c]
  | slot i => (args[i]?.map String.toList).getD (placeholder i)

/-- The text with an argument put in for the placeholders of its number. -/
def putIn (text : List Char) (arg : String × Nat) : List Char :=
  replace (placeholder arg.2) arg.1.toList text

/-- The template with arguments put in one after another, each with its number. -/
def fillInOrder (template : String) (order : List (String × Nat)) : String :=
  String.ofList (order.foldl putIn template.toList)

lemma write_cons (piece : Piece) (pieces : List Piece) :
    write (piece :: pieces) = piece.written ++ write pieces :=
  List.flatMap_cons ..

lemma write_append (pieces others : List Piece) :
    write (pieces ++ others) = write pieces ++ write others :=
  List.flatMap_append ..

/-! ## Placeholders -/

lemma placeholder_eq (i : Nat) : placeholder i = '\x7b' :: (Nat.toDigits 10 i ++ ['\x7d']) := by
  change '\x7b' :: (Nat.repr i).toList ++ ['\x7d'] = _
  rw [Nat.toList_repr]
  rfl

lemma isPlain_digit {c : Char} {i : Nat} (h : c ∈ Nat.toDigits 10 i) : IsPlain c := by
  have digit := Nat.isDigit_of_mem_toDigits (by decide) (by decide) h
  constructor
  · rintro rfl
    exact absurd digit (by decide)
  · rintro rfl
    exact absurd digit (by decide)

/-- Digits in front of a closing brace are the same if the texts are. -/
lemma toDigits_inj {i j : Nat} {rest rest' : List Char}
    (h : Nat.toDigits 10 i ++ '\x7d' :: rest = Nat.toDigits 10 j ++ '\x7d' :: rest') : i = j := by
  have plain (n : Nat) : ∀ c ∈ Nat.toDigits 10 n, (c != '\x7d') = true := by
    intro c hc
    exact bne_iff_ne.2 (isPlain_digit hc).2
  have digits := congrArg (List.takeWhile (· != '\x7d')) h
  rw [List.takeWhile_append_of_pos (plain i), List.takeWhile_append_of_pos (plain j)] at digits
  have same : Nat.toDigits 10 i = Nat.toDigits 10 j := by simpa using digits
  rw [← Nat.ofDigitChars_toDigits (b := 10) (n := i) (by decide) (by decide), same,
    Nat.ofDigitChars_toDigits (by decide) (by decide)]

/-- A placeholder starts no text that starts with another one. -/
lemma isPrefixOf_placeholder {i j : Nat} {rest : List Char}
    (h : placeholder i <+: placeholder j ++ rest) : i = j := by
  obtain ⟨behind, e⟩ := h
  rw [placeholder_eq, placeholder_eq, List.cons_append, List.cons_append, List.append_assoc,
    List.append_assoc] at e
  exact toDigits_inj (List.cons.inj e).2

/-! ## One argument -/

section

variable {i : Nat} {chars rest : List Char}

/-- A pass goes over what is no opening brace. -/
lemma replace_append_of_ne {row : List Char} (h : ∀ c ∈ row, c ≠ '\x7b') :
    replace (placeholder i) chars (row ++ rest) = row ++ replace (placeholder i) chars rest := by
  induction row with
  | nil => rfl
  | cons c row ih =>
    have hnot : ¬ (placeholder i ≠ [] ∧ (placeholder i).isPrefixOf (c :: (row ++ rest))) := by
      rintro ⟨-, hprefix⟩
      rw [List.isPrefixOf_iff_prefix, placeholder_eq] at hprefix
      exact h c (List.mem_cons_self ..) (List.cons_prefix_cons.1 hprefix).1.symm
    rw [List.cons_append, replace, if_neg hnot, ih fun c hc => h c (List.mem_cons_of_mem _ hc),
      List.cons_append]

/-- A pass fills its own placeholder. -/
lemma replace_placeholder_self :
    replace (placeholder i) chars (placeholder i ++ rest)
      = chars ++ replace (placeholder i) chars rest := by
  have here : placeholder i ≠ [] ∧ (placeholder i).isPrefixOf (placeholder i ++ rest) := by
    refine ⟨by simp [placeholder_eq], ?_⟩
    exact List.isPrefixOf_iff_prefix.2 (List.prefix_append _ _)
  obtain ⟨c, row, e⟩ : ∃ c row, placeholder i = c :: row := ⟨_, _, placeholder_eq i⟩
  have hcut : (placeholder i ++ rest).drop (placeholder i).length = rest := List.drop_left ..
  rw [show placeholder i ++ rest = c :: (row ++ rest) by rw [e, List.cons_append]] at here hcut ⊢
  rw [replace, if_pos here, hcut]

/-- A pass goes over the placeholder of another argument. -/
lemma replace_placeholder_of_ne {j : Nat} (h : i ≠ j) :
    replace (placeholder i) chars (placeholder j ++ rest)
      = placeholder j ++ replace (placeholder i) chars rest := by
  have hnot : ¬ (placeholder i ≠ [] ∧ (placeholder i).isPrefixOf (placeholder j ++ rest)) :=
    fun hprefix => h (isPrefixOf_placeholder (List.isPrefixOf_iff_prefix.1 hprefix.2))
  have hrow : ∀ c ∈ Nat.toDigits 10 j ++ ['\x7d'], c ≠ '\x7b' := by
    intro c hc
    obtain hdigit | hclose := List.mem_append.1 hc
    · exact (isPlain_digit hdigit).1
    · rw [List.mem_singleton.1 hclose]
      decide
  rw [placeholder_eq j, List.cons_append] at hnot ⊢
  rw [replace, if_neg hnot, replace_append_of_ne hrow, List.cons_append]

end

/-- The piece with the pieces `new` put in for the placeholder numbered `i`. -/
def Piece.put (i : Nat) (new : List Piece) : Piece → List Piece
  | char c plain => [char c plain]
  | slot j => if i = j then new else [slot j]

/-- A text without braces as pieces. -/
def plainPieces (arg : String) (h : ∀ c ∈ arg.toList, IsPlain c) : List Piece :=
  arg.toList.pmap Piece.char h

lemma flatMap_plainPieces {f : Piece → List Char} (hf : ∀ c plain, f (.char c plain) = [c])
    {arg : String} (h : ∀ c ∈ arg.toList, IsPlain c) :
    (plainPieces arg h).flatMap f = arg.toList := by
  have rows (row : List Char) (h : ∀ c ∈ row, IsPlain c) :
      (row.pmap Piece.char h).flatMap f = row := by
    induction row with
    | nil => rfl
    | cons c row ih => rw [List.pmap_cons, List.flatMap_cons, hf, ih, List.singleton_append]
  exact rows arg.toList h

/-- A pass for an argument without braces leaves a row of pieces. -/
lemma replace_write {arg : String} (h : ∀ c ∈ arg.toList, IsPlain c) (i : Nat)
    (pieces : List Piece) :
    replace (placeholder i) arg.toList (write pieces)
      = write (pieces.flatMap (Piece.put i (plainPieces arg h))) := by
  induction pieces with
  | nil => rw [write, List.flatMap_nil, replace, List.flatMap_nil, write, List.flatMap_nil]
  | cons piece pieces ih =>
    rw [List.flatMap_cons, write_append, ← ih, write_cons]
    cases piece with
    | char c plain =>
      have single : ∀ x ∈ [c], x ≠ '\x7b' := by simpa using plain.1
      exact replace_append_of_ne single
    | slot j =>
      by_cases hj : i = j
      · have new : write (plainPieces arg h) = arg.toList :=
          flatMap_plainPieces (fun _ _ => rfl) h
        rw [Piece.put, if_pos hj, new, ← hj]
        exact replace_placeholder_self
      · have kept : write [.slot j] = placeholder j := List.flatMap_singleton ..
        rw [Piece.put, if_neg hj, kept]
        exact replace_placeholder_of_ne hj

/-! ## All arguments -/

/-- What stands for a piece once arguments have been put in one after another: only the first one
with its number counts. -/
def Piece.filledInOrder (order : List (String × Nat)) : Piece → List Char
  | char c _ => [c]
  | slot j => ((order.find? (·.2 = j)).map (String.toList ∘ Prod.fst)).getD (placeholder j)

/-- What the later passes leave of a piece that the first one was made over. -/
lemma filledInOrder_cons {arg : String} (h : ∀ c ∈ arg.toList, IsPlain c) (i : Nat)
    (order : List (String × Nat)) (piece : Piece) :
    (piece.put i (plainPieces arg h)).flatMap (Piece.filledInOrder order)
      = piece.filledInOrder ((arg, i) :: order) := by
  cases piece with
  | char c plain => rfl
  | slot j =>
    by_cases hj : i = j
    · rw [Piece.put, if_pos hj, flatMap_plainPieces (fun _ _ => rfl) h, Piece.filledInOrder,
        List.find?_cons_of_pos (by simpa using hj)]
      rfl
    · rw [Piece.put, if_neg hj, List.flatMap_singleton, Piece.filledInOrder, Piece.filledInOrder,
        List.find?_cons_of_neg (by simpa using hj)]

lemma foldl_putIn_write (order : List (String × Nat))
    (hargs : ∀ p ∈ order, ∀ c ∈ p.1.toList, IsPlain c) (pieces : List Piece) :
    order.foldl putIn (write pieces) = pieces.flatMap (Piece.filledInOrder order) := by
  -- The pieces that one pass leaves are those that the next one starts from.
  induction order generalizing pieces with
  | nil =>
    rw [List.foldl_nil, write]
    refine List.flatMap_congr fun piece _ => ?_
    cases piece <;> rfl
  | cons p order ih =>
    obtain ⟨arg, i⟩ := p
    have h : ∀ c ∈ arg.toList, IsPlain c := hargs _ (List.mem_cons_self ..)
    rw [List.foldl_cons, putIn, replace_write h,
      ih fun p hp => hargs p (List.mem_cons_of_mem _ hp), List.flatMap_assoc]
    exact List.flatMap_congr fun piece _ => filledInOrder_cons h i order piece

/-- Where the numbers are those of the arguments, the order does not matter. -/
lemma filledInOrder_eq {args : List String} {order : List (String × Nat)}
    (h : ∀ arg i, (arg, i) ∈ order ↔ args[i]? = some arg) (piece : Piece) :
    piece.filledInOrder order = piece.filled args := by
  cases piece with
  | char c plain => rfl
  | slot j =>
    cases hfind : order.find? (·.2 = j) with
    | none =>
      have hno : args[j]? = none := by
        by_contra hsome
        obtain ⟨arg, harg⟩ := Option.ne_none_iff_exists'.1 hsome
        exact List.find?_eq_none.1 hfind _ ((h arg j).2 harg) (by simp)
      rw [Piece.filledInOrder, Piece.filled, hfind, hno]
      rfl
    | some p =>
      obtain ⟨arg, i⟩ := p
      obtain rfl : i = j := by simpa using List.find?_some hfind
      have harg := (h arg i).1 (List.mem_of_find?_eq_some hfind)
      rw [Piece.filledInOrder, Piece.filled, hfind, harg]
      rfl

lemma fillFrom_eq_foldl (args : List String) (i : Nat) (text : List Char) :
    fillFrom i text args = (args.zipIdx i).foldl putIn text := by
  induction args generalizing i text with
  | nil => rfl
  | cons arg args ih => rw [fillFrom, ih, List.zipIdx_cons, List.foldl_cons, putIn]

/-- Arguments are put in one by one in the order of their numbers. -/
lemma fill_eq_fillInOrder (template : String) (args : List String) :
    fill template args = fillInOrder template args.zipIdx := by
  rw [fill, fillFrom_eq_foldl]
  rfl

section

variable {template : String} {pieces : List Piece} {args : List String}

lemma fillInOrder_eq (htemplate : template.toList = write pieces)
    (hargs : ∀ arg ∈ args, ∀ c ∈ arg.toList, IsPlain c) {order : List (String × Nat)}
    (horder : order.Perm args.zipIdx) :
    fillInOrder template order = String.ofList (pieces.flatMap (Piece.filled args)) := by
  have numbered (arg : String) (i : Nat) : (arg, i) ∈ order ↔ args[i]? = some arg := by
    rw [horder.mem_iff, List.mem_zipIdx_iff_getElem?]
  have plain : ∀ p ∈ order, ∀ c ∈ p.1.toList, IsPlain c := by
    rintro ⟨arg, i⟩ hp
    exact hargs arg (List.mem_of_getElem? ((numbered arg i).1 hp))
  rw [fillInOrder, htemplate, foldl_putIn_write order plain]
  congr 1
  exact List.flatMap_congr fun piece _ => filledInOrder_eq numbered piece

/-- In a template whose braces all belong to placeholders, arguments without braces are put in at
once: each placeholder with an argument gives way to it, every other one is kept. The order in which
they are put in does not matter. -/
theorem fill_simultaneous (htemplate : template.toList = write pieces)
    (hargs : ∀ arg ∈ args, ∀ c ∈ arg.toList, IsPlain c) :
    fill template args = String.ofList (pieces.flatMap (Piece.filled args))
      ∧ ∀ order : List (String × Nat), order.Perm args.zipIdx →
        fillInOrder template order = fill template args := by
  have filled : fill template args = String.ofList (pieces.flatMap (Piece.filled args)) := by
    rw [fill_eq_fillInOrder]
    exact fillInOrder_eq htemplate hargs (.refl _)
  refine ⟨filled, fun order horder => ?_⟩
  rw [filled]
  exact fillInOrder_eq htemplate hargs horder

/-- Placeholders of two digits, repeated ones, and one without an argument, which is kept. -/
theorem fill_simultaneous_of_repeated :
    let template := "\x7b10\x7d\x7b0\x7d-\x7b1\x7d\x7b0\x7d\x7b12\x7d"
    let args := ["a", "b", "c", "d", "e", "f", "g", "h", "i", "j", "k"]
    fill template args = "ka-ba\x7b12\x7d"
      ∧ fillInOrder template args.zipIdx.reverse = fill template args := by
  intro template args
  have plain : (args.all fun arg => arg.toList.all (IsPlain ·)) = true := by decide
  have hargs : ∀ arg ∈ args, ∀ c ∈ arg.toList, IsPlain c := by
    simpa only [List.all_eq_true, decide_eq_true_eq] using plain
  obtain ⟨filled, orders⟩ := @fill_simultaneous template
    [.slot 10, .slot 0, .char '-' (by decide), .slot 1, .slot 0, .slot 12] args (by decide) hargs
  exact ⟨filled.trans (by decide), orders _ (List.reverse_perm _)⟩

end

end CangjieSyntax.Template
