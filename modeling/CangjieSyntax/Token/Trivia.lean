import CangjieSyntax.Token.Lexeme

/-!
# Trivia

Blanks, line breaks and comments between tokens. Comments from `/*` to `*/` nest. A line break
counts where it stands by itself or as a line feed in a comment.
-/

namespace CangjieSyntax

/-- What lies in front of a token. -/
structure Gap where
  /-- The offset where the token starts. -/
  stop : Nat
  lineBreak : Bool := false
  /-- A blank or a comment is present. -/
  trivia : Bool := false
  errors : LexErrors := []
  deriving DecidableEq, Inhabited

/-- The end of a comment from `/*` on. -/
structure BlockComment where
  stop : Nat
  lineBreak : Bool
  closed : Bool
  deriving DecidableEq, Inhabited

namespace BlockComment

/-- The bytes that matter in a comment: the star, the slash and the line feed. -/
def isMark (b : UInt8) : Bool :=
  b == 0x2A || b == 0x2F || b == 0x0A

/-- The end of a comment whose inside goes on at `pos`, within the given number of outer
comments. -/
def read (src : Source) (pos outer : Nat) : BlockComment :=
  match h : src.find? isMark pos with
  | none => ⟨src.size, false, false⟩
  | some i =>
    if src.byteAt i == some 0x0A then
      { read src (i + 1) outer with lineBreak := true }
    else if src.byteAt i == some 0x2A && src.byteAt (i + 1) == some 0x2F then
      match outer with
      | 0 => ⟨i + 2, false, true⟩
      | outer + 1 => read src (i + 2) outer
    else if src.byteAt i == some 0x2F && src.byteAt (i + 1) == some 0x2A then
      read src (i + 2) (outer + 1)
    else
      read src (i + 1) outer
termination_by src.size - pos
decreasing_by
  all_goals
    have := Source.find?_bounds h
    omega

theorem le_stop_read (src : Source) (pos outer : Nat) (hpos : pos ≤ src.size) :
    pos ≤ (read src pos outer).stop := by
  fun_induction read src pos outer with
  | case1 => exact hpos
  | case2 pos outer i h _ _ ih =>
    have := Source.find?_bounds h
    have := ih (by omega)
    show pos ≤ (read src (i + 1) outer).stop
    omega
  | case3 pos i h => have := Source.find?_bounds h; simp only; omega
  | case4 pos i h _ hclose outer ih =>
    have := Source.find?_bounds h
    have hb : src.byteAt (i + 1) = some 0x2F := by simp at hclose; exact hclose.2
    have := Source.lt_size_of_byteAt hb
    have := ih (by omega)
    omega
  | case5 pos outer i h _ _ hopen ih =>
    have := Source.find?_bounds h
    have hb : src.byteAt (i + 1) = some 0x2A := by simp at hopen; exact hopen.2
    have := Source.lt_size_of_byteAt hb
    have := ih (by omega)
    omega
  | case6 pos outer i h _ _ _ ih =>
    have := Source.find?_bounds h
    have := ih (by omega)
    omega

end BlockComment

namespace Gap

/-- The trivia from `pos` on. -/
def read (src : Source) (pos : Nat) : Gap :=
  match h : src.byteAt pos with
  | none => { stop := pos }
  | some b =>
    if Byte.isLineBreak b then { read src (pos + 1) with lineBreak := true }
    else if Byte.isBlank b then { read src (pos + 1) with trivia := true }
    else if b == 0x2F && src.byteAt (pos + 1) == some 0x2F then
      { read src (src.skipWhile (· != 0x0A) (pos + 2)) with trivia := true }
    else if hopen : b == 0x2F && src.byteAt (pos + 1) == some 0x2A then
      let comment := BlockComment.read src (pos + 2) 0
      let rest := read src comment.stop
      { rest with
        lineBreak := comment.lineBreak || rest.lineBreak
        trivia := true
        errors :=
          if comment.closed then rest.errors
          else (.unterminatedComment, ⟨pos, pos + 2⟩) :: rest.errors }
    else { stop := pos }
termination_by src.size - pos
decreasing_by
  · have := Source.lt_size_of_byteAt h; omega
  · have := Source.lt_size_of_byteAt h; omega
  · have := Source.lt_size_of_byteAt h
    have := src.le_skipWhile (· != 0x0A) (pos + 2)
    omega
  · have := Source.lt_size_of_byteAt h
    have hb : src.byteAt (pos + 1) = some 0x2A := by simp at hopen; exact hopen.2
    have := Source.lt_size_of_byteAt hb
    have := BlockComment.le_stop_read src (pos + 2) 0 (by omega)
    omega

/-- The flags that the gap gives to the token behind it. -/
def flags (gap : Gap) : TokenFlags :=
  { lineBreak := gap.lineBreak, trivia := gap.trivia }

end Gap

end CangjieSyntax
