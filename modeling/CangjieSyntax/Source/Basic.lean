import CangjieSyntax.Source.Span

/-!
# Source text

A source text is read by byte offset. `Source.byteAt` and `Source.charAt` look at one place,
`Source.skipWhile` and `Source.skipChars` walk over a run, and `Source.slice?` takes a stretch out.
An offset may lie inside a character: there is a byte there, but no character.
-/

namespace CangjieSyntax

/-- A text together with its UTF-8 bytes. -/
structure Source where
  text : String
  bytes : ByteArray := text.toUTF8
  bytes_eq : bytes = text.toUTF8 := by rfl

namespace Source

/-- The source with the given text. -/
def ofString (text : String) : Source :=
  { text }

/-- Length in bytes. -/
def size (src : Source) : Nat :=
  src.bytes.size

/-- The byte at an offset, if the text goes that far. -/
def byteAt (src : Source) (pos : Nat) : Option UInt8 :=
  src.bytes[pos]?

/-- The character that starts at an offset. There is none at the end and none inside a character. -/
def charAt (src : Source) (pos : Nat) : Option Char :=
  src.bytes.utf8DecodeChar? pos

/-- Whether an offset lies between characters. -/
def isBoundary (src : Source) (pos : Nat) : Bool :=
  pos == src.size || (src.charAt pos).isSome

/-- The text from `start` up to `stop`, if both lie between characters. -/
def slice? (src : Source) (start stop : Nat) : Option String :=
  if src.isBoundary start ∧ start ≤ stop ∧ stop ≤ src.size then
    String.fromUTF8? (src.bytes.extract start stop)
  else
    none

/-- The text from `start` up to `stop`, or nothing where there is no such text. -/
def slice (src : Source) (start stop : Nat) : String :=
  (src.slice? start stop).getD ""

/-- Whether the given bytes stand at `pos`. -/
def startsWith (src : Source) (pos : Nat) : List UInt8 → Bool
  | [] => true
  | b :: rest => src.byteAt pos == some b && src.startsWith (pos + 1) rest

theorem lt_size_of_byteAt {src : Source} {pos : Nat} {b : UInt8} (h : src.byteAt pos = some b) :
    pos < src.size := by
  unfold byteAt at h
  by_cases hlt : pos < src.bytes.size
  · exact hlt
  · simp [hlt] at h

theorem lt_size_of_charAt {src : Source} {pos : Nat} {c : Char} (h : src.charAt pos = some c) :
    pos < src.size := by
  unfold charAt ByteArray.utf8DecodeChar? at h
  by_cases hlt : pos < src.bytes.size
  · exact hlt
  · simp [hlt] at h

/-- The first offset from `pos` on whose byte does not satisfy `p`, or the end of the text. -/
def skipWhile (src : Source) (p : UInt8 → Bool) (pos : Nat) : Nat :=
  match h : src.byteAt pos with
  | some b => if p b then src.skipWhile p (pos + 1) else pos
  | none => pos
termination_by src.size - pos
decreasing_by
  have := lt_size_of_byteAt h
  omega

/-- The first offset from `pos` on whose byte satisfies `p`. -/
def find? (src : Source) (p : UInt8 → Bool) (pos : Nat) : Option Nat :=
  let found := src.skipWhile (fun b => !p b) pos
  if found < src.size then some found else none

/-- The first offset from `pos` on whose character does not satisfy `p`, or the end of the text. -/
def skipChars (src : Source) (p : Char → Bool) (pos : Nat) : Nat :=
  match _h : src.charAt pos with
  | some c => if p c then src.skipChars p (pos + c.utf8Size) else pos
  | none => pos
termination_by src.size - pos
decreasing_by
  have := lt_size_of_charAt _h
  have := c.utf8Size_pos
  omega

theorem le_skipWhile (src : Source) (p : UInt8 → Bool) (pos : Nat) :
    pos ≤ src.skipWhile p pos := by
  fun_induction skipWhile src p pos with
  | case1 => omega
  | case2 => omega
  | case3 => omega

theorem skipWhile_le_size {src : Source} {p : UInt8 → Bool} {pos : Nat} (h : pos ≤ src.size) :
    src.skipWhile p pos ≤ src.size := by
  fun_induction skipWhile src p pos with
  | case1 pos b hb _ ih => exact ih (lt_size_of_byteAt hb)
  | case2 => exact h
  | case3 => exact h

theorem find?_bounds {src : Source} {p : UInt8 → Bool} {pos i : Nat}
    (h : src.find? p pos = some i) :
    pos ≤ i ∧ i < src.size := by
  have := src.le_skipWhile (fun b => !p b) pos
  simp only [find?] at h
  split at h
  · injection h with h; omega
  · contradiction

theorem le_skipChars (src : Source) (p : Char → Bool) (pos : Nat) :
    pos ≤ src.skipChars p pos := by
  fun_induction skipChars src p pos with
  | case1 => omega
  | case2 => omega
  | case3 => omega

end Source

/-- The text a span stands for, if it lies inside the source and splits no character. -/
def Span.text? (src : Source) (s : Span) : Option String :=
  src.slice? s.start s.stop

end CangjieSyntax
