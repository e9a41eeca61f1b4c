import CangjieSyntax.Source.Basic

/-!
# Well-formed UTF-8

Raw bytes become a source only if they are well-formed UTF-8. Where they are not, the fault is the
longest stretch that could still have begun a well-formed sequence, and at least one byte. The same
rule decides what one replacement character stands for when bytes are decoded with losses.
-/

namespace CangjieSyntax.Utf8

/-- Whether a byte continues a sequence. -/
def isContinuation (b : UInt8) : Bool :=
  0x80 ≤ b && b ≤ 0xBF

/-- How many bytes follow a leading byte, and the range the first of them must lie in. -/
def leadByte? (b : UInt8) : Option (Nat × UInt8 × UInt8) :=
  if 0xC2 ≤ b && b ≤ 0xDF then some (1, 0x80, 0xBF)
  else if b == 0xE0 then some (2, 0xA0, 0xBF)
  else if b == 0xED then some (2, 0x80, 0x9F)
  else if 0xE1 ≤ b && b ≤ 0xEF then some (2, 0x80, 0xBF)
  else if b == 0xF0 then some (3, 0x90, 0xBF)
  else if b == 0xF4 then some (3, 0x80, 0x8F)
  else if 0xF1 ≤ b && b ≤ 0xF3 then some (3, 0x80, 0xBF)
  else none

/-- How many continuation bytes stand at `pos`, counting no further than `limit`. -/
def continuations (bytes : ByteArray) (pos : Nat) : Nat → Nat
  | 0 => 0
  | limit + 1 =>
    match bytes[pos]? with
    | some b => if isContinuation b then 1 + continuations bytes (pos + 1) limit else 0
    | none => 0

/-- The length of the faulty stretch at `pos`, where no well-formed sequence starts. -/
def faultLength (bytes : ByteArray) (pos : Nat) : Nat :=
  match bytes[pos]?.bind leadByte? with
  | none => 1
  | some (following, low, high) =>
    match bytes[pos + 1]? with
    | some b => if low ≤ b && b ≤ high then 2 + continuations bytes (pos + 2) (following - 2) else 1
    | none => 1

/-- The first offset from `pos` on where no character starts. -/
def wellFormedUpTo (bytes : ByteArray) (pos : Nat) : Nat :=
  match bytes.utf8DecodeChar? pos with
  | some c => if pos < bytes.size then wellFormedUpTo bytes (pos + c.utf8Size) else pos
  | none => pos
termination_by bytes.size - pos
decreasing_by
  have := c.utf8Size_pos
  omega

/-- Every character of the bytes from `pos` on, with U+FFFD for each faulty stretch. -/
def decodeWithLosses (bytes : ByteArray) (pos : Nat) : List Char :=
  if pos < bytes.size then
    match bytes.utf8DecodeChar? pos with
    | some c => c :: decodeWithLosses bytes (pos + c.utf8Size)
    | none => Char.ofNat 0xFFFD :: decodeWithLosses bytes (pos + max 1 (faultLength bytes pos))
  else
    []
termination_by bytes.size - pos
decreasing_by
  · have := c.utf8Size_pos
    omega
  · omega

end CangjieSyntax.Utf8

namespace CangjieSyntax.Source

/-- The source with the given bytes, or the first faulty stretch of them. -/
def ofBytes (bytes : ByteArray) : Except Span Source :=
  match String.fromUTF8? bytes with
  | some text => .ok (ofString text)
  | none =>
    let pos := Utf8.wellFormedUpTo bytes 0
    .error ⟨pos, Utf8.faultLength bytes pos⟩

end CangjieSyntax.Source
