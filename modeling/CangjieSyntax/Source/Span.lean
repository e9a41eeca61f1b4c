/-!
# Spans

A span names a stretch of source text by byte offsets. Every token, node and diagnostic carries one;
none of them copies the text it stands for.
-/

namespace CangjieSyntax

/-- A half-open range of byte offsets: the `length` bytes from `start` on. -/
structure Span where
  start : Nat
  length : Nat
  deriving DecidableEq, Inhabited

/-- The offsets where a stretch of text starts and stops, before a span is made of them. -/
structure Bounds where
  start : Nat
  stop : Nat
  deriving DecidableEq, Inhabited

namespace Span

/-- The span from `start` up to `stop`; it is empty when `stop` lies before `start`. -/
def ofBounds (start stop : Nat) : Span :=
  ⟨start, stop - start⟩

/-- The empty span at `pos`. -/
def empty (pos : Nat) : Span :=
  ⟨pos, 0⟩

/-- The offset just past the last byte. -/
def stop (s : Span) : Nat :=
  s.start + s.length

/-- Whether no byte lies inside. -/
def isEmpty (s : Span) : Bool :=
  s.length == 0

/-- Whether the byte at `pos` lies inside. -/
def contains (s : Span) (pos : Nat) : Bool :=
  s.start ≤ pos && pos < s.stop

/-- The smallest span around both. -/
def cover (s t : Span) : Span :=
  ofBounds (min s.start t.start) (max s.stop t.stop)

/-- The span moved `n` bytes to the right. -/
def shift (n : Nat) (s : Span) : Span :=
  ⟨n + s.start, s.length⟩

/-- The span as an interval, `[4, 6)`. -/
def interval (s : Span) : String :=
  "[" ++ toString s.start ++ ", " ++ toString s.stop ++ ")"

/-- The span as a range, `4..6`. -/
def range (s : Span) : String :=
  toString s.start ++ ".." ++ toString s.stop

@[simp] theorem start_ofBounds (a b : Nat) : (ofBounds a b).start = a := rfl

@[simp] theorem stop_ofBounds {a b : Nat} (h : a ≤ b) : (ofBounds a b).stop = b := by
  simp only [ofBounds, stop]; omega

@[simp] theorem stop_shift (n : Nat) (s : Span) : (s.shift n).stop = n + s.stop := by
  simp only [shift, stop]; omega

end Span

/-- The span between the bounds. -/
def Bounds.span (b : Bounds) : Span :=
  .ofBounds b.start b.stop

end CangjieSyntax
