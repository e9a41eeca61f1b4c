/-!
# Ranges of code points

A property of characters is given by the ranges of code points that have it.
-/

namespace CangjieSyntax.Unicode

/-- The ranges of a property, in three tables so that the common characters are found early. Both
ends of a range belong to it, and no range lies in two tables. -/
structure CharTable where
  /-- Ranges up to U+1FFF. -/
  low : List (Nat × Nat)
  /-- Ranges from U+2000 up to U+FFFF. -/
  middle : List (Nat × Nat)
  /-- Ranges from U+10000 on. -/
  high : List (Nat × Nat)

namespace CharTable

/-- The table that a character is looked up in. -/
def rangesFor (t : CharTable) (c : Char) : List (Nat × Nat) :=
  if c.val < 0x2000 then t.low else if c.val < 0x10000 then t.middle else t.high

/-- Whether a character has the property. -/
def contains (t : CharTable) (c : Char) : Bool :=
  (t.rangesFor c).any fun r => r.1 ≤ c.toNat && c.toNat ≤ r.2

end CharTable

end CangjieSyntax.Unicode
