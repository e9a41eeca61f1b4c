/-!
# Settings

What a caller may choose about a parse. Each setting has a default.
-/

namespace CangjieSyntax

/-- The settings of a parse. -/
structure Settings where
  /-- The depth of nesting past which a construct is not read any more. -/
  maxDepth : Nat := 256
  /-- How many tokens one tentative reading may take before it gives up. -/
  budget : Nat := 512
  /-- The file named in every diagnostic. -/
  fileName : Option String := none
  deriving DecidableEq, Inhabited

end CangjieSyntax
