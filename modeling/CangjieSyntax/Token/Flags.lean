/-!
# Token flags

What is known of a token beyond its kind and text.
-/

namespace CangjieSyntax

/-- Facts about a token. -/
structure TokenFlags where
  /-- A line break lies between the token before and this one. -/
  lineBreak : Bool := false
  /-- A blank or a comment lies directly before the token. -/
  trivia : Bool := false
  unterminated : Bool := false
  invalidEscape : Bool := false
  hexadecimal : Bool := false
  binary : Bool := false
  octal : Bool := false
  /-- A number with a width behind it. -/
  suffixed : Bool := false
  /-- A raw string between single quotes. -/
  singleQuote : Bool := false
  deriving DecidableEq, Inhabited

namespace TokenFlags

/-- The facts that hold by either. -/
def union (f g : TokenFlags) : TokenFlags where
  lineBreak := f.lineBreak || g.lineBreak
  trivia := f.trivia || g.trivia
  unterminated := f.unterminated || g.unterminated
  invalidEscape := f.invalidEscape || g.invalidEscape
  hexadecimal := f.hexadecimal || g.hexadecimal
  binary := f.binary || g.binary
  octal := f.octal || g.octal
  suffixed := f.suffixed || g.suffixed
  singleQuote := f.singleQuote || g.singleQuote

/-- Whether anything at all separates the token from the one before. -/
def separated (f : TokenFlags) : Bool :=
  f.lineBreak || f.trivia

/-- The flags in the order of their bits, lowest first. -/
def toList (f : TokenFlags) : List Bool :=
  [f.lineBreak, f.trivia, f.unterminated, f.invalidEscape, f.hexadecimal, f.binary, f.octal,
   f.suffixed, f.singleQuote]

/-- The flags as a number with one bit each. -/
def toBits (f : TokenFlags) : Nat :=
  f.toList.foldr (fun b n => b.toNat + 2 * n) 0

/-- The flags whose bits are set in a number; other bits mean nothing. -/
def ofBits (n : Nat) : TokenFlags where
  lineBreak := n.testBit 0
  trivia := n.testBit 1
  unterminated := n.testBit 2
  invalidEscape := n.testBit 3
  hexadecimal := n.testBit 4
  binary := n.testBit 5
  octal := n.testBit 6
  suffixed := n.testBit 7
  singleQuote := n.testBit 8

end TokenFlags

end CangjieSyntax
