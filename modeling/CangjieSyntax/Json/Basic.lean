/-!
# Reading JSON

A JSON document is read from left to right, and the first fault found in it is the answer: text that
is no JSON, a text that ends too early, or a value that does not fit where it stands. A reader takes
a value off the start of a text; repetition ends where each reading makes progress.
-/

namespace CangjieSyntax

/-- Why a document is not accepted. -/
inductive JsonFault where
  /-- A character stands where JSON does not allow it, or a number is too large for a double. -/
  | malformed
  /-- The text ends inside the document. -/
  | endOfText
  /-- A value has the wrong type or is out of range, or a member is given twice. -/
  | wrongData
  deriving DecidableEq, Inhabited

namespace Json

/-- A reader of some value at the start of a text, which gives the rest of the text as well. -/
abbrev Reader (α : Type) := List Char → Except JsonFault (α × List Char)

/-- Whether what a reader leaves is always shorter than the text. -/
def Progresses {α : Type} (read : Reader α) : Prop :=
  ∀ {text a rest}, read text = .ok (a, rest) → rest.length < text.length

/-- The blanks between the parts of a document. -/
def isSpace (c : Char) : Bool :=
  c == ' ' || c == '\n' || c == '\t' || c == '\r'

/-- The text behind its leading blanks. -/
def trimStart (text : List Char) : List Char :=
  text.dropWhile isSpace

/-- A text that must go on with the given word. -/
def expectWord : List Char → List Char → Except JsonFault (List Char)
  | [], text => .ok text
  | _ :: _, [] => .error .endOfText
  | w :: word, c :: text => if w == c then expectWord word text else .error .malformed

end Json

end CangjieSyntax
