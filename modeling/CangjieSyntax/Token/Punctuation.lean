import CangjieSyntax.Source.Basic

/-!
# Punctuation

The marks and operators of the language. A text is read by maximal munch: `Punctuation.munch?` takes
the longest spelling that stands at a place. Only `>` is always read alone, because nested lists of
type arguments close with several of them; `Punctuation.joinGreater?` joins it with what follows
where an operator is wanted.
-/

namespace CangjieSyntax

/-- The marks and operators; the assignment operators come last. -/
inductive Punctuation where
  | openBrace
  | closeBrace
  | openParen
  | closeParen
  | openBracket
  | closeBracket
  | dot
  | dotDot
  | dotDotEquals
  | dotDotDot
  | semicolon
  | comma
  | colon
  | question
  | questionQuestion
  | less
  | lessEquals
  | greater
  | greaterEquals
  | greaterGreater
  | equalsEquals
  | bangEquals
  | thinArrow
  | fatArrow
  | backArrow
  | subtype
  | plus
  | minus
  | star
  | starStar
  | slash
  | percent
  | plusPlus
  | minusMinus
  | lessLess
  | amp
  | bar
  | caret
  | bang
  | tilde
  | tildeGreater
  | ampAmp
  | barBar
  | barGreater
  | atSign
  | hash
  | dollar
  | backslash
  | underscore
  | equals
  | plusEquals
  | minusEquals
  | starEquals
  | starStarEquals
  | slashEquals
  | percentEquals
  | ampEquals
  | caretEquals
  | barEquals
  | ampAmpEquals
  | barBarEquals
  | lessLessEquals
  | greaterGreaterEquals
  deriving DecidableEq, Inhabited

namespace Punctuation

/-- The spelling of a mark. -/
def text : Punctuation → String
  | openBrace => "\x7b"
  | closeBrace => "\x7d"
  | openParen => "("
  | closeParen => ")"
  | openBracket => "["
  | closeBracket => "]"
  | dot => "."
  | dotDot => ".."
  | dotDotEquals => "..="
  | dotDotDot => "..."
  | semicolon => ";"
  | comma => ","
  | colon => ":"
  | question => "?"
  | questionQuestion => "??"
  | less => "<"
  | lessEquals => "<="
  | greater => ">"
  | greaterEquals => ">="
  | greaterGreater => ">>"
  | equalsEquals => "=="
  | bangEquals => "!="
  | thinArrow => "->"
  | fatArrow => "=>"
  | backArrow => "<-"
  | subtype => "<:"
  | plus => "+"
  | minus => "-"
  | star => "*"
  | starStar => "**"
  | slash => "/"
  | percent => "%"
  | plusPlus => "++"
  | minusMinus => "--"
  | lessLess => "<<"
  | amp => "&"
  | bar => "|"
  | caret => "^"
  | bang => "!"
  | tilde => "~"
  | tildeGreater => "~>"
  | ampAmp => "&&"
  | barBar => "||"
  | barGreater => "|>"
  | atSign => "@"
  | hash => "#"
  | dollar => "$"
  | backslash => "\\"
  | underscore => "_"
  | equals => "="
  | plusEquals => "+="
  | minusEquals => "-="
  | starEquals => "*="
  | starStarEquals => "**="
  | slashEquals => "/="
  | percentEquals => "%="
  | ampEquals => "&="
  | caretEquals => "^="
  | barEquals => "|="
  | ampAmpEquals => "&&="
  | barBarEquals => "||="
  | lessLessEquals => "<<="
  | greaterGreaterEquals => ">>="

/-- Every mark. -/
def all : List Punctuation :=
  [openBrace, closeBrace, openParen, closeParen, openBracket, closeBracket, dot, dotDot,
   dotDotEquals, dotDotDot, semicolon, comma, colon, question, questionQuestion, less,
   lessEquals, greater, greaterEquals, greaterGreater, equalsEquals, bangEquals, thinArrow,
   fatArrow, backArrow, subtype, plus, minus, star, starStar, slash, percent, plusPlus,
   minusMinus, lessLess, amp, bar, caret, bang, tilde, tildeGreater, ampAmp, barBar,
   barGreater, atSign, hash, dollar, backslash, underscore, equals, plusEquals, minusEquals,
   starEquals, starStarEquals, slashEquals, percentEquals, ampEquals, caretEquals,
   barEquals, ampAmpEquals, barBarEquals, lessLessEquals, greaterGreaterEquals]

theorem mem_all (p : Punctuation) : p ∈ all := by
  cases p <;> decide

/-- Whether the mark assigns. -/
def isAssignment : Punctuation → Bool
  | equals | plusEquals | minusEquals | starEquals | starStarEquals | slashEquals | percentEquals
  | ampEquals | caretEquals | barEquals | ampAmpEquals | barBarEquals | lessLessEquals
  | greaterGreaterEquals => true
  | _ => false

/-- Whether the mark is an operator joined with an assignment. -/
def isCompoundAssignment (p : Punctuation) : Bool :=
  p.isAssignment && p != equals

/-- Whether the mark is made of a `>` and what touches it. -/
def isJoined : Punctuation → Bool
  | greaterEquals | greaterGreater | greaterGreaterEquals => true
  | _ => false

/-- The marks that are read in one go, each with the bytes of its spelling, longer spellings
first. -/
def munchTable : List (List UInt8 × Punctuation) :=
  let spelled := (all.filter fun p => !p.isJoined).map fun p => (p.text.toUTF8.toList, p)
  [3, 2, 1].flatMap fun n => spelled.filter fun entry => entry.1.length == n

/-- The mark with the longest spelling that stands at `pos`, and the offset behind it. -/
def munch? (src : Source) (pos : Nat) : Option (Punctuation × Nat) :=
  (munchTable.find? fun entry => src.startsWith pos entry.1).map fun entry =>
    (entry.2, pos + entry.1.length)

/-- What a `>` becomes together with the bytes at `pos` that touch it, and the offset behind it.
An `=` that belongs to a `==` or `=>` is not joined. -/
def joinGreater? (src : Source) (pos : Nat) : Option (Punctuation × Nat) :=
  if src.byteAt pos == some 0x3E then
    if src.byteAt (pos + 1) == some 0x3D then some (greaterGreaterEquals, pos + 2)
    else some (greaterGreater, pos + 1)
  else if src.byteAt pos == some 0x3D && src.byteAt (pos + 1) != some 0x3D
      && src.byteAt (pos + 1) != some 0x3E then
    some (greaterEquals, pos + 1)
  else
    none

end Punctuation

end CangjieSyntax
