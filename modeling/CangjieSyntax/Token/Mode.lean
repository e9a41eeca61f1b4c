import CangjieSyntax.Source.Basic

/-!
# Modes

How the next bytes are read depends on where they stand: in code, where tokens are separated by
blanks and comments, or in the text of a string. A hole in a string holds code again, so that the
modes form a stack: the innermost comes first, and the outermost is the code of the file.
-/

namespace CangjieSyntax

/-- The two characters that enclose strings. -/
inductive Quote where
  | single
  | double
  deriving DecidableEq, Inhabited

namespace Quote

/-- The byte of a quote. -/
def byte : Quote → UInt8
  | single => 0x27
  | double => 0x22

/-- The character of a quote. -/
def char : Quote → Char
  | single => '\''
  | double => '"'

/-- The quote that a byte is. -/
def ofByte? (b : UInt8) : Option Quote :=
  if b == 0x22 then some double else if b == 0x27 then some single else none

end Quote

/-- The way in which text is read. -/
inductive Mode where
  /-- Code, with the number of braces opened in it and not closed yet. -/
  | code (braces : Nat)
  /-- The text of a string, on one line or over several. -/
  | text (quote : Quote) (multiLine : Bool)
  deriving DecidableEq, Inhabited

namespace Mode

/-- The innermost mode of a stack; an empty stack reads code. -/
def top : List Mode → Mode
  | [] => code 0
  | m :: _ => m

/-- The outermost mode of a stack by itself. -/
def outermost (modes : List Mode) : List Mode :=
  modes.drop (modes.length - 1)

end Mode

/-- What a token does to the stack of modes. -/
inductive ModeChange where
  | stay
  /-- A string or a hole opens. -/
  | enter (m : Mode)
  /-- A string or a hole ends. -/
  | leave
  /-- A brace opens in code. -/
  | openBrace
  /-- A brace closes in code. -/
  | closeBrace
  /-- All strings and holes end with the text. -/
  | unwind
  deriving DecidableEq, Inhabited

namespace ModeChange

/-- The stack after a change. A closing brace that matches none leaves the count at zero. -/
def apply : ModeChange → List Mode → List Mode
  | stay, modes => modes
  | enter m, modes => m :: modes
  | leave, modes => modes.tail
  | openBrace, .code n :: modes => .code (n + 1) :: modes
  | closeBrace, .code n :: modes => .code (n - 1) :: modes
  | openBrace, modes | closeBrace, modes => modes
  | unwind, modes => Mode.outermost modes

end ModeChange

end CangjieSyntax
