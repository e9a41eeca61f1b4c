import CangjieSyntax.Token.Lexeme
import CangjieSyntax.Unicode.Identifier

/-!
# Numerals

Integers in four bases and floating-point numbers in two, with `_` between digits and a width behind
them. A fraction needs a digit behind its point and an exponent needs a digit behind its sign;
otherwise the number ends before them.
-/

namespace CangjieSyntax.Numeral

/-- The widths of integers. -/
def integerSuffixes : List String :=
  ["i16", "i32", "i64", "u16", "u32", "u64", "i8", "u8"]

/-- The widths of floating-point numbers. -/
def floatSuffixes : List String :=
  ["f16", "f32", "f64"]

/-- The underscore between digits. -/
def isSeparator (b : UInt8) : Bool :=
  b == 0x5F

/-- The end of a run of digits and separators. -/
def skipDigits (src : Source) (digit : UInt8 → Bool) (pos : Nat) : Nat :=
  src.skipWhile (fun b => digit b || isSeparator b) pos

/-- The mark of a decimal exponent. -/
def isDecimalExponent (b : UInt8) : Bool :=
  b == 0x65 || b == 0x45

/-- The mark of a binary exponent, as hexadecimal numbers have it. -/
def isBinaryExponent (b : UInt8) : Bool :=
  b == 0x70 || b == 0x50

/-- The sign of an exponent. -/
def isSign (b : UInt8) : Bool :=
  b == 0x2B || b == 0x2D

/-- The end of an exponent: its mark, a sign or none, and digits that start with a digit. -/
def exponent? (src : Source) (mark : UInt8 → Bool) (pos : Nat) : Option Nat :=
  if src.byteIs pos mark then
    let digits := if src.byteIs (pos + 1) isSign then pos + 2 else pos + 1
    if src.byteIs digits Byte.isDigit then some (skipDigits src Byte.isDigit digits) else none
  else
    none

/-- The end of a fraction: a point and digits that start with a digit. -/
def fraction? (src : Source) (digit : UInt8 → Bool) (pos : Nat) : Option Nat :=
  if src.byteAt pos == some 0x2E && src.byteIs (pos + 1) digit then
    some (skipDigits src digit (pos + 1))
  else
    none

/-- The bases that a prefix announces. -/
inductive Base where
  | hexadecimal
  | binary
  | octal
  deriving DecidableEq, Inhabited

namespace Base

/-- The base that the byte behind a leading zero announces. -/
def ofByte? (b : UInt8) : Option Base :=
  if b == 0x78 || b == 0x58 then some hexadecimal
  else if b == 0x62 || b == 0x42 then some binary
  else if b == 0x6F || b == 0x4F then some octal
  else none

/-- The digits of a base. -/
def isDigit : Base → UInt8 → Bool
  | hexadecimal => Byte.isHexDigit
  | binary => Byte.isBinaryDigit
  | octal => Byte.isOctalDigit

/-- The flag of a base. -/
def flags : Base → TokenFlags
  | hexadecimal => { hexadecimal := true }
  | binary => { binary := true }
  | octal => { octal := true }

end Base

/-- A number without its width. -/
structure Body where
  stop : Nat
  isFloat : Bool
  flags : TokenFlags := {}
  errors : LexErrors := []
  deriving DecidableEq, Inhabited

/-- The end of a hexadecimal number behind its whole digits, if an exponent makes it a
floating-point number. A fraction without an exponent does not belong to the number. -/
def hexFloat? (src : Source) (pos : Nat) : Option Nat :=
  exponent? src isBinaryExponent ((fraction? src Byte.isHexDigit pos).getD pos)

/-- A number in an announced base, from its leading zero on. -/
def readBased (src : Source) (start : Nat) (base : Base) : Body :=
  let whole := skipDigits src base.isDigit (start + 2)
  let hasDigit := src.skipWhile isSeparator (start + 2) != whole
  if base = .hexadecimal then
    match hexFloat? src whole with
    | some stop => { stop, isFloat := true, flags := base.flags }
    | none =>
      { stop := whole, isFloat := false, flags := base.flags
        errors := if hasDigit then [] else [(.digitExpected, ⟨start, whole⟩)] }
  else
    let missing : LexErrors := if hasDigit then [] else [(.digitExpected, ⟨start, whole⟩)]
    if src.byteIs whole Byte.isDigit then
      let stop := skipDigits src Byte.isDigit whole
      { stop, isFloat := false, flags := base.flags
        errors := missing ++ [(.digitExpected, ⟨whole, stop⟩)] }
    else
      { stop := whole, isFloat := false, flags := base.flags, errors := missing }

/-- A decimal number. -/
def readDecimal (src : Source) (start : Nat) : Body :=
  let whole := skipDigits src Byte.isDigit start
  match fraction? src Byte.isDigit whole with
  | some stop => { stop := (exponent? src isDecimalExponent stop).getD stop, isFloat := true }
  | none =>
    match exponent? src isDecimalExponent whole with
    | some stop => { stop, isFloat := true }
    | none => { stop := whole, isFloat := false }

/-- A decimal number that starts with its point. -/
def readPointFirst (src : Source) (start : Nat) : Body :=
  let stop := skipDigits src Byte.isDigit (start + 1)
  { stop := (exponent? src isDecimalExponent stop).getD stop, isFloat := true }

/-- A number together with the word that touches it, which must be a width. -/
def withSuffix (src : Source) (start : Nat) (body : Body) : Lexeme :=
  let lexeme : Lexeme :=
    { kind := if body.isFloat then .floatLiteral else .integerLiteral
      stop := body.stop
      value := String.ofList ((src.slice start body.stop).toList.filter (· != '_'))
      flags := body.flags
      errors := body.errors }
  if (src.charAt body.stop).any Unicode.isIdentifierStart then
    let stop := src.skipChars Unicode.isIdentifierPart body.stop
    let word := src.slice body.stop stop
    if (if body.isFloat then floatSuffixes else integerSuffixes).contains word then
      { lexeme with stop, suffix := some word, flags := { body.flags with suffixed := true } }
    else
      { lexeme with
        stop
        errors := body.errors ++ [(.invalidSuffix word, ⟨body.stop, stop⟩)] }
  else
    lexeme

/-- The number that starts with a digit at `start`. -/
def read (src : Source) (start : Nat) : Lexeme :=
  let base :=
    if src.byteAt start == some 0x30 then (src.byteAt (start + 1)).bind Base.ofByte? else none
  withSuffix src start <| match base with
    | some base => readBased src start base
    | none => readDecimal src start

/-- Whether a byte can end an operand, so that a point behind it selects a member. -/
def endsOperand (b : UInt8) : Bool :=
  b == 0x29 || b == 0x5D || b == 0x5F || Byte.isLetter b || Byte.isDigit b

/-- Whether a number starts with the point at `start`: a digit follows and no operand ends in
front. -/
def startsWithPoint (src : Source) (start : Nat) : Bool :=
  src.byteAt start == some 0x2E && src.byteIs (start + 1) Byte.isDigit
    && !(start != 0 && src.byteIs (start - 1) endsOperand)

end CangjieSyntax.Numeral
