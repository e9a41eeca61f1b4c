import CangjieSyntax.Double.Basic
import CangjieSyntax.Json.Basic

/-!
# JSON numbers

A number in a document, behind its sign. It is read into a significand of 64 bits and a power of
ten, of which the double is the product. A number without such a double is no value; one that is
only passed over may have any size.
-/

namespace CangjieSyntax.Json

/-- A number that has been read: a significand below 2^64, the power of ten that it is multiplied
by, and whether it is written as a plain integer. -/
structure Number where
  significand : Nat
  exponent : Int
  isInteger : Bool
  deriving DecidableEq, Inhabited

/-- The value of decimal digits. -/
def digitsValue (digits : List Char) : Nat :=
  digits.foldl (fun n c => 10 * n + (c.toNat - 48)) 0

/-- The digits added to a significand as far as 64 bits go, and those from the first one on that
does not fit. -/
def takeDigits : Nat → List Char → Nat × List Char
  | significand, [] => (significand, [])
  | significand, digit :: digits =>
    let longer := 10 * significand + (digit.toNat - 48)
    if longer < Nat.pow 2 64 then takeDigits longer digits else (significand, digit :: digits)

/-- The number with the given digits in front of the point and behind it. A digit that the
significand has no room for is left out, and in front of the point it raises the exponent. -/
def Number.ofDigits (whole fraction : List Char) (exponent : Int) (isInteger : Bool) : Number :=
  let (significand, left) := takeDigits 0 whole
  let (significand, dropped) := takeDigits significand fraction
  { significand, isInteger
    exponent := exponent + left.length - (fraction.length - dropped.length : Nat) }

/-- At least one digit. -/
def someDigits (atEnd : JsonFault) : Reader (List Char) := fun text =>
  match text.span Char.isDigit with
  | ([], []) => .error atEnd
  | ([], _) => .error .malformed
  | (digits, rest) => .ok (digits, rest)

/-- The exponent of a number, where there is one. -/
def readExponent (atEnd : JsonFault) : Reader (Option Int) := fun text =>
  match text with
  | e :: rest =>
    if e == 'e' || e == 'E' then
      match rest with
      | '-' :: rest => do
        let (digits, rest) ← someDigits atEnd rest
        return (some (-(digitsValue digits : Int)), rest)
      | '+' :: rest => do
        let (digits, rest) ← someDigits atEnd rest
        return (some (digitsValue digits : Int), rest)
      | rest => do
        let (digits, rest) ← someDigits atEnd rest
        return (some (digitsValue digits : Int), rest)
    else .ok (none, text)
  | [] => .ok (none, [])

/-- A number without its sign; `atEnd` is the fault where the text ends inside it. -/
def readNumber (atEnd : JsonFault) : Reader Number := fun text => do
  let (whole, rest) ← someDigits atEnd text
  match whole with
  | '0' :: _ :: _ => .error .malformed
  | _ =>
    match rest with
    | '.' :: rest =>
      let (fraction, rest) ← someDigits atEnd rest
      let (exponent, rest) ← readExponent atEnd rest
      return (.ofDigits whole fraction (exponent.getD 0) false, rest)
    | rest =>
      let (exponent, rest) ← readExponent atEnd rest
      return (.ofDigits whole [] (exponent.getD 0) exponent.isNone, rest)

/-- Whether a number is too large for a double. Its significand and its power of ten are rounded
before they are multiplied, and a power above 10^308 is no double by itself. -/
def Number.isHuge (n : Number) : Bool :=
  n.significand != 0 && 0 ≤ n.exponent &&
    (308 < n.exponent
      || !Double.isFinite (Double.product n.significand (Nat.pow 10 n.exponent.toNat)))

/-- A number that is needed: one too large for a double is malformed. -/
def readFiniteNumber : Reader Number := fun text => do
  let (n, rest) ← readNumber .endOfText text
  if n.isHuge then .error .malformed else return (n, rest)

end CangjieSyntax.Json
