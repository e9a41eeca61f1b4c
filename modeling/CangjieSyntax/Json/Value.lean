import CangjieSyntax.Json.Number
import CangjieSyntax.Json.Text

/-!
# JSON values

Values that are not taken: `skipValue` passes over a value of any kind, and `wrongType` is the fault
of a value that stands where another kind is wanted.
-/

namespace CangjieSyntax.Json

mutual

/-- The text behind a value of any kind, in at most the given number of steps. -/
def skipValue : Nat → List Char → Except JsonFault (List Char)
  | 0, _ => .error .endOfText
  | steps + 1, text =>
    match trimStart text with
    | [] => .error .endOfText
    | 'n' :: rest => expectWord ['u', 'l', 'l'] rest
    | 't' :: rest => expectWord ['r', 'u', 'e'] rest
    | 'f' :: rest => expectWord ['a', 'l', 's', 'e'] rest
    | '-' :: rest => (readNumber .malformed rest).map Prod.snd
    | '"' :: rest => skipString rest
    | '[' :: rest =>
      match trimStart rest with
      | ']' :: rest => .ok rest
      | [] => .error .endOfText
      | rest => do skipElements steps (← skipValue steps rest)
    | '\x7b' :: rest =>
      match trimStart rest with
      | '\x7d' :: rest => .ok rest
      | rest => do skipMembers steps (← skipMember steps rest)
    | c :: rest =>
      if c.isDigit then (readNumber .malformed (c :: rest)).map Prod.snd else .error .malformed

/-- The text behind the elements of an array that follow its first one. -/
def skipElements : Nat → List Char → Except JsonFault (List Char)
  | 0, _ => .error .endOfText
  | steps + 1, text =>
    match trimStart text with
    | [] => .error .endOfText
    | ']' :: rest => .ok rest
    | ',' :: rest => do skipElements steps (← skipValue steps rest)
    | _ => .error .malformed

/-- The text behind a member of an object. -/
def skipMember : Nat → List Char → Except JsonFault (List Char)
  | 0, _ => .error .endOfText
  | steps + 1, text =>
    match trimStart text with
    | [] => .error .endOfText
    | '"' :: rest => do
      match trimStart (← skipString rest) with
      | [] => .error .endOfText
      | ':' :: rest => skipValue steps rest
      | _ => .error .malformed
    | _ => .error .malformed

/-- The text behind the members of an object that follow its first one. -/
def skipMembers : Nat → List Char → Except JsonFault (List Char)
  | 0, _ => .error .endOfText
  | steps + 1, text =>
    match trimStart text with
    | [] => .error .endOfText
    | '\x7d' :: rest => .ok rest
    | ',' :: rest => do skipMembers steps (← skipMember steps rest)
    | _ => .error .malformed

end

/-- The fault of a value that has the wrong type; it must still be well-formed as far as it is
simple. -/
def wrongType (text : List Char) : JsonFault :=
  let checked : Except JsonFault Unit := match text with
    | 'n' :: rest => (expectWord ['u', 'l', 'l'] rest).map fun _ => ()
    | 't' :: rest => (expectWord ['r', 'u', 'e'] rest).map fun _ => ()
    | 'f' :: rest => (expectWord ['a', 'l', 's', 'e'] rest).map fun _ => ()
    | '-' :: rest => (readFiniteNumber rest).map fun _ => ()
    | '"' :: rest => (readString rest).map fun _ => ()
    | '[' :: _ | '\x7b' :: _ => .ok ()
    | c :: rest =>
      if c.isDigit then (readFiniteNumber (c :: rest)).map fun _ => () else .error .malformed
    | [] => .error .endOfText
  match checked with
  | .ok () => .wrongData
  | .error fault => fault

end CangjieSyntax.Json
