import CangjieSyntax.Json.Value
import CangjieSyntax.Settings.Basic

/-!
# Settings as JSON

Settings are written as a JSON object with the members `maxRecursionDepth`, `speculationTokenBudget`
and `fileName`, or as an array of their values in this order. What is left out has its default, and
members with other names are passed over.
-/

namespace CangjieSyntax.Settings

open Json

/-- A count: an integer from 0 up to 2^32 - 1. -/
def readCount : Reader Nat := fun text =>
  match trimStart text with
  | [] => .error .endOfText
  | c :: rest =>
    if c.isDigit then do
      let (n, rest) ← readFiniteNumber (c :: rest)
      if n.isInteger && n.significand < Nat.pow 2 32 then return (n.significand, rest)
      else .error .wrongData
    else .error (wrongType (c :: rest))

/-- A string or `null`. -/
def readOptionalString : Reader (Option String) := fun text =>
  match trimStart text with
  | [] => .error .endOfText
  | 'n' :: rest => (expectWord ['u', 'l', 'l'] rest).map fun rest => (none, rest)
  | '"' :: rest => (readString rest).map fun (s, rest) => (some s, rest)
  | rest => .error (wrongType rest)

/-- The members of a settings object read so far. -/
structure Members where
  maxDepth : Option Nat := none
  budget : Option Nat := none
  fileName : Option (Option String) := none
  deriving DecidableEq, Inhabited

/-- The settings with defaults for the members that are missing. -/
def Members.settings (m : Members) : Settings where
  maxDepth := m.maxDepth.getD ({} : Settings).maxDepth
  budget := m.budget.getD ({} : Settings).budget
  fileName := m.fileName.getD ({} : Settings).fileName

/-- The value behind a colon. -/
def readBehindColon {α : Type} (read : Reader α) : Reader α := fun text =>
  match trimStart text with
  | [] => .error .endOfText
  | ':' :: rest => read rest
  | _ => .error .malformed

/-- One member behind the opening quote of its name. A name given twice is a fault at once. -/
def readMember (m : Members) : Reader Members := fun text => do
  let (name, rest) ← readString text
  match name with
  | "maxRecursionDepth" =>
    if m.maxDepth.isSome then .error .wrongData else
    let (n, rest) ← readBehindColon readCount rest
    return ({ m with maxDepth := some n }, rest)
  | "speculationTokenBudget" =>
    if m.budget.isSome then .error .wrongData else
    let (n, rest) ← readBehindColon readCount rest
    return ({ m with budget := some n }, rest)
  | "fileName" =>
    if m.fileName.isSome then .error .wrongData else
    let (s, rest) ← readBehindColon readOptionalString rest
    return ({ m with fileName := some s }, rest)
  | _ =>
    let skip : Reader Unit := fun text =>
      (skipValue (text.length + 1) text).map fun rest => ((), rest)
    let (_, rest) ← readBehindColon skip rest
    return (m, rest)

/-- The members of an object up to its closing brace, in at most the given number of steps. -/
def readMembers : Nat → Bool → Members → Reader Members
  | 0, _, _, _ => .error .endOfText
  | steps + 1, isFirst, m, text =>
    match trimStart text with
    | [] => .error .endOfText
    | '\x7d' :: rest => .ok (m, rest)
    | '"' :: rest =>
      if isFirst then do
        let (m, rest) ← readMember m rest
        readMembers steps false m rest
      else .error .malformed
    | ',' :: rest =>
      if isFirst then .error .malformed
      else match trimStart rest with
        | [] => .error .endOfText
        | '"' :: rest => do
          let (m, rest) ← readMember m rest
          readMembers steps false m rest
        | _ => .error .malformed
    | _ => .error .malformed

/-- The next element of an array, or nothing in front of the closing bracket. -/
def readElement {α : Type} (isFirst : Bool) (read : Reader α) : Reader (Option α) := fun text =>
  match trimStart text with
  | [] => .error .endOfText
  | ']' :: rest => .ok (none, ']' :: rest)
  | c :: rest =>
    if isFirst then (read (c :: rest)).map fun (a, rest) => (some a, rest)
    else if c == ',' then
      match trimStart rest with
      | [] => .error .endOfText
      | ']' :: _ => .error .malformed
      | rest => (read rest).map fun (a, rest) => (some a, rest)
    else .error .malformed

/-- The elements of an array of settings, with its closing bracket. -/
def readElements : Reader Members := fun text => do
  let (maxDepth, rest) ← readElement true readCount text
  let (budget, rest) ← readElement false readCount rest
  let (fileName, rest) ← readElement false readOptionalString rest
  match trimStart rest with
  | [] => .error .endOfText
  | ']' :: rest => return ({ maxDepth, budget, fileName }, rest)
  | _ => .error .malformed

/-- The settings that a document gives. -/
def ofJson (text : String) : Except JsonFault Settings := do
  let (m, rest) ← match trimStart text.toList with
    | [] => .error .endOfText
    | '\x7b' :: rest => readMembers (rest.length + 1) true {} rest
    | '[' :: rest => readElements rest
    | rest => .error (wrongType rest)
  if (trimStart rest).isEmpty then return m.settings else .error .malformed

/-- The document of the settings, without blanks. -/
def toJson (s : Settings) : String :=
  "\x7b\"maxRecursionDepth\":" ++ toString s.maxDepth
    ++ ",\"speculationTokenBudget\":" ++ toString s.budget
    ++ ",\"fileName\":" ++ (s.fileName.map quote).getD "null" ++ "\x7d"

end CangjieSyntax.Settings
