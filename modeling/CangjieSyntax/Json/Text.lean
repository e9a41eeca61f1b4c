import CangjieSyntax.Json.Basic
import CangjieSyntax.Text.Quoted

/-!
# JSON strings

A string in a document, behind its opening quote. A character may be written by its code in four
hexadecimal digits; one that needs more than 16 bits takes two codes, the halves of a surrogate
pair. Where a string is read, both halves must be there and follow each other; where it is passed
over, the codes are not put together, and any four digits will do.
-/

namespace CangjieSyntax.Json

/-- The value of a hexadecimal digit. -/
def hexDigit? (c : Char) : Option Nat :=
  if c.isDigit then some (c.toNat - 48)
  else if 'a' ≤ c && c ≤ 'f' then some (c.toNat - 87)
  else if 'A' ≤ c && c ≤ 'F' then some (c.toNat - 55)
  else none

/-- The value of four hexadecimal digits. -/
def hex4? (a b c d : Char) : Option Nat := do
  return (((← hexDigit? a) * 16 + (← hexDigit? b)) * 16 + (← hexDigit? c)) * 16 + (← hexDigit? d)

/-- The character of a short escape. -/
def shortEscape? (c : Char) : Option Char :=
  match c with
  | '"' => some '"'
  | '\\' => some '\\'
  | '/' => some '/'
  | 'b' => some (Char.ofNat 8)
  | 'f' => some (Char.ofNat 12)
  | 'n' => some '\n'
  | 'r' => some '\r'
  | 't' => some '\t'
  | _ => none

/-- How many bytes a text takes in UTF-8. -/
def byteLength (text : List Char) : Nat :=
  text.foldl (fun length c => length + c.utf8Size) 0

/-- A code. The text ends inside it if there are no four bytes left, whatever they stand for. -/
def readCode : Reader Nat
  | a :: b :: c :: d :: rest =>
    match hex4? a b c d with
    | some n => .ok (n, rest)
    | none => .error .malformed
  | text => .error (if byteLength text < 4 then .endOfText else .malformed)

/-- One character of a string as it is written. -/
inductive StringUnit where
  | char (c : Char)
  /-- A code, which may be half of a surrogate pair. -/
  | code (n : Nat)
  deriving DecidableEq, Inhabited

/-- One unit behind a backslash. -/
def readUnit : Reader StringUnit
  | [] => .error .endOfText
  | c :: text =>
    if c == 'u' then
      match readCode text with
      | .ok (n, rest) => .ok (.code n, rest)
      | .error fault => .error fault
    else
      match shortEscape? c with
      | some e => .ok (.char e, text)
      | none => .error .malformed

/-- Whether a code is the first half of a surrogate pair. -/
def isHighHalf (n : Nat) : Bool :=
  0xD800 ≤ n && n ≤ 0xDBFF

/-- Whether a code is the second half of a surrogate pair. -/
def isLowHalf (n : Nat) : Bool :=
  0xDC00 ≤ n && n ≤ 0xDFFF

/-- The character of a surrogate pair. -/
def ofHalves (high low : Nat) : Char :=
  Char.ofNat (0x10000 + (high - 0xD800) * 0x400 + (low - 0xDC00))

/-- The second half of a surrogate pair, which must be written as a code. -/
def readLowHalf : Reader Nat
  | [] | ['\\'] => .error .endOfText
  | '\\' :: 'u' :: text =>
    match readCode text with
    | .ok (n, rest) => if isLowHalf n then .ok (n, rest) else .error .malformed
    | .error fault => .error fault
  | _ => .error .malformed

/-- The character behind a backslash. -/
def readEscape : Reader Char := fun text =>
  match readUnit text with
  | .error fault => .error fault
  | .ok (.char c, rest) => .ok (c, rest)
  | .ok (.code n, rest) =>
    if isLowHalf n then .error .malformed
    else if isHighHalf n then
      match readLowHalf rest with
      | .ok (low, rest) => .ok (ofHalves n low, rest)
      | .error fault => .error fault
    else .ok (Char.ofNat n, rest)

theorem progresses_readCode : Progresses readCode := by
  intro text n rest h
  unfold readCode at h
  split at h
  · split at h
    · simp only [Except.ok.injEq, Prod.mk.injEq] at h
      obtain ⟨_, rfl⟩ := h
      simp only [List.length_cons]
      omega
    · contradiction
  · contradiction

theorem progresses_readUnit : Progresses readUnit := by
  intro text unit rest h
  unfold readUnit at h
  split at h
  · contradiction
  · rename_i c text
    split at h
    · split at h
      · rename_i n left hcode
        simp only [Except.ok.injEq, Prod.mk.injEq] at h
        obtain ⟨_, rfl⟩ := h
        exact Nat.lt_succ_of_lt (progresses_readCode hcode)
      · contradiction
    · split at h
      · simp only [Except.ok.injEq, Prod.mk.injEq] at h
        obtain ⟨_, rfl⟩ := h
        exact Nat.lt_succ_self _
      · contradiction

theorem progresses_readLowHalf : Progresses readLowHalf := by
  intro text n rest h
  unfold readLowHalf at h
  split at h
  · contradiction
  · contradiction
  · split at h
    · rename_i m left hcode
      split at h
      · simp only [Except.ok.injEq, Prod.mk.injEq] at h
        obtain ⟨_, rfl⟩ := h
        exact Nat.lt_succ_of_lt (Nat.lt_succ_of_lt (progresses_readCode hcode))
      · contradiction
    · contradiction
  · contradiction

theorem progresses_readEscape : Progresses readEscape := by
  intro text c rest h
  unfold readEscape at h
  split at h
  · contradiction
  · rename_i left hunit
    simp only [Except.ok.injEq, Prod.mk.injEq] at h
    obtain ⟨_, rfl⟩ := h
    exact progresses_readUnit hunit
  · rename_i n left hunit
    split at h
    · contradiction
    · split at h
      · split at h
        · rename_i low last hlow
          simp only [Except.ok.injEq, Prod.mk.injEq] at h
          obtain ⟨_, rfl⟩ := h
          exact Nat.lt_trans (progresses_readLowHalf hlow) (progresses_readUnit hunit)
        · contradiction
      · simp only [Except.ok.injEq, Prod.mk.injEq] at h
        obtain ⟨_, rfl⟩ := h
        exact progresses_readUnit hunit

/-- The inside of a string up to its closing quote. What stands behind a backslash is read by
`escape`, and all other characters but those of control stand for themselves. -/
def readInside {α : Type} (plain : Char → α) (escape : Reader α) (h : Progresses escape) :
    Reader (List α)
  | [] => .error .endOfText
  | c :: text =>
    if c == '"' then .ok ([], text)
    else if c == '\\' then
      match hread : escape text with
      | .error fault => .error fault
      | .ok (a, rest) =>
        have := h hread
        (readInside plain escape h rest).map fun (inside, rest) => (a :: inside, rest)
    else if c.val < 0x20 then .error .malformed
    else (readInside plain escape h text).map fun (inside, rest) => (plain c :: inside, rest)
termination_by text => text.length
decreasing_by
  · simp only [List.length_cons]
    omega
  · simp

/-- A string behind its opening quote. -/
def readString : Reader String := fun text =>
  (readInside id readEscape progresses_readEscape text).map fun (chars, rest) =>
    (String.ofList chars, rest)

/-- The text behind a string, which need not stand for any characters. -/
def skipString (text : List Char) : Except JsonFault (List Char) :=
  (readInside .char readUnit progresses_readUnit text).map Prod.snd

/-- The escape of a character in a written string, or the character itself. -/
def escape (c : Char) : String :=
  if c == '"' then "\\\""
  else if c == '\\' then "\\\\"
  else if c == Char.ofNat 8 then "\\b"
  else if c == Char.ofNat 12 then "\\f"
  else if c == '\n' then "\\n"
  else if c == '\r' then "\\r"
  else if c == '\t' then "\\t"
  else if c.val < 0x10 then "\\u000" ++ Quoted.hexDigits c.toNat
  else if c.val < 0x20 then "\\u00" ++ Quoted.hexDigits c.toNat
  else c.toString

/-- A written string. -/
def quote (s : String) : String :=
  "\"" ++ String.join (s.toList.map escape) ++ "\""

end CangjieSyntax.Json
