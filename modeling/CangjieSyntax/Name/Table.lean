/-!
# Name tables

A name table numbers the distinct strings put into it. Equal strings get the same number, and the
number gives the string back.
-/

namespace CangjieSyntax

/-- The number of a string in a name table. -/
structure Symbol where
  index : Nat
  deriving DecidableEq, Inhabited

/-- Distinct strings in the order of their first entry. -/
structure NameTable where
  entries : Array String
  deriving DecidableEq, Inhabited

namespace NameTable

/-- The table without entries. -/
def empty : NameTable :=
  ⟨#[]⟩

/-- How many distinct strings are in the table. -/
def size (t : NameTable) : Nat :=
  t.entries.size

/-- The number of a string that is in the table. -/
def find? (t : NameTable) (s : String) : Option Symbol :=
  (t.entries.findIdx? (· == s)).map Symbol.mk

/-- The table with the string in it, and its number. -/
def intern (t : NameTable) (s : String) : Symbol × NameTable :=
  match t.find? s with
  | some symbol => (symbol, t)
  | none => (⟨t.entries.size⟩, ⟨t.entries.push s⟩)

/-- The table with the string in it. -/
def insert (t : NameTable) (s : String) : NameTable :=
  (t.intern s).2

/-- The string with the given number. -/
def resolve? (t : NameTable) (symbol : Symbol) : Option String :=
  t.entries[symbol.index]?

/-- The table with all strings of another one put in as well. -/
def union (t u : NameTable) : NameTable :=
  u.entries.foldl insert t

/-- A short description of a table. -/
def describe (t : NameTable) : String :=
  "StringInterner \x7b len: " ++ toString t.size ++ " \x7d"

end NameTable

end CangjieSyntax
