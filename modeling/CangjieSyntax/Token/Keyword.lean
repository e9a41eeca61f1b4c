/-!
# Keywords

The reserved words. `Keyword.ofText?` finds the keyword a word spells and `Keyword.text` spells it
back. Words that are special only in some places, such as `public` or `get`, are not among them.
-/

namespace CangjieSyntax

/-- The reserved words, in alphabetical order. -/
inductive Keyword where
  | kwAs
  | kwBreak
  | kwCase
  | kwCatch
  | kwClass
  | kwConst
  | kwContinue
  | kwDo
  | kwElse
  | kwEnum
  | kwExtend
  | kwFalse
  | kwFinally
  | kwFor
  | kwForeign
  | kwFrom
  | kwFunc
  | kwIf
  | kwImport
  | kwIn
  | kwInit
  | kwInout
  | kwInterface
  | kwIs
  | kwLet
  | kwMacro
  | kwMain
  | kwMatch
  | kwOperator
  | kwPackage
  | kwProp
  | kwQuote
  | kwReturn
  | kwSpawn
  | kwStatic
  | kwStruct
  | kwSuper
  | kwSynchronized
  | kwThis
  | kwThrow
  | kwTrue
  | kwTry
  | kwType
  | kwUnsafe
  | kwVar
  | kwWhere
  | kwWhile
  deriving DecidableEq, Inhabited

namespace Keyword

/-- The spelling of a keyword. -/
def text : Keyword → String
  | kwAs => "as"
  | kwBreak => "break"
  | kwCase => "case"
  | kwCatch => "catch"
  | kwClass => "class"
  | kwConst => "const"
  | kwContinue => "continue"
  | kwDo => "do"
  | kwElse => "else"
  | kwEnum => "enum"
  | kwExtend => "extend"
  | kwFalse => "false"
  | kwFinally => "finally"
  | kwFor => "for"
  | kwForeign => "foreign"
  | kwFrom => "from"
  | kwFunc => "func"
  | kwIf => "if"
  | kwImport => "import"
  | kwIn => "in"
  | kwInit => "init"
  | kwInout => "inout"
  | kwInterface => "interface"
  | kwIs => "is"
  | kwLet => "let"
  | kwMacro => "macro"
  | kwMain => "main"
  | kwMatch => "match"
  | kwOperator => "operator"
  | kwPackage => "package"
  | kwProp => "prop"
  | kwQuote => "quote"
  | kwReturn => "return"
  | kwSpawn => "spawn"
  | kwStatic => "static"
  | kwStruct => "struct"
  | kwSuper => "super"
  | kwSynchronized => "synchronized"
  | kwThis => "this"
  | kwThrow => "throw"
  | kwTrue => "true"
  | kwTry => "try"
  | kwType => "type"
  | kwUnsafe => "unsafe"
  | kwVar => "var"
  | kwWhere => "where"
  | kwWhile => "while"

/-- Every keyword, in alphabetical order. -/
def all : List Keyword :=
  [kwAs, kwBreak, kwCase, kwCatch, kwClass, kwConst, kwContinue, kwDo, kwElse, kwEnum,
   kwExtend, kwFalse, kwFinally, kwFor, kwForeign, kwFrom, kwFunc, kwIf, kwImport, kwIn,
   kwInit, kwInout, kwInterface, kwIs, kwLet, kwMacro, kwMain, kwMatch, kwOperator,
   kwPackage, kwProp, kwQuote, kwReturn, kwSpawn, kwStatic, kwStruct, kwSuper,
   kwSynchronized, kwThis, kwThrow, kwTrue, kwTry, kwType, kwUnsafe, kwVar, kwWhere, kwWhile]

/-- The keyword that a word spells. -/
def ofText? (word : String) : Option Keyword :=
  all.find? fun k => k.text == word

theorem mem_all (k : Keyword) : k ∈ all := by
  cases k <;> decide

theorem text_ne_empty (k : Keyword) : k.text ≠ "" := by
  cases k <;> decide

theorem text_of_ofText? {word : String} {k : Keyword} (h : ofText? word = some k) :
    k.text = word := by
  have := List.find?_some h
  simpa using this

end Keyword

end CangjieSyntax
