import CangjieSyntax.Token.Keyword
import CangjieSyntax.Token.Punctuation

/-!
# Kinds of tokens

A string is not one token: it is read as a start, any number of pieces of content and of holes, and
an end, with the tokens of the code inside each hole in between.
-/

namespace CangjieSyntax

/-- The kind of a token. -/
inductive Kind where
  /-- A character that belongs to no token. -/
  | unknown
  | endOfFile
  | integerLiteral
  | floatLiteral
  | runeLiteral
  | byteLiteral
  | byteStringLiteral
  | rawStringLiteral
  /-- The quote that opens a string on one line. -/
  | stringStart
  /-- The three quotes that open a string over several lines. -/
  | multiLineStringStart
  /-- A run of text in a string. -/
  | stringContent
  /-- The mark that opens a hole in a string. -/
  | interpolationStart
  /-- The brace that closes a hole. -/
  | interpolationEnd
  /-- The quotes that close a string. -/
  | stringEnd
  | identifier
  /-- An identifier between backquotes, which may spell a keyword. -/
  | rawIdentifier
  /-- An identifier behind a dollar sign, a splice in quoted code. -/
  | dollarIdentifier
  | keyword (k : Keyword)
  | mark (p : Punctuation)
  deriving DecidableEq, Inhabited

namespace Kind

/-- Every kind, in the order of the groups. -/
def all : List Kind :=
  [unknown, endOfFile, integerLiteral, floatLiteral, runeLiteral, byteLiteral, byteStringLiteral,
   rawStringLiteral, stringStart, multiLineStringStart, stringContent, interpolationStart,
   interpolationEnd, stringEnd, identifier, rawIdentifier, dollarIdentifier]
    ++ Keyword.all.map keyword ++ Punctuation.all.map mark

/-- The place of a kind among all kinds. -/
def index (k : Kind) : Nat :=
  all.idxOf k

def isKeyword : Kind → Bool
  | keyword _ => true
  | _ => false

def isPunctuation : Kind → Bool
  | mark _ => true
  | _ => false

/-- Whether a token of this kind is a literal by itself. -/
def isLiteral : Kind → Bool
  | integerLiteral | floatLiteral | runeLiteral | byteLiteral | byteStringLiteral | rawStringLiteral
  | keyword .kwTrue | keyword .kwFalse => true
  | _ => false

/-- Whether a token of this kind opens a string. -/
def isStringStart : Kind → Bool
  | stringStart | multiLineStringStart => true
  | _ => false

/-- Whether a token of this kind is a name. -/
def isIdentifier : Kind → Bool
  | identifier | rawIdentifier => true
  | _ => false

def isAssignment : Kind → Bool
  | mark p => p.isAssignment
  | _ => false

def isCompoundAssignment : Kind → Bool
  | mark p => p.isCompoundAssignment
  | _ => false

/-- Whether a token of this kind closes a bracketed region or separates the elements of one. -/
def isCloserOrSeparator : Kind → Bool
  | mark .closeParen | mark .closeBracket | mark .closeBrace | mark .comma | mark .semicolon
  | mark .colon | mark .fatArrow | interpolationEnd | endOfFile => true
  | _ => false

/-- The spelling of a keyword. -/
def keywordText? : Kind → Option String
  | keyword k => some k.text
  | _ => none

/-- The spelling of a mark. -/
def punctuationText? : Kind → Option String
  | mark p => some p.text
  | _ => none

/-- What a kind is called in a message. -/
def describe : Kind → String
  | keyword k => k.text
  | mark p => p.text
  | endOfFile => "end of file"
  | integerLiteral => "integer literal"
  | floatLiteral => "float literal"
  | runeLiteral => "rune literal"
  | byteLiteral => "byte literal"
  | byteStringLiteral => "byte string"
  | rawStringLiteral => "raw string"
  | stringStart | multiLineStringStart => "string"
  | stringContent => "string content"
  | interpolationStart => "$\x7b"
  | interpolationEnd => "\x7d"
  | stringEnd => "end of string"
  | identifier | rawIdentifier => "identifier"
  | dollarIdentifier => "$identifier"
  | unknown => "unknown token"

end Kind

end CangjieSyntax
