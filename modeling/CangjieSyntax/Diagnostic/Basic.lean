import CangjieSyntax.Source.Span
import CangjieSyntax.Text.Template

/-!
# Diagnostics

A fault in the text is a value: it is recorded with its place and its message, and reading goes on. A
log collects the diagnostics of one text in the order of their report.
-/

namespace CangjieSyntax

/-- How grave a diagnostic is. -/
inductive Severity where
  | warning
  | error
  deriving DecidableEq, Inhabited

/-- The word for a severity. -/
def Severity.word : Severity → String
  | .warning => "warning"
  | .error => "error"

/-- What kind of fault a diagnostic reports. -/
inductive Fault where
  /-- The characters do not form a token. -/
  | lexical
  /-- A token is present but the grammar does not accept it there. -/
  | unexpectedToken
  /-- A tentative reading was not decided within its budget of tokens. -/
  | ambiguityExhausted
  /-- Nesting went past the depth allowed. -/
  | recursionLimitExceeded
  deriving DecidableEq, Inhabited

namespace Fault

/-- Whether such a fault leaves regions of the text out of the tree. -/
def isFatal : Fault → Bool
  | .lexical | .recursionLimitExceeded => true
  | .unexpectedToken | .ambiguityExhausted => false

/-- The name a fault is shown under. -/
def name : Fault → String
  | .lexical => "LexError"
  | .unexpectedToken => "UnexpectedToken"
  | .ambiguityExhausted => "AmbiguityExhausted"
  | .recursionLimitExceeded => "RecursionLimitExceeded"

end Fault

/-- A located report. -/
structure Diagnostic where
  file : Option String
  span : Span
  text : String
  code : Nat
  fault : Fault
  severity : Severity
  related : List Diagnostic
  deriving Inhabited

namespace Diagnostic

/-- Whether it is an error and not a warning. -/
def isError (d : Diagnostic) : Bool :=
  d.severity == .error

/-- Whether its fault is fatal. -/
def isFatal (d : Diagnostic) : Bool :=
  d.fault.isFatal

/-- The code as it is shown, `CJ2001`. -/
def codeText (d : Diagnostic) : String :=
  "CJ" ++ toString d.code

/-- The whole report on one line, with file and offset in front if the file is known. -/
def line (d : Diagnostic) : String :=
  let place := match d.file with
    | some file => file ++ "(" ++ toString d.span.start ++ "): "
    | none => ""
  place ++ d.severity.word ++ " " ++ d.codeText ++ ": " ++ d.text

/-- The places to mark with the text to show there: its own first, then the related ones. -/
def labels (d : Diagnostic) : List (Span × String) :=
  (d.span, d.text) :: d.related.map fun r => (r.span, r.text)

/-- The report with the file filled in where none is known yet. -/
def inFile (d : Diagnostic) (file : String) : Diagnostic :=
  { d with file := d.file.orElse fun _ => some file }

end Diagnostic

/-- Diagnostics in the order of their report. -/
abbrev Log := Array Diagnostic

namespace Log

/-- Whether some entry is an error. -/
def hasErrors (log : Log) : Bool :=
  log.any Diagnostic.isError

/-- Whether some entry is fatal. -/
def hasFatal (log : Log) : Bool :=
  log.any Diagnostic.isFatal

/-- How many entries are errors. -/
def errorCount (log : Log) : Nat :=
  log.countP Diagnostic.isError

/-- The log with the file filled in where an entry has none. -/
def inFile (log : Log) (file : String) : Log :=
  log.map (·.inFile file)

/-- The entries in the order of their places; entries at one offset keep their order. -/
def sorted (log : Log) : Log :=
  (log.toList.mergeSort fun d e => d.span.start ≤ e.span.start).toArray

end Log

end CangjieSyntax
