import CangjieSyntax.Parse

/-!
# Corpus

Whole files, each with the area of the grammar it belongs to and what a parse of it must find.
Running the corpus tells which of them behave, and a summary counts them by area.
-/

namespace CangjieSyntax.Corpus

/-- The areas of the grammar. -/
inductive Area where
  | expressions
  | types
  | patterns
  | strings
  | declarations
  | recovery
  deriving DecidableEq, Inhabited

namespace Area

/-- Every area, in the order of a summary. -/
def all : List Area :=
  [expressions, types, patterns, strings, declarations, recovery]

/-- The name of an area. -/
def name : Area → String
  | expressions => "expressions"
  | types => "types"
  | patterns => "patterns"
  | strings => "strings"
  | declarations => "declarations"
  | recovery => "recovery"

end Area

/-- What a parse must find. -/
inductive Expectation where
  /-- No diagnostic. -/
  | clean
  /-- Some diagnostic. -/
  | errors
  deriving DecidableEq, Inhabited

/-- A file of the corpus. -/
structure Case where
  name : String
  area : Area
  expectation : Expectation
  source : String
  deriving DecidableEq, Inhabited

/-- What a parse of a case found. -/
structure Outcome where
  case : Case
  diagnostics : Log
  deriving Inhabited

namespace Outcome

/-- Whether the parse found what it must. -/
def passed (o : Outcome) : Bool :=
  match o.case.expectation with
  | .clean => o.diagnostics.isEmpty
  | .errors => !o.diagnostics.isEmpty

/-- What the parse found, in a line. -/
def explain (o : Outcome) : String :=
  match o.diagnostics[0]? with
  | some d => toString d.code ++ " at " ++ toString d.span.start ++ ": " ++ d.text
  | none => "no diagnostics reported"

end Outcome

/-- A case run with its name as the name of the file. -/
def run (c : Case) : Option Outcome :=
  (parseFile c.source.toUTF8 { fileName := some (c.name ++ ".cj") }).map fun parse =>
    { case := c, diagnostics := parse.diagnostics }

/-- How many outcomes passed, of how many. -/
def tally (outcomes : List Outcome) : String :=
  toString (outcomes.countP Outcome.passed) ++ "/" ++ toString outcomes.length

/-- The outcomes in a few lines: how many passed, in all and in each area, and which failed. -/
def summary (outcomes : List Outcome) : String :=
  let areas := Area.all.filterMap fun area =>
    match outcomes.filter fun o => o.case.area == area with
    | [] => none
    | ofArea => some ("  " ++ area.name ++ ": " ++ tally ofArea ++ "\n")
  let failures := (outcomes.filter fun o => !o.passed).map fun o =>
    "  FAIL [" ++ o.case.area.name ++ "] " ++ o.case.name ++ ": " ++ o.explain ++ "\n"
  "conformance: " ++ tally outcomes ++ " passed\n" ++ String.join areas ++ String.join failures

end CangjieSyntax.Corpus
