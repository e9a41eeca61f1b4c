import CangjieSyntax.Diagnostic.Basic

/-!
# Messages of the grammar

Each way in which the tokens can fail the grammar has a code, a fault and a template.
-/

namespace CangjieSyntax

/-- What the grammar reports. Placeholders in a template stand for the arguments of the report. -/
inductive Message where
  | expected
  | expressionExpected
  | typeExpected
  | patternExpected
  | identifierExpected
  | declarationExpected
  | unexpectedToken
  | invalidAssignmentTarget
  | assignmentOnlyAsStatement
  | statementSeparatorExpected
  | duplicateMain
  | packageHeaderMisplaced
  | memberDeclarationExpected
  | invalidPattern
  | modifierNotAllowed
  | ambiguityExhausted
  | namedElementsRequireArrow
  | elementIsNotAType
  | recursionLimitExceeded
  deriving DecidableEq, Inhabited

namespace Message

/-- The code a message is reported under. -/
def code : Message → Nat
  | expected => 2001
  | expressionExpected => 2002
  | typeExpected => 2003
  | patternExpected => 2004
  | identifierExpected => 2005
  | declarationExpected => 2006
  | unexpectedToken => 2007
  | invalidAssignmentTarget => 2008
  | assignmentOnlyAsStatement => 2009
  | statementSeparatorExpected => 2010
  | duplicateMain => 2011
  | packageHeaderMisplaced => 2012
  | memberDeclarationExpected => 2013
  | invalidPattern => 2014
  | modifierNotAllowed => 2015
  | ambiguityExhausted => 3001
  | namedElementsRequireArrow => 3002
  | elementIsNotAType => 3003
  | recursionLimitExceeded => 4001

/-- The fault a message reports: the codes from 3000 on are undecided readings, those from 4000 on
limits. -/
def fault : Message → Fault
  | ambiguityExhausted | namedElementsRequireArrow | elementIsNotAType => .ambiguityExhausted
  | recursionLimitExceeded => .recursionLimitExceeded
  | _ => .unexpectedToken

/-- The template of a message. -/
def template : Message → String
  | expected => "'\x7b0\x7d' expected."
  | expressionExpected => "Expression expected."
  | typeExpected => "Type expected."
  | patternExpected => "Pattern expected."
  | identifierExpected => "Identifier expected."
  | declarationExpected => "Declaration or expression expected."
  | unexpectedToken => "Unexpected token '\x7b0\x7d'."
  | invalidAssignmentTarget =>
    "The left-hand side of an assignment must be a variable, field access or index access."
  | assignmentOnlyAsStatement => "Assignment is only allowed as a statement."
  | statementSeparatorExpected => "';' or a line break expected after '\x7b0\x7d'."
  | duplicateMain => "A file may declare 'main' only once."
  | packageHeaderMisplaced => "The package header must come before imports and declarations."
  | memberDeclarationExpected => "Member declaration expected."
  | invalidPattern => "This pattern is not allowed in \x7b0\x7d."
  | modifierNotAllowed => "'\x7b0\x7d' modifier cannot be used here."
  | ambiguityExhausted =>
    "Could not decide how to read '\x7b0\x7d' within \x7b1\x7d tokens of lookahead."
  | namedElementsRequireArrow =>
    "A parenthesized list with named elements must be followed by '->'."
  | elementIsNotAType => "This element cannot be read as a type in a function type."
  | recursionLimitExceeded => "Maximum nesting depth of \x7b0\x7d exceeded."

/-- The report of a message at a place. -/
def diagnostic (m : Message) (span : Span) (args : List String) : Diagnostic :=
  { file := none, span, text := Template.fill m.template args, code := m.code, fault := m.fault,
    severity := .error, related := [] }

end Message

end CangjieSyntax
