import CangjieSyntax.Operator.Basic

/-!
# Classes of tokens

What a token can start, and where reading can go on after a fault.
-/

namespace CangjieSyntax.Kind

/-- Whether an expression can start with the token. -/
def startsExpression : Kind → Bool
  | dollarIdentifier => true
  | keyword k =>
    match k with
    | .kwTrue | .kwFalse | .kwThis | .kwSuper | .kwIf | .kwMatch | .kwFor | .kwWhile | .kwDo
    | .kwTry | .kwThrow | .kwReturn | .kwBreak | .kwContinue | .kwSpawn | .kwSynchronized
    | .kwUnsafe | .kwQuote => true
    | _ => false
  | mark p =>
    match p with
    | .openParen | .openBracket | .openBrace | .minus | .bang | .underscore | .atSign
    | .question => true
    | _ => false
  | k => k.isLiteral || k.isStringStart || k.isIdentifier

/-- Whether the token starts a declaration wherever it stands. -/
def isDeclarationKeyword : Kind → Bool
  | keyword k =>
    match k with
    | .kwFunc | .kwLet | .kwVar | .kwConst | .kwClass | .kwStruct | .kwInterface | .kwEnum | .kwType
    | .kwExtend | .kwForeign | .kwMacro | .kwMain | .kwPackage | .kwImport | .kwFrom | .kwProp
    | .kwInit | .kwStatic | .kwOperator => true
    | _ => false
  | _ => false

/-- Whether a placeholder for something missing must leave the token for the construct around it. -/
def isRecoveryAnchor (k : Kind) : Bool :=
  k.isCloserOrSeparator || k.isAssignment || k.isDeclarationKeyword ||
    match k with
    | keyword .kwCase | keyword .kwCatch | keyword .kwFinally | keyword .kwElse | keyword .kwWhere
    | keyword .kwIn | mark .backArrow | stringEnd => true
    | _ => false

/-- Whether type arguments may stand in front of the token, and what was read as such was no
comparison. A token on a new line always allows them; one that touches the closing `>` may be part
of an operator. -/
def allowsTypeArguments (k : Kind) (lineBreak touches : Bool) : Bool :=
  lineBreak ||
    match k with
    | mark .openParen | mark .dot | mark .question | mark .openBrace | keyword .kwAs | keyword .kwIs
    | mark .dotDot | mark .dotDotEquals => true
    | mark .minus => false
    | mark .greater | mark .equals | mark .equalsEquals =>
      !touches && (k.isCloserOrSeparator || k.binaryOp?.isSome)
    | _ => k.isCloserOrSeparator || k.binaryOp?.isSome

/-- Whether the token ends the statements around it: a brace, the end of a hole, or the end of the
text. -/
def endsItems : Kind → Bool
  | endOfFile | mark .closeBrace | interpolationEnd => true
  | _ => false

/-- How the number of open brackets changes with the token; brackets of all shapes count alike. -/
def bracketDepth (depth : Nat) : Kind → Nat
  | mark .openParen | mark .openBracket | mark .openBrace => depth + 1
  | mark .closeParen | mark .closeBracket | mark .closeBrace => depth - 1
  | _ => depth

end CangjieSyntax.Kind
