import CangjieSyntax.Token.Lexer
import CangjieSyntax.Grammar.TokenClass
import CangjieSyntax.Modifier

/-!
# Looking ahead

Decisions that need more than the next token. They read on from a state of the lexer and leave it
alone.
-/

namespace CangjieSyntax.Lexer

/-- More steps than there are tokens ahead. -/
def steps (src : Source) (l : Lexer) : Nat :=
  2 * src.size + l.depth + 1

/-- Whether the current token is a word that can modify a declaration. -/
def isModifierWord (l : Lexer) : Bool :=
  l.kind == .identifier && (Modifier.ofWord? l.value).isSome

/-- Whether the current token is a modifier: the word of one with more of a declaration behind it on
the same line. -/
def atModifier (src : Source) (l : Lexer) : Bool :=
  l.isModifierWord &&
    let next := l.scan src
    !next.flags.lineBreak && (next.kind.isDeclarationKeyword ||
      match next.kind with
      | .identifier | .keyword .kwUnsafe | .mark .tilde => true
      | _ => false)

/-- The kind of the first token that is no modifier word. -/
def kindAfterModifiers (src : Source) (l : Lexer) : Kind :=
  go (l.steps src) l
where
  go : Nat → Lexer → Kind
    | 0, l => l.kind
    | steps + 1, l => if l.isModifierWord then go steps (l.scan src) else l.kind

/-- Whether the next `macro` introduces the package of a file. -/
def macroPackageAhead (src : Source) (l : Lexer) : Bool :=
  go (l.steps src) l
where
  go : Nat → Lexer → Bool
    | 0, _ => false
    | steps + 1, l =>
      if l.kind == .keyword .kwMacro || l.kind == .endOfFile then
        (l.scan src).kind == .keyword .kwPackage
      else
        go steps (l.scan src)

/-- The state at the token behind a dotted path that starts behind the current token. -/
def behindPath? (src : Source) (l : Lexer) : Option Lexer :=
  go (l.steps src) l
where
  go : Nat → Lexer → Option Lexer
    | 0, _ => none
    | steps + 1, l =>
      let name := l.scan src
      if name.kind.isIdentifier then
        let next := name.scan src
        if next.kind == .mark .dot then go steps next else some next
      else
        none

/-- The state at the bracket that closes the current one. -/
def closingBracket? (src : Source) (l : Lexer) : Option Lexer :=
  go (l.steps src) 0 l
where
  go : Nat → Nat → Lexer → Option Lexer
    | 0, _, _ => none
    | steps + 1, depth, l =>
      let next := l.scan src
      match next.kind, depth with
      | .mark .openBracket, depth => go steps (depth + 1) next
      | .mark .closeBracket, 0 => some next
      | .mark .closeBracket, depth + 1 => go steps depth next
      | .endOfFile, _ => none
      | _, depth => go steps depth next

/-- Whether the current `@` starts a macro call and no annotation: its path, perhaps with attributes
in brackets, has a parenthesis behind it on the same line. -/
def atMacroCall (src : Source) (l : Lexer) : Bool :=
  let behind : Option Lexer := do
    let next ← l.behindPath? src
    if next.kind == .mark .openBracket && !next.flags.lineBreak then
      return (← next.closingBracket? src).scan src
    else
      return next
  behind.any fun next => next.kind == .mark .openParen && !next.flags.lineBreak

end CangjieSyntax.Lexer
