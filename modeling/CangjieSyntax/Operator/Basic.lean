import CangjieSyntax.Token.Kind

/-!
# Operators

Each operator binds with a certain strength. The tree records the level on every binary and unary
node, so that a printer can tell where parentheses are needed.
-/

namespace CangjieSyntax

/-- The levels of binding, weakest first. -/
inductive Precedence where
  | lowest
  | assignment
  | flow
  | coalescing
  | logicalOr
  | logicalAnd
  | bitwiseOr
  | bitwiseXor
  | bitwiseAnd
  | equality
  | cast
  | typeCheck
  | relational
  | range
  | shift
  | additive
  | multiplicative
  | exponentiation
  | negation
  | not
  | postfixLevel
  | member
  deriving DecidableEq, Inhabited

/-- The number of a level; a larger one binds tighter. -/
def Precedence.strength : Precedence → Nat
  | lowest => 0
  | assignment => 1
  | flow => 4
  | coalescing => 5
  | logicalOr => 6
  | logicalAnd => 7
  | bitwiseOr => 8
  | bitwiseXor => 9
  | bitwiseAnd => 10
  | equality => 11
  | cast => 13
  | typeCheck => 14
  | relational => 15
  | range => 16
  | shift => 17
  | additive => 18
  | multiplicative => 19
  | exponentiation => 20
  | negation => 21
  | not => 22
  | postfixLevel => 24
  | member => 28

/-- Which side operators of equal strength group to. -/
inductive Associativity where
  | left
  | right
  deriving DecidableEq, Inhabited

/-- The operators between two operands. -/
inductive BinaryOp where
  | pipeline
  | compose
  | coalesce
  | or
  | and
  | bitOr
  | bitXor
  | bitAnd
  | equal
  | notEqual
  | less
  | lessEqual
  | greater
  | greaterEqual
  | shiftLeft
  | shiftRight
  | add
  | subtract
  | multiply
  | divide
  | remainder
  | power
  deriving DecidableEq, Inhabited

namespace BinaryOp

/-- Every binary operator, weakest first. -/
def all : List BinaryOp :=
  [pipeline, compose, coalesce, or, and, bitOr, bitXor, bitAnd, equal, notEqual, less, lessEqual,
   greater, greaterEqual, shiftLeft, shiftRight, add, subtract, multiply, divide, remainder, power]

/-- The mark that writes an operator. -/
def mark : BinaryOp → Punctuation
  | pipeline => .barGreater
  | compose => .tildeGreater
  | coalesce => .questionQuestion
  | or => .barBar
  | and => .ampAmp
  | bitOr => .bar
  | bitXor => .caret
  | bitAnd => .amp
  | equal => .equalsEquals
  | notEqual => .bangEquals
  | less => .less
  | lessEqual => .lessEquals
  | greater => .greater
  | greaterEqual => .greaterEquals
  | shiftLeft => .lessLess
  | shiftRight => .greaterGreater
  | add => .plus
  | subtract => .minus
  | multiply => .star
  | divide => .slash
  | remainder => .percent
  | power => .starStar

/-- The spelling of an operator. -/
def symbol (op : BinaryOp) : String :=
  op.mark.text

theorem symbol_ne_empty (op : BinaryOp) : op.symbol ≠ "" := by
  cases op <;> decide

/-- The level of an operator. -/
def precedence : BinaryOp → Precedence
  | pipeline | compose => .flow
  | coalesce => .coalescing
  | or => .logicalOr
  | and => .logicalAnd
  | bitOr => .bitwiseOr
  | bitXor => .bitwiseXor
  | bitAnd => .bitwiseAnd
  | equal | notEqual => .equality
  | less | lessEqual | greater | greaterEqual => .relational
  | shiftLeft | shiftRight => .shift
  | add | subtract => .additive
  | multiply | divide | remainder => .multiplicative
  | power => .exponentiation

/-- Powers group to the right, everything else to the left. -/
def associativity : BinaryOp → Associativity
  | power => .right
  | _ => .left

/-- The operator that a mark writes between two operands. -/
def ofMark? (p : Punctuation) : Option BinaryOp :=
  all.find? fun op => op.mark == p

end BinaryOp

/-- The operators in front of an operand. -/
inductive UnaryOp where
  | negate
  | not
  deriving DecidableEq, Inhabited

namespace UnaryOp

/-- The spelling of an operator. -/
def symbol : UnaryOp → String
  | negate => "-"
  | not => "!"

/-- The level of an operator. -/
def precedence : UnaryOp → Precedence
  | negate => .negation
  | not => .not

end UnaryOp

/-- The operators behind an operand. -/
inductive StepOp where
  | increment
  | decrement
  deriving DecidableEq, Inhabited

/-- The spelling of an operator. -/
def StepOp.symbol : StepOp → String
  | increment => "++"
  | decrement => "--"

/-- The operators that assign. -/
inductive AssignOp where
  | assign
  | add
  | subtract
  | multiply
  | power
  | divide
  | remainder
  | bitAnd
  | bitXor
  | bitOr
  | and
  | or
  | shiftLeft
  | shiftRight
  deriving DecidableEq, Inhabited

namespace AssignOp

/-- Every assignment operator. -/
def all : List AssignOp :=
  [assign, add, subtract, multiply, power, divide, remainder, bitAnd, bitXor, bitOr, and, or,
   shiftLeft, shiftRight]

/-- The mark that writes an operator. -/
def mark : AssignOp → Punctuation
  | assign => .equals
  | add => .plusEquals
  | subtract => .minusEquals
  | multiply => .starEquals
  | power => .starStarEquals
  | divide => .slashEquals
  | remainder => .percentEquals
  | bitAnd => .ampEquals
  | bitXor => .caretEquals
  | bitOr => .barEquals
  | and => .ampAmpEquals
  | or => .barBarEquals
  | shiftLeft => .lessLessEquals
  | shiftRight => .greaterGreaterEquals

/-- The spelling of an operator. -/
def symbol (op : AssignOp) : String :=
  op.mark.text

/-- The operator that a mark writes. -/
def ofMark? (p : Punctuation) : Option AssignOp :=
  all.find? fun op => op.mark == p

end AssignOp

namespace Kind

/-- The binary operator that a token of this kind writes. Casts, type checks and ranges have no
ordinary right operand and are not among them. -/
def binaryOp? : Kind → Option BinaryOp
  | mark p => BinaryOp.ofMark? p
  | _ => none

/-- The assignment operator that a token of this kind writes. -/
def assignOp? : Kind → Option AssignOp
  | mark p => AssignOp.ofMark? p
  | _ => none

end Kind

end CangjieSyntax
