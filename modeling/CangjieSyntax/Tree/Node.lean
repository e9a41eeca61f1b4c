import CangjieSyntax.Source.Span
import CangjieSyntax.Operator.Basic
import CangjieSyntax.Modifier
import CangjieSyntax.Tree.Arena

/-!
# Nodes

Expressions, types, patterns and declarations. A node has a form and a span. Its children are given
by their places, so that no node contains another; which rule of the grammar made a node is not
recorded.
-/

namespace CangjieSyntax

/-- A name as it stands in the text. A name that is missing there is empty. -/
structure Name where
  text : String
  span : Span
  deriving DecidableEq, Inhabited

/-! ## Parts of nodes -/

/-- An item of a block. -/
inductive BlockItem where
  | expr (id : ExprId)
  | decl (id : DeclId)
  deriving DecidableEq, Inhabited

/-- Statements in order. -/
structure Block where
  items : List BlockItem
  span : Span
  deriving DecidableEq, Inhabited

/-- The digits of a number, without separators, and its width. -/
structure NumberLiteral where
  digits : String
  suffix : Option String
  deriving DecidableEq, Inhabited

/-- A piece of a string. -/
inductive StringPart where
  | text (s : String)
  | interpolation (block : Block)
  deriving DecidableEq, Inhabited

/-- The literals. -/
inductive Literal where
  | integer (n : NumberLiteral)
  | float (n : NumberLiteral)
  | rune (c : Char)
  | byte (b : UInt8)
  | byteString (bytes : List UInt8)
  | bool (b : Bool)
  | string (multiLine : Bool) (parts : List StringPart)
  | rawString (text : String) (fence : Nat)
  deriving DecidableEq, Inhabited

/-- An argument of a call or an annotation. -/
structure Argument where
  name : Option Name
  inout : Bool
  value : ExprId
  span : Span
  deriving DecidableEq, Inhabited

/-- What an `if` or a `while` tests. -/
inductive Condition where
  | expr (value : ExprId)
  | letPattern (pattern : PatternId) (value : ExprId)
  deriving DecidableEq, Inhabited

/-- What a case of a `match` tests: a pattern where there is a selector, else a condition. -/
inductive CaseTest where
  | pattern (id : PatternId)
  | condition (id : ExprId)
  deriving DecidableEq, Inhabited

/-- A case of a `match`. -/
structure MatchArm where
  test : CaseTest
  guard : Option ExprId
  body : Block
  span : Span
  deriving DecidableEq, Inhabited

/-- A resource that a `try` opens. -/
structure TryResource where
  name : Name
  type : Option TypeId
  value : ExprId
  deriving DecidableEq, Inhabited

/-- A `catch` with its body. -/
structure CatchClause where
  pattern : PatternId
  body : Block
  deriving DecidableEq, Inhabited

/-- A parameter of a lambda; the underscore gives no name. -/
structure LambdaParam where
  name : Option Name
  type : Option TypeId
  span : Span
  deriving DecidableEq, Inhabited

/-- A piece of quoted code. -/
inductive QuotePart where
  | tokens (span : Span)
  | splice (id : ExprId)
  deriving DecidableEq, Inhabited

/-- A segment of a dotted type name. -/
structure PathSegment where
  name : Name
  args : List TypeId
  deriving DecidableEq, Inhabited

/-- An element of a tuple type or of a parameter list. -/
structure TypeElement where
  label : Option Name
  type : TypeId
  deriving DecidableEq, Inhabited

/-- An enum variant in a pattern. -/
structure VariantPattern where
  path : List Name
  typeArgs : List TypeId
  args : List PatternId
  span : Span
  deriving DecidableEq, Inhabited

/-- The keywords that declare variables. -/
inductive VarKind where
  | letVar
  | varVar
  | constVar
  deriving DecidableEq, Inhabited

/-- The keyword of a variable. -/
def VarKind.keyword : VarKind → String
  | letVar => "let"
  | varVar => "var"
  | constVar => "const"

/-- A parameter of a function. -/
structure Param where
  name : Name
  /-- The argument must be given by name. -/
  named : Bool
  /-- The keyword with which the parameter declares a member as well. -/
  member : Option VarKind
  type : TypeId
  default : Option ExprId
  span : Span
  deriving DecidableEq, Inhabited

/-- The bounds of a type parameter. -/
structure Constraint where
  param : Name
  bounds : List TypeId
  deriving DecidableEq, Inhabited

/-- An annotation of a declaration. -/
structure Annotation where
  path : List Name
  args : List Argument
  span : Span
  deriving DecidableEq, Inhabited

/-- A case of an enum. -/
structure EnumCase where
  name : Name
  params : List TypeId
  span : Span
  deriving DecidableEq, Inhabited

/-! ## Forms -/

/-- The types that need no declaration. -/
inductive BuiltinType where
  | int8
  | int16
  | int32
  | int64
  | intNative
  | uint8
  | uint16
  | uint32
  | uint64
  | uintNative
  | float16
  | float32
  | float64
  | rune
  | bool
  | unit
  | nothing
  | this
  deriving DecidableEq, Inhabited

namespace BuiltinType

/-- Every builtin type. -/
def all : List BuiltinType :=
  [int8, int16, int32, int64, intNative, uint8, uint16, uint32, uint64, uintNative, float16,
   float32, float64, rune, bool, unit, nothing, this]

/-- The name of a builtin type. -/
def name : BuiltinType → String
  | int8 => "Int8"
  | int16 => "Int16"
  | int32 => "Int32"
  | int64 => "Int64"
  | intNative => "IntNative"
  | uint8 => "UInt8"
  | uint16 => "UInt16"
  | uint32 => "UInt32"
  | uint64 => "UInt64"
  | uintNative => "UIntNative"
  | float16 => "Float16"
  | float32 => "Float32"
  | float64 => "Float64"
  | rune => "Rune"
  | bool => "Bool"
  | unit => "Unit"
  | nothing => "Nothing"
  | this => "This"

/-- The builtin type with the given name; `Boolean` is another name of `Bool`. -/
def ofName? (s : String) : Option BuiltinType :=
  if s == "Boolean" then some bool else all.find? fun t => t.name == s

end BuiltinType

/-- The forms of expressions. -/
inductive ExprForm where
  /-- Stands where no expression could be read. -/
  | error
  | literal (value : Literal)
  | identifier (name : Name) (typeArgs : List TypeId)
  | this
  | super
  | unit
  | wildcard
  | parenthesized (inner : ExprId)
  | tuple (items : List ExprId)
  | array (items : List ExprId)
  | spread (inner : ExprId)
  | block (body : Block)
  | ifThen (condition : Condition) (body : Block) (otherwise : Option ExprId)
  | matchCases (selector : Option ExprId) (arms : List MatchArm)
  | forIn (pattern : PatternId) (iterable : ExprId) (guard : Option ExprId) (body : Block)
  | whileLoop (condition : Condition) (body : Block)
  | doWhile (body : Block) (condition : ExprId)
  | tryCatch (resources : List TryResource) (body : Block) (catches : List CatchClause)
      (finalBody : Option Block)
  | returnValue (value : Option ExprId)
  | throwValue (value : ExprId)
  | breakLoop
  | continueLoop
  | lambda (params : List LambdaParam) (body : Block)
  | spawn (context : Option ExprId) (body : Block)
  | synchronized (lock : ExprId) (body : Block)
  | unsafeBlock (body : Block)
  | quote (parts : List QuotePart)
  | macroCall (name : List Name) (attributes : Option Span) (input : Span)
  | binary (op : BinaryOp) (lhs rhs : ExprId) (level : Precedence)
  | unary (op : UnaryOp) (operand : ExprId) (level : Precedence)
  | step (op : StepOp) (operand : ExprId)
  | assign (op : AssignOp) (target value : ExprId)
  | range (start stop : Option ExprId) (inclusive : Bool) (step : Option ExprId)
  | field (target : ExprId) (name : Name) (typeArgs : List TypeId) (optional : Bool)
  | call (callee : ExprId) (args : List Argument) (optional : Bool)
  | index (target index : ExprId) (optional : Bool)
  | trailingLambda (callee lambda : ExprId) (optional : Bool)
  /-- A whole chain in which some link is optional. -/
  | optionalChain (inner : ExprId)
  | typeCast (value : ExprId) (type : TypeId)
  | typeCheck (value : ExprId) (type : TypeId)
  /-- A type in the place of a value. -/
  | typeValue (type : TypeId)
  deriving DecidableEq, Inhabited

/-- The forms of types. -/
inductive TypeForm where
  | error
  | builtin (type : BuiltinType)
  | named (segments : List PathSegment)
  | tuple (elements : List TypeElement)
  | arrow (params : List TypeElement) (result : TypeId)
  | optional (inner : TypeId)
  | parenthesized (inner : TypeId)
  deriving DecidableEq, Inhabited

/-- The forms of patterns. -/
inductive PatternForm where
  | error
  | wildcard
  | binding (name : Name)
  | tuple (items : List PatternId)
  /-- Values of which one must be met. -/
  | constant (values : List ExprId)
  | typeAnnotated (name : Option Name) (types : List TypeId)
  /-- Variants of which one must be met. -/
  | variant (variants : List VariantPattern)
  deriving DecidableEq, Inhabited

/-- A function, the main function or a macro, by its parts. -/
structure FunctionParts where
  name : Name
  generics : List Name
  params : List Param
  result : Option TypeId
  constraints : List Constraint
  body : Option Block
  deriving DecidableEq, Inhabited

/-- The types that are declared with a body of members. -/
inductive TypeDeclKind where
  | classType
  | structType
  | interfaceType
  deriving DecidableEq, Inhabited

/-- The keyword of a type with a body. -/
def TypeDeclKind.keyword : TypeDeclKind → String
  | classType => "class"
  | structType => "struct"
  | interfaceType => "interface"

/-- The kinds of initializers. -/
inductive InitKind where
  | regular
  /-- Named like the type around it; its parameters may declare members. -/
  | primary
  | staticInit
  | finalizer
  deriving DecidableEq, Inhabited

/-- The forms of declarations. -/
inductive DeclForm where
  | error
  | varDecl (kind : VarKind) (pattern : PatternId) (type : Option TypeId) (value : Option ExprId)
  | function (parts : FunctionParts)
  | mainFunction (parts : FunctionParts)
  | macroDefinition (parts : FunctionParts)
  | typeBody (kind : TypeDeclKind) (name : Name) (generics : List Name) (supertypes : List TypeId)
      (constraints : List Constraint) (members : List DeclId)
  | enumType (name : Name) (generics : List Name) (supertypes : List TypeId)
      (constraints : List Constraint) (cases : List EnumCase) (nonExhaustive : Bool)
      (members : List DeclId)
  | typeAlias (name : Name) (generics : List Name) (type : TypeId)
  | extension (generics : List Name) (target : TypeId) (supertypes : List TypeId)
      (constraints : List Constraint) (members : List DeclId)
  | property (name : Name) (type : TypeId) (getter : Option Block) (setter : Option (Name × Block))
  | initializer (kind : InitKind) (name : Option Name) (params : List Param) (body : Option Block)
  | foreignBlock (members : List DeclId)
  | macroExpansion (call : ExprId)
  deriving DecidableEq, Inhabited

/-! ## Nodes -/

structure ExprNode where
  form : ExprForm
  span : Span
  deriving DecidableEq, Inhabited

structure TypeNode where
  form : TypeForm
  span : Span
  deriving DecidableEq, Inhabited

structure PatternNode where
  form : PatternForm
  span : Span
  deriving DecidableEq, Inhabited

structure DeclNode where
  form : DeclForm
  span : Span
  annotations : List Annotation
  modifiers : Modifiers
  deriving DecidableEq, Inhabited

/-- The place of a node of any sort. -/
inductive NodeRef where
  | expr (id : ExprId)
  | type (id : TypeId)
  | pattern (id : PatternId)
  | decl (id : DeclId)
  deriving DecidableEq, Inhabited

/-- The nodes of a tree. -/
structure Nodes where
  exprs : Arena .expr ExprNode := {}
  types : Arena .type TypeNode := {}
  patterns : Arena .pattern PatternNode := {}
  decls : Arena .decl DeclNode := {}
  deriving DecidableEq, Inhabited

/-- How many nodes of each sort there are. -/
structure NodeCounts where
  exprs : Nat
  types : Nat
  patterns : Nat
  decls : Nat
  deriving DecidableEq, Inhabited

namespace Nodes

/-- How many nodes of each sort there are. -/
def counts (n : Nodes) : NodeCounts :=
  ⟨n.exprs.size, n.types.size, n.patterns.size, n.decls.size⟩

/-- How many nodes there are. -/
def size (n : Nodes) : Nat :=
  n.exprs.size + n.types.size + n.patterns.size + n.decls.size

/-- The nodes without those allocated after the given counts. -/
def truncate (n : Nodes) (c : NodeCounts) : Nodes where
  exprs := n.exprs.truncate c.exprs
  types := n.types.truncate c.types
  patterns := n.patterns.truncate c.patterns
  decls := n.decls.truncate c.decls

end Nodes

/-! ## Files -/

/-- The header that names the package of a file. -/
structure PackageHeader where
  isMacro : Bool
  path : List Name
  modifiers : Modifiers
  span : Span
  deriving DecidableEq, Inhabited

/-- One path of an import. -/
structure ImportItem where
  path : List Name
  wildcard : Bool
  newName : Option Name
  span : Span
  deriving DecidableEq, Inhabited

/-- An import; groups in braces are spread out into single paths. -/
structure ImportDecl where
  module : Option Name
  items : List ImportItem
  modifiers : Modifiers
  span : Span
  deriving DecidableEq, Inhabited

/-- The tree of a file. The main function stands apart from the other items. -/
structure FileTree where
  package : Option PackageHeader := none
  imports : List ImportDecl := []
  items : List DeclId := []
  main : Option DeclId := none
  nodes : Nodes := {}
  deriving DecidableEq, Inhabited

end CangjieSyntax
