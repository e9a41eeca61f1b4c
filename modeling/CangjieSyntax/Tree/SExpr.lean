import CangjieSyntax.Source.Utf8
import CangjieSyntax.Tree.Node

/-!
# Trees as S-expressions

A tree is shown with each operator in front of its operands: `a + b * c` as `(+ a (* b c))`, a call
`f(x)` as `(call f x)` and an optional chain `a?.b` as `(chain (?. a b))`. `SExpr.layer` shows one
node, given how its children are shown; `SExpr.render` ties the layers together.
-/

namespace CangjieSyntax.SExpr

/-- How the children of a node are shown. -/
abbrev Children := NodeRef → String

/-- A blank and a text, for each of the texts. -/
def spaced (items : List String) : String :=
  String.join (items.map fun item => " " ++ item)

/-- A list with a head and items. -/
def list (head : String) (items : List String) : String :=
  "(" ++ head ++ spaced items ++ ")"

/-- A text in front of another one, where there is one. -/
def optional (before : String) : Option String → String
  | none => ""
  | some text => before ++ text

/-- Names with points between them. -/
def path (names : List Name) : String :=
  ".".intercalate (names.map Name.text)

/-- The text of a span. -/
def sourceText (src : Source) (span : Span) : String :=
  (span.text? src).getD ""

section layers

variable (src : Source) (child : Children)

def exprs (ids : List ExprId) : List String :=
  ids.map fun id => child (.expr id)

def types (ids : List TypeId) : List String :=
  ids.map fun id => child (.type id)

def patterns (ids : List PatternId) : List String :=
  ids.map fun id => child (.pattern id)

def decls (ids : List DeclId) : List String :=
  ids.map fun id => child (.decl id)

def item : BlockItem → String
  | .expr id => child (.expr id)
  | .decl id => child (.decl id)

def block (b : Block) : String :=
  list "block" (b.items.map (item child))

/-- Type arguments, where there are any. -/
def typeArgs : List TypeId → String
  | [] => ""
  | ids => "<" ++ ", ".intercalate (types child ids) ++ ">"

def condition : Condition → String
  | .expr id => child (.expr id)
  | .letPattern pattern value => list "let" [child (.pattern pattern), child (.expr value)]

def argument (a : Argument) : String :=
  match a.name, a.inout with
  | some name, _ => list "named" [name.text, child (.expr a.value)]
  | none, true => list "inout" [child (.expr a.value)]
  | none, false => child (.expr a.value)

/-- The text of a string without holes. -/
def plainText? : List StringPart → Option String
  | [] => some ""
  | .text s :: rest => (plainText? rest).map (s ++ ·)
  | .interpolation _ :: _ => none

def stringPart : StringPart → String
  | .text s => Quoted.string s
  | .interpolation b => block child b

def literal : Literal → String
  | .integer n | .float n => n.digits ++ n.suffix.getD ""
  | .rune c => "r" ++ Quoted.char c
  | .byte b => "b" ++ toString b.toNat
  | .byteString bytes =>
    "b" ++ Quoted.string (String.ofList (Utf8.decodeWithLosses ⟨bytes.toArray⟩ 0))
  | .bool b => if b then "true" else "false"
  | .rawString text _ => Quoted.string text
  | .string _ parts =>
    match plainText? parts with
    | some text => Quoted.string text
    | none => list "str" (parts.map (stringPart child))

def arm (a : MatchArm) : String :=
  let test := match a.test with
    | .pattern id => child (.pattern id)
    | .condition id => child (.expr id)
  "(case " ++ test ++ optional " where " (a.guard.map fun id => child (.expr id)) ++ " "
    ++ block child a.body ++ ")"

def lambdaParam (p : LambdaParam) : String :=
  (p.name.map Name.text).getD "_" ++ optional ": " (p.type.map fun id => child (.type id))

def quotePart : QuotePart → String
  | .tokens span => Quoted.string (sourceText src span)
  | .splice id => list "$" [child (.expr id)]

/-- The mark of an optional link. -/
def mark (isOptional : Bool) : String :=
  if isOptional then "?" else ""

def exprLayer : ExprForm → String
  | .error => "<error>"
  | .literal value => literal child value
  | .identifier name args => name.text ++ typeArgs child args
  | .this => "this"
  | .super => "super"
  | .unit => "()"
  | .wildcard => "_"
  | .parenthesized inner => list "paren" [child (.expr inner)]
  | .tuple items => list "tuple" (exprs child items)
  | .array items => list "array" (exprs child items)
  | .spread inner => list "spread" [child (.expr inner)]
  | .block body => block child body
  | .ifThen test body otherwise =>
    list "if" ([condition child test, block child body] ++ exprs child otherwise.toList)
  | .matchCases selector arms =>
    list "match" (exprs child selector.toList ++ arms.map (arm child))
  | .forIn pattern iterable guard body =>
    "(for " ++ child (.pattern pattern) ++ " " ++ child (.expr iterable)
      ++ optional " where " (guard.map fun id => child (.expr id)) ++ " " ++ block child body ++ ")"
  | .whileLoop test body => list "while" [condition child test, block child body]
  | .doWhile body test => list "do" [block child body, child (.expr test)]
  | .tryCatch resources body catches finalBody =>
    list "try"
      (resources.map (fun r => list "resource" [r.name.text, child (.expr r.value)])
        ++ [block child body]
        ++ catches.map (fun c => list "catch" [child (.pattern c.pattern), block child c.body])
        ++ finalBody.toList.map fun b => list "finally" [block child b])
  | .returnValue value => list "return" (exprs child value.toList)
  | .throwValue value => list "throw" [child (.expr value)]
  | .breakLoop => "(break)"
  | .continueLoop => "(continue)"
  | .lambda params body =>
    "(lambda (" ++ " ".intercalate (params.map (lambdaParam child)) ++ ")"
      ++ spaced (body.items.map (item child)) ++ ")"
  | .spawn context body => list "spawn" (exprs child context.toList ++ [block child body])
  | .synchronized lock body => list "synchronized" [child (.expr lock), block child body]
  | .unsafeBlock body => list "unsafe" [block child body]
  | .quote parts => list "quote" (parts.map (quotePart src child))
  | .macroCall name attributes input =>
    "(@" ++ path name ++ (attributes.map fun span => " [" ++ sourceText src span ++ "]").getD ""
      ++ " (" ++ sourceText src input ++ "))"
  | .binary op lhs rhs _ => list op.symbol [child (.expr lhs), child (.expr rhs)]
  | .unary op operand _ => list op.symbol [child (.expr operand)]
  | .step op operand => list ("post" ++ op.symbol) [child (.expr operand)]
  | .assign op target value => list op.symbol [child (.expr target), child (.expr value)]
  | .range start stop inclusive step =>
    let bound (id : Option ExprId) := (id.map fun id => child (.expr id)).getD "none"
    "(" ++ (if inclusive then "..=" else "..") ++ " " ++ bound start ++ " " ++ bound stop
      ++ optional " : " (step.map fun id => child (.expr id)) ++ ")"
  | .field target name args isOptional =>
    list (mark isOptional ++ ".") [child (.expr target), name.text ++ typeArgs child args]
  | .call callee args isOptional =>
    list (mark isOptional ++ "call") (child (.expr callee) :: args.map (argument child))
  | .index target index isOptional =>
    list (mark isOptional ++ "index") [child (.expr target), child (.expr index)]
  | .trailingLambda callee lambda isOptional =>
    list (mark isOptional ++ "trailing") [child (.expr callee), child (.expr lambda)]
  | .optionalChain inner => list "chain" [child (.expr inner)]
  | .typeCast value type => list "as" [child (.expr value), child (.type type)]
  | .typeCheck value type => list "is" [child (.expr value), child (.type type)]
  | .typeValue type => list "type" [child (.type type)]

def typeElements (elements : List TypeElement) : String :=
  "(" ++ ", ".intercalate (elements.map fun e =>
    (e.label.map fun name => name.text ++ ": ").getD "" ++ child (.type e.type)) ++ ")"

def typeLayer : TypeForm → String
  | .error => "<error>"
  | .builtin type => type.name
  | .named segments => ".".intercalate (segments.map fun s => s.name.text ++ typeArgs child s.args)
  | .tuple elements => typeElements child elements
  | .arrow params result =>
    "(" ++ typeElements child params ++ " -> " ++ child (.type result) ++ ")"
  | .optional inner => "?" ++ child (.type inner)
  | .parenthesized inner => list "paren" [child (.type inner)]

def variant (v : VariantPattern) : String :=
  let args := match v.args with
    | [] => ""
    | ids => "(" ++ " ".intercalate (patterns child ids) ++ ")"
  path v.path ++ typeArgs child v.typeArgs ++ args

def patternLayer : PatternForm → String
  | .error => "<error>"
  | .wildcard => "_"
  | .binding name => name.text
  | .tuple items => list "tuple" (patterns child items)
  | .constant [single] => child (.expr single)
  | .constant values => list "|" (exprs child values)
  | .typeAnnotated name ids => list ":" ((name.map Name.text).getD "_" :: types child ids)
  | .variant [] => ""
  | .variant [single] => variant child single
  | .variant variants => list "|" (variants.map (variant child))

/-- The names of type parameters, where there are any. -/
def generics : List Name → String
  | [] => ""
  | names => "<" ++ ", ".intercalate (names.map Name.text) ++ ">"

def param (p : Param) : String :=
  (p.member.map fun kind => kind.keyword ++ " ").getD "" ++ p.name.text
    ++ (if p.named then "!" else "") ++ ": " ++ child (.type p.type)
    ++ optional " = " (p.default.map fun id => child (.expr id))

def params (ps : List Param) : String :=
  "(" ++ " ".intercalate (ps.map (param child)) ++ ")"

def function (head : String) (f : FunctionParts) : String :=
  "(" ++ head ++ " " ++ f.name.text ++ generics f.generics ++ " " ++ params child f.params
    ++ optional " : " (f.result.map fun id => child (.type id))
    ++ optional " " (f.body.map (block child)) ++ ")"

/-- Supertypes and members. -/
def members (supertypes : List TypeId) (ids : List DeclId) : String :=
  (if supertypes.isEmpty then "" else " <:" ++ spaced (types child supertypes))
    ++ spaced (decls child ids)

def enumCase (c : EnumCase) : String :=
  let args := match c.params with
    | [] => ""
    | ids => "(" ++ ", ".intercalate (types child ids) ++ ")"
  " |" ++ c.name.text ++ args

/-- The head of an initializer. -/
def initHead : InitKind → Option Name → String
  | .regular, _ => "init"
  | .staticInit, _ => "static-init"
  | .finalizer, _ => "~init"
  | .primary, some name => "primary-init " ++ name.text
  | .primary, none => "primary-init"

def declLayer : DeclForm → String
  | .error => "<error>"
  | .varDecl kind pattern type value =>
    "(" ++ kind.keyword ++ " " ++ child (.pattern pattern)
      ++ optional ": " (type.map fun id => child (.type id))
      ++ optional " " (value.map fun id => child (.expr id)) ++ ")"
  | .function parts => function child "func" parts
  | .mainFunction parts => function child "main" parts
  | .macroDefinition parts => function child "macro" parts
  | .typeBody kind name names supertypes _ ids =>
    "(" ++ kind.keyword ++ " " ++ name.text ++ generics names ++ members child supertypes ids ++ ")"
  | .enumType name names supertypes _ cases nonExhaustive ids =>
    "(enum " ++ name.text ++ generics names ++ String.join (cases.map (enumCase child))
      ++ (if nonExhaustive then " |..." else "") ++ members child supertypes ids ++ ")"
  | .typeAlias name names type =>
    "(type " ++ name.text ++ generics names ++ " " ++ child (.type type) ++ ")"
  | .extension names target supertypes _ ids =>
    "(extend" ++ generics names ++ " " ++ child (.type target)
      ++ members child supertypes ids ++ ")"
  | .property name type getter setter =>
    "(prop " ++ name.text ++ ": " ++ child (.type type)
      ++ (getter.map fun b => " " ++ list "get" [block child b]).getD ""
      ++ (setter.map fun s => " " ++ list "set" [s.1.text, block child s.2]).getD "" ++ ")"
  | .initializer kind name ps body =>
    "(" ++ initHead kind name ++ " " ++ params child ps
      ++ optional " " (body.map (block child)) ++ ")"
  | .foreignBlock ids => list "foreign" (decls child ids)
  | .macroExpansion call => child (.expr call)

/-- One node, given how its children are shown. -/
def layer (nodes : Nodes) : NodeRef → String
  | .expr id => ((nodes.exprs.get? id).map fun node => exprLayer src child node.form).getD ""
  | .type id => ((nodes.types.get? id).map fun node => typeLayer child node.form).getD ""
  | .pattern id => ((nodes.patterns.get? id).map fun node => patternLayer child node.form).getD ""
  | .decl id => ((nodes.decls.get? id).map fun node => declLayer child node.form).getD ""

end layers

/-- A node with its descendants down to the given depth. -/
def renderTo (src : Source) (nodes : Nodes) : Nat → NodeRef → String
  | 0, _ => ""
  | depth + 1, ref => layer src (renderTo src nodes depth) nodes ref

/-- A node with all its descendants: no path in a tree is longer than the number of nodes. -/
def render (src : Source) (nodes : Nodes) (ref : NodeRef) : String :=
  renderTo src nodes nodes.size ref

end CangjieSyntax.SExpr
