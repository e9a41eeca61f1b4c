import CangjieSyntax.Grammar.Types

/-!
# Expressions read in another way

The elements of a list in parentheses are read as expressions, and only an arrow behind the list
shows that they were types. The left side of an assignment is read as an expression as well.
Children lie in front of their parents in an arena, so that the place of a node bounds the depth
below it.
-/

namespace CangjieSyntax

namespace Nodes

/-- The form of an expression. -/
def exprForm (nodes : Nodes) (id : ExprId) : ExprForm :=
  ((nodes.exprs.get? id).map ExprNode.form).getD .error

/-- The dotted path that an expression spells, if it is one. It is looked for down to the given
depth. -/
def exprPathTo (nodes : Nodes) : Nat → ExprId → Option (Option (List PathSegment))
  | 0, _ => none
  | depth + 1, id =>
    match nodes.exprForm id with
    | .identifier name typeArgs => some (some [⟨name, typeArgs⟩])
    | .field target name typeArgs false =>
      (nodes.exprPathTo depth target).map (Option.map (· ++ [⟨name, typeArgs⟩]))
    | _ => some none

/-- Whether an expression can be assigned to: a variable, a member, an element, an optional chain,
the wildcard, or a tuple of such. It is looked at down to the given depth. -/
def isAssignableTo (nodes : Nodes) : Nat → ExprId → Option Bool
  | 0, _ => none
  | depth + 1, id =>
    match nodes.exprForm id with
    | .tuple items => (items.mapM (nodes.isAssignableTo depth)).map fun found => found.all (·)
    | .parenthesized inner => nodes.isAssignableTo depth inner
    | .identifier .. | .wildcard | .field .. | .index .. | .optionalChain _ => some true
    | _ => some false

end Nodes

namespace Rule

/-- What is found among the nodes allocated so far. -/
def find {α : Type} (f : Nodes → Option α) : Rule α :=
  fun _ s => (f s.nodes).map fun a => (a, s)

/-- The span of an expression. -/
def exprSpan (id : ExprId) : Rule Span :=
  find fun nodes => (nodes.exprs.get? id).map ExprNode.span

/-- The dotted path that an expression spells. -/
def exprPath? (id : ExprId) : Rule (Option (List PathSegment)) :=
  find fun nodes => nodes.exprPathTo (id.index + 1) id

/-- Whether an expression can be assigned to. -/
def isAssignable (id : ExprId) : Rule Bool :=
  find fun nodes => nodes.isAssignableTo (id.index + 1) id

/-- Reports an expression that is no type. -/
def notAType (span : Span) : Rule TypeId := do
  reportAt span .elementIsNotAType []
  errorType span

/-- An expression read as a type, down to the given depth. -/
def exprToTypeTo : Nat → ExprId → Rule TypeId
  | 0, _ => endless
  | depth + 1, id => do
    let span ← exprSpan id
    let nodes := (← get).nodes
    match nodes.exprForm id with
    | .typeValue type => return type
    | .identifier name typeArgs => allocType (.ofPath [⟨name, typeArgs⟩]) span
    | .field .. =>
      match ← exprPath? id with
      | some segments => allocType (.named segments) span
      | none => notAType span
    | .parenthesized inner =>
      let inner ← exprToTypeTo depth inner
      allocType (.parenthesized inner) span
    | .tuple items =>
      let types ← items.mapM (exprToTypeTo depth)
      allocType (.tuple (types.map fun type => ⟨none, type⟩)) span
    | .unit => allocType (.builtin .unit) span
    | _ => notAType span

/-- An expression read as a type. -/
def exprToType (id : ExprId) : Rule TypeId :=
  exprToTypeTo (id.index + 1) id

/-- The elements of a list in parentheses, read as types. -/
def elementsToTypes (elements : List (Option Name × ExprId)) : Rule (List TypeElement) :=
  elements.mapM fun (label, value) => return ⟨label, ← exprToType value⟩

end Rule

end CangjieSyntax
