import Mathlib.Data.Multiset.Bind
import Mathlib.Data.Multiset.Filter
import Mathlib.Tactic.Lemma
import CangjieSyntax.Tree.Node

/-!
# The parts of nodes

What a node refers to, with multiplicity: the places of its children, the texts of the names it
holds, and a mark on every placeholder that stands where nothing could be read. `parts` lists them
for nodes and for everything that a rule hands on before it becomes part of a node; two values next
to each other have the parts of both.
-/

namespace CangjieSyntax

/-- What a node holds. -/
inductive Part where
  /-- The place of a child. -/
  | node (ref : NodeRef)
  /-- The text of a name. -/
  | name (text : String)
  /-- The node stands where nothing could be read. -/
  | fault
  deriving DecidableEq

/-- The child that a part refers to. -/
def Part.ref? : Part → Option NodeRef
  | node ref => some ref
  | _ => none

/-- Values that hold places, names and placeholders. -/
class HasParts (α : Type) where
  parts : α → Multiset Part

export HasParts (parts)

/-! ## Places and names -/

instance : HasParts ExprId := ⟨fun id => {.node (.expr id)}⟩
instance : HasParts TypeId := ⟨fun id => {.node (.type id)}⟩
instance : HasParts PatternId := ⟨fun id => {.node (.pattern id)}⟩
instance : HasParts DeclId := ⟨fun id => {.node (.decl id)}⟩
instance : HasParts Name := ⟨fun n => {.name n.text}⟩

/-! ## Values without parts -/

instance : HasParts Unit := ⟨fun _ => 0⟩
instance : HasParts Bool := ⟨fun _ => 0⟩
instance : HasParts Nat := ⟨fun _ => 0⟩
instance : HasParts String := ⟨fun _ => 0⟩
instance : HasParts Span := ⟨fun _ => 0⟩
instance : HasParts Kind := ⟨fun _ => 0⟩
instance : HasParts Modifiers := ⟨fun _ => 0⟩

@[simp]
lemma parts_unit (u : Unit) : parts u = 0 := rfl

@[simp]
lemma parts_bool (b : Bool) : parts b = 0 := rfl

@[simp]
lemma parts_nat (n : Nat) : parts n = 0 := rfl

@[simp]
lemma parts_modifiers (ms : Modifiers) : parts ms = 0 := rfl

/-! ## Several values -/

section Several

variable {α β : Type} [HasParts α] [HasParts β]

instance : HasParts (α × β) := ⟨fun p => parts p.1 + parts p.2⟩
instance : HasParts (α ⊕ β) := ⟨Sum.elim parts parts⟩
instance : HasParts (Option α) := ⟨fun o => o.elim 0 parts⟩
instance : HasParts (List α) := ⟨fun l => (l.map parts).sum⟩

lemma parts_pair (a : α) (b : β) : parts (a, b) = parts a + parts b := rfl

lemma parts_inl (a : α) : parts (Sum.inl a : α ⊕ β) = parts a := rfl

lemma parts_inr (b : β) : parts (Sum.inr b : α ⊕ β) = parts b := rfl

lemma parts_none : parts (none : Option α) = 0 := rfl

lemma parts_some (a : α) : parts (some a) = parts a := rfl

lemma parts_nil : parts ([] : List α) = 0 := rfl

lemma parts_cons (a : α) (l : List α) : parts (a :: l) = parts a + parts l := by
  simp [HasParts.parts]

lemma parts_append (l m : List α) : parts (l ++ m) = parts l + parts m := by
  simp [HasParts.parts]

lemma parts_flatten (l : List (List α)) : parts l.flatten = parts l := by
  induction l with
  | nil => rfl
  | cons l ls ih => rw [List.flatten_cons, parts_append, parts_cons, ih]

/-- A list has the parts of another one whose elements have the same parts. -/
lemma parts_map {f : α → β} (h : ∀ a, parts (f a) = parts a) (l : List α) :
    parts (l.map f) = parts l := by
  induction l with
  | nil => rfl
  | cons a l ih => rw [List.map_cons, parts_cons, parts_cons, h, ih]

end Several

attribute [simp] parts_pair parts_inl parts_inr parts_none parts_some parts_nil parts_cons
  parts_append parts_flatten

/-! ## Parts of nodes -/

instance : HasParts BlockItem where
  parts
    | .expr id => parts id
    | .decl id => parts id

instance : HasParts Block := ⟨fun b => parts b.items⟩

instance : HasParts StringPart where
  parts
    | .text _ => 0
    | .interpolation block => parts block

instance : HasParts Literal where
  parts
    | .string _ pieces => parts pieces
    | _ => 0

instance : HasParts Argument := ⟨fun a => parts a.name + parts a.value⟩

instance : HasParts Condition where
  parts
    | .expr value => parts value
    | .letPattern pattern value => parts pattern + parts value

instance : HasParts CaseTest where
  parts
    | .pattern id => parts id
    | .condition id => parts id

instance : HasParts MatchArm := ⟨fun a => parts a.test + parts a.guard + parts a.body⟩

instance : HasParts TryResource := ⟨fun r => parts r.name + parts r.type + parts r.value⟩

instance : HasParts CatchClause := ⟨fun c => parts c.pattern + parts c.body⟩

instance : HasParts LambdaParam := ⟨fun p => parts p.name + parts p.type⟩

instance : HasParts QuotePart where
  parts
    | .tokens _ => 0
    | .splice id => parts id

instance : HasParts PathSegment := ⟨fun s => parts s.name + parts s.args⟩

instance : HasParts TypeElement := ⟨fun e => parts e.label + parts e.type⟩

instance : HasParts VariantPattern := ⟨fun v => parts v.path + parts v.typeArgs + parts v.args⟩

instance : HasParts Param := ⟨fun p => parts p.name + parts p.type + parts p.default⟩

instance : HasParts Constraint := ⟨fun c => parts c.param + parts c.bounds⟩

instance : HasParts Annotation := ⟨fun a => parts a.path + parts a.args⟩

instance : HasParts EnumCase := ⟨fun c => parts c.name + parts c.params⟩

/-! Records have the parts of their fields, in order. -/

@[simp]
lemma parts_segment (name : Name) (args : List TypeId) :
    parts (⟨name, args⟩ : PathSegment) = parts name + parts args := rfl

@[simp]
lemma parts_typeElement (label : Option Name) (type : TypeId) :
    parts (⟨label, type⟩ : TypeElement) = parts label + parts type := rfl

@[simp]
lemma parts_block (items : List BlockItem) (span : Span) :
    parts (⟨items, span⟩ : Block) = parts items := rfl

@[simp]
lemma parts_exprItem (id : ExprId) : parts (BlockItem.expr id) = parts id := rfl

@[simp]
lemma parts_interpolation (block : Block) :
    parts (StringPart.interpolation block) = parts block := rfl

@[simp]
lemma parts_text (text : String) : parts (StringPart.text text) = 0 := rfl

@[simp]
lemma parts_splice (id : ExprId) : parts (QuotePart.splice id) = parts id := rfl

@[simp]
lemma parts_tokens (span : Span) : parts (QuotePart.tokens span) = 0 := rfl

@[simp]
lemma parts_lambdaParam (name : Option Name) (type : Option TypeId) (span : Span) :
    parts (⟨name, type, span⟩ : LambdaParam) = parts name + parts type := rfl

@[simp]
lemma parts_catchClause (pattern : PatternId) (body : Block) :
    parts (⟨pattern, body⟩ : CatchClause) = parts pattern + parts body := rfl

@[simp]
lemma parts_variant (path : List Name) (typeArgs : List TypeId) (args : List PatternId)
    (span : Span) : parts (⟨path, typeArgs, args, span⟩ : VariantPattern)
      = parts path + parts typeArgs + parts args := rfl

/-! ## Forms -/

instance : HasParts ExprForm where
  parts
    | .error => {.fault}
    | .literal value => parts value
    | .identifier name typeArgs => parts name + parts typeArgs
    | .this | .super | .unit | .wildcard | .breakLoop | .continueLoop => 0
    | .parenthesized inner | .spread inner | .throwValue inner | .optionalChain inner => parts inner
    | .tuple items | .array items => parts items
    | .block body | .unsafeBlock body => parts body
    | .ifThen condition body otherwise => parts condition + parts body + parts otherwise
    | .matchCases selector arms => parts selector + parts arms
    | .forIn pattern iterable guard body =>
      parts pattern + parts iterable + parts guard + parts body
    | .whileLoop condition body => parts condition + parts body
    | .doWhile body condition => parts body + parts condition
    | .tryCatch resources body catches finalBody =>
      parts resources + parts body + parts catches + parts finalBody
    | .returnValue value => parts value
    | .lambda params body => parts params + parts body
    | .spawn context body => parts context + parts body
    | .synchronized lock body => parts lock + parts body
    | .quote pieces => parts pieces
    | .macroCall name _ _ => parts name
    | .binary _ lhs rhs _ => parts lhs + parts rhs
    | .unary _ operand _ => parts operand
    | .step _ operand => parts operand
    | .assign _ target value => parts target + parts value
    | .range start stop _ step => parts start + parts stop + parts step
    | .field target name typeArgs _ => parts target + parts name + parts typeArgs
    | .call callee args _ => parts callee + parts args
    | .index target index _ => parts target + parts index
    | .trailingLambda callee lambda _ => parts callee + parts lambda
    | .typeCast value type | .typeCheck value type => parts value + parts type
    | .typeValue type => parts type

instance : HasParts TypeForm where
  parts
    | .error => {.fault}
    | .builtin _ => 0
    | .named segments => parts segments
    | .tuple elements => parts elements
    | .arrow params result => parts params + parts result
    | .optional inner | .parenthesized inner => parts inner

instance : HasParts PatternForm where
  parts
    | .error => {.fault}
    | .wildcard => 0
    | .binding name => parts name
    | .tuple items => parts items
    | .constant values => parts values
    | .typeAnnotated name types => parts name + parts types
    | .variant variants => parts variants

instance : HasParts FunctionParts where
  parts f :=
    parts f.name + parts f.generics + parts f.params + parts f.result + parts f.constraints
      + parts f.body

instance : HasParts DeclForm where
  parts
    | .error => {.fault}
    | .varDecl _ pattern type value => parts pattern + parts type + parts value
    | .function f | .mainFunction f | .macroDefinition f => parts f
    | .typeBody _ name generics supertypes constraints members =>
      parts name + parts generics + parts supertypes + parts constraints + parts members
    | .enumType name generics supertypes constraints cases _ members =>
      parts name + parts generics + parts supertypes + parts constraints + parts cases
        + parts members
    | .typeAlias name generics type => parts name + parts generics + parts type
    | .extension generics target supertypes constraints members =>
      parts generics + parts target + parts supertypes + parts constraints + parts members
    | .property name type getter setter =>
      parts name + parts type + parts getter + parts setter
    | .initializer _ name params body => parts name + parts params + parts body
    | .foreignBlock members => parts members
    | .macroExpansion call => parts call

/-! ## Nodes of any sort -/

instance : HasParts ExprNode := ⟨fun n => parts n.form⟩
instance : HasParts TypeNode := ⟨fun n => parts n.form⟩
instance : HasParts PatternNode := ⟨fun n => parts n.form⟩
instance : HasParts DeclNode := ⟨fun n => parts n.form + parts n.annotations⟩

/-- A node of any sort. -/
inductive Node where
  | expr (node : ExprNode)
  | type (node : TypeNode)
  | pattern (node : PatternNode)
  | decl (node : DeclNode)
  deriving DecidableEq

instance : HasParts Node where
  parts
    | .expr node => parts node
    | .type node => parts node
    | .pattern node => parts node
    | .decl node => parts node

/-- The places that are among some parts. -/
def refs (ps : Multiset Part) : Multiset NodeRef :=
  ps.filterMap Part.ref?

/-! ## Files -/

instance : HasParts PackageHeader := ⟨fun h => parts h.path⟩
instance : HasParts ImportItem := ⟨fun i => parts i.path + parts i.newName⟩
instance : HasParts ImportDecl := ⟨fun i => parts i.module + parts i.items⟩

/-- A tree holds its header, its imports and its items; the nodes of the items are not parts of
it. -/
instance : HasParts FileTree where
  parts t := parts t.package + parts t.imports + parts t.items + parts t.main

end CangjieSyntax
