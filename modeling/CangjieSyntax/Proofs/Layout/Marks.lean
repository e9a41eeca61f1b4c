import CangjieSyntax.Proofs.Tree.Forest

/-!
# What a node holds, in order

The children of a node and all the spans written in it, in the order in which they are read. `marks`
lists them for nodes and for everything that a rule hands on before it becomes part of a node, with
a few marks that only stand there on the way.
-/

namespace CangjieSyntax

/-- Something that has been read, or a fact about it. -/
inductive Mark where
  /-- The place of a child. -/
  | node (ref : NodeRef)
  /-- A span that is written in a node. -/
  | span (s : Span)
  /-- Some token has been taken. -/
  | token
  /-- An offset between characters. -/
  | edge (pos : Nat)
  /-- Something was missing. -/
  | fault
  deriving DecidableEq

namespace Mark

/-- The child that a mark stands for. -/
def ref? : Mark → Option NodeRef
  | node ref => some ref
  | _ => none

/-- The span that a mark stands for. -/
def span? : Mark → Option Span
  | span s => some s
  | _ => none

/-- Whether something has been read for certain. -/
def begins : Mark → Bool
  | node _ | token => true
  | _ => false

end Mark

/-- Something among the marks has been read. -/
def Begun (ms : List Mark) : Prop :=
  ms.any Mark.begins

@[simp]
lemma begun_cons (m : Mark) (ms : List Mark) : Begun (m :: ms) ↔ m.begins ∨ Begun ms := by
  simp [Begun]

@[simp]
lemma begun_append (ms ms' : List Mark) : Begun (ms ++ ms') ↔ Begun ms ∨ Begun ms' := by
  simp [Begun]

namespace Mark

@[simp]
lemma begins_node (ref : NodeRef) : (node ref).begins := rfl

@[simp]
lemma begins_token : token.begins := rfl

@[simp]
lemma begins_span (s : Span) : (span s).begins = false := rfl

@[simp]
lemma begins_edge (pos : Nat) : (edge pos).begins = false := rfl

end Mark

/-- Values that hold places and spans, in the order in which they are read. -/
class HasMarks (α : Type) where
  marks : α → List Mark

export HasMarks (marks)

/-! ## Places and names -/

instance : HasMarks ExprId := ⟨fun id => [.node (.expr id)]⟩
instance : HasMarks TypeId := ⟨fun id => [.node (.type id)]⟩
instance : HasMarks PatternId := ⟨fun id => [.node (.pattern id)]⟩
instance : HasMarks DeclId := ⟨fun id => [.node (.decl id)]⟩
instance : HasMarks Name := ⟨fun n => [.span n.span]⟩
instance : HasMarks Span := ⟨fun s => [.span s]⟩

/-! Whatever has a place has been read. -/

@[simp]
lemma begun_expr (id : ExprId) : Begun (marks id) := rfl

@[simp]
lemma begun_type (id : TypeId) : Begun (marks id) := rfl

@[simp]
lemma begun_pattern (id : PatternId) : Begun (marks id) := rfl

@[simp]
lemma begun_decl (id : DeclId) : Begun (marks id) := rfl

/-! ## Values without marks -/

instance : HasMarks Unit := ⟨fun _ => []⟩
instance : HasMarks Bool := ⟨fun _ => []⟩
instance : HasMarks Nat := ⟨fun _ => []⟩
instance : HasMarks Kind := ⟨fun _ => []⟩
instance : HasMarks String := ⟨fun _ => []⟩
instance : HasMarks Modifiers := ⟨fun _ => []⟩

@[simp]
lemma marks_unit (u : Unit) : marks u = [] := rfl

@[simp]
lemma marks_bool (b : Bool) : marks b = [] := rfl

@[simp]
lemma marks_nat (n : Nat) : marks n = [] := rfl

@[simp]
lemma marks_modifiers (ms : Modifiers) : marks ms = [] := rfl

/-! ## Several values -/

section Several

variable {α β : Type} [HasMarks α] [HasMarks β]

instance : HasMarks (α × β) := ⟨fun p => marks p.1 ++ marks p.2⟩
instance : HasMarks (α ⊕ β) := ⟨Sum.elim marks marks⟩
instance : HasMarks (Option α) := ⟨fun o => o.elim [] marks⟩
instance : HasMarks (List α) := ⟨fun l => l.flatMap marks⟩

@[simp]
lemma marks_pair (a : α) (b : β) : marks (a, b) = marks a ++ marks b := rfl

@[simp]
lemma marks_inl (a : α) : marks (Sum.inl a : α ⊕ β) = marks a := rfl

@[simp]
lemma marks_inr (b : β) : marks (Sum.inr b : α ⊕ β) = marks b := rfl

@[simp]
lemma marks_none : marks (none : Option α) = [] := rfl

@[simp]
lemma marks_some (a : α) : marks (some a) = marks a := rfl

@[simp]
lemma marks_nil : marks ([] : List α) = [] := rfl

@[simp]
lemma marks_cons (a : α) (l : List α) : marks (a :: l) = marks a ++ marks l := rfl

@[simp]
lemma marks_append (l m : List α) : marks (l ++ m) = marks l ++ marks m :=
  List.flatMap_append

@[simp]
lemma marks_flatten (l : List (List α)) : marks l.flatten = marks l := by
  induction l with
  | nil => rfl
  | cons l ls ih => rw [List.flatten_cons, marks_append, marks_cons, ih]

/-- A list has the marks of another one whose elements have the same marks. -/
lemma marks_map {f : α → β} (h : ∀ a, marks (f a) = marks a) (l : List α) :
    marks (l.map f) = marks l := by
  induction l with
  | nil => rfl
  | cons a l ih => rw [List.map_cons, marks_cons, marks_cons, h, ih]

/-- A list has no more marks than another one whose elements have more. -/
lemma marks_map_sublist {f : α → β} (h : ∀ a, (marks (f a)).Sublist (marks a)) (l : List α) :
    (marks (l.map f)).Sublist (marks l) := by
  induction l with
  | nil => exact List.Sublist.refl _
  | cons a l ih => exact (h a).append ih

end Several

/-! ## Parts of nodes -/

instance : HasMarks BlockItem where
  marks
    | .expr id => marks id
    | .decl id => marks id

instance : HasMarks Block := ⟨fun b => marks b.items ++ [.span b.span]⟩

instance : HasMarks StringPart where
  marks
    | .text _ => []
    | .interpolation block => marks block

instance : HasMarks Literal where
  marks
    | .string _ pieces => marks pieces
    | _ => []

instance : HasMarks Argument := ⟨fun a => marks a.name ++ marks a.value ++ [.span a.span]⟩

instance : HasMarks Condition where
  marks
    | .expr value => marks value
    | .letPattern pattern value => marks pattern ++ marks value

instance : HasMarks CaseTest where
  marks
    | .pattern id => marks id
    | .condition id => marks id

instance : HasMarks MatchArm :=
  ⟨fun a => marks a.test ++ marks a.guard ++ marks a.body ++ [.span a.span]⟩

instance : HasMarks TryResource := ⟨fun r => marks r.name ++ marks r.type ++ marks r.value⟩

instance : HasMarks CatchClause := ⟨fun c => marks c.pattern ++ marks c.body⟩

instance : HasMarks LambdaParam := ⟨fun p => marks p.name ++ marks p.type ++ [.span p.span]⟩

instance : HasMarks QuotePart where
  marks
    | .tokens span => [.span span]
    | .splice id => marks id

instance : HasMarks PathSegment := ⟨fun s => marks s.name ++ marks s.args⟩

instance : HasMarks TypeElement := ⟨fun e => marks e.label ++ marks e.type⟩

instance : HasMarks VariantPattern :=
  ⟨fun v => marks v.path ++ marks v.typeArgs ++ marks v.args ++ [.span v.span]⟩

instance : HasMarks Param :=
  ⟨fun p => marks p.name ++ marks p.type ++ marks p.default ++ [.span p.span]⟩

instance : HasMarks Constraint := ⟨fun c => marks c.param ++ marks c.bounds⟩

instance : HasMarks Annotation := ⟨fun a => marks a.path ++ marks a.args ++ [.span a.span]⟩

instance : HasMarks EnumCase := ⟨fun c => marks c.name ++ marks c.params ++ [.span c.span]⟩

/-! Records have the marks of their fields, in order. -/

@[simp]
lemma marks_segment (name : Name) (args : List TypeId) :
    marks (⟨name, args⟩ : PathSegment) = marks name ++ marks args := rfl

@[simp]
lemma marks_typeElement (label : Option Name) (type : TypeId) :
    marks (⟨label, type⟩ : TypeElement) = marks label ++ marks type := rfl

@[simp]
lemma marks_block (items : List BlockItem) (span : Span) :
    marks (⟨items, span⟩ : Block) = marks items ++ [.span span] := rfl

@[simp]
lemma marks_exprItem (id : ExprId) : marks (BlockItem.expr id) = marks id := rfl

@[simp]
lemma marks_interpolation (block : Block) :
    marks (StringPart.interpolation block) = marks block := rfl

@[simp]
lemma marks_text (text : String) : marks (StringPart.text text) = [] := rfl

@[simp]
lemma marks_splice (id : ExprId) : marks (QuotePart.splice id) = marks id := rfl

@[simp]
lemma marks_tokens (span : Span) : marks (QuotePart.tokens span) = [.span span] := rfl

@[simp]
lemma marks_lambdaParam (name : Option Name) (type : Option TypeId) (span : Span) :
    marks (⟨name, type, span⟩ : LambdaParam) = marks name ++ marks type ++ [.span span] := rfl

@[simp]
lemma marks_catchClause (pattern : PatternId) (body : Block) :
    marks (⟨pattern, body⟩ : CatchClause) = marks pattern ++ marks body := rfl

@[simp]
lemma marks_variant (path : List Name) (typeArgs : List TypeId) (args : List PatternId)
    (span : Span) : marks (⟨path, typeArgs, args, span⟩ : VariantPattern)
      = marks path ++ marks typeArgs ++ marks args ++ [.span span] := rfl

/-! ## Forms -/

instance : HasMarks ExprForm where
  marks
    | .error | .this | .super | .unit | .wildcard | .breakLoop | .continueLoop => []
    | .literal value => marks value
    | .identifier name typeArgs => marks name ++ marks typeArgs
    | .parenthesized inner | .spread inner | .throwValue inner | .optionalChain inner => marks inner
    | .tuple items | .array items => marks items
    | .block body | .unsafeBlock body => marks body
    | .ifThen condition body otherwise => marks condition ++ marks body ++ marks otherwise
    | .matchCases selector arms => marks selector ++ marks arms
    | .forIn pattern iterable guard body =>
      marks pattern ++ marks iterable ++ marks guard ++ marks body
    | .whileLoop condition body => marks condition ++ marks body
    | .doWhile body condition => marks body ++ marks condition
    | .tryCatch resources body catches finalBody =>
      marks resources ++ marks body ++ marks catches ++ marks finalBody
    | .returnValue value => marks value
    | .lambda params body => marks params ++ marks body
    | .spawn context body => marks context ++ marks body
    | .synchronized lock body => marks lock ++ marks body
    | .quote pieces => marks pieces
    | .macroCall name attributes input => marks name ++ marks attributes ++ marks input
    | .binary _ lhs rhs _ => marks lhs ++ marks rhs
    | .unary _ operand _ => marks operand
    | .step _ operand => marks operand
    | .assign _ target value => marks target ++ marks value
    | .range start stop _ step => marks start ++ marks stop ++ marks step
    | .field target name typeArgs _ => marks target ++ marks name ++ marks typeArgs
    | .call callee args _ => marks callee ++ marks args
    | .index target index _ => marks target ++ marks index
    | .trailingLambda callee lambda _ => marks callee ++ marks lambda
    | .typeCast value type | .typeCheck value type => marks value ++ marks type
    | .typeValue type => marks type

instance : HasMarks TypeForm where
  marks
    | .error | .builtin _ => []
    | .named segments => marks segments
    | .tuple elements => marks elements
    | .arrow params result => marks params ++ marks result
    | .optional inner | .parenthesized inner => marks inner

instance : HasMarks PatternForm where
  marks
    | .error | .wildcard => []
    | .binding name => marks name
    | .tuple items => marks items
    | .constant values => marks values
    | .typeAnnotated name types => marks name ++ marks types
    | .variant variants => marks variants

instance : HasMarks FunctionParts where
  marks f :=
    marks f.name ++ marks f.generics ++ marks f.params ++ marks f.result ++ marks f.constraints
      ++ marks f.body

instance : HasMarks DeclForm where
  marks
    | .error => []
    | .varDecl _ pattern type value => marks pattern ++ marks type ++ marks value
    | .function f | .mainFunction f | .macroDefinition f => marks f
    | .typeBody _ name generics supertypes constraints members =>
      marks name ++ marks generics ++ marks supertypes ++ marks constraints ++ marks members
    | .enumType name generics supertypes constraints cases _ members =>
      marks name ++ marks generics ++ marks supertypes ++ marks constraints ++ marks cases
        ++ marks members
    | .typeAlias name generics type => marks name ++ marks generics ++ marks type
    | .extension generics target supertypes constraints members =>
      marks generics ++ marks target ++ marks supertypes ++ marks constraints ++ marks members
    | .property name type getter setter =>
      marks name ++ marks type ++ marks getter ++ marks setter
    | .initializer _ name params body => marks name ++ marks params ++ marks body
    | .foreignBlock members => marks members
    | .macroExpansion call => marks call

/-- The orders in which the parts of a declaration may be read: the accessors of a property stand in
either order, all others in that of the fields. -/
def DeclForm.readings : DeclForm → List (List Mark)
  | .property name type getter setter =>
    [marks name ++ marks type ++ marks getter ++ marks setter,
     marks name ++ marks type ++ marks setter ++ marks getter]
  | form => [marks form]

lemma DeclForm.marks_mem_readings (form : DeclForm) : marks form ∈ form.readings := by
  cases form <;> exact List.mem_cons_self

/-! ## Nodes of any sort -/

instance : HasMarks ExprNode := ⟨fun n => marks n.form⟩
instance : HasMarks TypeNode := ⟨fun n => marks n.form⟩
instance : HasMarks PatternNode := ⟨fun n => marks n.form⟩

/-- Annotations stand in front of the declaration. -/
instance : HasMarks DeclNode := ⟨fun n => marks n.annotations ++ marks n.form⟩

instance : HasMarks Node where
  marks
    | .expr node => marks node
    | .type node => marks node
    | .pattern node => marks node
    | .decl node => marks node

/-- The orders in which the parts of a node may be read. -/
def Node.readings : Node → List (List Mark)
  | .decl node => node.form.readings.map (marks node.annotations ++ ·)
  | node => [marks node]

/-- A reading of a declaration has the parts of its form in some order. -/
lemma DeclForm.reading_perm {form : DeclForm} {reading : List Mark}
    (hreading : reading ∈ form.readings) : reading.Perm (marks form) := by
  cases form
  case property name type getter setter =>
    simp only [readings, List.mem_cons, List.not_mem_nil, or_false] at hreading
    obtain rfl | rfl := hreading
    · exact .refl _
    · simp only [marks, List.append_assoc]
      exact (List.perm_append_comm.append_left _).append_left _
  all_goals exact .of_eq (List.mem_singleton.1 hreading)

/-- A reading of a node has all its parts in some order. -/
lemma Node.reading_perm {node : Node} {reading : List Mark} (hreading : reading ∈ node.readings) :
    reading.Perm (marks node) := by
  cases node with
  | decl node =>
    obtain ⟨parts, hparts, rfl⟩ := List.mem_map.1 hreading
    exact (DeclForm.reading_perm hparts).append_left _
  | _ => exact .of_eq (List.mem_singleton.1 hreading)

/-- The span of a node of any sort. -/
def Node.span : Node → Span
  | .expr node => node.span
  | .type node => node.span
  | .pattern node => node.span
  | .decl node => node.span

/-! ## Files -/

instance : HasMarks PackageHeader := ⟨fun h => marks h.path ++ [.span h.span]⟩
instance : HasMarks ImportItem := ⟨fun i => marks i.path ++ marks i.newName ++ [.span i.span]⟩
instance : HasMarks ImportDecl := ⟨fun i => marks i.module ++ marks i.items ++ [.span i.span]⟩

/-- The items of a file may stand anywhere among its header and its imports. -/
instance : HasMarks FileTree where
  marks t := marks t.package ++ marks t.imports

end CangjieSyntax
