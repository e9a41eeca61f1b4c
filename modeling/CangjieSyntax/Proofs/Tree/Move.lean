import Mathlib.Order.MinMax
import Mathlib.Tactic.Lemma
import CangjieSyntax.Diagnostic.Basic
import CangjieSyntax.Tree.Node

/-!
# Moved trees

The same code may stand at two places: in two texts, or in one text with something in front of it.
Its trees are then the same up to the offsets in their spans and the places of their nodes. A `Move`
says how offsets and places correspond, and `move` carries it out on nodes and on everything that a
rule hands on before it becomes part of a node.
-/

namespace CangjieSyntax

/-- How many nodes of a sort there are. -/
def NodeCounts.of (counts : NodeCounts) : NodeSort → Nat
  | .expr => counts.exprs
  | .type => counts.types
  | .pattern => counts.patterns
  | .decl => counts.decls

/-- How offsets in one text and places in one tree correspond to those in another. -/
structure Move where
  /-- Where the text at an offset stands in the other text. -/
  pos : Nat → Nat
  strict : StrictMono pos
  /-- How many nodes of each sort lie in front of the tree in the other one. -/
  counts : NodeCounts

namespace Move

/-- The move that leaves everything in its place. -/
def refl : Move where
  pos := id
  strict := strictMono_id
  counts := ⟨0, 0, 0, 0⟩

/-- The move behind a text of `length` bytes and a tree with nodes of the given counts. -/
def behind (length : Nat) (counts : NodeCounts) : Move where
  pos n := length + n
  strict := fun _ _ h => Nat.add_lt_add_left h length
  counts := counts

variable (m : Move)

lemma pos_inj {a b : Nat} : m.pos a = m.pos b ↔ a = b :=
  m.strict.injective.eq_iff

lemma pos_max (a b : Nat) : m.pos (max a b) = max (m.pos a) (m.pos b) :=
  m.strict.monotone.map_max

end Move

/-- Values that a move can be carried out on. -/
class Moves (α : Type) where
  move : Move → α → α
  move_refl : ∀ a : α, move .refl a = a

export Moves (move move_refl)

attribute [simp] move_refl

@[simp]
lemma move_refl_eq_id (α : Type) [Moves α] : (move .refl : α → α) = id :=
  funext move_refl

/-! ## Places, spans and names -/

instance {sort : NodeSort} : Moves (NodeId sort) where
  move m id := ⟨m.counts.of sort + id.index⟩
  move_refl id := by cases sort <;> simp [Move.refl, NodeCounts.of]

instance : Moves Span where
  move m s := .ofBounds (m.pos s.start) (m.pos s.stop)
  move_refl s := by simp [Move.refl, Span.ofBounds, Span.stop]

instance : Moves Name where
  move m n := ⟨n.text, move m n.span⟩
  move_refl n := by simp

lemma move_ofBounds (m : Move) (a b : Nat) :
    move m (Span.ofBounds a b) = .ofBounds (m.pos a) (m.pos b) := by
  have hstop : (Span.ofBounds a b).stop = max a b := by
    simp only [Span.ofBounds, Span.stop]
    omega
  change Span.ofBounds (m.pos a) (m.pos (Span.ofBounds a b).stop) = _
  rw [hstop, m.pos_max]
  simp only [Span.ofBounds, Span.mk.injEq, true_and]
  omega

lemma move_empty (m : Move) (a : Nat) : move m (Span.empty a) = .empty (m.pos a) := by
  simp [Moves.move, Span.empty, Span.ofBounds, Span.stop]

@[simp]
lemma start_move (m : Move) (s : Span) : (move m s).start = m.pos s.start := rfl

/-! ## Values that stay -/

instance : Moves Unit := ⟨fun _ u => u, fun _ => rfl⟩
instance : Moves Bool := ⟨fun _ b => b, fun _ => rfl⟩
instance : Moves String := ⟨fun _ s => s, fun _ => rfl⟩
instance : Moves Kind := ⟨fun _ k => k, fun _ => rfl⟩
instance : Moves Modifiers := ⟨fun _ ms => ms, fun _ => rfl⟩

/-! ## Several values -/

section Several

variable {α β : Type} [Moves α] [Moves β]

instance : Moves (α × β) := ⟨fun m p => (move m p.1, move m p.2), fun p => by simp⟩

instance : Moves (α ⊕ β) where
  move m := Sum.map (move m) (move m)
  move_refl a := by cases a <;> simp

instance : Moves (Option α) where
  move m := Option.map (move m)
  move_refl o := by cases o <;> simp

instance : Moves (List α) where
  move m := List.map (move m)
  move_refl l := by simp

variable (m : Move)

@[simp]
lemma move_pair (a : α) (b : β) : move m (a, b) = (move m a, move m b) := rfl

@[simp]
lemma move_inl (a : α) : move m (.inl a : α ⊕ β) = .inl (move m a) := rfl

@[simp]
lemma move_inr (b : β) : move m (.inr b : α ⊕ β) = .inr (move m b) := rfl

@[simp]
lemma move_none : move m (none : Option α) = none := rfl

@[simp]
lemma move_some (a : α) : move m (some a) = some (move m a) := rfl

@[simp]
lemma move_nil : move m ([] : List α) = [] := rfl

@[simp]
lemma move_cons (a : α) (l : List α) : move m (a :: l) = move m a :: move m l := rfl

@[simp]
lemma move_append (l l' : List α) : move m (l ++ l') = move m l ++ move m l' :=
  List.map_append

@[simp]
lemma move_flatten (l : List (List α)) : move m l.flatten = (move m l).flatten :=
  List.map_flatten

@[simp]
lemma isSome_move (o : Option α) : (move m o).isSome = o.isSome :=
  Option.isSome_map

@[simp]
lemma isEmpty_move (l : List α) : (move m l).isEmpty = l.isEmpty :=
  List.isEmpty_map

lemma any_move {p : α → Bool} (h : ∀ a, p (move m a) = p a) (l : List α) :
    (move m l).any p = l.any p := by
  have e : p ∘ move m = p := funext h
  rw [show move m l = l.map (move m) from rfl, List.any_map, e]

lemma all_move {p : α → Bool} (h : ∀ a, p (move m a) = p a) (l : List α) :
    (move m l).all p = l.all p := by
  have e : p ∘ move m = p := funext h
  rw [show move m l = l.map (move m) from rfl, List.all_map, e]

lemma flatMap_move {f : α → List β} (h : ∀ a, f (move m a) = move m (f a)) (l : List α) :
    (move m l).flatMap f = move m (l.flatMap f) := by
  have e : (fun a => f (move m a)) = fun a => move m (f a) := funext h
  rw [show move m l = l.map (move m) from rfl, List.flatMap_map, e]
  exact List.map_flatMap.symm

@[simp]
lemma move_unit (u : Unit) : move m u = u := rfl

@[simp]
lemma move_bool (b : Bool) : move m b = b := rfl

@[simp]
lemma move_string (s : String) : move m s = s := rfl

@[simp]
lemma move_modifiers (ms : Modifiers) : move m ms = ms := rfl

end Several

/-! ## Parts of nodes -/

instance : Moves BlockItem where
  move m
    | .expr id => .expr (move m id)
    | .decl id => .decl (move m id)
  move_refl i := by cases i <;> simp

instance : Moves Block := ⟨fun m b => ⟨move m b.items, move m b.span⟩, fun b => by simp⟩

instance : Moves StringPart where
  move m
    | .text s => .text s
    | .interpolation block => .interpolation (move m block)
  move_refl p := by cases p <;> simp

instance : Moves Literal where
  move m
    | .string multiLine pieces => .string multiLine (move m pieces)
    | literal => literal
  move_refl l := by cases l <;> simp

instance : Moves Argument where
  move m a := ⟨move m a.name, a.inout, move m a.value, move m a.span⟩
  move_refl a := by simp

instance : Moves Condition where
  move m
    | .expr value => .expr (move m value)
    | .letPattern pattern value => .letPattern (move m pattern) (move m value)
  move_refl c := by cases c <;> simp

instance : Moves CaseTest where
  move m
    | .pattern id => .pattern (move m id)
    | .condition id => .condition (move m id)
  move_refl c := by cases c <;> simp

instance : Moves MatchArm where
  move m a := ⟨move m a.test, move m a.guard, move m a.body, move m a.span⟩
  move_refl a := by simp

instance : Moves TryResource where
  move m r := ⟨move m r.name, move m r.type, move m r.value⟩
  move_refl r := by simp

instance : Moves CatchClause where
  move m c := ⟨move m c.pattern, move m c.body⟩
  move_refl c := by simp

instance : Moves LambdaParam where
  move m p := ⟨move m p.name, move m p.type, move m p.span⟩
  move_refl p := by simp

instance : Moves QuotePart where
  move m
    | .tokens span => .tokens (move m span)
    | .splice id => .splice (move m id)
  move_refl p := by cases p <;> simp

instance : Moves PathSegment where
  move m s := ⟨move m s.name, move m s.args⟩
  move_refl s := by simp

instance : Moves TypeElement where
  move m e := ⟨move m e.label, move m e.type⟩
  move_refl e := by simp

instance : Moves VariantPattern where
  move m v := ⟨move m v.path, move m v.typeArgs, move m v.args, move m v.span⟩
  move_refl v := by simp

instance : Moves Param where
  move m p :=
    ⟨move m p.name, p.named, p.member, move m p.type, move m p.default, move m p.span⟩
  move_refl p := by simp

instance : Moves Constraint where
  move m c := ⟨move m c.param, move m c.bounds⟩
  move_refl c := by simp

instance : Moves Annotation where
  move m a := ⟨move m a.path, move m a.args, move m a.span⟩
  move_refl a := by simp

instance : Moves EnumCase where
  move m c := ⟨move m c.name, move m c.params, move m c.span⟩
  move_refl c := by simp

/-! ## Forms -/

instance : Moves ExprForm where
  move m
    | .error => .error
    | .literal value => .literal (move m value)
    | .identifier name typeArgs => .identifier (move m name) (move m typeArgs)
    | .this => .this
    | .super => .super
    | .unit => .unit
    | .wildcard => .wildcard
    | .parenthesized inner => .parenthesized (move m inner)
    | .tuple items => .tuple (move m items)
    | .array items => .array (move m items)
    | .spread inner => .spread (move m inner)
    | .block body => .block (move m body)
    | .ifThen condition body otherwise =>
      .ifThen (move m condition) (move m body) (move m otherwise)
    | .matchCases selector arms => .matchCases (move m selector) (move m arms)
    | .forIn pattern iterable guard body =>
      .forIn (move m pattern) (move m iterable) (move m guard) (move m body)
    | .whileLoop condition body => .whileLoop (move m condition) (move m body)
    | .doWhile body condition => .doWhile (move m body) (move m condition)
    | .tryCatch resources body catches finalBody =>
      .tryCatch (move m resources) (move m body) (move m catches) (move m finalBody)
    | .returnValue value => .returnValue (move m value)
    | .throwValue value => .throwValue (move m value)
    | .breakLoop => .breakLoop
    | .continueLoop => .continueLoop
    | .lambda params body => .lambda (move m params) (move m body)
    | .spawn context body => .spawn (move m context) (move m body)
    | .synchronized lock body => .synchronized (move m lock) (move m body)
    | .unsafeBlock body => .unsafeBlock (move m body)
    | .quote pieces => .quote (move m pieces)
    | .macroCall name attributes input =>
      .macroCall (move m name) (move m attributes) (move m input)
    | .binary op lhs rhs level => .binary op (move m lhs) (move m rhs) level
    | .unary op operand level => .unary op (move m operand) level
    | .step op operand => .step op (move m operand)
    | .assign op target value => .assign op (move m target) (move m value)
    | .range start stop inclusive step =>
      .range (move m start) (move m stop) inclusive (move m step)
    | .field target name typeArgs isOptional =>
      .field (move m target) (move m name) (move m typeArgs) isOptional
    | .call callee args isOptional => .call (move m callee) (move m args) isOptional
    | .index target index isOptional => .index (move m target) (move m index) isOptional
    | .trailingLambda callee lambda isOptional =>
      .trailingLambda (move m callee) (move m lambda) isOptional
    | .optionalChain inner => .optionalChain (move m inner)
    | .typeCast value type => .typeCast (move m value) (move m type)
    | .typeCheck value type => .typeCheck (move m value) (move m type)
    | .typeValue type => .typeValue (move m type)
  move_refl f := by cases f <;> simp

instance : Moves TypeForm where
  move m
    | .error => .error
    | .builtin type => .builtin type
    | .named segments => .named (move m segments)
    | .tuple elements => .tuple (move m elements)
    | .arrow params result => .arrow (move m params) (move m result)
    | .optional inner => .optional (move m inner)
    | .parenthesized inner => .parenthesized (move m inner)
  move_refl f := by cases f <;> simp

instance : Moves PatternForm where
  move m
    | .error => .error
    | .wildcard => .wildcard
    | .binding name => .binding (move m name)
    | .tuple items => .tuple (move m items)
    | .constant values => .constant (move m values)
    | .typeAnnotated name types => .typeAnnotated (move m name) (move m types)
    | .variant variants => .variant (move m variants)
  move_refl f := by cases f <;> simp

instance : Moves FunctionParts where
  move m f :=
    { name := move m f.name, generics := move m f.generics, params := move m f.params
      result := move m f.result, constraints := move m f.constraints, body := move m f.body }
  move_refl f := by simp

instance : Moves DeclForm where
  move m
    | .error => .error
    | .varDecl kind pattern type value =>
      .varDecl kind (move m pattern) (move m type) (move m value)
    | .function f => .function (move m f)
    | .mainFunction f => .mainFunction (move m f)
    | .macroDefinition f => .macroDefinition (move m f)
    | .typeBody kind name generics supertypes constraints members =>
      .typeBody kind (move m name) (move m generics) (move m supertypes) (move m constraints)
        (move m members)
    | .enumType name generics supertypes constraints cases nonExhaustive members =>
      .enumType (move m name) (move m generics) (move m supertypes) (move m constraints)
        (move m cases) nonExhaustive (move m members)
    | .typeAlias name generics type => .typeAlias (move m name) (move m generics) (move m type)
    | .extension generics target supertypes constraints members =>
      .extension (move m generics) (move m target) (move m supertypes) (move m constraints)
        (move m members)
    | .property name type getter setter =>
      .property (move m name) (move m type) (move m getter) (move m setter)
    | .initializer kind name params body =>
      .initializer kind (move m name) (move m params) (move m body)
    | .foreignBlock members => .foreignBlock (move m members)
    | .macroExpansion call => .macroExpansion (move m call)
  move_refl f := by cases f <;> simp

/-! ## Nodes -/

instance : Moves ExprNode := ⟨fun m n => ⟨move m n.form, move m n.span⟩, fun n => by simp⟩
instance : Moves TypeNode := ⟨fun m n => ⟨move m n.form, move m n.span⟩, fun n => by simp⟩
instance : Moves PatternNode := ⟨fun m n => ⟨move m n.form, move m n.span⟩, fun n => by simp⟩

instance : Moves DeclNode where
  move m n := ⟨move m n.form, move m n.span, move m n.annotations, n.modifiers⟩
  move_refl n := by simp

/-- The arena with the moved nodes of another one added behind it. -/
def Arena.appendMoved {sort : NodeSort} {α : Type} [Moves α] (a : Arena sort α) (m : Move)
    (b : Arena sort α) : Arena sort α :=
  ⟨a.nodes ++ b.nodes.map (move m)⟩

/-- The nodes with the moved nodes of another tree added behind them. -/
def Nodes.appendMoved (nodes : Nodes) (m : Move) (others : Nodes) : Nodes where
  exprs := nodes.exprs.appendMoved m others.exprs
  types := nodes.types.appendMoved m others.types
  patterns := nodes.patterns.appendMoved m others.patterns
  decls := nodes.decls.appendMoved m others.decls

section Arena

variable {sort : NodeSort} {α : Type} [Moves α] {m : Move} {a : Arena sort α}

lemma Arena.next_appendMoved (h : a.size = m.counts.of sort) (b : Arena sort α) :
    (a.appendMoved m b).next = move m b.next := by
  simp only [next, size, appendMoved, Moves.move, NodeId.mk.injEq] at h ⊢
  rw [Array.size_append, Array.size_map, h]

lemma Arena.appendMoved_push (b : Arena sort α) (node : α) :
    a.appendMoved m (b.push node) = (a.appendMoved m b).push (move m node) := by
  simp [appendMoved, push]

/-- The node at a moved place is the moved node. -/
lemma Arena.get?_appendMoved (h : a.size = m.counts.of sort) (b : Arena sort α)
    (id : NodeId sort) :
    (a.appendMoved m b).get? (move m id) = (b.get? id).map (move m) := by
  have hsize : a.nodes.size = m.counts.of sort := h
  simp only [get?, appendMoved, Moves.move]
  rw [Array.getElem?_append_right (by omega), hsize, Nat.add_sub_cancel_left, Array.getElem?_map]

end Arena

lemma Arena.appendMoved_refl {sort : NodeSort} {α : Type} [Moves α] (a : Arena sort α) :
    Arena.empty.appendMoved .refl a = a := by
  simp [appendMoved, Arena.empty]

lemma Nodes.appendMoved_refl (nodes : Nodes) : Nodes.appendMoved {} .refl nodes = nodes := by
  have exprs := Arena.appendMoved_refl nodes.exprs
  have types := Arena.appendMoved_refl nodes.types
  have patterns := Arena.appendMoved_refl nodes.patterns
  have decls := Arena.appendMoved_refl nodes.decls
  unfold Arena.empty at exprs types patterns decls
  rw [appendMoved, exprs, types, patterns, decls]

/-! ## Files and reports -/

instance : Moves PackageHeader where
  move m h := ⟨h.isMacro, move m h.path, h.modifiers, move m h.span⟩
  move_refl h := by simp

instance : Moves ImportItem where
  move m i := ⟨move m i.path, i.wildcard, move m i.newName, move m i.span⟩
  move_refl i := by simp

instance : Moves ImportDecl where
  move m i := ⟨move m i.module, move m i.items, i.modifiers, move m i.span⟩
  move_refl i := by simp

instance : Moves FileTree where
  move m tree :=
    { tree with
      package := move m tree.package, imports := move m tree.imports, items := move m tree.items
      main := move m tree.main }
  move_refl tree := by simp

instance : Moves Diagnostic where
  move m d := { d with span := move m d.span }
  move_refl d := by cases d; simp

end CangjieSyntax
