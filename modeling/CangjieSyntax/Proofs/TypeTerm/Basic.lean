import CangjieSyntax.Grammar.Types
import CangjieSyntax.Proofs.Grammar.Steps
import CangjieSyntax.Proofs.Token.Row

/-!
# Written types

A written type is made of names, dotted paths with type arguments, optionals, parentheses, tuples,
the unit and function types. It is written as tiles, which may touch, so that it can be laid out
with or without blanks. What is at a place in some nodes is told by `t.IsAt nodes id`.
-/

namespace CangjieSyntax

/-- A name on a dotted path with its type arguments. -/
structure Segment (α : Type) where
  name : Ident
  args : List α

/-- A parameter of a function type, perhaps with a label. -/
structure Labelled (α : Type) where
  label : Option Ident
  type : α

/-- A type as it is written. -/
inductive TypeTerm where
  | path (first : Segment TypeTerm) (others : List (Segment TypeTerm))
  | optional (inner : TypeTerm)
  | parens (inner : TypeTerm)
  | tuple (first : TypeTerm) (others : List TypeTerm)
  | unit
  | arrow (params : List (Labelled TypeTerm)) (result : TypeTerm)

namespace TypeTerm

/-- A label with its colon, where there is one. -/
def labelTiles : Option Ident → List Tile
  | some x => [.name x, .mark .colon]
  | none => []

/-- A comma behind the last element, or none. -/
def trailing (comma : Bool) : List Tile :=
  if comma then [.mark .comma] else []

mutual

/-- The tiles of a type. Two question marks touch and are one mark then. The only element of a tuple
has a comma behind it. -/
def tiles : TypeTerm → List Tile
  | path ⟨x, args⟩ others => .name x :: (argTiles args ++ memberTiles others)
  | optional (optional inner) => .mark .questionQuestion :: inner.tiles
  | optional inner => .mark .question :: inner.tiles
  | parens inner => .mark .openParen :: (inner.tiles ++ [.mark .closeParen])
  | tuple first others => .mark .openParen :: (first.tiles
    ++ (tilesBehind others ++ (trailing others.isEmpty ++ [.mark .closeParen])))
  | unit => [.mark .openParen, .mark .closeParen]
  | arrow params result => .mark .openParen :: (paramTiles params
    ++ .mark .closeParen :: .mark .thinArrow :: result.tiles)

/-- Type arguments in angle brackets, if there are any. -/
def argTiles : List TypeTerm → List Tile
  | [] => []
  | first :: others => .mark .less :: (first.tiles ++ (tilesBehind others ++ [.mark .greater]))

/-- Some types, each behind a comma. -/
def tilesBehind : List TypeTerm → List Tile
  | [] => []
  | t :: others => .mark .comma :: (t.tiles ++ tilesBehind others)

/-- Some segments of a path, each behind a point. -/
def memberTiles : List (Segment TypeTerm) → List Tile
  | [] => []
  | ⟨x, args⟩ :: others => .mark .dot :: .name x :: (argTiles args ++ memberTiles others)

/-- Parameters with commas between them. -/
def paramTiles : List (Labelled TypeTerm) → List Tile
  | [] => []
  | ⟨label, t⟩ :: others => labelTiles label ++ (t.tiles ++ paramTilesBehind others)

/-- Some parameters, each behind a comma. -/
def paramTilesBehind : List (Labelled TypeTerm) → List Tile
  | [] => []
  | ⟨label, t⟩ :: others =>
    .mark .comma :: (labelTiles label ++ (t.tiles ++ paramTilesBehind others))

end

mutual

/-- How many types lie one in the other, the outermost one included. -/
def levels : TypeTerm → Nat
  | path ⟨_, args⟩ others => max (levelsOf args) (levelsOfMembers others) + 1
  | optional inner | parens inner => inner.levels + 1
  | tuple first others => max first.levels (levelsOf others) + 1
  | unit => 1
  | arrow params result => max (levelsOfParams params) result.levels + 1

def levelsOf : List TypeTerm → Nat
  | [] => 0
  | t :: others => max t.levels (levelsOf others)

def levelsOfMembers : List (Segment TypeTerm) → Nat
  | [] => 0
  | ⟨_, args⟩ :: others => max (levelsOf args) (levelsOfMembers others)

def levelsOfParams : List (Labelled TypeTerm) → Nat
  | [] => 0
  | ⟨_, t⟩ :: others => max t.levels (levelsOfParams others)

end

mutual

/-- How many tiles the longest list of type arguments has, the brackets included. -/
def longestArgs : TypeTerm → Nat
  | path ⟨_, args⟩ others =>
    max (argTiles args).length (max (longestArgsOf args) (longestArgsOfMembers others))
  | optional inner | parens inner => inner.longestArgs
  | tuple first others => max first.longestArgs (longestArgsOf others)
  | unit => 0
  | arrow params result => max (longestArgsOfParams params) result.longestArgs

def longestArgsOf : List TypeTerm → Nat
  | [] => 0
  | t :: others => max t.longestArgs (longestArgsOf others)

def longestArgsOfMembers : List (Segment TypeTerm) → Nat
  | [] => 0
  | ⟨_, args⟩ :: others =>
    max (argTiles args).length (max (longestArgsOf args) (longestArgsOfMembers others))

def longestArgsOfParams : List (Labelled TypeTerm) → Nat
  | [] => 0
  | ⟨_, t⟩ :: others => max t.longestArgs (longestArgsOfParams others)

end

variable (nodes : Nodes)

mutual

/-- The type at a place in some nodes is the one that is written. A single name without arguments
may name a builtin type. -/
def IsAt : TypeTerm → TypeId → Prop
  | path ⟨x, args⟩ others, id => ∃ name ids segments span,
    nodes.types.get? id = some ⟨.ofPath (⟨name, ids⟩ :: segments), span⟩
      ∧ name.text = x.text ∧ AreAt args ids ∧ MembersAt others segments
  | optional inner, id => ∃ inner' span,
    nodes.types.get? id = some ⟨.optional inner', span⟩ ∧ inner.IsAt inner'
  | parens inner, id => ∃ inner' span,
    nodes.types.get? id = some ⟨.parenthesized inner', span⟩ ∧ inner.IsAt inner'
  | tuple first others, id => ∃ first' others' span,
    nodes.types.get? id
        = some ⟨.tuple ((first' :: others').map fun type => ⟨none, type⟩), span⟩
      ∧ first.IsAt first' ∧ AreAt others others'
  | unit, id => ∃ span, nodes.types.get? id = some ⟨.builtin .unit, span⟩
  | arrow params result, id => ∃ params' result' span,
    nodes.types.get? id = some ⟨.arrow params' result', span⟩
      ∧ ParamsAt params params' ∧ result.IsAt result'

/-- The types at some places are those that are written, in order. -/
def AreAt : List TypeTerm → List TypeId → Prop
  | [], [] => True
  | t :: others, id :: ids => t.IsAt id ∧ AreAt others ids
  | _, _ => False

def MembersAt : List (Segment TypeTerm) → List PathSegment → Prop
  | [], [] => True
  | ⟨x, args⟩ :: others, segment :: segments =>
    segment.name.text = x.text ∧ AreAt args segment.args ∧ MembersAt others segments
  | _, _ => False

def ParamsAt : List (Labelled TypeTerm) → List TypeElement → Prop
  | [], [] => True
  | ⟨label, t⟩ :: others, param :: params =>
    param.label.map Name.text = label.map Ident.text ∧ t.IsAt param.type ∧ ParamsAt others params
  | _, _ => False

end

variable {nodes : Nodes}

/-! ## Induction -/

/-- What holds of a type if it holds of the types in it holds of every type. Of an optional it may
be told by the type below two question marks as well. -/
theorem induct {P : TypeTerm → Prop}
    (path : ∀ first others, (∀ s ∈ first :: others, ∀ t ∈ s.args, P t) → P (.path first others))
    (optional : ∀ inner, P inner → (∀ below, inner = .optional below → P below) →
      P (.optional inner))
    (parens : ∀ inner, P inner → P (.parens inner))
    (tuple : ∀ first others, (∀ t ∈ first :: others, P t) → P (.tuple first others))
    (unit : P .unit)
    (arrow : ∀ params result, (∀ p ∈ params, P p.type) → P result → P (.arrow params result))
    (t : TypeTerm) : P t := by
  have key : P t ∧ ∀ below, t = .optional below → P below := by
    refine @TypeTerm.rec (fun t => P t ∧ ∀ below, t = .optional below → P below)
      (fun s => ∀ t ∈ s.args, P t) (fun ss => ∀ s ∈ ss, ∀ t ∈ s.args, P t) (fun ts => ∀ t ∈ ts, P t)
      (fun ps => ∀ p ∈ ps, P p.type) (fun p => P p.type) ?_ ?_ ?_ ?_ ?_ ?_ (fun _ _ h => h)
      (fun _ h => nomatch h) (fun _ _ h hs => List.forall_mem_cons.2 ⟨h, hs⟩) (fun _ h => nomatch h)
      (fun _ _ h hs => List.forall_mem_cons.2 ⟨h.1, hs⟩) (fun _ h => nomatch h)
      (fun _ _ h hs => List.forall_mem_cons.2 ⟨h, hs⟩) (fun _ _ h => h.1) t
    · intro first others hfirst hothers
      exact ⟨path first others (List.forall_mem_cons.2 ⟨hfirst, hothers⟩), fun _ e => nomatch e⟩
    · rintro inner ⟨hinner, hbelow⟩
      refine ⟨optional inner hinner hbelow, ?_⟩
      rintro _ ⟨⟩
      exact hinner
    · rintro inner ⟨hinner, -⟩
      exact ⟨parens inner hinner, fun _ e => nomatch e⟩
    · rintro first others ⟨hfirst, -⟩ hothers
      exact ⟨tuple first others (List.forall_mem_cons.2 ⟨hfirst, hothers⟩), fun _ e => nomatch e⟩
    · exact ⟨unit, fun _ e => nomatch e⟩
    · rintro params result hparams ⟨hresult, -⟩
      exact ⟨arrow params result hparams hresult, fun _ e => nomatch e⟩
  exact key.1

/-- An optional type is written with a question mark, or with two if the type in it is optional. -/
lemma tiles_optional (inner : TypeTerm) : (∃ below, inner = .optional below
      ∧ (optional inner).tiles = .mark .questionQuestion :: below.tiles)
    ∨ (∀ below, inner ≠ .optional below)
      ∧ (optional inner).tiles = .mark .question :: inner.tiles := by
  cases inner with
  | optional below => exact .inl ⟨below, rfl, rfl⟩
  | path | parens | tuple | unit | arrow => exact .inr ⟨(fun _ e => nomatch e), rfl⟩

/-! ## Types at places -/

lemma areAt_iff {ts : List TypeTerm} {ids : List TypeId} :
    AreAt nodes ts ids ↔ List.Forall₂ (fun t id => t.IsAt nodes id) ts ids := by
  induction ts generalizing ids with
  | nil => cases ids <;> simp [AreAt]
  | cons t ts ih => cases ids <;> simp [AreAt, ih]

lemma membersAt_iff {members : List (Segment TypeTerm)} {segments : List PathSegment} :
    MembersAt nodes members segments ↔ List.Forall₂ (fun s segment =>
      segment.name.text = s.name.text ∧ AreAt nodes s.args segment.args) members segments := by
  induction members generalizing segments with
  | nil => cases segments <;> simp [MembersAt]
  | cons s members ih => cases segments <;> simp [MembersAt, ih, and_assoc]

lemma paramsAt_iff {params : List (Labelled TypeTerm)} {elements : List TypeElement} :
    ParamsAt nodes params elements ↔ List.Forall₂ (fun p element =>
      element.label.map Name.text = p.label.map Ident.text ∧ p.type.IsAt nodes element.type)
      params elements := by
  induction params generalizing elements with
  | nil => cases elements <;> simp [ParamsAt]
  | cons p params ih => cases elements <;> simp [ParamsAt, ih, and_assoc]

/-- What holds of the members of one list and what is paired with them. -/
lemma forall₂_imp_of_mem {α β : Type} {R S : α → β → Prop} {as : List α} {bs : List β}
    (h : ∀ a ∈ as, ∀ b, R a b → S a b) (hR : List.Forall₂ R as bs) : List.Forall₂ S as bs := by
  induction hR with
  | nil => exact .nil
  | cons hab _ ih =>
    obtain ⟨ha, has⟩ := List.forall_mem_cons.1 h
    exact .cons (ha _ hab) (ih has)

variable {others : Nodes}

/-- A type stays where it is when nodes are added. -/
theorem IsAt.extend (hext : nodes.types.Extends others.types) {t : TypeTerm} :
    ∀ {id : TypeId}, t.IsAt nodes id → t.IsAt others id := by
  have all {ts : List TypeTerm} {ids : List TypeId}
      (hts : ∀ t ∈ ts, ∀ {id : TypeId}, t.IsAt nodes id → t.IsAt others id) :
      AreAt nodes ts ids → AreAt others ts ids := by
    rw [areAt_iff, areAt_iff]
    exact forall₂_imp_of_mem fun t ht id => hts t ht
  induction t using TypeTerm.induct with
  | path first members ih =>
    obtain ⟨hfirst, hmembers⟩ := List.forall_mem_cons.1 ih
    rintro id ⟨name, ids, segments, span, e, hname, hids, hsegments⟩
    refine ⟨name, ids, segments, span, hext.get?_eq e, hname, all hfirst hids, ?_⟩
    rw [membersAt_iff] at hsegments ⊢
    exact forall₂_imp_of_mem (fun s hs segment h => ⟨h.1, all (hmembers s hs) h.2⟩) hsegments
  | optional inner ih =>
    rintro id ⟨inner', span, e, hinner⟩
    exact ⟨inner', span, hext.get?_eq e, ih hinner⟩
  | parens inner ih =>
    rintro id ⟨inner', span, e, hinner⟩
    exact ⟨inner', span, hext.get?_eq e, ih hinner⟩
  | tuple first others ih =>
    obtain ⟨hfirst, hothers⟩ := List.forall_mem_cons.1 ih
    rintro id ⟨first', others', span, e, hfirst', hothers'⟩
    exact ⟨first', others', span, hext.get?_eq e, hfirst hfirst', all hothers hothers'⟩
  | unit =>
    rintro id ⟨span, e⟩
    exact ⟨span, hext.get?_eq e⟩
  | arrow params result ihparams ihresult =>
    rintro id ⟨params', result', span, e, hparams, hresult⟩
    refine ⟨params', result', span, hext.get?_eq e, ?_, ihresult hresult⟩
    rw [paramsAt_iff] at hparams ⊢
    exact forall₂_imp_of_mem (fun p hp element h => ⟨h.1, ihparams p hp h.2⟩) hparams

lemma AreAt.extend (hext : nodes.types.Extends others.types) {ts : List TypeTerm}
    {ids : List TypeId} (h : AreAt nodes ts ids) : AreAt others ts ids := by
  rw [areAt_iff] at h ⊢
  exact h.imp fun _ _ h => h.extend hext

lemma MembersAt.extend (hext : nodes.types.Extends others.types)
    {members : List (Segment TypeTerm)} {segments : List PathSegment}
    (h : MembersAt nodes members segments) : MembersAt others members segments := by
  rw [membersAt_iff] at h ⊢
  exact h.imp fun _ _ h => ⟨h.1, h.2.extend hext⟩

lemma ParamsAt.extend (hext : nodes.types.Extends others.types)
    {params : List (Labelled TypeTerm)} {elements : List TypeElement}
    (h : ParamsAt nodes params elements) : ParamsAt others params elements := by
  rw [paramsAt_iff] at h ⊢
  exact h.imp fun _ _ h => ⟨h.1, h.2.extend hext⟩

end TypeTerm

end CangjieSyntax
