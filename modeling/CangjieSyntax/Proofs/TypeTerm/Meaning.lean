import CangjieSyntax.Grammar.Reading
import CangjieSyntax.Proofs.TypeTerm.Types

/-!
# Expressions that mean types

An expression among some nodes means a type if it is turned into that type, whatever has been
allocated behind it by then. It may be the type itself in the place of a value, a dotted path, or a
list in parentheses whose elements mean types.
-/

namespace CangjieSyntax

variable {env : Env} {s : ParseState} {behind rest : List Tile} {nodes others : Nodes} {id : ExprId}

lemma Nodes.exprForm_eq {form : ExprForm} {span : Span}
    (e : nodes.exprs.get? id = some ⟨form, span⟩) : nodes.exprForm id = form := by
  rw [exprForm, e]
  rfl

lemma Rule.walks_find {α : Type} {f : Nodes → Option α} (h : s.Awaits env behind rest) :
    Walks env behind s (find f) rest fun a u => u = s ∧ f s.nodes = some a := by
  intro a u e
  obtain ⟨a', e', e''⟩ := Option.map_eq_some_iff.1 e
  cases e''
  exact ⟨h.walked, rfl, e'⟩

/-- An expression spells a dotted path. -/
inductive Nodes.Spells (nodes : Nodes) : ExprId → List PathSegment → Prop
  | name {id : ExprId} {name : Name} {args : List TypeId} {span : Span}
    (e : nodes.exprs.get? id = some ⟨.identifier name args, span⟩) : Spells nodes id [⟨name, args⟩]
  | field {id target : ExprId} {name : Name} {args : List TypeId} {span : Span}
    {segments : List PathSegment}
    (e : nodes.exprs.get? id = some ⟨.field target name args false, span⟩)
    (htarget : Spells nodes target segments) : Spells nodes id (segments ++ [⟨name, args⟩])

namespace Nodes.Spells

variable {segments : List PathSegment}

lemma extend (hext : nodes.Extends others) (h : nodes.Spells id segments) :
    others.Spells id segments := by
  induction h with
  | name e => exact .name (hext.exprs.get?_eq e)
  | field e _ ih => exact .field (hext.exprs.get?_eq e) ih

lemma ne_nil (h : nodes.Spells id segments) : segments ≠ [] := by
  cases h with
  | name e => exact List.cons_ne_nil _ _
  | field e htarget => exact List.append_ne_nil_of_right_ne_nil _ (List.cons_ne_nil _ _)

/-- The path that an expression spells is the one that is found. -/
lemma exprPathTo_eq (h : nodes.Spells id segments) {depth : Nat} {found : Option (List PathSegment)}
    (e : nodes.exprPathTo depth id = some found) : found = some segments := by
  induction h generalizing depth found with
  | name eform =>
    cases depth with
    | zero => exact nomatch e
    | succ depth =>
      rw [exprPathTo, exprForm_eq eform] at e
      exact (Option.some.inj e).symm
  | field eform _ ih =>
    cases depth with
    | zero => exact nomatch e
    | succ depth =>
      rw [exprPathTo, exprForm_eq eform] at e
      obtain ⟨before, ebefore, rfl⟩ := Option.map_eq_some_iff.1 e
      rw [ih ebefore]
      rfl

end Nodes.Spells

/-- Several segments name no builtin type. -/
lemma TypeForm.ofPath_append {segments : List PathSegment} (h : segments ≠ [])
    (last : PathSegment) : ofPath (segments ++ [last]) = .named (segments ++ [last]) := by
  obtain ⟨first, second, others, e⟩ : ∃ first second others, segments ++ [last]
      = first :: second :: others := by
    obtain _ | ⟨first, _ | ⟨second, others⟩⟩ := segments
    · exact absurd rfl h
    · exact ⟨first, last, [], rfl⟩
    · exact ⟨first, second, others ++ [last], rfl⟩
  rw [e]
  obtain ⟨name, _ | ⟨arg, args⟩⟩ := first <;> rfl

namespace TypeTerm

/-- An expression is turned into the type that is written. -/
def MeantBy (env : Env) (nodes : Nodes) (t : TypeTerm) (id : ExprId) : Prop :=
  ∀ (depth : Nat) (behind rest : List Tile) (s : ParseState), s.Awaits env behind rest →
    nodes.Extends s.nodes →
    Walks env behind s (Rule.exprToTypeTo depth id) rest fun type u => t.IsAt u.nodes type

variable {t : TypeTerm} {span : Span}

lemma MeantBy.extend (hext : nodes.Extends others) (h : t.MeantBy env nodes id) :
    t.MeantBy env others id :=
  fun depth behind rest s hs hs' => h depth behind rest s hs (hext.trans hs')

/-- What is done with an expression depends on its form. -/
lemma MeantBy.of_form {form : ExprForm} (e : nodes.exprs.get? id = some ⟨form, span⟩)
    (h : ∀ (depth : Nat) (behind rest : List Tile) (s : ParseState), s.Awaits env behind rest →
      nodes.Extends s.nodes → ∀ span, Walks env behind s (match form with
        | .typeValue type => pure type
        | .identifier name typeArgs => Rule.allocType (.ofPath [⟨name, typeArgs⟩]) span
        | .field .. => do
          match ← Rule.exprPath? id with
          | some segments => Rule.allocType (.named segments) span
          | none => Rule.notAType span
        | .parenthesized inner => do
          let inner ← Rule.exprToTypeTo depth inner
          Rule.allocType (.parenthesized inner) span
        | .tuple items => do
          let types ← items.mapM (Rule.exprToTypeTo depth)
          Rule.allocType (.tuple (types.map fun type => ⟨none, type⟩)) span
        | .unit => Rule.allocType (.builtin .unit) span
        | _ => Rule.notAType span) rest fun type u => t.IsAt u.nodes type) :
    t.MeantBy env nodes id := by
  intro depth behind rest s hs hext
  cases depth with
  | zero => exact .endless
  | succ depth =>
    refine (Rule.walks_find hs).bind ?_
    rintro span r - ⟨rfl, -⟩
    refine .get ?_
    dsimp only
    rw [Nodes.exprForm_eq (hext.exprs.get?_eq e)]
    exact h depth behind rest r hs hext span

lemma meantBy_typeValue {type : TypeId} (e : nodes.exprs.get? id = some ⟨.typeValue type, span⟩)
    (h : t.IsAt nodes type) : t.MeantBy env nodes id :=
  .of_form e fun _ _ _ _ hs hext _ => .pure hs (h.extend hext.types)

lemma meantBy_unit (e : nodes.exprs.get? id = some ⟨.unit, span⟩) : unit.MeantBy env nodes id :=
  .of_form e fun _ _ _ _ hs _ _ => (Rule.walks_allocType hs).mono fun _ _ _ e => ⟨_, e⟩

lemma meantBy_parens {inner : ExprId} (e : nodes.exprs.get? id = some ⟨.parenthesized inner, span⟩)
    (h : t.MeantBy env nodes inner) : t.parens.MeantBy env nodes id := by
  refine .of_form e fun depth behind rest s hs hext span => ?_
  refine (h depth behind rest s hs hext).bind fun type r hr htype => ?_
  refine (Rule.walks_allocType hr.awaits).mono fun _ u hu e => ?_
  exact ⟨type, _, e, htype.extend hu.nodes.types⟩

lemma meantBy_tuple {first : TypeTerm} {others : List TypeTerm} {items : List ExprId}
    (e : nodes.exprs.get? id = some ⟨.tuple items, span⟩)
    (h : List.Forall₂ (fun t item => t.MeantBy env nodes item) (first :: others) items) :
    (tuple first others).MeantBy env nodes id := by
  refine .of_form e fun depth behind rest s hs hext span => ?_
  have types : Walks env behind s (items.mapM (Rule.exprToTypeTo depth)) rest fun types u =>
      List.Forall₂ (fun t type => t.IsAt u.nodes type) (first :: others) types := by
    refine .mapM (fun (t : TypeTerm) type nodes => t.IsAt nodes type) hs hext
      (fun hext h => h.extend hext.types) ?_
    exact h.flip.imp fun item t h r hr hext => h depth behind rest r hr hext
  refine types.bind fun types r hr htypes => ?_
  refine (Rule.walks_allocType hr.awaits).mono fun _ u hu e => ?_
  cases htypes with
  | cons hfirst hothers =>
    exact ⟨_, _, _, e, hfirst.extend hu.nodes.types, (areAt_iff.2 hothers).extend hu.nodes.types⟩

lemma meantBy_path {first : Segment TypeTerm} {others : List (Segment TypeTerm)}
    {segments : List PathSegment} (h : nodes.Spells id segments)
    (hsegments : MembersAt nodes (first :: others) segments) :
    (path first others).MeantBy env nodes id := by
  have found {u : ParseState} {type : TypeId} (span : Span) (hext : nodes.Extends u.nodes)
      (e : u.nodes.types.get? type = some ⟨.ofPath segments, span⟩) :
      (path first others).IsAt u.nodes type := by
    cases segments with
    | nil => exact hsegments.elim
    | cons segment segments =>
      obtain ⟨hname, hargs, hothers⟩ := hsegments.extend hext.types
      exact ⟨_, _, _, span, e, hname, hargs, hothers⟩
  have hspells := h
  cases h with
  | name e =>
    refine .of_form e fun depth behind rest s hs hext span => ?_
    exact (Rule.walks_allocType hs).mono fun _ _ hu e => found span (hext.trans hu.nodes) e
  | field e htarget =>
    refine .of_form e fun depth behind rest s hs hext span => ?_
    refine (Rule.walks_find hs).bind ?_
    rintro path r - ⟨rfl, epath⟩
    rw [(hspells.extend hext).exprPathTo_eq epath]
    refine (Rule.walks_allocType hs).mono fun _ _ hu e => found span (hext.trans hu.nodes) ?_
    rw [TypeForm.ofPath_append htarget.ne_nil]
    exact e

end TypeTerm

end CangjieSyntax
