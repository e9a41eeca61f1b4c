import CangjieSyntax.Proofs.Grammar.Walks
import CangjieSyntax.Proofs.TypeTerm.Layout

/-!
# Reading types as types

A written type that stands where a type must stand is read as it is, given that the types in it are.
Behind it comes a comma, a closing bracket or the end of the text, and none of them goes on with a
path or makes a function type of what is in parentheses.
-/

namespace CangjieSyntax

variable {env : Env} {r s : ParseState} {behind rest tail : List Tile} {α β ι : Type}

/-- The kinds of the tokens that can stand behind a type. -/
def Kind.behindType : List Kind :=
  [.endOfFile, .mark .comma, .mark .closeParen, .mark .greater]

/-- Where a type must stand and the nesting is so deep, the type that is written is read. -/
def TypeTerm.ReadBy (env : Env) (call : Call) (depth : Nat) (t : TypeTerm) : Prop :=
  ∀ (behind rest : List Tile) (s : ParseState), s.Awaits env behind (t.tiles ++ rest) →
    s.depth = depth → Tile.front (rest ++ behind) ∈ Kind.behindType →
    Walks env behind s (call .type) rest fun id u => t.IsAt u.nodes id

namespace Rule

/-! ## Lists -/

/-- A repeated step that reads one item in each round, with the comma behind it. What it has found
of the items read so far is told by `good`. -/
lemma walks_rounds {step : β → Rule (β ⊕ α)} {p : α → ParseState → Prop} {items : List ι}
    (write : ι → List Tile) (good : List ι → β → Nodes → Prop)
    (hopens : ∀ i ∈ items, ∃ head more, write i = head :: more ∧ head.Opens)
    (hnext : ∀ {done b s head more}, ∀ i ∈ items, head.Opens →
      Walked env behind (write i ++ .mark .comma :: head :: more) r s → good done b s.nodes →
      Walks env behind s (step b) (head :: more) fun next u =>
        ∃ b', next = .inl b' ∧ good (done ++ [i]) b' u.nodes)
    (hlast : ∀ {done b s}, ∀ i ∈ items, Walked env behind (write i ++ tail) r s →
      good done b s.nodes → items = done ++ [i] →
      ∀ rounds, Walks env behind s (loopUpTo step rounds b) rest p)
    {first : ι} {others done : List ι} {b : β} (hitems : items = done ++ first :: others)
    (h : Walked env behind (write first
      ++ (others.flatMap (fun i => .mark .comma :: write i) ++ tail)) r s)
    (hgood : good done b s.nodes) (rounds : Nat) :
    Walks env behind s (loopUpTo step rounds b) rest p := by
  induction others generalizing first done b s rounds with
  | nil => exact hlast first (by simp [hitems]) h hgood hitems rounds
  | cons second others ih =>
    obtain ⟨head, more, e, hhead⟩ := hopens second (by simp [hitems])
    have hitems' : items = done ++ [first] ++ second :: others := by
      rw [hitems, List.append_assoc]
      rfl
    have h' := h
    rw [List.flatMap_cons, List.cons_append, List.cons_append, List.append_assoc, e,
      List.cons_append] at h'
    refine .loop_next ((hnext first (by simp [hitems]) hhead h' hgood).mono ?_) rounds
    rintro _ t ht ⟨b', rfl, hgood'⟩
    refine ⟨b', rfl, ih hitems' ?_ hgood'⟩
    rw [e, List.cons_append]
    exact h.trans ht

end Rule

namespace TypeTerm

lemma tilesBehind_eq (others : List TypeTerm) :
    tilesBehind others = others.flatMap fun t => .mark .comma :: t.tiles := by
  induction others with
  | nil => rw [tilesBehind, List.flatMap_nil]
  | cons t others ih => rw [tilesBehind, ih, List.flatMap_cons, List.cons_append]

/-- The tiles of a type with its label. -/
def labelledTiles (p : Labelled TypeTerm) : List Tile :=
  labelTiles p.label ++ p.type.tiles

lemma paramTilesBehind_eq (others : List (Labelled TypeTerm)) :
    paramTilesBehind others = others.flatMap fun p => .mark .comma :: labelledTiles p := by
  induction others with
  | nil => rw [paramTilesBehind, List.flatMap_nil]
  | cons p others ih =>
    rw [paramTilesBehind, ih, List.flatMap_cons, labelledTiles, List.cons_append, List.append_assoc]

lemma paramTiles_cons (first : Labelled TypeTerm) (others : List (Labelled TypeTerm)) :
    paramTiles (first :: others)
      = labelledTiles first ++ others.flatMap fun p => .mark .comma :: labelledTiles p := by
  rw [paramTiles, paramTilesBehind_eq, labelledTiles, List.append_assoc]

lemma tilesBehind_eq_paramTilesBehind (others : List TypeTerm) :
    tilesBehind others = paramTilesBehind (others.map (Labelled.mk none)) := by
  induction others with
  | nil => rfl
  | cons t others ih =>
    rw [tilesBehind, List.map_cons, paramTilesBehind, ih]
    rfl

/-- The tiles of types in parentheses, perhaps with a comma behind the last one. -/
def parenTiles (ts : List TypeTerm) (comma : Bool) : List Tile :=
  .mark .openParen
    :: (paramTiles (ts.map (Labelled.mk none)) ++ (trailing comma ++ [.mark .closeParen]))

lemma tiles_parens (inner : TypeTerm) : (parens inner).tiles = parenTiles [inner] false := by
  rw [tiles, parenTiles, List.map_singleton, paramTiles, paramTilesBehind, List.append_nil]
  rfl

lemma tiles_tuple (first : TypeTerm) (others : List TypeTerm) :
    (tuple first others).tiles = parenTiles (first :: others) others.isEmpty := by
  rw [tiles, tilesBehind_eq_paramTilesBehind, parenTiles, List.map_cons, paramTiles,
    ← List.append_assoc]
  rfl

lemma tiles_unit : unit.tiles = parenTiles [] false := by
  rw [tiles, parenTiles, List.map_nil, paramTiles]
  rfl

/-- Behind no labels there are the types themselves. -/
lemma paramsAt_unlabelled {nodes : Nodes} {ts : List TypeTerm} {elements : List TypeElement}
    (h : ParamsAt nodes (ts.map (Labelled.mk none)) elements) :
    ∃ ids, elements = ids.map (TypeElement.mk none) ∧ AreAt nodes ts ids := by
  induction ts generalizing elements with
  | nil =>
    cases elements with
    | nil => exact ⟨[], rfl, trivial⟩
    | cons element elements => exact h.elim
  | cons t ts ih =>
    cases elements with
    | nil => exact h.elim
    | cons element elements =>
      obtain ⟨hlabel, ht, hts⟩ := h
      obtain ⟨ids, rfl, hids⟩ := ih hts
      obtain ⟨label, type⟩ := element
      obtain rfl : label = none := Option.map_eq_none_iff.1 hlabel
      exact ⟨type :: ids, rfl, ht, hids⟩

lemma areAt_singleton {nodes : Nodes} {t : TypeTerm} {ids : List TypeId}
    (h : AreAt nodes [t] ids) : ∃ id, ids = [id] ∧ t.IsAt nodes id := by
  cases ids with
  | nil => exact h.elim
  | cons id ids =>
    cases ids with
    | nil => exact ⟨id, rfl, h.1⟩
    | cons id' ids => exact h.2.elim

/-- Several types in parentheses make a tuple, and so does one with a comma behind it. -/
lemma tupleForm_tuple {nodes : Nodes} {first : TypeId} {others : List TypeTerm} {ids : List TypeId}
    (h : AreAt nodes others ids) :
    Rule.tupleForm ((first :: ids).map (TypeElement.mk none)) others.isEmpty
      = .tuple ((first :: ids).map (TypeElement.mk none)) := by
  cases others with
  | nil => cases ids <;> rfl
  | cons t others =>
    cases ids with
    | nil => exact h.elim
    | cons id ids => rfl

/-- A type of which the first token could be a label has no colon behind that token. -/
lemma noLabel {t : TypeTerm} (h : s.Awaits env behind (t.tiles ++ rest))
    (hrest : Tile.front (rest ++ behind) ∈ Kind.behindType) :
    (s.kind.isIdentifier && s.peek env.src == .mark .colon) = false := by
  have colon : ∀ k ∈ Kind.behindType, k ≠ .mark .colon := by decide
  rw [Bool.and_eq_false_iff, beq_eq_false_iff_ne, h.kind_eq]
  cases t with
  | path first members =>
    obtain ⟨x, args⟩ := first
    right
    rw [tiles, List.cons_append] at h
    rw [h.peek_eq, List.append_assoc, List.append_assoc]
    cases args with
    | cons first others =>
      rw [argTiles]
      rintro ⟨⟩
    | nil =>
      rw [argTiles, List.nil_append]
      cases members with
      | cons second members =>
        rw [memberTiles]
        rintro ⟨⟩
      | nil =>
        rw [memberTiles]
        exact colon _ hrest
  | optional inner =>
    left
    obtain ⟨below, -, e⟩ | ⟨-, e⟩ := tiles_optional inner
    · rw [e]
      rfl
    · rw [e]
      rfl
  | parens | tuple | unit | arrow => exact .inl rfl

end TypeTerm

namespace Rule

open TypeTerm

variable {call : Call}

/-- A type behind its label, where it has one. -/
lemma walks_label {p : Labelled TypeTerm} (h : s.Awaits env behind (labelledTiles p ++ rest))
    (hrest : Tile.front (rest ++ behind) ∈ Kind.behindType) :
    Walks env behind s label? (p.type.tiles ++ rest) fun label _ =>
      label.map Name.text = p.label.map Ident.text := by
  obtain ⟨label, t⟩ := p
  cases label with
  | some x => exact walks_labelled h
  | none =>
    refine (walks_noLabel h (noLabel h hrest)).mono ?_
    rintro _ _ _ ⟨rfl, -⟩
    rfl

/-- In front of what opens a type, a list of types goes on. -/
lemma goes_on {head : Tile} (h : s.Awaits env behind (head :: rest)) (hopens : head.Opens)
    {close : Kind} (hclose : close = .mark .closeParen ∨ close = .mark .greater) :
    (s.kind == close || s.kind == .endOfFile) = false := by
  have key : head.kind ≠ .mark .closeParen ∧ head.kind ≠ .mark .greater
      ∧ head.kind ≠ .endOfFile := by
    cases head with
    | name x =>
      rw [Tile.kind]
      split <;> exact ⟨by rintro ⟨⟩, by rintro ⟨⟩, by rintro ⟨⟩⟩
    | keyword k => exact hopens.elim
    | mark p =>
      have marks : ∀ p ∈ [Punctuation.openParen, .question, .questionQuestion],
          Kind.mark p ≠ .mark .closeParen ∧ Kind.mark p ≠ .mark .greater
            ∧ Kind.mark p ≠ .endOfFile := by
        decide
      exact marks p hopens
  rw [h.kind_eq, List.cons_append, Tile.front, Bool.or_eq_false_iff, beq_eq_false_iff_ne,
    beq_eq_false_iff_ne]
  obtain rfl | rfl := hclose
  · exact ⟨key.1, key.2.2⟩
  · exact ⟨key.2.1, key.2.2⟩

/-! ## Paths -/

/-- The types in a list of type arguments are found in order. -/
lemma walks_typeArguments {first : TypeTerm} {others : List TypeTerm}
    (h : s.Awaits env behind (argTiles (first :: others) ++ rest))
    (hread : ∀ t ∈ first :: others, t.ReadBy env call s.depth) :
    Walks env behind s (typeArguments call) rest fun ids u =>
      AreAt u.nodes (first :: others) ids := by
  rw [argTiles, tilesBehind_eq, List.cons_append, List.append_assoc, List.append_assoc] at h
  refine (walks_require h).bind fun _ r hr _ => ?_
  have elements : Walks env behind r (list (.mark .greater) (call .type)) (.mark .greater :: rest)
      fun ids u => List.Forall₂ (fun t id => t.IsAt u.nodes id) (first :: others) ids := by
    have found {done : List TypeTerm} {ids : List TypeId} {u v : ParseState} {more : List Tile}
        (hu : Walked env behind more u v)
        (h : List.Forall₂ (fun t id => t.IsAt u.nodes id) done ids)
        {t : TypeTerm} {id : TypeId} (hid : t.IsAt v.nodes id) :
        List.Forall₂ (fun t id => t.IsAt v.nodes id) (done ++ [t]) (ids ++ [id]) :=
      List.rel_append (h.imp fun _ _ h => h.extend hu.nodes.types) (.cons hid .nil)
    have opens {t : TypeTerm} {u : ParseState} {more : List Tile}
        (hu : u.Awaits env behind (t.tiles ++ more)) :
        (u.kind == .mark .greater || u.kind == .endOfFile) = false := by
      obtain ⟨⟨head, tail, e, hopens⟩, -⟩ := t.flows
      rw [e, List.cons_append] at hu
      exact goes_on hu hopens (.inr rfl)
    refine .loop fun rounds => walks_rounds tiles
      (fun done ids nodes => List.Forall₂ (fun t id => t.IsAt nodes id) done ids)
      (fun t _ => t.flows.1) ?_ ?_ (List.nil_append _).symm hr.awaits.walked .nil rounds
    · intro done ids u head more t ht hhead hu hdone
      refine .view ?_
      rw [opens hu.awaits, if_neg Bool.false_ne_true]
      have hread := hread t ht _ _ u hu.awaits (hu.depth.trans hr.depth)
        (by decide : Kind.mark .comma ∈ Kind.behindType)
      refine hread.bind fun id v hv hid => ?_
      refine (walks_optional hv.awaits).bind fun _ w hw e => ?_
      rw [e, if_pos rfl]
      exact .pure hw.awaits ⟨_, rfl, found (hv.trans hw) hdone (hid.extend hw.nodes.types)⟩
    · intro done ids u t ht hu hdone e
      refine .loop_done (.view ?_)
      rw [opens hu.awaits, if_neg Bool.false_ne_true]
      have hread := hread t ht _ _ u hu.awaits (hu.depth.trans hr.depth)
        (by decide : Kind.mark .greater ∈ Kind.behindType)
      refine hread.bind fun id v hv hid => ?_
      refine (walks_optional_of_ne (k := .mark .comma) hv.awaits (by rintro ⟨⟩)).bind ?_
      rintro _ _ hw ⟨rfl, rfl⟩
      rw [if_neg Bool.false_ne_true]
      refine .pure hw.awaits ⟨_, rfl, ?_⟩
      rw [e]
      exact found hv hdone hid
  refine elements.bind fun ids t ht hids => ?_
  refine (walks_require ht.awaits).bind fun _ u hu _ => ?_
  refine .pure hu.awaits (areAt_iff.2 ?_)
  exact hids.imp fun _ _ h => h.extend hu.nodes.types

/-- A segment of a path with its type arguments, behind which the path goes on or ends. -/
lemma walks_segmentsRound {x : Ident} {args : List TypeTerm} {found : List PathSegment}
    {q : List PathSegment ⊕ List PathSegment → ParseState → Prop} {more : List Tile}
    (h : s.Awaits env behind (.name x :: (argTiles args ++ more)))
    (hmore : Tile.front (more ++ behind) ≠ .mark .less)
    (hread : ∀ t ∈ args, t.ReadBy env call s.depth)
    (hk : ∀ name ids u, Walked env behind more s u → name.text = x.text → AreAt u.nodes args ids →
      Walks env behind u (do
        if ← view fun src s => s.kind == .mark .dot && (s.peek src).isIdentifier then
          advance
          return .inl (found ++ [⟨name, ids⟩])
        else return .inr (found ++ [⟨name, ids⟩])) rest q) :
    Walks env behind s (segmentsRound call false found) rest q := by
  refine (walks_identifier h).bind fun n r hr hn => .view ?_
  extract_lets go
  rw [if_neg Bool.false_ne_true]
  cases args with
  | nil =>
    have hr' := hr
    rw [argTiles, List.nil_append] at hr'
    rw [hr'.awaits.kind_eq, beq_eq_false_iff_ne.2 hmore, if_neg Bool.false_ne_true]
    exact hk n [] r hr' hn trivial
  | cons first others =>
    have hless : r.kind = .mark .less := by
      rw [hr.awaits.kind_eq, argTiles]
      rfl
    rw [hless, beq_self_eq_true, if_pos rfl]
    refine (walks_typeArguments hr.awaits (hr.depth ▸ hread)).bind fun ids u hu hids => ?_
    exact hk n ids u (hr.trans hu) hn hids

/-- The segments of a path are found behind those read before them. -/
lemma walks_segments {x : Ident} {args : List TypeTerm} {others : List (Segment TypeTerm)}
    {found : List PathSegment}
    (h : s.Awaits env behind (.name x :: (argTiles args ++ (memberTiles others ++ rest))))
    (hrest : Tile.front (rest ++ behind) ∈ Kind.behindType)
    (hread : ∀ y ∈ ⟨x, args⟩ :: others, ∀ t ∈ y.args, t.ReadBy env call s.depth) (rounds : Nat) :
    Walks env behind s (loopUpTo (segmentsRound call false) rounds found) rest fun segments u =>
      ∃ more, segments = found ++ more ∧ MembersAt u.nodes (⟨x, args⟩ :: others) more := by
  have ends : ∀ k ∈ Kind.behindType, k ≠ .mark .less ∧ k ≠ .mark .dot := by decide
  induction others generalizing x args found s rounds with
  | nil =>
    rw [memberTiles, List.nil_append] at h
    refine .loop_done (walks_segmentsRound h (ends _ hrest).1 (hread _ List.mem_cons_self) ?_)
      rounds
    intro n ids u hu hn hids
    refine .view ?_
    rw [hu.awaits.kind_eq, beq_eq_false_iff_ne.2 (ends _ hrest).2, Bool.false_and,
      if_neg Bool.false_ne_true]
    exact .pure hu.awaits ⟨_, rfl, _, rfl, hn, hids, trivial⟩
  | cons second others ih =>
    obtain ⟨y, args'⟩ := second
    obtain ⟨hargs, hothers⟩ := List.forall_mem_cons.1 hread
    rw [memberTiles, List.cons_append, List.cons_append, List.append_assoc] at h
    have round : Walks env behind s (segmentsRound call false found)
        (.name y :: (argTiles args' ++ (memberTiles others ++ rest))) fun next u =>
        ∃ n ids, next = .inl (found ++ [⟨n, ids⟩]) ∧ n.text = x.text ∧ AreAt u.nodes args ids := by
      refine walks_segmentsRound h (by rintro ⟨⟩) hargs fun n ids u hu hn hids => ?_
      have hdot : (u.kind == .mark .dot && (u.peek env.src).isIdentifier) = true := by
        have hkind : u.kind = .mark .dot := hu.awaits.kind_eq
        have hpeek : u.peek env.src = (Tile.name y).kind := hu.awaits.peek_eq
        rw [hkind, hpeek, isIdentifier_name]
        rfl
      refine .view ?_
      rw [hdot, if_pos rfl]
      exact (walks_advance hu.awaits).bind fun _ v hv _ =>
        .pure hv.awaits ⟨n, ids, rfl, hn, hids.extend hv.nodes.types⟩
    refine .loop_next (round.mono ?_) rounds
    rintro _ u hu ⟨n, ids, rfl, hn, hids⟩
    refine ⟨_, rfl, fun rounds => (ih hu.awaits ?_ rounds).mono ?_⟩
    · rwa [hu.depth]
    · rintro _ v hv ⟨more, rfl, hmore⟩
      exact ⟨⟨n, ids⟩ :: more, by rw [List.append_assoc, List.singleton_append], hn,
        hids.extend hv.nodes.types, hmore⟩

/-- A path is found where it is read. -/
lemma walks_namedType {first : Segment TypeTerm} {others : List (Segment TypeTerm)}
    (h : s.Awaits env behind ((path first others).tiles ++ rest))
    (hrest : Tile.front (rest ++ behind) ∈ Kind.behindType)
    (hread : ∀ y ∈ first :: others, ∀ t ∈ y.args, t.ReadBy env call s.depth) :
    Walks env behind s (namedType call false) rest fun id u =>
      (path first others).IsAt u.nodes id := by
  rw [tiles, List.cons_append, List.append_assoc] at h
  refine .view (Walks.bind (.loop (walks_segments h hrest hread)) ?_)
  rintro segments t ht ⟨_, rfl, hsegments⟩
  refine (walks_typeFrom ht.awaits).mono ?_
  rintro id u hu ⟨span, e⟩
  cases segments with
  | nil => exact hsegments.elim
  | cons segment segments =>
    obtain ⟨hname, hargs, hothers⟩ := hsegments
    exact ⟨_, _, _, span, e, hname, hargs.extend hu.nodes.types, hothers.extend hu.nodes.types⟩

/-! ## Parentheses -/

/-- A round that reads an element in parentheses. Without a comma behind it, it is the last one. -/
lemma walks_typeElementsRound {p : Labelled TypeTerm} {done : List (Labelled TypeTerm)}
    {b : List TypeElement × Bool} {comma : Bool} {more : List Tile}
    (h : s.Awaits env behind (labelledTiles p ++ (trailing comma ++ more)))
    (hmore : comma = false → Tile.front (more ++ behind) ∈ Kind.behindType
      ∧ Tile.front (more ++ behind) ≠ .mark .comma)
    (hread : p.type.ReadBy env call s.depth) (hdone : ParamsAt s.nodes done b.1) :
    Walks env behind s (typeElementsRound call b) more fun next u => ∃ found,
      next = (if comma then .inl (found, true) else .inr (found, false))
        ∧ ParamsAt u.nodes (done ++ [p]) found := by
  obtain ⟨elements, before⟩ := b
  have hbehind : Tile.front (trailing comma ++ more ++ behind) ∈ Kind.behindType := by
    cases comma with
    | true => exact (by decide : Kind.mark .comma ∈ Kind.behindType)
    | false => exact (hmore rfl).1
  have hopens : (s.kind == .mark .closeParen || s.kind == .endOfFile) = false := by
    obtain ⟨⟨head, tail, e, hopens⟩, -⟩ := flows_labelled p.type.flows p.label
    rw [labelledTiles, e, List.cons_append] at h
    exact goes_on h hopens (.inl rfl)
  refine .view ?_
  rw [hopens, if_neg Bool.false_ne_true]
  refine (walks_label h hbehind).bind fun label t ht hlabel => ?_
  refine (hread behind _ t ht.awaits ht.depth hbehind).bind fun type u hu htype => ?_
  have found : ParamsAt u.nodes (done ++ [p]) (elements ++ [⟨label, type⟩]) := by
    have hdone := hdone.extend (ht.trans hu).nodes.types
    rw [paramsAt_iff] at hdone ⊢
    exact List.rel_append hdone (.cons ⟨hlabel, htype⟩ .nil)
  cases comma with
  | true =>
    refine (walks_optional hu.awaits).bind fun _ v hv e => ?_
    rw [e, if_pos rfl]
    exact .pure hv.awaits ⟨_, rfl, found.extend hv.nodes.types⟩
  | false =>
    refine (walks_optional_of_ne hu.awaits (hmore rfl).2).bind ?_
    rintro _ v hv ⟨rfl, rfl⟩
    rw [if_neg Bool.false_ne_true]
    exact .pure hv.awaits ⟨_, rfl, found⟩

/-- The elements in parentheses are found in order, with the comma behind the last one. -/
lemma walks_typeElements {items : List (Labelled TypeTerm)} {comma : Bool}
    (h : s.Awaits env behind (paramTiles items ++ (trailing comma ++ .mark .closeParen :: rest)))
    (hcomma : items = [] → comma = false)
    (hread : ∀ p ∈ items, p.type.ReadBy env call s.depth) :
    Walks env behind s (typeElements call) (.mark .closeParen :: rest) fun found u =>
      found.2 = comma ∧ ParamsAt u.nodes items found.1 := by
  -- Behind the last element nothing is left to read.
  have ends {u : ParseState} (hu : u.Awaits env behind (.mark .closeParen :: rest)) :
      (u.kind == .mark .closeParen || u.kind == .endOfFile) = true := by
    rw [hu.kind_eq]
    rfl
  cases items with
  | nil =>
    rw [hcomma rfl, paramTiles] at h
    refine .loop (.loop_done (.view ?_))
    rw [ends h, if_pos rfl]
    exact .pure h ⟨_, rfl, (hcomma rfl).symm, trivial⟩
  | cons first others =>
    rw [paramTiles_cons, List.append_assoc] at h
    refine .loop fun rounds => walks_rounds labelledTiles
      (fun done (b : List TypeElement × Bool) nodes => ParamsAt nodes done b.1)
      (fun p _ => (flows_labelled p.type.flows p.label).1) ?_ ?_ (List.nil_append _).symm h.walked
      (by exact trivial) rounds
    · rintro done b u head more p hp - hu hdone
      have hu' : u.Awaits env behind (labelledTiles p ++ (trailing true ++ head :: more)) :=
        hu.awaits
      refine (walks_typeElementsRound hu' (by rintro ⟨⟩) (hu.depth ▸ hread p hp) hdone).mono ?_
      rintro _ v - ⟨found, rfl, hfound⟩
      exact ⟨_, rfl, hfound⟩
    · intro done b u p hp hu hdone e rounds
      have hclose : Tile.front (.mark .closeParen :: rest ++ behind) ∈ Kind.behindType
          ∧ Tile.front (.mark .closeParen :: rest ++ behind) ≠ .mark .comma := by
        rw [List.cons_append, Tile.front, Tile.kind]
        decide
      have round := walks_typeElementsRound hu.awaits (fun _ => hclose)
        (hu.depth ▸ hread p hp) hdone
      rw [← e] at round
      cases comma with
      | true =>
        refine .loop_next (round.mono ?_) rounds
        rintro _ v hv ⟨found, rfl, hfound⟩
        refine ⟨_, rfl, fun rounds => .loop_done ?_ rounds⟩
        refine .view ?_
        rw [ends hv.awaits, if_pos rfl]
        exact .pure hv.awaits ⟨_, rfl, rfl, hfound⟩
      | false =>
        refine .loop_done (round.mono ?_) rounds
        rintro _ v - ⟨found, rfl, hfound⟩
        exact ⟨_, rfl, rfl, hfound⟩

/-- What is in parentheses without labels and without an arrow behind it. -/
lemma walks_parens {ts : List TypeTerm} {comma : Bool}
    (h : s.Awaits env behind (parenTiles ts comma ++ rest))
    (hrest : Tile.front (rest ++ behind) ∈ Kind.behindType) (hcomma : ts = [] → comma = false)
    (hread : ∀ t ∈ ts, t.ReadBy env call s.depth) :
    Walks env behind s (parenType call) rest fun id u => ∃ ids span,
      u.nodes.types.get? id = some ⟨tupleForm (ids.map (TypeElement.mk none)) comma, span⟩
        ∧ AreAt u.nodes ts ids := by
  have noArrow : ∀ k ∈ Kind.behindType, k ≠ .mark .thinArrow := by decide
  have hitems : ∀ p ∈ ts.map (Labelled.mk none), p.type.ReadBy env call s.depth := by
    simpa using hread
  rw [parenTiles, List.cons_append, List.append_assoc, List.append_assoc] at h
  refine .view ((walks_advance h).bind fun _ r hr _ => ?_)
  rw [← hr.depth] at hitems
  refine (walks_typeElements hr.awaits (fun e => hcomma (List.map_eq_nil_iff.1 e)) hitems).bind ?_
  rintro ⟨elements, trailingComma⟩ t ht ⟨rfl, helements⟩
  obtain ⟨ids, rfl, hids⟩ := paramsAt_unlabelled helements
  refine (walks_require ht.awaits).bind fun _ u hu _ => ?_
  refine (walks_optional_of_ne hu.awaits (noArrow _ hrest)).bind ?_
  rintro _ v hv ⟨rfl, rfl⟩
  have hlabels : ((ids.map (TypeElement.mk none)).any fun e => e.label.isSome) = false := by
    simp [List.any_map, Function.comp_def]
  rw [if_neg Bool.false_ne_true]
  refine .view ?_
  rw [hlabels, if_neg Bool.false_ne_true]
  refine (walks_allocType hv.awaits).mono fun id w hw e => ?_
  exact ⟨ids, _, e, hids.extend (hu.nodes.trans hw.nodes).types⟩

/-- The parameters of a function type with its result. -/
lemma walks_arrow {params : List (Labelled TypeTerm)} {result : TypeTerm}
    (h : s.Awaits env behind ((arrow params result).tiles ++ rest))
    (hrest : Tile.front (rest ++ behind) ∈ Kind.behindType)
    (hparams : ∀ p ∈ params, p.type.ReadBy env call s.depth)
    (hresult : result.ReadBy env call s.depth) :
    Walks env behind s (parenType call) rest fun id u => (arrow params result).IsAt u.nodes id := by
  rw [tiles, List.cons_append, List.append_assoc] at h
  refine .view ((walks_advance h).bind fun _ r hr _ => ?_)
  have elements : Walks env behind r (typeElements call) _ _ :=
    walks_typeElements hr.awaits (fun _ => rfl) (hr.depth ▸ hparams)
  refine elements.bind ?_
  rintro ⟨elements, trailingComma⟩ t ht ⟨rfl, helements⟩
  refine (walks_require ht.awaits).bind fun _ u hu _ => ?_
  refine (walks_optional hu.awaits).bind fun _ v hv e => ?_
  rw [e, if_pos rfl]
  have hdepth : v.depth = s.depth := (((hr.trans ht).trans hu).trans hv).depth
  refine (hresult behind rest v hv.awaits hdepth hrest).bind fun id w hw hid => ?_
  refine (walks_typeFrom hw.awaits).mono ?_
  rintro _ z hz ⟨span, e⟩
  have hnodes := ((hu.trans hv).trans (hw.trans hz)).nodes
  exact ⟨elements, id, span, e, helements.extend hnodes.types, hid.extend hz.nodes.types⟩

/-- What opens with a parenthesis is read by what is inside. -/
lemma walks_plainType {p : TypeId → ParseState → Prop} (hkind : s.kind = .mark .openParen)
    (h : Walks env behind s (parenType call) rest p) :
    Walks env behind s (plainType call) rest p := by
  refine .view (.view ?_)
  rw [hkind]
  exact h

/-- An optional type, of which the mark may be one token with the mark of the type inside. -/
lemma walks_optionalType {inner : TypeTerm}
    (h : s.Awaits env behind ((TypeTerm.optional inner).tiles ++ rest))
    (hrest : Tile.front (rest ++ behind) ∈ Kind.behindType)
    (hinner : inner.ReadBy env call s.depth)
    (hbelow : ∀ below, inner = .optional below → below.ReadBy env call s.depth) :
    Walks env behind s (plainType call) rest fun id u =>
      (TypeTerm.optional inner).IsAt u.nodes id := by
  obtain ⟨below, rfl, e⟩ | ⟨-, e⟩ := tiles_optional inner
  · rw [e] at h
    have hkind : s.kind = .mark .questionQuestion := h.kind_eq
    refine .view (.view ?_)
    rw [hkind]
    refine (walks_advance h).bind fun _ r hr _ => ?_
    have hread := hbelow below rfl behind rest r hr.awaits hr.depth hrest
    refine hread.bind fun id t ht hid => .view ?_
    refine (walks_allocType ht.awaits).bind fun once u hu honce => ?_
    refine (walks_allocType hu.awaits).mono fun twice v hv htwice => ?_
    exact ⟨once, _, htwice, id, _, hv.nodes.types.get?_eq honce,
      hid.extend (hu.nodes.trans hv.nodes).types⟩
  · rw [e] at h
    have hkind : s.kind = .mark .question := h.kind_eq
    refine .view (.view ?_)
    rw [hkind]
    refine (walks_advance h).bind fun _ r hr _ => ?_
    refine (hinner behind rest r hr.awaits hr.depth hrest).bind fun id t ht hid => ?_
    refine (walks_typeFrom ht.awaits).mono ?_
    rintro _ u hu ⟨span, hoptional⟩
    exact ⟨id, span, hoptional, hid.extend hu.nodes.types⟩

end Rule

/-! ## Types -/

namespace TypeTerm

variable {depth nesting : Nat}

lemma levels_pos (t : TypeTerm) : 0 < t.levels := by
  cases t <;> exact Nat.succ_pos _

lemma levels_le_levelsOf {ts : List TypeTerm} : ∀ t ∈ ts, t.levels ≤ levelsOf ts := by
  induction ts with
  | nil => exact fun _ h => nomatch h
  | cons t ts ih =>
    exact List.forall_mem_cons.2 ⟨le_max_left _ _, fun u hu => (ih u hu).trans (le_max_right _ _)⟩

lemma levels_le_levelsOfMembers {members : List (Segment TypeTerm)} :
    ∀ x ∈ members, ∀ t ∈ x.args, t.levels ≤ levelsOfMembers members := by
  induction members with
  | nil => exact fun _ h => nomatch h
  | cons x members ih =>
    refine List.forall_mem_cons.2 ⟨fun t ht => ?_, fun y hy t ht => ?_⟩
    · exact (levels_le_levelsOf t ht).trans (le_max_left _ _)
    · exact (ih y hy t ht).trans (le_max_right _ _)

lemma levels_le_levelsOfParams {params : List (Labelled TypeTerm)} :
    ∀ p ∈ params, p.type.levels ≤ levelsOfParams params := by
  induction params with
  | nil => exact fun _ h => nomatch h
  | cons p params ih =>
    exact List.forall_mem_cons.2 ⟨le_max_left _ _, fun q hq => (ih q hq).trans (le_max_right _ _)⟩

/-- One level deeper a type is read by its form. -/
lemma ReadBy.of_plainType {t : TypeTerm} (hdepth : depth < env.settings.maxDepth)
    (h : ∀ (nesting : Nat) (behind rest : List Tile) (s : ParseState),
      s.Awaits env behind (t.tiles ++ rest) → s.depth = depth + 1 →
      Tile.front (rest ++ behind) ∈ Kind.behindType →
      Walks env behind s (Rule.plainType (Rule.callTo nesting)) rest fun id u =>
        t.IsAt u.nodes id) :
    t.ReadBy env (Rule.callTo nesting) depth := by
  intro behind rest s hs e hrest
  cases nesting with
  | zero => exact .endless
  | succ nesting =>
    refine Rule.walks_nested (fun id nodes => t.IsAt nodes id) hs (e ▸ hdepth) ?_
    intro u hu hdepth _
    exact h nesting behind rest u hu (by rw [hdepth, e]) hrest

/-- Where a type must stand, the type that is written is read, if the nesting allows for it. -/
theorem readBy_callTo (t : TypeTerm) (hdepth : depth + t.levels ≤ env.settings.maxDepth) :
    t.ReadBy env (Rule.callTo nesting) depth := by
  induction t using TypeTerm.induct generalizing depth nesting with
  | path first others ih =>
    rw [levels] at hdepth
    refine .of_plainType (by omega) fun nesting behind rest s hs e hrest => ?_
    have hkind : s.kind = (Tile.name first.name).kind := hs.kind_eq
    have hread : ∀ y ∈ first :: others, ∀ t ∈ y.args,
        t.ReadBy env (Rule.callTo nesting) s.depth := by
      intro y hy t ht
      have hlevels := levels_le_levelsOfMembers y hy t ht
      rw [levelsOfMembers] at hlevels
      exact ih y hy t ht (by omega)
    have named := Rule.walks_namedType hs hrest hread
    refine .view (.view ?_)
    rw [hkind, Tile.kind]
    cases first.name.raw with
    | true => exact named
    | false => exact named
  | optional inner ih hbelow =>
    rw [levels] at hdepth
    refine .of_plainType (by omega) fun nesting behind rest s hs e hrest => ?_
    refine Rule.walks_optionalType hs hrest (ih (by omega)) ?_
    rintro below rfl
    rw [levels] at hdepth
    exact hbelow below rfl (by omega)
  | parens inner ih =>
    rw [levels] at hdepth
    refine .of_plainType (by omega) fun nesting behind rest s hs e hrest => ?_
    rw [tiles_parens] at hs
    have hread : ∀ t ∈ [inner], t.ReadBy env (Rule.callTo nesting) s.depth :=
      List.forall_mem_singleton.2 (ih (by omega))
    refine Rule.walks_plainType hs.kind_eq ?_
    refine (Rule.walks_parens hs hrest (fun _ => rfl) hread).mono ?_
    rintro id u - ⟨ids, span, hid, hids⟩
    obtain ⟨inner', rfl, hinner⟩ := areAt_singleton hids
    exact ⟨inner', span, hid, hinner⟩
  | tuple first others ih =>
    rw [levels] at hdepth
    refine .of_plainType (by omega) fun nesting behind rest s hs e hrest => ?_
    rw [tiles_tuple] at hs
    have hread : ∀ t ∈ first :: others, t.ReadBy env (Rule.callTo nesting) s.depth := by
      intro t ht
      have hlevels := levels_le_levelsOf t ht
      rw [levelsOf] at hlevels
      exact ih t ht (by omega)
    refine Rule.walks_plainType hs.kind_eq ?_
    refine (Rule.walks_parens hs hrest (fun e => absurd e (List.cons_ne_nil _ _)) hread).mono ?_
    rintro id u - ⟨ids, span, hid, hids⟩
    cases ids with
    | nil => exact hids.elim
    | cons first' others' =>
      obtain ⟨hfirst, hothers⟩ := hids
      rw [tupleForm_tuple hothers] at hid
      exact ⟨first', others', span, hid, hfirst, hothers⟩
  | unit =>
    rw [levels] at hdepth
    refine .of_plainType (by omega) fun nesting behind rest s hs e hrest => ?_
    rw [tiles_unit] at hs
    refine Rule.walks_plainType hs.kind_eq ?_
    refine (Rule.walks_parens hs hrest (fun _ => rfl) (by rintro _ ⟨⟩)).mono ?_
    rintro id u - ⟨ids, span, hid, hids⟩
    cases ids with
    | nil => exact ⟨span, hid⟩
    | cons id ids => exact hids.elim
  | arrow params result ihparams ihresult =>
    rw [levels] at hdepth
    refine .of_plainType (by omega) fun nesting behind rest s hs e hrest => ?_
    refine Rule.walks_plainType hs.kind_eq (Rule.walks_arrow hs hrest (fun p hp => ?_) ?_)
    · have := levels_le_levelsOfParams p hp
      exact ihparams p hp (by omega)
    · exact ihresult (by omega)

end TypeTerm

end CangjieSyntax
