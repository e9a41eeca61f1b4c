import CangjieSyntax.Proofs.TypeTerm.Basic

/-!
# The layout of written types

A type starts with a name, a question mark or a parenthesis, and what follows it is a mark that does
not go on with it. So its tiles may touch, and with any blanks between them they are a row.
-/

namespace CangjieSyntax

namespace Tile

/-- The tiles that a type can start with. -/
def Opens : Tile → Prop
  | name _ => True
  | keyword _ => False
  | mark p => p ∈ [.openParen, .question, .questionQuestion]

/-- The marks that can stand behind a part of a type. -/
def followers : List Punctuation :=
  [.closeParen, .comma, .dot, .less, .greater, .thinArrow, .colon]

/-- Some tiles are none, or start with a mark that can stand behind a part of a type. -/
def Follow (tiles : List Tile) : Prop :=
  ∀ u ∈ tiles.head?, ∃ p ∈ followers, u = mark p

/-- Some tiles may stand in front of all that can follow a part of a type. -/
structure Flow (tiles : List Tile) : Prop where
  plain : ∀ u ∈ tiles, u.Plain
  touch : ∀ rest : List Tile, rest.IsChain Touches → Follow rest → (tiles ++ rest).IsChain Touches

variable {t : Tile} {tiles rest : List Tile} {p : Punctuation} {x : Ident}

lemma opens_mark (h : p ∈ [.openParen, .question, .questionQuestion]) : (mark p).Opens :=
  h

lemma followers_subset : ∀ p ∈ followers, p ∈ marks := by
  decide

/-- A mark that nothing goes on with. -/
lemma touches_of_extensions (h : extensions p = []) (t : Tile) : Touches (mark p) t := by
  intro c _ hmem
  rw [h] at hmem
  exact nomatch hmem

lemma Follow.append (h : Follow tiles) (hrest : Follow rest) : Follow (tiles ++ rest) := by
  cases tiles with
  | nil => exact hrest
  | cons t tiles => exact h

namespace Flow

lemma nil : Flow [] :=
  ⟨(fun _ h => nomatch h), fun _ hrest _ => hrest⟩

/-- A mark behind which anything may stand. -/
lemma of_extensions (hp : p ∈ marks) (h : extensions p = []) : Flow [mark p] := by
  refine ⟨List.forall_mem_singleton.2 hp, fun rest hrest _ => ?_⟩
  exact hrest.cons fun u _ => touches_of_extensions h u

lemma name (x : Ident) : Flow [Tile.name x] := by
  refine ⟨List.forall_mem_singleton.2 trivial, fun rest hrest hfollow => ?_⟩
  refine hrest.cons fun u hu => ?_
  obtain ⟨p, hp, rfl⟩ := hfollow u hu
  exact name_touches (followers_subset p hp)

/-- Tiles behind each other. -/
lemma append (h : Flow tiles) (hrest : Flow rest) (hfollow : Follow rest) :
    Flow (tiles ++ rest) := by
  refine ⟨List.forall_mem_append.2 ⟨h.plain, hrest.plain⟩, fun behind hbehind hfollow' => ?_⟩
  rw [List.append_assoc]
  exact h.touch _ (hrest.touch _ hbehind hfollow') (hfollow.append hfollow')

/-- A mark in front of tiles that may touch it. -/
lemma cons_mark (hp : p ∈ marks) (h : Flow tiles)
    (htouch : ∀ rest, Follow rest → ∀ u ∈ (tiles ++ rest).head?, Touches (mark p) u) :
    Flow (mark p :: tiles) := by
  refine ⟨List.forall_mem_cons.2 ⟨hp, h.plain⟩, fun rest hrest hfollow => ?_⟩
  exact (h.touch rest hrest hfollow).cons (htouch rest hfollow)

lemma cons_of_extensions (hp : p ∈ marks) (hextensions : extensions p = []) (h : Flow tiles) :
    Flow (mark p :: tiles) :=
  h.cons_mark hp fun _ _ u _ => touches_of_extensions hextensions u

end Flow

/-- A `<` in front of a type. -/
lemma less_touches (h : t.Opens) : Touches (mark .less) t := by
  cases t with
  | name x => exact touches_name (by decide)
  | keyword k => exact h.elim
  | mark p =>
    have key : ∀ p ∈ [Punctuation.openParen, .question, .questionQuestion],
        p.text.toList.head?.all fun c => c ∉ extensions .less := by
      decide
    intro c hc
    have hextends : c ∉ extensions .less :=
      of_decide_eq_true ((Option.all_eq_true ..).1 (key p h) c hc)
    exact hextends

end Tile

namespace TypeTerm

open Tile

/-- The tiles of a type start with one that opens a type, and may stand in front of all that can
follow it. -/
def Flows (t : TypeTerm) : Prop :=
  (∃ head tail, t.tiles = head :: tail ∧ head.Opens) ∧ Flow t.tiles

lemma follow_tilesBehind (others : List TypeTerm) : Follow (tilesBehind others) := by
  cases others with
  | nil => exact fun _ h => nomatch h
  | cons t others =>
    rw [tilesBehind]
    rintro _ ⟨⟩
    exact ⟨_, by decide, rfl⟩

lemma flow_close {p : Punctuation} (hp : p ∈ [Punctuation.closeParen, .greater]) :
    Flow [mark p] ∧ Follow [mark p] := by
  have key : ∀ p ∈ [Punctuation.closeParen, .greater],
      p ∈ Tile.marks ∧ extensions p = [] ∧ p ∈ followers := by
    decide
  obtain ⟨hmark, hextensions, hfollow⟩ := key p hp
  refine ⟨.of_extensions hmark hextensions, ?_⟩
  rintro _ ⟨⟩
  exact ⟨p, hfollow, rfl⟩

lemma flow_tilesBehind {others : List TypeTerm} (h : ∀ t ∈ others, t.Flows) :
    Flow (tilesBehind others) := by
  induction others with
  | nil =>
    rw [tilesBehind]
    exact .nil
  | cons t others ih =>
    obtain ⟨ht, hothers⟩ := List.forall_mem_cons.1 h
    rw [tilesBehind]
    refine .cons_of_extensions (by decide) rfl ?_
    exact ht.2.append (ih hothers) (follow_tilesBehind others)

lemma flow_argTiles {args : List TypeTerm} (h : ∀ t ∈ args, t.Flows) :
    Flow (argTiles args) ∧ Follow (argTiles args) := by
  cases args with
  | nil =>
    rw [argTiles]
    exact ⟨.nil, fun _ h => nomatch h⟩
  | cons first others =>
    obtain ⟨⟨⟨head, tail, e, hopens⟩, hfirst⟩, hothers⟩ := List.forall_mem_cons.1 h
    obtain ⟨hclose, hfollow⟩ := flow_close (p := .greater) (by decide)
    rw [argTiles]
    constructor
    · refine .cons_mark (by decide) ?_ fun rest _ u hu => ?_
      · refine hfirst.append ?_ ((follow_tilesBehind others).append hfollow)
        exact (flow_tilesBehind hothers).append hclose hfollow
      · rw [e] at hu
        obtain rfl : head = u := Option.some.inj hu
        exact less_touches hopens
    · rintro _ ⟨⟩
      exact ⟨_, by decide, rfl⟩

lemma flow_memberTiles {members : List (Segment TypeTerm)}
    (h : ∀ s ∈ members, ∀ t ∈ s.args, t.Flows) :
    Flow (memberTiles members) ∧ Follow (memberTiles members) := by
  induction members with
  | nil =>
    rw [memberTiles]
    exact ⟨.nil, fun _ h => nomatch h⟩
  | cons s members ih =>
    obtain ⟨hargs, hmembers⟩ := List.forall_mem_cons.1 h
    obtain ⟨hargs, hfollow⟩ := flow_argTiles hargs
    obtain ⟨hmembers, hfollow'⟩ := ih hmembers
    rw [memberTiles]
    constructor
    · refine .cons_mark (by decide) ?_ fun rest _ u hu => ?_
      · refine (Flow.name s.name).append ?_ (hfollow.append hfollow')
        exact hargs.append hmembers hfollow'
      · cases hu
        exact touches_name (by decide)
    · rintro _ ⟨⟩
      exact ⟨_, by decide, rfl⟩

/-- A type behind its label. -/
lemma flows_labelled {t : TypeTerm} (h : t.Flows) (label : Option Ident) :
    (∃ head tail, labelTiles label ++ t.tiles = head :: tail ∧ head.Opens)
      ∧ Flow (labelTiles label ++ t.tiles) := by
  cases label with
  | none => exact h
  | some x =>
    refine ⟨⟨_, _, rfl, trivial⟩, (Flow.name x).append (.cons_of_extensions (by decide) rfl h.2) ?_⟩
    rintro _ ⟨⟩
    exact ⟨_, by decide, rfl⟩

lemma flow_paramTiles {params : List (Labelled TypeTerm)} (h : ∀ p ∈ params, p.type.Flows) :
    Flow (paramTiles params) ∧ Flow (paramTilesBehind params)
      ∧ Follow (paramTilesBehind params) := by
  induction params with
  | nil =>
    rw [paramTiles, paramTilesBehind]
    exact ⟨.nil, .nil, fun _ h => nomatch h⟩
  | cons p params ih =>
    obtain ⟨label, t⟩ := p
    obtain ⟨ht, hparams⟩ := List.forall_mem_cons.1 h
    obtain ⟨-, hbehind, hfollow⟩ := ih hparams
    have hflow : Flow (labelTiles label ++ (t.tiles ++ paramTilesBehind params)) := by
      rw [← List.append_assoc]
      exact (flows_labelled ht label).2.append hbehind hfollow
    rw [paramTiles, paramTilesBehind]
    refine ⟨hflow, .cons_of_extensions (by decide) rfl hflow, ?_⟩
    rintro _ ⟨⟩
    exact ⟨_, by decide, rfl⟩

theorem flows (t : TypeTerm) : t.Flows := by
  obtain ⟨hclose, hfollow⟩ := flow_close (p := .closeParen) (by decide)
  induction t using TypeTerm.induct with
  | path first members ih =>
    obtain ⟨hargs, hmembers⟩ := List.forall_mem_cons.1 ih
    obtain ⟨hargs, hfollow⟩ := flow_argTiles hargs
    obtain ⟨hmembers, hfollow'⟩ := flow_memberTiles hmembers
    refine ⟨⟨_, _, rfl, trivial⟩, ?_⟩
    refine (Flow.name first.name).append ?_ (hfollow.append hfollow')
    exact hargs.append hmembers hfollow'
  | optional inner ih hbelow =>
    obtain ⟨below, rfl, e⟩ | ⟨hno, e⟩ := tiles_optional inner
    · rw [Flows, e]
      exact ⟨⟨_, _, rfl, opens_mark (by decide)⟩,
        .cons_of_extensions (by decide) rfl (hbelow below rfl).2⟩
    · rw [Flows, e]
      refine ⟨⟨_, _, rfl, opens_mark (by decide)⟩, ?_⟩
      refine .cons_mark (by decide) ih.2 fun rest _ u hu => ?_
      -- What is not optional does not start with a question mark.
      have hparen : Touches (mark .question) (mark .openParen) := by
        rintro _ ⟨⟩
        exact (by decide : '(' ∉ extensions .question)
      cases inner with
      | optional below => exact absurd rfl (hno below)
      | path first members =>
        cases hu
        exact touches_name (by decide)
      | parens | tuple | unit | arrow =>
        cases hu
        exact hparen
  | parens inner ih =>
    refine ⟨⟨_, _, rfl, opens_mark (by decide)⟩, .cons_of_extensions (by decide) rfl ?_⟩
    exact ih.2.append hclose hfollow
  | tuple first others ih =>
    obtain ⟨hfirst, hothers⟩ := List.forall_mem_cons.1 ih
    have hcomma : Flow (trailing others.isEmpty) ∧ Follow (trailing others.isEmpty) := by
      cases others.isEmpty with
      | false => exact ⟨.nil, fun _ h => nomatch h⟩
      | true =>
        refine ⟨.of_extensions (by decide) rfl, ?_⟩
        rintro _ ⟨⟩
        exact ⟨_, by decide, rfl⟩
    refine ⟨⟨_, _, rfl, opens_mark (by decide)⟩, .cons_of_extensions (by decide) rfl ?_⟩
    refine hfirst.2.append ?_ ((follow_tilesBehind others).append (hcomma.2.append hfollow))
    refine (flow_tilesBehind hothers).append ?_ (hcomma.2.append hfollow)
    exact hcomma.1.append hclose hfollow
  | unit => exact ⟨⟨_, _, rfl, opens_mark (by decide)⟩, .cons_of_extensions (by decide) rfl hclose⟩
  | arrow params result ihparams ihresult =>
    refine ⟨⟨_, _, rfl, opens_mark (by decide)⟩, .cons_of_extensions (by decide) rfl ?_⟩
    refine (flow_paramTiles ihparams).1.append ?_ ?_
    · refine .cons_of_extensions (by decide) rfl ?_
      exact .cons_of_extensions (by decide) rfl ihresult.2
    · rintro _ ⟨⟩
      exact ⟨_, by decide, rfl⟩

/-- No type starts with a `<`. -/
lemma head?_ne_less (t : TypeTerm) (rest : List Tile) :
    (t.tiles ++ rest).head? ≠ some (.mark .less) := by
  obtain ⟨⟨head, tail, e, hopens⟩, -⟩ := t.flows
  rw [e]
  rintro ⟨⟩
  exact absurd hopens (by decide : .less ∉ [Punctuation.openParen, .question, .questionQuestion])

/-- However a type is laid out, it makes a row longer in front, if what follows it there may. -/
lemma row_append (t : TypeTerm) {row : List (List Char × Tile)} {rest : List Tile} {cs : List Char}
    (hrow : row.map Prod.snd = t.tiles) (hspaced : Spaced row) (hfollow : Follow rest)
    (h : Row rest cs) : Row (t.tiles ++ rest) (laidOut row ++ cs) := by
  obtain ⟨-, hplain, htouch⟩ := t.flows
  rw [← hrow] at hplain htouch ⊢
  have hnext : (rest.take 1).IsChain Touches ∧ Follow (rest.take 1) := by
    cases rest with
    | nil => exact ⟨.nil, fun _ h => nomatch h⟩
    | cons u rest => exact ⟨.singleton u, hfollow⟩
  exact h.laidOut_append hspaced (fun p hp => hplain p.2 (List.mem_map_of_mem hp))
    (htouch _ hnext.1 hnext.2)

/-- However a type is laid out, it is a row of its tiles. -/
theorem row_tiles (t : TypeTerm) {row : List (List Char × Tile)} (hrow : row.map Prod.snd = t.tiles)
    (hspaced : Spaced row) : Row t.tiles (laidOut row) := by
  have h : Row (t.tiles ++ []) (laidOut row ++ []) :=
    t.row_append hrow hspaced (fun _ h => nomatch h) (.nil fun _ h => nomatch h)
  rwa [List.append_nil, List.append_nil] at h

end TypeTerm

end CangjieSyntax
