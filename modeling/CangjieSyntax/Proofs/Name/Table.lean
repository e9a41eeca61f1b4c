import Mathlib.Data.List.Dedup
import Mathlib.Tactic.Lemma
import CangjieSyntax.Name.Table

/-!
# The strings of a name table

A table holds each of its strings once, and a string that was put in keeps its number whatever is
put in behind it. So numbers can be compared in the place of strings, and how large a table is does not
depend on the order in which its strings came.
-/

namespace CangjieSyntax.NameTable

instance : Membership String NameTable := ⟨fun t s => s ∈ t.entries⟩

/-- No string is there twice. -/
def Distinct (t : NameTable) : Prop :=
  t.entries.toList.Nodup

variable {t u : NameTable} {s s' : String} {symbol : Symbol}

lemma mem_def : s ∈ t ↔ s ∈ t.entries := Iff.rfl

lemma not_mem_empty : s ∉ empty := by
  simp [mem_def, empty]

/-! ## Looking up -/

lemma find?_eq_none_iff : t.find? s = none ↔ s ∉ t := by
  rw [find?, Option.map_eq_none_iff, Array.findIdx?_eq_none_iff, mem_def]
  constructor
  · intro h hs
    simpa using h s hs
  · rintro h x hx
    rw [beq_eq_false_iff_ne]
    rintro rfl
    exact h hx

/-- The number of a string leads back to it. -/
lemma resolve?_of_find? (h : t.find? s = some symbol) : t.resolve? symbol = some s := by
  obtain ⟨i, hi, rfl⟩ := Option.map_eq_some_iff.1 h
  obtain ⟨hlt, hs, -⟩ := Array.findIdx?_eq_some_iff_getElem.1 hi
  rw [resolve?, Array.getElem?_eq_getElem hlt, beq_iff_eq.1 hs]

/-- Two strings with one number are the same string. -/
lemma find?_inj (h : t.find? s = some symbol) (h' : t.find? s' = some symbol) : s = s' :=
  Option.some.inj ((resolve?_of_find? h).symm.trans (resolve?_of_find? h'))

/-! ## Putting a string in -/

lemma insert_of_mem (h : s ∈ t) : t.insert s = t := by
  obtain ⟨symbol, hsymbol⟩ := Option.ne_none_iff_exists'.1 fun e => find?_eq_none_iff.1 e h
  rw [insert, intern, hsymbol]

lemma insert_of_not_mem (h : s ∉ t) : t.insert s = ⟨t.entries.push s⟩ := by
  rw [insert, intern, find?_eq_none_iff.2 h]

lemma mem_insert : s' ∈ t.insert s ↔ s' ∈ t ∨ s' = s := by
  by_cases h : s ∈ t
  · rw [insert_of_mem h]
    exact ⟨.inl, fun h' => h'.elim id fun e => e ▸ h⟩
  · rw [insert_of_not_mem h, mem_def, Array.mem_push]
    rfl

lemma distinct_empty : empty.Distinct :=
  List.nodup_nil

lemma Distinct.insert (h : t.Distinct) : (t.insert s).Distinct := by
  by_cases hs : s ∈ t
  · rwa [insert_of_mem hs]
  · rw [insert_of_not_mem hs, Distinct, Array.toList_push, List.nodup_append]
    refine ⟨h, List.nodup_singleton s, fun x hx y hy => ?_⟩
    rw [List.mem_singleton.1 hy]
    rintro rfl
    exact hs (Array.mem_toList_iff.1 hx)

lemma find?_insert_self : (t.insert s).find? s = some (t.intern s).1 := by
  cases h : t.find? s with
  | some symbol =>
    rw [insert_of_mem (by_contra fun hs => by simp [find?_eq_none_iff.2 hs] at h), intern, h]
  | none =>
    have hs := find?_eq_none_iff.1 h
    have front := Option.map_eq_none_iff.1 h
    rw [insert_of_not_mem hs, intern, h, find?, Array.findIdx?_push, front]
    simp

/-- A string keeps its number. -/
lemma find?_insert_of_some (h : t.find? s = some symbol) :
    (t.insert s').find? s = some symbol := by
  by_cases hs : s' ∈ t
  · rwa [insert_of_mem hs]
  · obtain ⟨i, hi, rfl⟩ := Option.map_eq_some_iff.1 h
    rw [insert_of_not_mem hs, find?, Array.findIdx?_push, hi]
    rfl

/-! ## Putting several strings in -/

/-- The table with some strings put in one after the other. -/
def insertAll (t : NameTable) (strings : List String) : NameTable :=
  strings.foldl insert t

lemma find?_insertAll_of_some (strings : List String) (h : t.find? s = some symbol) :
    (t.insertAll strings).find? s = some symbol := by
  induction strings generalizing t with
  | nil => exact h
  | cons x strings ih => exact ih (find?_insert_of_some h)

lemma mem_insertAll {strings : List String} : s ∈ t.insertAll strings ↔ s ∈ t ∨ s ∈ strings := by
  induction strings generalizing t with
  | nil => simp [insertAll]
  | cons x strings ih =>
    rw [insertAll, List.foldl_cons, ← insertAll, ih, mem_insert, List.mem_cons, or_assoc]

lemma Distinct.insertAll (h : t.Distinct) (strings : List String) :
    (t.insertAll strings).Distinct := by
  induction strings generalizing t with
  | nil => exact h
  | cons x strings ih => exact ih h.insert

/-- A string that was put in is told from others by its number, also in a larger table, and can be
found by it. -/
theorem symbol_intern_insertAll (t : NameTable) (owner word : String) (others : List String) :
    let known := (t.insert owner).insertAll others
    ((known.intern word).1 = (t.intern owner).1 ↔ word = owner)
      ∧ (known.insert word).resolve? (t.intern owner).1 = some owner := by
  intro known
  have howner : (known.insert word).find? owner = some (t.intern owner).1 :=
    find?_insert_of_some (find?_insertAll_of_some others find?_insert_self)
  have hword : (known.insert word).find? word = some (known.intern word).1 := find?_insert_self
  refine ⟨⟨fun e => ?_, ?_⟩, resolve?_of_find? howner⟩
  · rw [e] at hword
    exact find?_inj hword howner
  · rintro rfl
    exact Option.some.inj (hword.symm.trans howner)

/-! ## Tables side by side -/

lemma union_eq_insertAll : t.union u = t.insertAll u.entries.toList := by
  rw [union, insertAll, Array.foldl_toList]

lemma union_empty : t.union empty = t := rfl

lemma mem_union : s ∈ t.union u ↔ s ∈ t ∨ s ∈ u := by
  rw [union_eq_insertAll, mem_insertAll, Array.mem_toList_iff]
  rfl

lemma Distinct.union (h : t.Distinct) : (t.union u).Distinct := by
  rw [union_eq_insertAll]
  exact h.insertAll _

/-- A string that is put into one table at a time is put into both together. -/
lemma union_insert : t.union (u.insert s) = (t.union u).insert s := by
  by_cases hs : s ∈ u
  · rw [insert_of_mem hs, insert_of_mem (mem_union.2 (.inr hs))]
  · rw [insert_of_not_mem hs, union_eq_insertAll, union_eq_insertAll, Array.toList_push, insertAll,
      List.foldl_append]
    rfl

/-- A table is as large as there are distinct strings in it. -/
lemma Distinct.size_eq (h : t.Distinct) {strings : List String}
    (hmem : ∀ s, s ∈ t ↔ s ∈ strings) : t.size = strings.dedup.length := by
  have hperm : t.entries.toList.Perm strings.dedup := by
    rw [List.perm_ext_iff_of_nodup h (List.nodup_dedup strings)]
    intro s
    rw [List.mem_dedup, ← hmem, Array.mem_toList_iff]
    rfl
  rw [size, ← Array.length_toList, hperm.length_eq]

end CangjieSyntax.NameTable
