import CangjieSyntax.Parse
import CangjieSyntax.Proofs.Name.Table
import CangjieSyntax.Proofs.Twin.File
import CangjieSyntax.Proofs.Twin.Text

/-!
# Batches of files

The files of a batch put the names they meet into one table. A parse only ever adds to the table:
what it finds does not depend on the names that are there already, and the names that it adds are
those that it meets by itself. So each file of a batch is parsed as if it were alone, and the table
has all names of all files in the end, in whatever order they came.
-/

namespace CangjieSyntax

/-! ## One parse over two tables -/

lemma Regressive.unclaimed (src : Source) (settings : Settings) :
    Regressive { src, settings } fun _ => True :=
  ⟨fun _ _ => trivial, fun _ => trivial, fun _ => trivial, fun _ => trivial⟩

lemma Settings.depth_unclaimed (settings : Settings) :
    settings.maxDepth = settings.maxDepth ∨ settings.maxDepth ≤ settings.maxDepth
      ∧ ∀ (_ : ParseState) (_ : Span), ¬ True :=
  .inl rfl

lemma Tentative.exhausted_unclaimed :
    True ∨ ∀ s : ParseState, True → s.tentative.exhausted = true → s.tentative.failed = false :=
  .inl trivial

/-- A parse with no names met so far, and the same parse with some. -/
def Twins.withNames (src : Source) (settings : Settings) (names : NameTable) : Twins where
  __ := Twins.ofText src settings settings false True (fun _ => True)
    (.unclaimed src settings) settings.depth_unclaimed Tentative.exhausted_unclaimed
  mirrored := True
  names t t' := t.Distinct ∧ t' = names.union t
  rounds_eq _ := rfl
  counts _ := rfl
  all_good _ _ := trivial
  insert text h := ⟨h.1.insert, by rw [h.2, NameTable.union_insert]⟩

namespace Twins

variable (src : Source) (settings : Settings) (names : NameTable)

lemma mirror_withNames : (withNames src settings names).Mirror := by
  refine ⟨fun _ => trivial, rfl, trivial, rfl, rfl, rfl, ?_⟩
  rintro l _ k _ rfl rfl
  rfl

/-- In front of the first token the two parses are alike. -/
lemma alike_withNames : (withNames src settings names).Alike
    { ParseState.ofSource src with names := .empty } { ParseState.ofSource src with names } where
  lexes := rfl
  nodes := (Nodes.appendMoved_refl {}).symm
  names := ⟨NameTable.distinct_empty, NameTable.union_empty.symm⟩
  log := by
    change #[] = #[] ++ Array.map (move .refl) #[]
    rw [Array.map_empty, Array.empty_append]
  depth := rfl
  prevStop := rfl
  prevKind := rfl
  prevText := rfl
  settled _ := ⟨rfl, rfl⟩
  tried := nofun
  comparisons _ := Iff.rfl
  muted := rfl
  lastErrorStart _ := Iff.rfl
  errorCount := rfl
  enclosingType := rfl

/-- All rules of a file are followed. -/
lemma follows_file_withNames :
    Follows (withNames src settings names)
      (do Rule.begin; Rule.file (Rule.callTo (Env.nesting { src, settings }))) (move .refl)
      (do Rule.begin; Rule.file (Rule.callTo (Env.nesting { src, settings }))) := by
  have start : Follows (withNames src settings names) Rule.begin id Rule.begin :=
    .bind_id Rule.follows_advance fun _ => Rule.follows_unmute
  refine .bind_id start fun _ => Rule.follows_file ?_
  exact Rule.calls_callTo (mirror_withNames src settings names) le_rfl fun _ => rfl

end Twins

/-! ## Names that were there before -/

/-- A parse finds the same whatever names are there, and adds those that it meets by itself, of
which none is counted twice. -/
lemma Source.parseFile_names (src : Source) (settings : Settings) (names : NameTable) :
    src.parseFile settings names
        = (src.parseFile settings .empty).map (Prod.map id names.union)
      ∧ ∀ found ∈ src.parseFile settings .empty, found.2.Distinct := by
  have follows := Twins.follows_file_withNames src settings names
  have start := Twins.alike_withNames src settings names
  unfold Source.parseFile
  cases hrun : Rule.runFrom { src, settings } Rule.file
      { ParseState.ofSource src with names := .empty } with
  | none =>
    have hnone : Rule.runFrom { src, settings } Rule.file { ParseState.ofSource src with names }
        = none := follows.fails trivial start hrun
    simp [hrun, hnone]
  | some found =>
    obtain ⟨tree, t⟩ := found
    obtain ⟨t', hrun', halike⟩ := follows.run start hrun trivial
    rw [move_refl] at hrun'
    have hrun' : Rule.runFrom { src, settings } Rule.file { ParseState.ofSource src with names }
        = some (tree, t') := hrun'
    obtain ⟨distinct, hnames⟩ := halike.names
    have nodes : t'.nodes = t.nodes := halike.nodes.trans (Nodes.appendMoved_refl _)
    have lexer : t'.lexer = t.lexer := halike.lexes
    have log : t'.log = t.log := by
      have log : t'.log = #[] ++ t.log.map (move .refl) := halike.log
      rwa [move_refl_eq_id, Array.map_id, Array.empty_append] at log
    have diagnostics : t'.diagnostics = t.diagnostics := by
      rw [ParseState.diagnostics, ParseState.diagnostics, lexer, log]
    refine ⟨?_, ?_⟩
    · simp [hrun, hrun', nodes, diagnostics, hnames]
    · simpa [hrun] using distinct

lemma parseFileInto_names (bytes : ByteArray) (settings : Settings) (names : NameTable) :
    parseFileInto bytes settings names
        = (parseFileInto bytes settings .empty).map (Prod.map id names.union)
      ∧ ∀ found ∈ parseFileInto bytes settings .empty, found.2.Distinct := by
  unfold parseFileInto
  split
  · exact Source.parseFile_names _ settings names
  · refine ⟨rfl, ?_⟩
    rintro _ ⟨⟩
    exact NameTable.distinct_empty

/-! ## Several files -/

/-- What a file of a batch gives when it is parsed alone, and the names met in it. -/
def parseAlone (settings : Settings) (file : String × ByteArray) : Option (FileParse × NameTable) :=
  parseFileInto file.2 { settings with fileName := some file.1 } .empty

/-- The strings that are met in a file when it is parsed alone. -/
def metAlone (settings : Settings) (file : String × ByteArray) : List String :=
  ((parseAlone settings file).map fun found => found.2.entries.toList).getD []

variable {settings : Settings} {files : List (String × ByteArray)}
  {found : List (FileParse × NameTable)}

/-- Behind some files of a batch, the others add their parses and their names. -/
lemma foldlM_parseFileInto (parses : List FileParse) (names : NameTable) :
    files.foldlM (fun (parses, names) (name, bytes) => do
      let (parse, names) ← parseFileInto bytes { settings with fileName := some name } names
      return (parses ++ [parse], names)) (parses, names)
        = (files.mapM (parseAlone settings)).map fun found =>
          (parses ++ found.map Prod.fst, (found.map Prod.snd).foldl .union names) := by
  induction files generalizing parses names with
  | nil => simp
  | cons file files ih =>
    obtain ⟨name, bytes⟩ := file
    rw [List.foldlM_cons, List.mapM_cons]
    have alone : parseFileInto bytes { settings with fileName := some name } names
        = (parseAlone settings (name, bytes)).map (Prod.map id names.union) :=
      (parseFileInto_names bytes _ names).1
    dsimp only
    rw [alone]
    cases parseAlone settings (name, bytes) with
    | none => rfl
    | some parsed =>
      obtain ⟨parse, met⟩ := parsed
      refine (ih (parses ++ [parse]) (names.union met)).trans ?_
      cases files.mapM (parseAlone settings) with
      | none => rfl
      | some found => simp

lemma parseFiles_eq :
    parseFiles files settings = (files.mapM (parseAlone settings)).map fun found =>
      (found.map Prod.fst, (found.map Prod.snd).foldl .union .empty) :=
  foldlM_parseFileInto [] .empty

lemma mem_foldl_union {tables : List NameTable} {names : NameTable} {s : String} :
    s ∈ tables.foldl .union names ↔ s ∈ names ∨ ∃ table ∈ tables, s ∈ table := by
  induction tables generalizing names with
  | nil => simp
  | cons table tables ih =>
    rw [List.foldl_cons, ih, NameTable.mem_union, List.exists_mem_cons_iff, or_assoc]

lemma distinct_foldl_union {tables : List NameTable} {names : NameTable} (h : names.Distinct) :
    (tables.foldl .union names).Distinct := by
  induction tables generalizing names with
  | nil => exact h
  | cons table tables ih => exact ih h.union

/-- The names of a batch are those that are met in its files alone. -/
lemma mem_metAlone (h : files.mapM (parseAlone settings) = some found) {s : String} :
    (∃ table ∈ found.map Prod.snd, s ∈ table) ↔ s ∈ files.flatMap (metAlone settings) := by
  induction files generalizing found with
  | nil =>
    cases h
    simp
  | cons file files ih =>
    rw [List.mapM_cons] at h
    obtain ⟨parsed, hparsed, h⟩ := Option.bind_eq_some_iff.1 h
    obtain ⟨others, hothers, e⟩ := Option.bind_eq_some_iff.1 h
    cases e
    have met : metAlone settings file = parsed.2.entries.toList := by
      rw [metAlone, hparsed]
      rfl
    rw [List.map_cons, List.exists_mem_cons_iff, ih hothers, List.flatMap_cons, List.mem_append,
      met, NameTable.mem_def, ← Array.mem_toList_iff]

/-- A class with a primary initializer, and a file that names the class again. -/
def twoFiles : List (String × ByteArray) :=
  [("a.cj", "class A \x7b A() \x7b\x7d \x7d".toUTF8), ("b.cj", "let a: A = b".toUTF8)]

end CangjieSyntax
