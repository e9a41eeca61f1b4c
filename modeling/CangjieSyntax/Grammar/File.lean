import CangjieSyntax.Grammar.Declarations

/-!
# Files

The header that names the package, imports, and the declarations of a file. A header must come
first, and the main function stands apart from the other items.
-/

namespace CangjieSyntax.Rule

variable (call : Call)

/-! ## Packages and imports -/

/-- The header that names the package. -/
def packageHeader : Rule PackageHeader := do
  let start ← start
  let modifiers ← modifiers []
  let isMacro ← optional (.keyword .kwMacro)
  require (.keyword .kwPackage)
  let path ← dottedName
  return { isMacro, path, modifiers, span := ← spanFrom start }

/-- The end of an import path: all of a package, a group in braces, or a single item perhaps with
another name. A group is spread out into one path for each of its members. -/
def importPaths (leading : List Name) : Rule (List ImportItem) := do
  let start ← start
  let path := leading ++ (← dottedName)
  let next ← view fun src s => if s.kind == .mark .dot then some (s.peek src) else none
  match next with
  | some (.mark .star) =>
    advance
    advance
    return [{ path, wildcard := true, newName := none, span := ← spanFrom start }]
  | some (.mark .openBrace) =>
    advance
    advance
    let groups ← list (.mark .closeBrace) (call (.importPaths path))
    require (.mark .closeBrace)
    return groups.flatten
  | next =>
    if next.isSome then
      advance
      report .identifierExpected []
    let newName ← behind (.keyword .kwAs) identifier
    return [{ path, wildcard := false, newName, span := ← spanFrom start }]

/-- An import. -/
def importDecl : Rule ImportDecl := do
  let start ← start
  let modifiers ← modifiers []
  let module ← behind (.keyword .kwFrom) identifier
  require (.keyword .kwImport)
  let items ← separated (.mark .comma) (call (.importPaths []))
  return { module, items := items.flatten, modifiers, span := ← spanFrom start }

/-! ## Top-level items -/

/-- A header in its place in the file. One that comes too late is reported and dropped. -/
def placeHeader (tree : FileTree) : Rule FileTree := do
  let header ← packageHeader
  if tree.package.isSome || !tree.imports.isEmpty || !tree.items.isEmpty || tree.main.isSome then
    reportAt header.span .packageHeaderMisplaced []
    return tree
  else
    return { tree with package := some header }

/-- A declaration in its place in the file. A second main function is reported and stays an item. -/
def placeDeclaration (tree : FileTree) : Rule FileTree := do
  let id ← declaration call .topLevel
  match (← get).nodes.decls.get? id with
  | some { form := .mainFunction _, span, .. } =>
    if tree.main.isSome then
      reportAt span .duplicateMain []
      return { tree with items := tree.items ++ [id] }
    else
      return { tree with main := some id }
  | _ => return { tree with items := tree.items ++ [id] }

/-- What an item of a file is, by the first token behind its modifiers. -/
inductive ItemClass where
  | header
  | import
  | declaration
  deriving DecidableEq

/-- The class of the item that starts here. -/
def itemClass (src : Source) (s : ParseState) : ItemClass :=
  match s.lexer.kindAfterModifiers src with
  | .keyword .kwPackage => .header
  | .keyword .kwMacro => if s.lexer.macroPackageAhead src then .header else .declaration
  | .keyword .kwImport | .keyword .kwFrom => .import
  | _ => .declaration

/-- An item of a file, in its place. -/
def placeItem (tree : FileTree) : Rule FileTree := do
  match ← view itemClass with
  | .header => placeHeader tree
  | .import => return { tree with imports := tree.imports ++ [← importDecl call] }
  | .declaration => placeDeclaration call tree

/-- Brings an item of a file to its end, given where it started and how many faults there were
then. -/
def endFileItem (start errors : Nat) : Rule Unit := do
  let s ← get
  let progressed := s.start != start
  if s.errorCount != errors || !progressed then skipDeclaration (!progressed)
  else if !(← atStatementEnd fun _ => false) then
    separatorExpected
    skipDeclaration false

/-- The next item of a file, brought to its end, or a semicolon. -/
def fileRound (tree : FileTree) : Rule (FileTree ⊕ FileTree) := do
  let k ← kind
  if k == .endOfFile then return .inr tree
  else if k == .mark .semicolon then
    advance
    return .inl tree
  else
    let s ← get
    let tree ← placeItem call tree
    endFileItem s.start s.errorCount
    return .inl tree

/-- The items of a file. -/
def file : Rule FileTree :=
  loop (fileRound call) {}

/-! ## Tying the rules together -/

/-- The rule with the given name. -/
def ofNonterminal {α : Type} : Nonterminal α → Rule α
  | .statement => statement call
  | .expression => expression call
  | .binary above => binary call above
  | .unary => unary call
  | .ifThen => ifThen call
  | .type => type call
  | .pattern place => pattern call place
  | .blockItem => blockItem call
  | .declaration place => declaration call place
  | .importPaths leading => importPaths call leading

/-- How rules call each other down to the given depth of nesting. -/
def callTo : Nat → Call
  | 0, _, _ => endless
  | nesting + 1, _, g => ofNonterminal (callTo nesting) g

end CangjieSyntax.Rule
