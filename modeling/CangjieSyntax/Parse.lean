import CangjieSyntax.Source.Utf8
import CangjieSyntax.Grammar.File

/-!
# Parsing

A file, a batch of files, or one expression inside a longer text. A parse always gives a tree
together with the diagnostics found on the way; only a text on which the rules would go on for ever
gives nothing.
-/

namespace CangjieSyntax

/-- A parsed file. -/
structure FileParse where
  tree : FileTree
  /-- In the order of their places. -/
  diagnostics : Log

/-- A parsed expression. -/
structure ExprParse where
  nodes : Nodes
  expr : ExprId
  /-- The offset behind the expression. -/
  next : Nat
  /-- In the order of their places. -/
  diagnostics : Log

/-- Whether regions of the text may be missing from the tree. -/
def FileParse.isFatal (p : FileParse) : Bool :=
  p.diagnostics.hasFatal

/-- Whether regions of the text may be missing from the tree. -/
def ExprParse.isFatal (p : ExprParse) : Bool :=
  p.diagnostics.hasFatal

/-- The log with the file of the settings filled in. -/
def Settings.locate (settings : Settings) (log : Log) : Log :=
  match settings.fileName with
  | some file => log.inFile file
  | none => log

namespace Rule

/-- Goes in front of the first token. Lexical faults ahead of it belong to no item. -/
def begin : Rule Unit := do
  advance
  unmute

/-- A rule run from a state, with as much nesting as the text may need. -/
def runFrom {α : Type} (env : Env) (rule : Call → Rule α) (s : ParseState) :
    Option (α × ParseState) :=
  (do begin; rule (callTo env.nesting)).run env s

end Rule

/-- The parse of a source as a file, with the names met added to those of a table. -/
def Source.parseFile (src : Source) (settings : Settings) (names : NameTable) :
    Option (FileParse × NameTable) :=
  let s := { ParseState.ofSource src with names }
  (Rule.runFrom { src, settings } Rule.file s).map fun (tree, s) =>
    ({ tree := { tree with nodes := s.nodes }, diagnostics := settings.locate s.diagnostics },
      s.names)

/-- The parse of a source from an offset on as one statement. -/
def Source.parseExpression (src : Source) (offset : Nat) (settings : Settings) : Option ExprParse :=
  let s := ParseState.ofSource src
  let s := { s with lexer := s.lexer.seek src offset, prevStop := offset }
  (Rule.runFrom { src, settings } Rule.statement s).map fun (expr, s) =>
    { nodes := s.nodes, expr, next := s.prevStop, diagnostics := settings.locate s.diagnostics }

/-- The log of a text that is no UTF-8. -/
def Settings.encodingFault (settings : Settings) (span : Span) : Log :=
  settings.locate #[LexError.invalidUtf8.diagnostic span]

/-- The parse of bytes as a file, with the names met added to those of a table. -/
def parseFileInto (bytes : ByteArray) (settings : Settings) (names : NameTable) :
    Option (FileParse × NameTable) :=
  match Source.ofBytes bytes with
  | .ok src => src.parseFile settings names
  | .error span => some ({ tree := {}, diagnostics := settings.encodingFault span }, names)

/-- The parse of bytes as a file. -/
def parseFile (bytes : ByteArray) (settings : Settings) : Option FileParse :=
  (parseFileInto bytes settings .empty).map Prod.fst

/-- The parses of a batch of files by name, and all names met in them. -/
def parseFiles (files : List (String × ByteArray)) (settings : Settings) :
    Option (List FileParse × NameTable) :=
  files.foldlM (fun (parses, names) (name, bytes) => do
    let (parse, names) ← parseFileInto bytes { settings with fileName := some name } names
    return (parses ++ [parse], names)) ([], .empty)

/-- The parse of one statement from an offset in bytes on. An offset behind the end counts as the
end, and one inside a character is a fault of the encoding. -/
def parseExpression (bytes : ByteArray) (offset : Nat) (settings : Settings) : Option ExprParse :=
  let offset := min offset bytes.size
  let decoded : Except Span Source := do
    let src ← Source.ofBytes bytes
    if src.isBoundary offset then return src else .error ⟨offset, 1⟩
  match decoded with
  | .ok src => src.parseExpression offset settings
  | .error span =>
    let exprs : Arena .expr ExprNode := {}
    some {
      nodes := { exprs := exprs.push ⟨.error, span⟩ }, expr := exprs.next, next := offset
      diagnostics := settings.encodingFault span }

end CangjieSyntax
