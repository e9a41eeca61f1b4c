import CangjieSyntax.Grammar.Recovery

/-!
# Blocks

Statements and local declarations in order. Each must be separated from the next one, and one with a
fault is passed over.
-/

namespace CangjieSyntax.Rule

variable (call : Call)

/-- The next item of a block, brought to its end, or a semicolon. -/
def itemsRound (stop : Kind → Bool) (items : List BlockItem) :
    Rule (List BlockItem ⊕ List BlockItem) := do
  let k ← kind
  if k.endsItems || stop k then return .inr items
  else if k == .mark .semicolon then
    advance
    return .inl items
  else
    let s ← get
    let item ← nested (fun span => return .expr (← errorExpr span)) (call .blockItem)
    endItem s.start s.errorCount stop
    return .inl (items ++ [item])

/-- The items up to a brace, the end of a hole, the end of the text, or a token at which to stop. -/
def items (stop : Kind → Bool) : Rule (List BlockItem) :=
  loop (itemsRound call stop) []

/-- The items up to the end of the block around them. -/
def allItems : Rule (List BlockItem) :=
  items call fun _ => false

/-- A block in braces. -/
def block : Rule Block := do
  let start ← start
  if ← expect (.mark .openBrace) then
    let items ← allItems call
    require (.mark .closeBrace)
    return ⟨items, ← spanFrom start⟩
  else
    return ⟨[], .empty start⟩

/-- Whether a declaration starts in a block. -/
def atLocalDeclaration : Rule Bool :=
  view fun src s =>
    match s.kind with
    | .keyword .kwLet | .keyword .kwVar | .keyword .kwConst | .keyword .kwFunc | .keyword .kwClass
    | .keyword .kwStruct | .keyword .kwInterface | .keyword .kwEnum | .keyword .kwType
    | .mark .atSign => true
    | .keyword .kwUnsafe => s.peek src == .keyword .kwFunc
    | .identifier => s.atModifier src
    | _ => false

/-- An item of a block. -/
def blockItem : Rule BlockItem := do
  if ← atLocalDeclaration then return .decl (← call (.declaration .inBlock))
  else return .expr (← call .statement)

end CangjieSyntax.Rule
