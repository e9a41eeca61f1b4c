/-!
# Message templates

A template holds numbered placeholders in braces. Its arguments are put in one after another, so
that a placeholder inside an earlier argument is filled by a later one.
-/

namespace CangjieSyntax.Template

/-- The placeholder of the argument with the given number. -/
def placeholder (i : Nat) : List Char :=
  '\x7b' :: (toString i).toList ++ ['\x7d']

/-- The text with each occurrence of a pattern replaced, read from left to right without overlap.
The pattern has at least one character, so the text after an occurrence is shorter. -/
def replace (pattern replacement : List Char) (text : List Char) : List Char :=
  match text with
  | [] => []
  | c :: rest =>
    if pattern ≠ [] ∧ pattern.isPrefixOf (c :: rest) then
      replacement ++ replace pattern replacement ((c :: rest).drop pattern.length)
    else
      c :: replace pattern replacement rest
termination_by text.length
decreasing_by
  · rename_i h
    have := List.length_pos_iff.2 h.1
    simp only [List.length_drop, List.length_cons]
    omega
  · simp

/-- The text with the arguments put in, the first of them for the placeholder numbered `i`. -/
def fillFrom (i : Nat) (text : List Char) : List String → List Char
  | [] => text
  | arg :: args => fillFrom (i + 1) (replace (placeholder i) arg.toList text) args

/-- A template with its arguments put in. -/
def fill (template : String) (args : List String) : String :=
  String.ofList (fillFrom 0 template.toList args)

end CangjieSyntax.Template
