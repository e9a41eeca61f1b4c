import CangjieSyntax.Proofs.Grammar.Operand

/-!
# Chains of links

A chain is a name with links behind it. It is written link by link, and what it means is said from
left to right: each link makes an expression of the one in front of it.

Every name in a chain ends in front of the mark behind it, and every mark in front of a name or
another mark. So a chain is read token by token, just as it is written.
-/

namespace CangjieSyntax

/-- What a link does with the expression in front of it. -/
inductive Link where
  | member (x : Ident)
  /-- A member whose name is a keyword. -/
  | keywordMember (k : Keyword)
  | call (args : List Ident)
  | index (x : Ident)
  /-- A lambda with a name for its body, with or without blanks between its tokens. -/
  | lambda (x : Ident) (spaced : Bool)

/-- A link as it is written; an optional one has a question mark in front of it. -/
structure ChainLink where
  link : Link
  isOptional : Bool

/-! ## Texts -/

namespace Link

/-- The characters of a name. -/
def nameChars (x : Ident) : List Char :=
  (Tile.name x).chars

/-- Names, each behind a comma. -/
def charsBehind (args : List Ident) : List Char :=
  args.flatMap fun x => ',' :: nameChars x

/-- Names with commas between them. -/
def argChars : List Ident → List Char
  | [] => []
  | x :: args => nameChars x ++ charsBehind args

/-- A blank, or nothing. -/
def gap (spaced : Bool) : List Char :=
  if spaced then [' '] else []

def chars : Link → List Char
  | member x => '.' :: nameChars x
  | keywordMember k => '.' :: k.text.toList
  | call args => '(' :: (argChars args ++ [')'])
  | index x => '[' :: (nameChars x ++ [']'])
  | lambda x spaced =>
    '\x7b' :: (gap spaced ++ '=' :: '>' :: (gap spaced
      ++ (nameChars x ++ (gap spaced ++ ['\x7d']))))

/-- What the rules see of names, each behind a comma. -/
def shapesBehind (args : List Ident) : List Shape :=
  args.flatMap fun x => [.mark .comma, x.shape]

def argShapes : List Ident → List Shape
  | [] => []
  | x :: args => x.shape :: shapesBehind args

/-- What the rules see of a link. -/
def shapes : Link → List Shape
  | member x => [.mark .dot, x.shape]
  | keywordMember k => [.mark .dot, (Tile.keyword k).shape]
  | call args => .mark .openParen :: (argShapes args ++ [.mark .closeParen])
  | index x => [.mark .openBracket, x.shape, .mark .closeBracket]
  | lambda x _ => [.mark .openBrace, .mark .fatArrow, x.shape, .mark .closeBrace]

end Link

namespace ChainLink

def chars (l : ChainLink) : List Char :=
  (if l.isOptional then ['?'] else []) ++ l.link.chars

def shapes (l : ChainLink) : List Shape :=
  (if l.isOptional then [.mark .question] else []) ++ l.link.shapes

/-- A chain on one line, without spaces outside its lambdas. -/
def text (x : Ident) (links : List ChainLink) : String :=
  .ofList (Link.nameChars x ++ links.flatMap chars)

end ChainLink

/-! ## Meanings -/

/-- An argument that is a name by itself. -/
def Nodes.IsNameArgument (nodes : Nodes) (x : Ident) (a : Argument) : Prop :=
  a.name = none ∧ a.inout = false ∧ nodes.IsName x a.value

/-- At a place in some nodes stands what a link makes of the expression in front of it. -/
def Nodes.IsLink (nodes : Nodes) (target : ExprId) (isOptional : Bool) (id : ExprId) :
    Link → Prop
  | .member x => ∃ name span,
    nodes.exprs.get? id = some ⟨.field target name [] isOptional, span⟩ ∧ name.text = x.text
  | .keywordMember k => ∃ name span,
    nodes.exprs.get? id = some ⟨.field target name [] isOptional, span⟩ ∧ name.text = k.text
  | .call args => ∃ found span, nodes.exprs.get? id = some ⟨.call target found isOptional, span⟩
    ∧ List.Forall₂ nodes.IsNameArgument args found
  | .index x => ∃ found span,
    nodes.exprs.get? id = some ⟨.index target found isOptional, span⟩ ∧ nodes.IsName x found
  | .lambda x _ => ∃ lambda body span lambdaSpan,
    nodes.exprs.get? id = some ⟨.trailingLambda target lambda isOptional, span⟩
      ∧ nodes.exprs.get? lambda = some ⟨.lambda [] body, lambdaSpan⟩
      ∧ nodes.IsNameBlock x body.items

/-- From left to right, each link makes an expression of the one in front of it. -/
inductive Nodes.Folds (nodes : Nodes) : ExprId → List ChainLink → ExprId → Prop
  | nil (id : ExprId) : Folds nodes id [] id
  | cons {target mid id : ExprId} {l : ChainLink} {links : List ChainLink}
    (head : nodes.IsLink target l.isOptional mid l.link) (tail : Folds nodes mid links id) :
    Folds nodes target (l :: links) id

/-- Links behind an expression, in one optional chain if there is an optional link among them. -/
def Nodes.IsChain (nodes : Nodes) (first : ExprId) (links : List ChainLink) (id : ExprId) : Prop :=
  ∃ last, nodes.Folds first links last ∧ if links.any ChainLink.isOptional then
    ∃ span, nodes.exprs.get? id = some ⟨.optionalChain last, span⟩ else id = last

variable {nodes others : Nodes} {target id : ExprId}

lemma Nodes.IsNameArgument.extend (hext : nodes.Extends others) {x : Ident} {a : Argument}
    (h : nodes.IsNameArgument x a) : others.IsNameArgument x a :=
  ⟨h.1, h.2.1, h.2.2.extend hext⟩

lemma Nodes.IsLink.extend (hext : nodes.Extends others) {isOptional : Bool} {link : Link}
    (h : nodes.IsLink target isOptional id link) : others.IsLink target isOptional id link := by
  cases link with
  | member x | keywordMember k =>
    obtain ⟨name, span, e, hname⟩ := h
    exact ⟨name, span, hext.exprs.get?_eq e, hname⟩
  | call args =>
    obtain ⟨found, span, e, hargs⟩ := h
    exact ⟨found, span, hext.exprs.get?_eq e, hargs.imp fun _ _ h => h.extend hext⟩
  | index x =>
    obtain ⟨found, span, e, hindex⟩ := h
    exact ⟨found, span, hext.exprs.get?_eq e, hindex.extend hext⟩
  | lambda x spaced =>
    obtain ⟨lambda, body, span, lambdaSpan, e, e', hbody⟩ := h
    exact ⟨lambda, body, span, lambdaSpan, hext.exprs.get?_eq e, hext.exprs.get?_eq e',
      hbody.extend hext⟩

/-! ## Chains as rows of tokens -/

section

variable {modes : List Mode} {behind gap : List Char} {x : Ident} {k : Keyword} {c : Char}

/-- The characters that stand behind a name or a keyword in a chain. -/
def Link.followers : List Char :=
  ['.', '(', '[', '\x7b', '?', ',', ')', ']', '\x7d', ' ']

/-- The characters that a link starts with. -/
def Link.starters : List Char :=
  ['.', '(', '[', '\x7b', '?']

namespace Link

lemma follower : ∀ c ∈ followers,
    Unicode.isIdentifierPart c = false ∧ c ≠ '"' ∧ c ≠ '\'' := by
  have h : followers.all fun c =>
      !Unicode.isIdentifierPart c && c != '"' && c != '\'' := by decide +kernel
  intro c hc
  simpa [Bool.and_assoc] using List.all_eq_true.1 h c hc

lemma starters_subset : starters ⊆ followers := by
  decide

/-- What a name or a keyword starts with goes on with no mark, and is no quote. -/
lemma starts_apart (h : Unicode.isIdentifierStart c ∨ c = '`') :
    c ∉ Tile.extensions .dot ∧ c ≠ '"' ∧ c ≠ '\'' := by
  have h' : ('"' :: '\'' :: Tile.extensions .dot).all fun c =>
      !Unicode.isIdentifierStart c && c != '`' := by decide +kernel
  have apart (d : Char) (hd : d ∈ '"' :: '\'' :: Tile.extensions .dot) : c ≠ d := by
    rintro rfl
    have := List.all_eq_true.1 h' c hd
    rw [Bool.and_eq_true, Bool.not_eq_true', bne_iff_ne] at this
    obtain hstart | rfl := h
    · exact Bool.false_ne_true (this.1.symm.trans hstart)
    · exact this.2 rfl
  refine ⟨fun hc => apart c ?_ rfl, apart _ ?_, apart _ ?_⟩
  · exact List.mem_cons_of_mem _ (List.mem_cons_of_mem _ hc)
  · exact List.mem_cons_self
  · exact List.mem_cons_of_mem _ List.mem_cons_self

lemma head_nameChars (x : Ident) :
    ∃ c cs, nameChars x = c :: cs ∧ (Unicode.isIdentifierStart c ∨ c = '`') := by
  rw [nameChars, Tile.chars]
  split
  · exact ⟨_, _, rfl, .inr rfl⟩
  · have hstart := x.starts
    cases e : x.text.toList with
    | nil => simp [e] at hstart
    | cons c cs =>
      rw [e] at hstart
      exact ⟨c, cs, rfl, .inl hstart⟩

lemma head_keyword (k : Keyword) :
    ∃ c cs, k.text.toList = c :: cs ∧ (Unicode.isIdentifierStart c ∨ c = '`') := by
  have hstart := k.spelled.1
  cases e : k.text.toList with
  | nil => simp [e] at hstart
  | cons c cs =>
    rw [e] at hstart
    exact ⟨c, cs, rfl, .inl hstart⟩

/-! ## Tokens of a chain -/

lemma forall_mem_gap (spaced : Bool) :
    ∀ c ∈ Link.gap spaced, c ∈ Tile.blanks ∧ c ∉ Tile.lineBreaks := by
  cases spaced with
  | false => exact List.forall_mem_nil _
  | true => exact List.forall_mem_singleton.2 (by decide)

lemma spelled_name (hcode : (Mode.top modes).isCode) (spaced : Bool)
    (h : ∀ c ∈ behind.head?, c ∈ followers) :
    Shape.Spelled modes modes [x.shape] (Link.gap spaced ++ nameChars x) behind := by
  apply Shape.Spelled.name (forall_mem_gap spaced) _ hcode
  · exact fun c hc _ => (follower c (h c hc)).1
  · exact fun c hc => (follower c (h c hc)).2

/-- A mark that no character goes on with. -/
lemma spelled_mark {p : Punctuation} (hp : p ∈ Punctuation.separable)
    (hcode : (Mode.top modes).isCode) (hext : Tile.extensions p = []) (spaced : Bool)
    (hquote : ∀ c ∈ behind.head?, c ≠ '"' ∧ c ≠ '\'') :
    Shape.Spelled modes modes [.mark p] (Link.gap spaced ++ p.text.toList) behind := by
  apply Shape.Spelled.mark (forall_mem_gap spaced) hquote hp hcode
  rw [hext]
  exact fun c _ => List.not_mem_nil

/-- What follows a name is told by the first character behind it. -/
lemma spelled_nameBefore (hcode : (Mode.top modes).isCode) (hc : c ∈ followers) :
    Shape.Spelled modes modes [x.shape] (nameChars x) (c :: behind) := by
  apply spelled_name hcode false
  rintro _ ⟨⟩
  exact hc

/-- In front of a member name a point is read by itself. -/
lemma spelled_dot (hcode : (Mode.top modes).isCode) (h : Unicode.isIdentifierStart c ∨ c = '`') :
    Shape.Spelled modes modes [.mark .dot] ['.'] (c :: behind) := by
  obtain ⟨hext, hquote⟩ := starts_apart h
  apply Shape.Spelled.mark (p := .dot) (forall_mem_gap false) _ (by decide) hcode
  · rintro _ ⟨⟩
    exact hext
  · rintro _ ⟨⟩
    exact hquote

/-- In front of a name a mark is read by itself. -/
lemma spelled_markName {p : Punctuation} (hp : p ∈ Punctuation.separable)
    (hcode : (Mode.top modes).isCode) (hext : Tile.extensions p = []) :
    Shape.Spelled modes modes [.mark p] p.text.toList (nameChars x ++ behind) := by
  obtain ⟨c, cs, e, hstart⟩ := head_nameChars x
  rw [e]
  apply spelled_mark hp hcode hext false
  rintro _ ⟨⟩
  exact (starts_apart hstart).2

lemma spelled_argsBehind (hcode : (Mode.top modes).isCode) (args : List Ident) :
    Shape.Spelled modes modes (shapesBehind args) (charsBehind args) (')' :: behind) := by
  induction args with
  | nil => exact .nil
  | cons x args ih =>
    have comma : Shape.Spelled modes modes [.mark .comma] [',']
        (nameChars x ++ (charsBehind args ++ ')' :: behind)) :=
      spelled_markName (p := .comma) (by decide) hcode rfl
    have name : Shape.Spelled modes modes [x.shape] (nameChars x)
        (charsBehind args ++ ')' :: behind) := by
      cases args with
      | nil => exact spelled_nameBefore hcode (by decide)
      | cons y args => exact spelled_nameBefore hcode (by decide)
    have whole := (comma.append name).append ih
    rwa [shapesBehind, charsBehind, List.flatMap_cons, List.flatMap_cons]

lemma spelled_args (hcode : (Mode.top modes).isCode) (args : List Ident) :
    Shape.Spelled modes modes (argShapes args) (argChars args) (')' :: behind) := by
  cases args with
  | nil => exact .nil
  | cons x args =>
    have name : Shape.Spelled modes modes [x.shape] (nameChars x)
        (charsBehind args ++ ')' :: behind) := by
      cases args with
      | nil => exact spelled_nameBefore hcode (by decide)
      | cons y args => exact spelled_nameBefore hcode (by decide)
    exact name.append (spelled_argsBehind hcode args)

/-- A lambda opens a brace and closes it again. -/
lemma spelled_lambda (x : Ident) (spaced : Bool) :
    Shape.Spelled [.code 0] [.code 0] (lambda x spaced).shapes (lambda x spaced).chars behind := by
  have inside : (Mode.top [.code 1]).isCode := rfl
  have opening : Shape.Spelled [.code 0] [.code 1] [.mark .openBrace] ['\x7b']
      ((Link.gap spaced ++ ['=', '>']) ++ ((Link.gap spaced ++ nameChars x)
        ++ ((Link.gap spaced ++ ['\x7d']) ++ behind))) :=
    Shape.Spelled.openBrace (forall_mem_gap false)
  have arrow : Shape.Spelled [.code 1] [.code 1] [.mark .fatArrow] (Link.gap spaced ++ ['=', '>'])
      ((Link.gap spaced ++ nameChars x) ++ ((Link.gap spaced ++ ['\x7d']) ++ behind)) := by
    apply spelled_mark (p := .fatArrow) (by decide) inside rfl spaced
    obtain ⟨c, cs, e, hstart⟩ := head_nameChars x
    cases spaced with
    | true =>
      rintro _ ⟨⟩
      decide
    | false =>
      rw [e]
      rintro _ ⟨⟩
      exact (starts_apart hstart).2
  have name : Shape.Spelled [.code 1] [.code 1] [x.shape] (Link.gap spaced ++ nameChars x)
      ((Link.gap spaced ++ ['\x7d']) ++ behind) := by
    apply spelled_name inside spaced
    cases spaced <;> rintro _ ⟨⟩ <;> decide
  have closing : Shape.Spelled [.code 1] [.code 0] [.mark .closeBrace] (Link.gap spaced ++ ['\x7d'])
      behind := .closeBrace (forall_mem_gap spaced)
  have whole := ((opening.append arrow).append name).append closing
  simpa [shapes, chars] using whole

/-- Where another link or the end stands behind it, a link is read as it is written. -/
lemma spelled (l : Link) (h : ∀ c ∈ behind.head?, c ∈ starters) :
    Shape.Spelled [.code 0] [.code 0] l.shapes l.chars behind := by
  have code : (Mode.top [.code 0]).isCode := rfl
  have h' : ∀ c ∈ behind.head?, c ∈ followers := fun c hc => starters_subset (h c hc)
  cases l with
  | member x =>
    obtain ⟨c, cs, e, hstart⟩ := head_nameChars x
    have dot : Shape.Spelled [.code 0] [.code 0] [.mark .dot] ['.'] (nameChars x ++ behind) := by
      rw [e]
      exact spelled_dot code hstart
    exact dot.append (spelled_name code false h')
  | keywordMember k =>
    obtain ⟨c, cs, e, hstart⟩ := head_keyword k
    have dot : Shape.Spelled [.code 0] [.code 0] [.mark .dot] ['.'] (k.text.toList ++ behind) := by
      rw [e]
      exact spelled_dot code hstart
    have word : Shape.Spelled [.code 0] [.code 0] [(Tile.keyword k).shape] k.text.toList behind :=
      .keyword (forall_mem_gap false) (fun c hc => (follower c (h' c hc)).2) code
        fun c hc => (follower c (h' c hc)).1
    exact dot.append word
  | call args =>
    have opening : Shape.Spelled [.code 0] [.code 0] [.mark .openParen] ['(']
        (argChars args ++ ')' :: behind) := by
      apply spelled_mark (p := .openParen) (by decide) code rfl false
      cases args with
      | nil =>
        rintro _ ⟨⟩
        decide
      | cons x args =>
        obtain ⟨c, cs, e, hstart⟩ := head_nameChars x
        rw [argChars, e]
        rintro _ ⟨⟩
        exact (starts_apart hstart).2
    have closing : Shape.Spelled [.code 0] [.code 0] [.mark .closeParen] [')'] behind :=
      spelled_mark (p := .closeParen) (by decide) code rfl false
        fun c hc => (follower c (h' c hc)).2
    have whole := (opening.append (spelled_args code args)).append closing
    simpa [shapes, chars] using whole
  | index x =>
    have opening : Shape.Spelled [.code 0] [.code 0] [.mark .openBracket] ['[']
        (nameChars x ++ ']' :: behind) := spelled_markName (p := .openBracket) (by decide) code rfl
    have name : Shape.Spelled [.code 0] [.code 0] [x.shape] (nameChars x) (']' :: behind) :=
      spelled_nameBefore code (by decide)
    have closing : Shape.Spelled [.code 0] [.code 0] [.mark .closeBracket] [']'] behind :=
      spelled_mark (p := .closeBracket) (by decide) code rfl false
        fun c hc => (follower c (h' c hc)).2
    have whole := (opening.append name).append closing
    simpa [shapes, chars] using whole
  | lambda x spaced => exact spelled_lambda x spaced

/-- A link starts with one of few characters. -/
lemma head_chars (l : Link) : ∃ c cs, l.chars = c :: cs ∧ c ∈ ['.', '(', '[', '\x7b'] := by
  cases l <;> exact ⟨_, _, rfl, by decide⟩

end Link

namespace ChainLink

lemma head_chars (l : ChainLink) : ∃ c cs, l.chars = c :: cs ∧ c ∈ Link.starters := by
  obtain ⟨c, cs, e, hc⟩ := l.link.head_chars
  rw [chars, e]
  cases l.isOptional with
  | true => exact ⟨_, _, rfl, by decide⟩
  | false => exact ⟨c, cs, rfl, List.mem_append_left ['?'] hc⟩

lemma spelled (l : ChainLink) (h : ∀ c ∈ behind.head?, c ∈ Link.starters) :
    Shape.Spelled [.code 0] [.code 0] l.shapes l.chars behind := by
  have link := l.link.spelled h
  rw [shapes, chars]
  cases l.isOptional with
  | false => exact link
  | true =>
    obtain ⟨c, cs, e, hc⟩ := l.link.head_chars
    have question : Shape.Spelled [.code 0] [.code 0] [.mark .question] ['?']
        (l.link.chars ++ behind) := by
      have apart : ['.', '(', '[', '\x7b'].all fun c =>
          c ∉ Tile.extensions .question ∧ c ≠ '"' ∧ c ≠ '\'' := by decide
      have hapart := List.all_iff_forall_prop.1 apart c hc
      rw [e]
      apply Shape.Spelled.mark (p := .question) (Link.forall_mem_gap false) _ (by decide) rfl
      · rintro _ ⟨⟩
        exact hapart.1
      · rintro _ ⟨⟩
        exact hapart.2
    exact question.append link

/-- Links are read one after the other. -/
lemma spelled_links (links : List ChainLink) :
    Shape.Spelled [.code 0] [.code 0] (links.flatMap shapes) (links.flatMap chars) [] := by
  induction links with
  | nil => exact .nil
  | cons l links ih =>
    have head : Shape.Spelled [.code 0] [.code 0] l.shapes l.chars (links.flatMap chars ++ []) := by
      apply l.spelled
      cases links with
      | nil => rintro _ ⟨⟩
      | cons next links =>
        obtain ⟨c, cs, e, hc⟩ := next.head_chars
        rw [List.flatMap_cons, e]
        rintro _ ⟨⟩
        exact hc
    rw [List.flatMap_cons, List.flatMap_cons]
    exact head.append ih

/-- A chain is read token by token. -/
lemma spelled_text (x : Ident) (links : List ChainLink) :
    Shape.Spelled [.code 0] [.code 0] (x.shape :: links.flatMap shapes) (text x links).toList
      [] := by
  have name : Shape.Spelled [.code 0] [.code 0] [x.shape] (Link.nameChars x)
      (links.flatMap chars ++ []) := by
    cases links with
    | nil => exact Link.spelled_name rfl false (by rintro _ ⟨⟩)
    | cons l links =>
      obtain ⟨c, cs, e, hc⟩ := l.head_chars
      rw [List.flatMap_cons, e]
      exact Link.spelled_nameBefore rfl (Link.starters_subset hc)
  rw [text, String.toList_ofList]
  exact name.append (spelled_links links)

end ChainLink

end

end CangjieSyntax
