import CangjieSyntax.Corpus.Basic

/-!
# The cases of the corpus

For each area of the grammar, files that must parse without a diagnostic; and files with a fault
each, which must be reported.
-/

namespace CangjieSyntax.Corpus

/-- Operators, assignments, control flow, lambdas and macros. -/
def expressionsCases : List Case :=
  [⟨"arithmetic_precedence", .expressions, .clean, "let x = a + b * c - d / e % f"⟩,
   ⟨"exponent_chain", .expressions, .clean, "let x = 2 ** 3 ** 2"⟩,
   ⟨"coalescing", .expressions, .clean, "let v = opt ?? 0"⟩,
   ⟨"pipeline", .expressions, .clean, "let r = xs |> map(f) |> sum"⟩,
   ⟨"range_with_step", .expressions, .clean, "let r = 0..10 : 2"⟩,
   ⟨"compound_assignment", .expressions, .clean,
     "main() \x7b\n    var x = 1\n    x += 2\n    x >>= 1\n    x **= 2\n\x7d"⟩,
   ⟨"tuple_assignment", .expressions, .clean,
     "main() \x7b\n    var a = 0\n    var b = 1\n    (a, b) = (b, a)\n    _ = f()\n\x7d"⟩,
   ⟨"if_else_chain", .expressions, .clean,
     "main() \x7b\n"
     ++ "    let m = if (a > b) \x7b a \x7d else if (a == b) \x7b 0 \x7d else \x7b b \x7d\n\x7d"⟩,
   ⟨"if_let", .expressions, .clean, "main() \x7b\n    if (let Some(v) <- opt) \x7b v \x7d\n\x7d"⟩,
   ⟨"selectorless_match", .expressions, .clean,
     "main() \x7b\n    match \x7b\n        case x > 0 => 1\n        case _ => 0\n    \x7d\n"
     ++ "\x7d"⟩,
   ⟨"loops", .expressions, .clean,
     "main() \x7b\n    var i = 0\n    while (i < 10) \x7b i++ \x7d\n"
     ++ "    do \x7b i-- \x7d while (i > 0)\n\x7d"⟩,
   ⟨"for_in_with_guard", .expressions, .clean,
     "main() \x7b\n    for (i in 0..10 where i % 2 == 0) \x7b\n        println(i)\n    \x7d\n"
     ++ "\x7d"⟩,
   ⟨"try_catch_finally", .expressions, .clean,
     "main() \x7b\n    try \x7b\n        risky()\n"
     ++ "    \x7d catch (e: IOException | TimeoutException) \x7b\n        log(e)\n"
     ++ "    \x7d finally \x7b\n        close()\n    \x7d\n\x7d"⟩,
   ⟨"try_with_resources", .expressions, .clean,
     "main() \x7b\n    try (r = open(\"f\")) \x7b\n        r.read()\n"
     ++ "    \x7d catch (_: Exception) \x7b\n    \x7d\n\x7d"⟩,
   ⟨"lambda", .expressions, .clean, "let add = \x7b a: Int64, b: Int64 => a + b \x7d"⟩,
   ⟨"trailing_lambda", .expressions, .clean,
     "main() \x7b\n    xs.forEach \x7b x => println(x) \x7d\n\x7d"⟩,
   ⟨"optional_chain", .expressions, .clean, "let n = a?.b?.c()"⟩,
   ⟨"spawn_and_synchronized", .expressions, .clean,
     "main() \x7b\n    let f = spawn \x7b work() \x7d\n"
     ++ "    synchronized (m) \x7b count++ \x7d\n\x7d"⟩,
   ⟨"quote", .expressions, .clean, "let t = quote(a + $b)"⟩,
   ⟨"macro_call", .expressions, .clean, "let v = @Memo(fib(10))"⟩,
   ⟨"type_test_and_cast", .expressions, .clean, "let b = x is Int64 && (y as Float64).isSome()"⟩]

/-- Generic, optional, tuple and function types. -/
def typesCases : List Case :=
  [⟨"generic_constructor", .types, .clean, "let m = HashMap<String, Int64>()"⟩,
   ⟨"nested_generics", .types, .clean,
     "let m: HashMap<String, Array<Int64>> = HashMap<String, Array<Int64>>()"⟩,
   ⟨"function_type", .types, .clean, "let f: (Int64, Int64) -> Int64 = add"⟩,
   ⟨"optional_type", .types, .clean, "var o: ?Int64 = None"⟩,
   ⟨"tuple_type", .types, .clean, "let p: (Int64, String) = (1, \"a\")"⟩,
   ⟨"comparisons_not_generics", .types, .clean, "let c = f(a < b, c > (d))"⟩,
   ⟨"qualified_type", .types, .clean, "let t: std.time.Duration = d"⟩]

/-- Patterns of cases and declarations. -/
def patternsCases : List Case :=
  [⟨"match_forms", .patterns, .clean,
     "main() \x7b\n    match (x) \x7b\n        case 1 | 2 => a\n"
     ++ "        case Some(v) | None => b\n        case (p, _) => c\n"
     ++ "        case n: Int64 => d\n        case _ => e\n    \x7d\n\x7d"⟩,
   ⟨"match_guard", .patterns, .clean,
     "main() \x7b\n    match (x) \x7b\n        case Some(v) where v > 0 => v\n"
     ++ "        case _ => 0\n    \x7d\n\x7d"⟩,
   ⟨"destructuring_let", .patterns, .clean, "let (a, b) = pair"⟩,
   ⟨"qualified_enum_pattern", .patterns, .clean,
     "main() \x7b\n    match (c) \x7b\n        case Color.Red => 1\n"
     ++ "        case Color.Rgb(r, _, _) => r\n        case _ => 0\n    \x7d\n\x7d"⟩]

/-- Strings, runes and bytes. -/
def stringsCases : List Case :=
  [⟨"interpolation", .strings, .clean, "let s = \"sum: $\x7ba + b\x7d\""⟩,
   ⟨"multi_line", .strings, .clean, "let s = \"\"\"\nline $\x7bx\x7d\n\"\"\""⟩,
   ⟨"raw_string", .strings, .clean, "let r = #\"no \\n escapes\"#"⟩,
   ⟨"rune_and_byte", .strings, .clean, "let c = r'a'\nlet b = b'x'"⟩,
   ⟨"single_quoted", .strings, .clean, "let s = 'it \"works\"'"⟩]

/-- Declarations of every kind. -/
def declarationsCases : List Case :=
  [⟨"package_and_imports", .declarations, .clean,
     "package demo.app\nimport std.collection.*\n"
     ++ "import std.io.\x7bInputStream, OutputStream as Out\x7d\n"⟩,
   ⟨"class_members", .declarations, .clean,
     "public open class Account <: Printable \x7b\n"
     ++ "    Account(private let owner: String, var balance: Int64) \x7b\x7d\n"
     ++ "    public prop total: Int64 \x7b\n        get() \x7b balance \x7d\n    \x7d\n"
     ++ "    public func deposit(amount!: Int64 = 0): Unit \x7b\n        balance += amount\n"
     ++ "    \x7d\n    static init() \x7b\x7d\n    ~init() \x7b\x7d\n\x7d"⟩,
   ⟨"generic_struct", .declarations, .clean,
     "struct Pair<T, U> where T <: Equatable<T> \x7b\n    let first: T\n    let second: U\n"
     ++ "\x7d"⟩,
   ⟨"interface", .declarations, .clean,
     "interface Shape \x7b\n    func area(): Float64\n    prop name: String\n\x7d"⟩,
   ⟨"enum_with_members", .declarations, .clean,
     "enum Option<T> \x7b\n    | Some(T) | None\n    func isSome(): Bool \x7b\n"
     ++ "        match (this) \x7b\n            case Some(_) => true\n"
     ++ "            case None => false\n        \x7d\n    \x7d\n\x7d"⟩,
   ⟨"extend", .declarations, .clean,
     "extend<T> Array<T> <: Printable where T <: ToString \x7b\n"
     ++ "    public func print(): Unit \x7b\x7d\n\x7d"⟩,
   ⟨"operator_function", .declarations, .clean,
     "struct V \x7b\n    operator func +(o: V): V \x7b o \x7d\n\x7d"⟩,
   ⟨"type_alias", .declarations, .clean, "type Name = String"⟩,
   ⟨"foreign_function", .declarations, .clean, "foreign func strlen(s: CString): UIntNative"⟩,
   ⟨"macro_definition", .declarations, .clean,
     "public macro Log(input: Tokens): Tokens \x7b input \x7d"⟩,
   ⟨"main", .declarations, .clean, "main(): Int64 \x7b\n    return 0\n\x7d"⟩,
   ⟨"annotation", .declarations, .clean, "@Deprecated\nfunc old() \x7b\x7d"⟩]

/-- Files with a fault. -/
def recoveryCases : List Case :=
  [⟨"missing_expression", .recovery, .errors, "let x = = 3"⟩,
   ⟨"unclosed_paren", .recovery, .errors, "let x = (1 + 2\nlet y = 3"⟩,
   ⟨"expression_in_class_body", .recovery, .errors, "class A \x7b\n    1 + 2\n\x7d"⟩,
   ⟨"missing_separator", .recovery, .errors, "main() \x7b let a = 1 let b = 2 \x7d"⟩,
   ⟨"unterminated_string", .recovery, .errors, "let s = \"abc"⟩,
   ⟨"raw_fence_mismatch", .recovery, .errors, "let r = ##\"a\"#"⟩,
   ⟨"assignment_as_value", .recovery, .errors, "let x = (a = 1)"⟩,
   ⟨"duplicate_main", .recovery, .errors, "main() \x7b\x7d\nmain() \x7b\x7d"⟩,
   ⟨"missing_type_name", .recovery, .errors, "class \x7b\x7d"⟩,
   ⟨"missing_parameter_type", .recovery, .errors, "func f(a: ) \x7b\x7d"⟩,
   ⟨"match_without_case", .recovery, .errors, "main() \x7b\n    match (x) \x7b 1 => 2 \x7d\n\x7d"⟩,
   ⟨"alternation_in_declaration", .recovery, .errors, "let (a | b) = p"⟩]

/-- Every case, area by area. -/
def cases : List Case :=
  expressionsCases ++ typesCases ++ patternsCases ++ stringsCases ++ declarationsCases
    ++ recoveryCases

end CangjieSyntax.Corpus
