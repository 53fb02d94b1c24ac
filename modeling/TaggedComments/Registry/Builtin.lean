import TaggedComments.Registry.Basic

/-!
# The extensions known from the start

- `Registry.builtin` is the registry before anything is registered.
-/

namespace TaggedComments.Registry

/-- The extensions of the sections that markup files may hold. -/
def markupSections : List String := [".html", ".js", ".css"]

/-- An association with one parser. -/
def one (parser : String) : Association :=
  .value (.text parser)

/-- An association with several parsers. -/
def several (parsers : List String) : Association :=
  .value (.list (parsers.map .text))

/-- An association with one parser and the sections of markup. -/
def sectioned (parser : String) : Association :=
  .entry ⟨[.text parser], markupSections.map .text⟩

/-- The extensions known from the start, with their parsers. -/
def builtinAssociations : List (String × Association) := [
  (".bash", one "coffeeParser"), (".c", one "defaultParser"), (".cjs", one "defaultParser"),
  (".cjsx", one "coffeeParser"), (".clj", one "clojureParser"), (".cljs", one "clojureParser"),
  (".cljc", one "clojureParser"), (".coffee", one "coffeeParser"), (".cpp", one "defaultParser"),
  (".cr", one "coffeeParser"), (".cs", one "defaultParser"), (".cson", one "coffeeParser"),
  (".css", one "defaultParser"), (".ctp", sectioned "defaultParser"), (".cts", one "defaultParser"),
  (".ejs", one "ejsParser"), (".erb", one "ejsParser"), (".erl", one "erlangParser"),
  (".es", one "defaultParser"), (".es6", one "defaultParser"), (".ex", one "coffeeParser"),
  (".exs", one "coffeeParser"), (".fs", one "fsharpParser"), (".gd", one "coffeeParser"),
  (".go", one "defaultParser"), (".h", one "defaultParser"), (".haml", one "hamlParser"),
  (".handlebars", one "hbsParser"), (".hbs", one "hbsParser"),
  (".hcl", several ["defaultParser", "coffeeParser"]), (".hgn", one "hbsParser"),
  (".hogan", one "hbsParser"), (".hrl", one "erlangParser"), (".hs", one "haskellParser"),
  (".htm", one "twigParser"), (".html", one "twigParser"), (".jade", one "jadeParser"),
  (".java", one "defaultParser"), (".jl", one "pythonParser"), (".js", one "defaultParser"),
  (".jsx", one "defaultParser"), (".kt", one "defaultParser"), (".less", one "defaultParser"),
  (".lua", one "luaParser"), (".m", one "defaultParser"), (".markdown", one "twigParser"),
  (".md", one "twigParser"), (".mjs", one "defaultParser"), (".mm", one "defaultParser"),
  (".mts", one "defaultParser"), (".mustache", one "hbsParser"), (".njk", one "twigParser"),
  (".pas", one "pascalParser"), (".php", sectioned "defaultParser"), (".pl", one "coffeeParser"),
  (".pm", one "coffeeParser"), (".proto", one "defaultParser"), (".pug", one "jadeParser"),
  (".py", one "pythonParser"), (".rb", one "coffeeParser"), (".rs", one "defaultParser"),
  (".sass", one "defaultParser"), (".scala", one "defaultParser"), (".scss", one "defaultParser"),
  (".sh", one "coffeeParser"), (".sql", several ["defaultParser", "haskellParser"]),
  (".ss", one "ssParser"), (".styl", one "defaultParser"), (".svelte", sectioned "twigParser"),
  (".swift", one "defaultParser"), (".tex", one "latexParser"),
  (".tf", several ["defaultParser", "coffeeParser"]), (".ts", one "defaultParser"),
  (".tsx", one "defaultParser"), (".twig", one "twigParser"), (".vue", sectioned "twigParser"),
  (".yaml", one "coffeeParser"), (".yml", one "coffeeParser"), (".zsh", one "coffeeParser")
]

/-- The registry before anything is registered. -/
def builtin : Registry :=
  ⟨builtinAssociations.filterMap fun x =>
    (Entry.read (.text x.1) x.2).toOption.map fun e => (x.1, e)⟩

end TaggedComments.Registry
