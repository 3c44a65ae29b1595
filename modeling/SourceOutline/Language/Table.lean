import SourceOutline.Language.DefinitionQuery
import SourceOutline.Path
import SourceOutline.Text.Case

/-! The languages that can be outlined. Each has one row: its grammar and its definition query, or a
scan of its headings, and the extensions and file names by which its files are known. -/
namespace SourceOutline

structure Language where
  name : String
  /-- The library that holds the grammar. -/
  library : Option String
  /-- The distribution that installs the library. -/
  distribution : Option String
  /-- The library's function for this language, where it has several. -/
  entry : Option String
  query : String
  /-- Outlined by its headings instead of a syntax tree. -/
  byHeadings : Bool
  extensions : List String
  filenames : List String
deriving DecidableEq, Repr

namespace Language

def libraryOf (distribution : String) : String :=
  String.ofList (distribution.toList.map fun c => if c == '-' then '_' else c)

def withGrammar (name distribution query : String) (extensions : List String) : Language :=
  ⟨name, some (libraryOf distribution), some distribution, none, query, false, extensions, []⟩

def through (l : Language) (entry : String) : Language := { l with entry := some entry }

def orNamed (l : Language) (filenames : List String) : Language := { l with filenames := filenames }

def markdown : Language :=
  ⟨"markdown", none, none, none, "", true, ["md", "markdown", "mdx"], []⟩

/-- All languages. No extension and no file name occurs in two rows. -/
def table : List Language :=
  [withGrammar "python" "tree-sitter-python" DefinitionQuery.python ["py", "pyi", "pyw"],
   withGrammar "javascript" "tree-sitter-javascript" DefinitionQuery.javascript
   ["js", "jsx", "mjs", "cjs"],
   (withGrammar "typescript" "tree-sitter-typescript" DefinitionQuery.typescript
   ["ts", "mts", "cts"]).through
     "language_typescript",
   (withGrammar "tsx" "tree-sitter-typescript" DefinitionQuery.tsx ["tsx"]).through "language_tsx",
   withGrammar "go" "tree-sitter-go" DefinitionQuery.go ["go"],
   withGrammar "rust" "tree-sitter-rust" DefinitionQuery.rust ["rs"],
   withGrammar "java" "tree-sitter-java" DefinitionQuery.java ["java"],
   withGrammar "kotlin" "tree-sitter-kotlin" DefinitionQuery.kotlin ["kt", "kts"],
   withGrammar "scala" "tree-sitter-scala" DefinitionQuery.scala ["scala", "sc"],
   withGrammar "c" "tree-sitter-c" DefinitionQuery.c ["c", "h"],
   withGrammar "cpp" "tree-sitter-cpp" DefinitionQuery.cpp ["cpp", "cc", "cxx", "hpp", "hh", "hxx"],
   withGrammar "c_sharp" "tree-sitter-c-sharp" DefinitionQuery.csharp ["cs"],
   withGrammar "swift" "tree-sitter-swift" DefinitionQuery.swift ["swift"],
   (withGrammar "ruby" "tree-sitter-ruby" DefinitionQuery.ruby ["rb", "rake", "gemspec"]).orNamed
   ["rakefile", "gemfile"],
   (withGrammar "php" "tree-sitter-php" DefinitionQuery.php ["php"]).through "language_php",
   withGrammar "lua" "tree-sitter-lua" DefinitionQuery.lua ["lua"],
   withGrammar "bash" "tree-sitter-bash" DefinitionQuery.bash ["sh", "bash"],
   (withGrammar "ocaml" "tree-sitter-ocaml" DefinitionQuery.ocaml ["ml"]).through "language_ocaml",
   withGrammar "html" "tree-sitter-html" DefinitionQuery.html ["html", "htm"],
   withGrammar "css" "tree-sitter-css" DefinitionQuery.css ["css"],
   withGrammar "toml" "tree-sitter-toml" DefinitionQuery.toml ["toml"],
   markdown]

def named? (name : String) : Option Language := table.find? (·.name == name)

def forExtension? (ext : String) : Option Language :=
  table.find? (·.extensions.contains (Text.lower ext))

def forFilename? (name : String) : Option Language :=
  table.find? (·.filenames.contains (Text.lower name))

-- Irreducible, so that proofs about what is done with a file's language do not compute which one it
-- is.
/-- The language of a file: by its extension, and if that tells nothing, by its name. -/
@[irreducible] def forPath? (p : Path) : Option Language :=
  (if p.extension.isEmpty then none else forExtension? p.extension).or (forFilename? p.name)

def allExtensions : List String := table.flatMap (·.extensions)

end Language

end SourceOutline
