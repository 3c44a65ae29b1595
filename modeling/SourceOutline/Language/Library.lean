import SourceOutline.Language.Table
import SourceOutline.Text.Lines
import SourceOutline.Text.Quoted

/-! The grammar libraries at hand. A language is loaded through its entry in its library. A library
may have a part, named after a point; the entries of a grammar library are also in its part for the
binding. -/
namespace SourceOutline

/-- What a name in a library stands for: an entry that gives a grammar, or an object of some
kind. -/
inductive Member where
  | entry
  | object (kind : String)
deriving DecidableEq, Repr

structure Library where
  name : String
  members : List (String × Member)
  /-- The names of the parts, if it can have any. -/
  parts : Option (List String)
deriving DecidableEq, Repr

namespace Library

def defaultEntry : String := "language"

def several : List (String × List String) :=
  [("tree_sitter_typescript", ["language_typescript", "language_tsx"]),
   ("tree_sitter_php", ["language_php", "language_php_only"]),
   ("tree_sitter_ocaml", ["language_ocaml", "language_ocaml_interface", "language_ocaml_type"])]

def textKind : String := "str"

def standing : List (String × Member) :=
  [("__name__", .object textKind), ("__doc__", .object textKind), ("__package__", .object textKind),
   ("__file__", .object textKind)]

def bindingPart : String := "_binding"

/-- A library with grammars: its entries, and a query for colours. -/
def ofGrammar (name : String) : Library :=
  let entries := (several.lookup name).getD [defaultEntry]
  ⟨name, entries.map (·, .entry) ++ ("HIGHLIGHTS_QUERY", .object textKind) :: standing,
    some [bindingPart]⟩

def grammars : List Library := (Language.table.filterMap (·.library)).map ofGrammar

/-- General libraries without parts; none of them has a grammar. -/
def general : List String :=
  ["abc", "argparse", "array", "ast", "base64", "bisect", "builtins", "calendar", "codecs",
   "collections", "configparser", "contextlib", "copy", "csv", "dataclasses", "datetime", "decimal",
   "difflib", "dis", "enum", "errno", "fnmatch", "fractions", "functools", "gc", "getpass", "glob",
   "gzip", "hashlib", "heapq", "hmac", "inspect", "io", "itertools", "keyword", "linecache",
   "locale", "math", "mimetypes", "numbers", "operator", "os", "pathlib", "pickle", "platform",
   "pprint", "queue", "random", "re", "secrets", "select", "shelve", "shlex", "shutil", "signal",
   "site", "socket", "stat", "statistics", "string", "struct", "subprocess", "sys", "tarfile",
   "tempfile", "textwrap", "threading", "time", "timeit", "token", "tokenize", "traceback", "types",
   "typing", "uuid", "warnings", "weakref", "zipfile", "zlib"]

def generalWithParts : List String :=
  ["asyncio", "concurrent", "ctypes", "curses", "dbm", "email", "encodings", "html", "http",
    "importlib", "json", "logging",
   "multiprocessing", "sqlite3", "tkinter", "unittest", "urllib", "wsgiref", "xml", "yaml", "click",
     "rich", "pydantic",
   "structlog", "tree_sitter"]

def installed : List Library :=
  grammars ++ general.map (⟨·, standing, none⟩) ++ generalWithParts.map (⟨·, standing, some []⟩)

def named? (name : String) : Option Library := installed.find? (·.name == name)

end Library

inductive LibraryError where
  | noGrammar (language : String)
  | noLibrary (name : String)
  | noEntry (library entry : String)
  | notEntry (kind : String)
  | noName
  | relative (name : String)
  | noParts (library name : String)
deriving DecidableEq, Repr

namespace LibraryError

def kind : LibraryError → String
  | .noGrammar _ => "ValueError"
  | .noLibrary _ => "ModuleNotFoundError"
  | .noEntry _ _ => "AttributeError"
  | .notEntry _ => "TypeError"
  | .noName => "ValueError"
  | .relative _ => "ImportError"
  | .noParts _ _ => "ModuleNotFoundError"

def message : LibraryError → String
  | .noGrammar language => s!"Language has no grammar: {language}"
  | .noLibrary name => s!"No module named {Text.quoted name}"
  | .noEntry library entry => s!"module {Text.quoted library} has no attribute {Text.quoted entry}"
  | .notEntry kind => s!"{Text.quoted kind} object is not callable"
  | .noName => "Empty module name"
  | .relative name =>
    s!"no package specified for {Text.quoted name} (required for relative module names)"
  | .noParts library name =>

    s!"__path__ attribute not found on {Text.quoted library} " ++
      s!"while trying to find {Text.quoted name}"

end LibraryError

namespace Library

def part (lib : Library) (part : String) : Library := ⟨lib.name ++ "." ++ part, lib.members, none⟩

/-- Looks for a part by the names of parts; to find one, those before it have to be there. -/
def findPart (lib : Library) (full : String) : List String → Except LibraryError (Option Library)
  | [] => .ok (some lib)
  | p :: rest =>
    match lib.parts with
    | none => .error (.noParts lib.name full)
    | some parts =>
      if parts.contains p then (lib.part p).findPart full rest
      else if rest.isEmpty then .ok none
      else .error (.noLibrary (lib.name ++ "." ++ p))

/-- Looks for a library by its full name. A name that starts with a point is relative to nothing. -/
def find (full : String) : Except LibraryError (Option Library) :=
  match (Text.cutAt '.' full.toList).map String.ofList with
  | [] => .ok none
  | [name] => .ok (named? name)
  | name :: rest =>
    if name.isEmpty then .error (.relative full)
    else match named? name with
      | none => .error (.noLibrary name)
      | some lib => lib.findPart full rest

end Library

namespace Language

def isInstalled (l : Language) : Except LibraryError Bool :=
  match l.library with
  | none => .ok false
  | some name => (Library.find name).map (·.isSome)

def entryName (l : Language) : String :=
  match l.entry with
  | some e => if e.isEmpty then Library.defaultEntry else e
  | none => Library.defaultEntry

def locate (l : Language) : Except LibraryError (Library × String) :=
  match l.library with
  | none => .error (.noGrammar l.name)
  | some name =>
    if name.isEmpty then .error .noName
    else (Library.find name).bind fun found =>
      match found with
      | none => .error (.noLibrary name)
      | some lib =>
        match lib.members.lookup l.entryName with
        | some .entry => .ok (lib, l.entryName)
        | some (.object kind) => .error (.notEntry kind)
        | none => .error (.noEntry lib.name l.entryName)

end Language

end SourceOutline
