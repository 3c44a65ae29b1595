import SourceOutline.Settings.Check
import SourceOutline.Settings.Environment
import SourceOutline.Value.Display

/-! Overrides: settings that a caller gives by name. Some names are reserved; they are no settings,
but say where the repository is and how the environment is read. -/
namespace SourceOutline

/-- What a caller gives. The directory of the repository may be given apart from the names. -/
structure Overrides where
  rootGiven : Bool
  entries : Entries

namespace Overrides

def rootName : String := "repo_root"

def sortOf : Value → String
  | .scalar .null => "NoneType"
  | .scalar (.bool _) => "bool"
  | .scalar (.int _) => "int"
  | .scalar (.real _) => "float"
  | .list _ => "list"
  | .map _ => "dict"
  | _ => "str"

/-- The directory may be given once, and no value that can be an override is a directory; an empty
one counts for nothing. -/
def checkRoot (o : Overrides) : Except Fault Unit :=
  match o.entries.get? rootName with
  | none => .ok ()
  | some v =>
    if o.rootGiven then
      .error ⟨"TypeError",
      s!"load_config() got multiple values for argument {Text.quoted rootName}"⟩
    else if v.isEmpty then .ok ()
    else .error ⟨"TypeError",
      s!"unsupported operand type(s) for /: {Text.quoted (sortOf v)} and 'str'"⟩

def idle : List String :=
  ["_env_file", "_env_file_encoding", "_env_parse_enums", "_nested_model_default_partial_update",
   "_secrets_dir", "_cli_prog_name", "_cli_parse_none_str", "_cli_hide_none_type",
   "_cli_avoid_json", "_cli_enforce_required", "_cli_use_class_docs_for_groups",
   "_cli_exit_on_error", "_cli_prefix", "_cli_flag_prefix_char", "_cli_implicit_flags",
   "_cli_ignore_unknown_args", "_cli_kebab_case", "_cli_shortcuts"]

def ruleNames : List String :=
  ["_env_prefix", "_env_nested_delimiter", "_case_sensitive", "_env_ignore_empty",
    "_env_parse_none_str",
   "_env_nested_max_split"]

def isReserved (k : Scalar) : Bool :=
  match k with
  | .text s => s == rootName || idle.contains s || ruleNames.contains s
  | _ => false

def given? (o : Overrides) (name : String) : Option Value :=
  (o.entries.get? name).filter (!·.isNull)

def rules (o : Overrides) : EnvironmentRules :=
  let standard := EnvironmentRules.standard
  let text (name : String) (otherwise : String) := ((o.given? name).map Value.plain).getD otherwise
  let flag (name : String) := ((o.given? name).map (!·.isEmpty)).getD false
  { start := text "_env_prefix" standard.start
    separator := text "_env_nested_delimiter" standard.separator
    exactCase := flag "_case_sensitive"
    ignoreEmpty := flag "_env_ignore_empty"
    nullText := (o.given? "_env_parse_none_str").map Value.plain
    maxKeys := (o.given? "_env_nested_max_split").bind fun v => match v with
      | .scalar (.int n) => if 0 < n then some n.toNat else none
      | _ => none }

def names (sec : String) (k : Scalar) : Bool :=
  match k with
  | .text s => Text.lower s == sec
  | _ => false

/-- The settings among the overrides, the sections first. Of several spellings of a section the
first counts. -/
def settings (o : Overrides) : Entries :=
  let es := List.filter (fun e => !isReserved e.1) o.entries
  let found := Settings.sections.filterMap fun sec => (es.find? fun e => names sec e.1).map fun e =>
    (Scalar.text sec, e.2)
  found ++ es.filter fun e => !Settings.sections.any (names · e.1)

end Overrides

end SourceOutline
