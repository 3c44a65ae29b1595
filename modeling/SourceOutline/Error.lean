import SourceOutline.Value.Display

/-! Errors that are reported to the user: why a file has no outline, and why settings are refused.
Each has a code, a message and the details from which the message is made. -/
namespace SourceOutline

inductive ErrorCode where
  | settingsParse
  | settingsValue
  | unsupportedLanguage
  | grammarLoad
  | parse
  | query
  | read
  | internal
deriving DecidableEq, Repr

namespace ErrorCode

def number : ErrorCode → Nat
  | .settingsParse => 2001
  | .settingsValue => 2002
  | .unsupportedLanguage => 3001
  | .grammarLoad => 3002
  | .parse => 3003
  | .query => 3004
  | .read => 3005
  | .internal => 9001

def name : ErrorCode → String
  | .settingsParse => "CONFIG_PARSE_ERROR"
  | .settingsValue => "CONFIG_INVALID_VALUE"
  | .unsupportedLanguage => "UNSUPPORTED_LANGUAGE"
  | .grammarLoad => "GRAMMAR_LOAD_FAILURE"
  | .parse => "PARSE_FAILURE"
  | .query => "QUERY_EXECUTION_FAILURE"
  | .read => "IO_FAILURE"
  | .internal => "INTERNAL_ERROR"

end ErrorCode

structure ErrorReport where
  code : ErrorCode
  message : String
  retryable : Bool
  details : List (String × Value)

namespace ErrorReport

def name (r : ErrorReport) : String := r.code.name

def toValue (r : ErrorReport) : Value :=
  .record [("code", .int r.code.number), ("error", .text r.name), ("message", .text r.message),
    ("retryable", .bool r.retryable), ("details", .record r.details)]

def line (r : ErrorReport) : String := s!"[{r.code.number}] {r.name}: {r.message}"

def reason? (r : ErrorReport) : Option Value := r.details.lookup "reason"

end ErrorReport

/-- Why a file has no outline. What an error is about is mostly text, but any value can be reported,
and a component may raise an error with a report of its own making. -/
inductive OutlineError where
  | unsupportedLanguage (target : Value)
  | grammarLoad (language reason : Value)
  | parse (target reason : Value)
  | query (language reason : Value)
  | read (path reason : Value)
  | unexpected (path reason : Value)
  | raised (report : ErrorReport)

namespace OutlineError

/-- Loading a grammar may succeed another time; nothing else may. -/
def report : OutlineError → ErrorReport
  | .unsupportedLanguage target =>
    ⟨.unsupportedLanguage, s!"No grammar or fallback parser for {target.plain}", false,
      [("target", target)]⟩
  | .grammarLoad language reason =>
    ⟨.grammarLoad, s!"Failed to load grammar '{language.plain}': {reason.plain}", true,
      [("language", language), ("reason", reason)]⟩
  | .parse target reason =>
    ⟨.parse, s!"Parser faulted on {target.plain}: {reason.plain}", false,
      [("target", target), ("reason", reason)]⟩
  | .query language reason =>
    ⟨.query, s!"Definition query failed for '{language.plain}': {reason.plain}", false,
      [("language", language), ("reason", reason)]⟩
  | .read path reason =>
    ⟨.read, s!"Cannot read {path.plain}: {reason.plain}", false,
      [("path", path), ("reason", reason)]⟩
  | .unexpected path reason =>
    ⟨.internal, s!"Unexpected failure extracting {path.plain}: {reason.plain}", false,
      [("path", path), ("reason", reason)]⟩
  | .raised report => report

def code (e : OutlineError) : ErrorCode := e.report.code

def name (e : OutlineError) : String := e.report.name

theorem name_eq (e : OutlineError) : e.name = e.code.name := rfl

def message (e : OutlineError) : String := e.report.message

def reason? (e : OutlineError) : Option Value := e.report.reason?

end OutlineError

/-- What a component may raise: an error that is reported as it stands, or a fault that no stage
expects. -/
inductive Trouble where
  | known (e : OutlineError)
  | crash (f : Fault)

def Trouble.fault : Trouble → Fault
  | .known e => ⟨"ExtractionError", e.report.line⟩
  | .crash f => f

/-- Why settings are refused. The value at fault is reported by its printed form. -/
inductive SettingsError where
  | unreadable (path reason : Value)
  | invalid (field value reason : Value)

namespace SettingsError

def report : SettingsError → ErrorReport
  | .unreadable path reason =>
    ⟨.settingsParse, s!"Failed to parse config at {path.plain}: {reason.plain}", false,
      [("path", path), ("reason", reason)]⟩
  | .invalid field value reason =>
    ⟨.settingsValue, s!"Invalid value for '{field.plain}': {reason.plain}", false,
      [("field", field), ("value", .text value.plain), ("reason", reason)]⟩

end SettingsError

end SourceOutline
