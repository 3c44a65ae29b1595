import SourceOutline.Text.Quoted
import SourceOutline.Value

/-! Log events. An event has a name, a level and fields; while a batch runs, every event also
carries the batch's id. -/
namespace SourceOutline

inductive Level where
  | debug
  | info
  | warning
  | error
  | critical
deriving DecidableEq, Repr

namespace Level

def number : Level → Nat
  | .debug => 10
  | .info => 20
  | .warning => 30
  | .error => 40
  | .critical => 50

def word : Level → String
  | .debug => "debug"
  | .info => "info"
  | .warning => "warning"
  | .error => "error"
  | .critical => "critical"

def names : List (String × Level) :=
  [("DEBUG", .debug), ("INFO", .info), ("WARNING", .warning), ("ERROR", .error),
    ("CRITICAL", .critical)]

def named? (name : String) : Option Level := names.lookup name

def passes (l threshold : Level) : Bool := decide (threshold.number ≤ l.number)

end Level

structure BatchId where
  text : String
  generated : Bool
deriving DecidableEq, Repr

/-- The given id, or a new one of twelve hexadecimal digits when none is given. -/
def BatchId.make (given : Option String) (serial : Nat) : BatchId :=
  let fresh : BatchId := ⟨String.ofList (Text.hexDigits 12 (serial % Nat.pow 16 12)), true⟩
  match given with
  | some s => if s.isEmpty then fresh else ⟨s, false⟩
  | none => fresh

structure BatchState where
  current : Option BatchId
  serial : Nat
deriving DecidableEq, Repr

namespace BatchState

def start : BatchState := ⟨none, 0⟩

def set (given : Option String) (s : BatchState) : BatchState :=
  ⟨some (BatchId.make given s.serial), s.serial + 1⟩

def clear (s : BatchState) : BatchState := ⟨none, s.serial⟩

def stamp (s : BatchState) (fields : Entries) : Entries :=
  match s.current with
  | some id => Entries.put (.text "batch_id") (.text id.text) fields
  | none => fields

end BatchState

structure Event where
  name : String
  level : Level
  fields : List (String × Value)
  batch : Option BatchId

end SourceOutline
