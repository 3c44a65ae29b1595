import SourceOutline.Fault
import SourceOutline.Number.Shortest
import SourceOutline.Text.Digits
import SourceOutline.Text.Quoted
import SourceOutline.Value

/-! The printed form of values, as it stands in error reports and log lines. Inside a list or a map
every scalar is written so that its sort can be told: texts in quotes, dates by their parts. Alone,
a text or a date is written plainly. -/
namespace SourceOutline

/-- A point up to sixteen digits to the right of the first digit, or three zeros to its left, is
written out; an exponent has two digits or more. -/
def Binary64.layout : DecimalLayout := ⟨-4, 16, 2⟩

def Binary64.show : Binary64 → String
  | .finite s m e =>
    let digits := if m == 0 then ['0', '.', '0'] else layout.write (shortest m e)
    String.ofList (if s then '-' :: digits else digits)
  | .infinite s => if s then "-inf" else "inf"
  | .notANumber => "nan"

def padded (width n : Nat) : String :=
  let ds := Nat.toDigits 10 n
  String.ofList (List.replicate (width - ds.length) '0' ++ ds)

namespace Date

def parts (d : Date) : String := s!"{d.year}, {d.month}, {d.day}"

def plain (d : Date) : String := padded 4 d.year ++ "-" ++ padded 2 d.month ++ "-" ++ padded 2 d.day

end Date

namespace Moment

def offsetText (minutes : Int) : String :=
  let n := minutes.natAbs
  (if minutes < 0 then "-" else "+") ++ padded 2 (n / 60) ++ ":" ++ padded 2 (n % 60)

def offsetParts (minutes : Int) : String :=
  if minutes == 0 then "datetime.timezone.utc"
  else
    let seconds := minutes * 60
    if seconds < 0 then
      s!"datetime.timezone(datetime.timedelta(days=-1, seconds={seconds + 86400}))"
    else s!"datetime.timezone(datetime.timedelta(seconds={seconds}))"

def parts (m : Moment) : String :=
  let seconds := if m.second == 0 && m.microsecond == 0 then "" else s!", {m.second}"
  let micro := if m.microsecond == 0 then "" else s!", {m.microsecond}"
  let zone := match m.offset with
    | none => ""
    | some o => ", tzinfo=" ++ offsetParts o
  s!"datetime.datetime({m.date.parts}, {m.hour}, {m.minute}" ++ seconds ++ micro ++ zone ++ ")"

def plain (m : Moment) : String :=
  let micro := if m.microsecond == 0 then "" else "." ++ padded 6 m.microsecond
  m.date.plain ++ " " ++ padded 2 m.hour ++ ":" ++ padded 2 m.minute ++ ":" ++ padded 2
    m.second ++ micro ++
    (m.offset.map offsetText).getD ""

end Moment

def quotedBytes (bs : List UInt8) : String :=
  let cs := bs.map fun b => Char.ofNat b.toNat
  let q := Text.quoteFor cs
  let one (c : Char) : List Char :=
    if c.toNat < 0x80 then Text.quotedChar q c else Text.codeEscape c.toNat
  String.ofList ('b' :: q :: cs.flatMap one ++ [q])

def Scalar.show : Scalar → String
  | .null => "None"
  | .bool b => if b then "True" else "False"
  | .int n => toString n
  | .real x => x.show
  | .text s => Text.quoted s
  | .bytes bs => quotedBytes bs
  | .date d => s!"datetime.date({d.parts})"
  | .moment m => m.parts

mutual

def Value.show : Value → String
  | .scalar s => s.show
  | .list items => "[" ++ Value.showItems items ++ "]"
  | .map entries => "\x7b" ++ Value.showEntries entries ++ "\x7d"
  | .set items =>
    if items.isEmpty then "set()" else "\x7b" ++ ", ".intercalate (items.map Scalar.show) ++ "\x7d"
  | .pair a b => "(" ++ a.show ++ ", " ++ b.show ++ ")"
  | .back _ isList => if isList then "[...]" else "\x7b...\x7d"

def Value.showItems : List Value → String
  | [] => ""
  | [v] => v.show
  | v :: vs => v.show ++ ", " ++ Value.showItems vs

def Value.showEntries : List (Scalar × Value) → String
  | [] => ""
  | [(k, v)] => k.show ++ ": " ++ v.show
  | (k, v) :: rest => k.show ++ ": " ++ v.show ++ ", " ++ Value.showEntries rest

end

def longNumber : Fault :=
  .badValue (s!"Exceeds the limit ({Text.maxDigits} digits) for integer string conversion; use " ++
    "sys.set_int_max_str_digits() to increase the limit")

def deepPrinting : Fault :=
  ⟨"RecursionError", "maximum recursion depth exceeded while getting the repr of an object"⟩

def Scalar.printFault? : Scalar → Option Fault
  | .int n => if n.natAbs < Nat.pow 10 Text.maxDigits then none else some longNumber
  | _ => none

mutual

def Value.printFault? : Nat → Value → Option Fault
  | _, .scalar s => s.printFault?
  | _, .back _ _ => none
  | 0, _ => some deepPrinting
  | room + 1, .list items => Value.itemsFault? room items
  | room + 1, .map entries => Value.entriesFault? room entries
  | _ + 1, .set items => items.findSome? Scalar.printFault?
  | room + 1, .pair a b => (a.printFault? room).or (b.printFault? room)

def Value.itemsFault? : Nat → List Value → Option Fault
  | _, [] => none
  | room, v :: vs => (Value.printFault? room v).or (Value.itemsFault? room vs)

def Value.entriesFault? : Nat → List (Scalar × Value) → Option Fault
  | _, [] => none
  | room, (k, v) :: es =>
    (k.printFault?.or (Value.printFault? room v)).or (Value.entriesFault? room es)

end

def Value.plain : Value → String
  | .scalar (.text s) => s
  | .scalar (.date d) => d.plain
  | .scalar (.moment m) => m.plain
  | v => v.show

end SourceOutline
