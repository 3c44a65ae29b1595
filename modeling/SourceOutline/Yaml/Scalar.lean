import SourceOutline.Calendar
import SourceOutline.Text.Case
import SourceOutline.Value.Display
import SourceOutline.Yaml.Tag
import SourceOutline.Yaml.Token

/-! What scalars mean: the value of a text under a tag. -/
namespace SourceOutline.Yaml

/-! ### Numbers -/

def maxQuoted : Nat := 200

def badLiteral (base : Nat) (cs : List Char) : Fault :=
  let quoted := String.ofList ((Text.quotedChars cs).take maxQuoted)
  .badValue s!"invalid literal for int() with base {base}: {quoted}"

def digitIn? (base : Nat) (c : Char) : Option Nat :=
  ((Json.hexDigit? c).or (Text.digit? c)).filter (· < base)

def baseMark? : Nat → Option (Char × Char)
  | 2 => some ('b', 'B')
  | 8 => some ('o', 'O')
  | 16 => some ('x', 'X')
  | _ => none

def dropBaseMark (base : Nat) (cs : List Char) : List Char :=
  match cs, baseMark? base with
  | '0' :: c :: rest, some (small, capital) => if c == small || c == capital then rest else cs
  | _, _ => cs

def isNegative (cs : List Char) : Bool := cs.head? == some '-'

def signedInt (negative : Bool) (n : Int) : Int := if negative then -n else n

/-- A whole number in a base, with a sign and blank ends allowed. Only decimal numbers have a
greatest length. -/
def wholeIn (base : Nat) (cs : List Char) : Except Fault Int :=
  let body := Text.trimChars cs
  let ds := dropBaseMark base (dropSign body)
  let run := ds.takeWhile fun c => (digitIn? base c).isSome
  if base == 10 && decide (Text.maxDigits < run.length) then .error (tooManyDigits run.length)
  else match ds.mapM (digitIn? base) with
    | some (d :: more) =>
      .ok (signedInt (isNegative body) ((d :: more).foldl (fun n d => base * n + d) 0 : Nat))
    | _ => .error (badLiteral base cs)

def badStringIndex : Fault := ⟨"IndexError", "string index out of range"⟩

def magnitude (cs : List Char) : Except Fault Int :=
  match cs with
  | [] => .error badStringIndex
  | ['0'] => .ok 0
  | '0' :: 'b' :: rest => wholeIn 2 rest
  | '0' :: 'x' :: rest => wholeIn 16 rest
  | '0' :: rest => wholeIn 8 ('0' :: rest)
  | _ =>
    if cs.contains ':' then do
      let parts ← (Text.cutAt ':' cs).mapM (wholeIn 10)
      return parts.foldl (fun n d => 60 * n + d) (0 : Int)
    else wholeIn 10 cs

def intOf (cs : List Char) : Except Fault Int :=
  let cs := cs.filter (· != '_')
  if cs.isEmpty then .error badStringIndex
  else (magnitude (dropSign cs)).map (signedInt (isNegative cs))

def decimal? (cs : List Char) : Option Binary64 :=
  let (whole, rest) := cs.span Char.isDigit
  let (frac, rest) := match rest with
    | '.' :: rest => rest.span Char.isDigit
    | _ => ([], rest)
  let (exp, rest) := Json.exponent? rest
  if (whole.isEmpty && frac.isEmpty) || !rest.isEmpty then none
  else some
    (Binary64.ofDecimal false (Json.digitsNumber (whole ++ frac)) (exp.getD 0 - frac.length))

def realWord? (cs : List Char) : Option Binary64 :=
  match String.ofList cs with
  | "inf" => some (.infinite false)
  | "infinity" => some (.infinite false)
  | "nan" => some .notANumber
  | _ => none

def plainDigits (cs : List Char) : List Char :=
  cs.map fun c => match Text.digit? c with
    | some d => Char.ofNat (0x30 + d)
    | none => c

def magnitudeReal (cs : List Char) : Except Fault Binary64 :=
  let body := plainDigits (Text.trimChars cs)
  let negative := isNegative body
  match (decimal? (dropSign body)).or (realWord? (dropSign body)) with
  | some x => .ok (if negative then x.negate else x)
  | none =>
    .error (.badValue s!"could not convert string to float: {String.ofList (Text.quotedChars cs)}")

def unitTooLarge (parts : Nat) : Bool :=
  decide (Nat.pow 2 1024 - Nat.pow 2 970 ≤ Nat.pow 60 (parts - 1))

def sixtyReal (parts : List Binary64) : Except Fault Binary64 :=
  if unitTooLarge parts.length then .error ⟨"OverflowError", "int too large to convert to float"⟩
  else .ok (parts.reverse.foldl (fun (sum, unit) x => (sum.add (x.scaleBy unit), unit * 60))
    (Binary64.zero false, 1)).1

def realOf (cs : List Char) : Except Fault Binary64 := do
  let cs := Text.lowerChars (cs.filter (· != '_'))
  if cs.isEmpty then .error badStringIndex
  else
    let body := dropSign cs
    let x ← if body == ".inf".toList then pure (.infinite false)
      else if body == ".nan".toList then pure .notANumber
      else if body.contains ':' then do
        let parts ← (Text.cutAt ':' body).mapM magnitudeReal
        sixtyReal parts
      else magnitudeReal body
    return if isNegative cs then x.negate else x

/-! ### Times -/

def dateOf (year month day : Nat) : Except Fault Date :=
  if year == 0 then .error (.badValue s!"year {year} is out of range")
  else if month == 0 || 12 < month then .error (.badValue "month must be in 1..12")
  else if day == 0 || daysIn year month < day then
    .error (.badValue "day is out of range for month")
  else .ok ⟨year, month, day⟩

def zoneOffset (zone : List Char) : Except Fault (Option Int) :=
  match zone with
  | [] => .ok none
  | ['Z'] => .ok (some 0)
  | c :: cs =>
    let (h, m) := match Text.cutAt ':' cs with
      | [h, m] => (Json.digitsNumber h, Json.digitsNumber m)
      | _ => (Json.digitsNumber cs, 0)
    let minutes := signedInt (c == '-') (h * 60 + m)
    if minutes.natAbs < 1440 then .ok (some minutes)
    else
      let seconds := minutes * 60
      let days := Int.fdiv seconds 86400
      let rest := Int.fmod seconds 86400
      let shown := if rest == 0 then s!"days={days}" else s!"days={days}, seconds={rest}"
      .error (.badValue ("offset must be a timedelta strictly between -timedelta(hours=24) and " ++
        s!"timedelta(hours=24), not datetime.timedelta({shown})."))

def microseconds (fraction : List Char) : Nat :=
  let ds := fraction.take 6
  Json.digitsNumber (ds ++ List.replicate (6 - ds.length) '0')

def timeOf (t : TimeText) : Except Fault Scalar := do
  let year := Json.digitsNumber t.year
  let month := Json.digitsNumber t.month
  let day := Json.digitsNumber t.day
  match t.clock with
  | none => return .date (← dateOf year month day)
  | some (hour, minute, second, fraction) =>
    let offset ← zoneOffset t.zone
    let date ← dateOf year month day
    let hour := Json.digitsNumber hour
    let minute := Json.digitsNumber minute
    let second := Json.digitsNumber second
    if 23 < hour then .error (.badValue "hour must be in 0..23")
    else if 59 < minute then .error (.badValue "minute must be in 0..59")
    else if 59 < second then .error (.badValue "second must be in 0..59")
    else return .moment ⟨date, hour, minute, second, microseconds fraction, offset⟩

/-! ### Truth values, and scalars by form -/

def boolOf (cs : List Char) : Except Fault Bool :=
  let word := Text.lowerChars cs
  match truths.lookup (String.ofList word) with
  | some b => .ok b
  | none => .error ⟨"KeyError", String.ofList (Text.quotedChars word)⟩

/-! ### Bytes -/

def base64Digit? (c : Char) : Option Nat :=
  if c.isUpper then some (c.toNat - 65)
  else if c.isLower then some (c.toNat - 71)
  else if c.isDigit then some (c.toNat + 4)
  else if c == '+' then some 62
  else if c == '/' then some 63
  else none

/-- Reads on: how many digits of a group of four were read, what is left of the last of them, and
the fillers after it. Other characters are passed over; the fillers that complete a group end the
text. -/
def base64From : Nat → Nat → Nat → List Char → Option (List UInt8)
  | place, _, _, [] => if place == 0 then some [] else none
  | place, rest, fillers, c :: cs =>
    if c == '=' then
      if 2 ≤ place ∧ 4 ≤ place + fillers + 1 then some []
      else base64From place rest (if 2 ≤ place then fillers + 1 else fillers) cs
    else match base64Digit? c with
      | none => base64From place rest fillers cs
      | some d =>
        match place with
        | 0 => base64From 1 d 0 cs
        | 1 => (base64From 2 (d % 16) 0 cs).map ((rest * 4 + d / 16).toUInt8 :: ·)
        | 2 => (base64From 3 (d % 4) 0 cs).map ((rest * 16 + d / 4).toUInt8 :: ·)
        | _ => (base64From 0 0 0 cs).map ((rest * 64 + d).toUInt8 :: ·)

def bytesOf (cs : List Char) : Except YamlError (List UInt8) :=
  if cs.all fun c => decide (c.toNat < 0x80) then need (base64From 0 0 0 cs) else malformed

/-! ### Scalars -/

def timeScalar (cs : List Char) : Except Fault Scalar :=
  match timeText? (dropFinalFeed cs) with
  | some t => timeOf t
  | none => .error ⟨"AttributeError", "'NoneType' object has no attribute 'groupdict'"⟩

def scalarOf? (tag : Tag) (cs : List Char) : Option (Except YamlError Scalar) :=
  match tag with
  | .null => some (.ok .null)
  | .bool => some (((boolOf cs).map .bool).mapError .fault)
  | .int => some (((intOf cs).map .int).mapError .fault)
  | .real => some (((realOf cs).map .real).mapError .fault)
  | .bytes => some ((bytesOf cs).map .bytes)
  | .time => some ((timeScalar cs).mapError .fault)
  | .text => some (.ok (.text (String.ofList cs)))
  | _ => none

end SourceOutline.Yaml
