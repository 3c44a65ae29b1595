import SourceOutline.Capture
import SourceOutline.Error
import SourceOutline.Outline.InlineMarkup

/-! From captures to an outline. Captures of definitions that are long enough become candidates, the
candidates are put in the order of their first lines, and each range is listed once, under the
trimmed text of its first line. A candidate that marks a whole block is left out when that line is
inline markup; one that marks a name is not. -/
namespace SourceOutline

/-- A test on the first line of a block. It may raise anything, because callers bring their own. -/
abbrev LineTest := String → Except Trouble Bool

def InlineMarkup.test : LineTest := fun line => .ok (InlineMarkup.holds line)

structure Candidate where
  range : LineRange
  named : Bool
deriving DecidableEq, Repr

inductive SynthesisError where
  | minLines (n : Int)
  | noSuchLine
  | inverted (range : LineRange)
  | lineTest (trouble : Trouble)

def minLinesMessage (n : Int) : String := s!"min_lines must be >= 1, got {n}"

/-- What a line test raises goes on as it is; the rest are faults. -/
def SynthesisError.trouble : SynthesisError → Trouble
  | .minLines n => .crash (.badValue (minLinesMessage n))
  | .noSuchLine => .crash .badIndex
  | .inverted r => .crash (.badValue r.invertedMessage)
  | .lineTest t => t

def SynthesisError.fault (e : SynthesisError) : Fault := e.trouble.fault

/-- The candidate that a capture gives: none for a helper, and none for a span with fewer than
`minLines` lines. -/
def Capture.candidate? (minLines : Int) (c : Capture) : Option Candidate :=
  if c.isDefinition && decide (minLines ≤ c.span.size) then some ⟨c.span, c.isName⟩ else none

/-- All candidates in the order of their first lines; candidates on one line keep the order of their
captures. -/
def candidates (minLines : Int) (captures : List Capture) : List Candidate :=
  (captures.filterMap (Capture.candidate? minLines)).mergeSort
    (fun a b => decide (a.range.first ≤ b.range.first))

/-- The text of line `n`. A negative number counts from the end, and past the last line the text is
empty. -/
def lineAt (lines : List String) (n : Int) : Except SynthesisError String :=
  if n < lines.length then
    let k := if n < 0 then n + lines.length else n
    if k < 0 then .error .noSuchLine else .ok (lines.getD k.toNat "")
  else .ok ""

def labelAt (lines : List String) (n : Int) : Except SynthesisError String :=
  (lineAt lines n).map Text.trim

/-- Whether a candidate is left out as inline markup. Names never are, and their line is not
tested. -/
def Candidate.isInline (test : LineTest) (label : String) (c : Candidate) :
    Except SynthesisError Bool :=
  if c.named then .ok false else (test label).mapError .lineTest

def listing (lines : List String) (test : LineTest) :
    List LineRange → List Candidate → Except SynthesisError (List Definition)
  | _, [] => .ok []
  | seen, c :: cs =>
    if c.range ∈ seen then listing lines test seen cs else do
      let label ← labelAt lines c.range.first
      if ← c.isInline test label then listing lines test seen cs else
        let d ← (Definition.make c.range label).mapError .inverted
        let rest ← listing lines test (c.range :: seen) cs
        return d :: rest

/-- The outline of a file: its definitions in order, or nothing when none qualifies. -/
def synthesize (captures : List Capture) (lines : List String) (minLines : Int) (test : LineTest) :
    Except SynthesisError (Option (List Definition)) :=
  if minLines < 1 then .error (.minLines minLines) else do
    match ← listing lines test [] (candidates minLines captures) with
    | [] => return none
    | ds => return some ds

end SourceOutline
