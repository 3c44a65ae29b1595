import SourceOutline.Fault
import SourceOutline.Query.Reader
import SourceOutline.Text.Lines

/-! Compiling queries. A flaw is reported by row and column. To find the row, the text is cut at
runs of line feeds, and the line feed after each piece that was looked at is overwritten by a null
character: the next attempt reads the text that the failed one left behind. -/
namespace SourceOutline.Query

def nul : Char := '\x00'

def pieceLengths (cs : List Char) : List Nat :=
  (((Text.cutAt '\n' (cs.takeWhile (· != nul))).filter (!·.isEmpty))).map byteLength

/-- Row and column of an offset; a piece takes one byte more than its length. -/
def rowColumn (offset : Nat) : Nat → Nat → List Nat → Nat × Nat
  | row, start, [] => (row, offset - start)
  | row, start, n :: rest =>
    if offset < start + n + 1 then (row, offset - start)
      else rowColumn offset (row + 1) (start + n + 1) rest

def Flaw.place (f : Flaw) (cs : List Char) : Nat × Nat := rowColumn f.offset 0 0 (pieceLengths cs)

def Flaw.message (f : Flaw) (cs : List Char) : String :=
  let (row, column) := f.place cs
  match f.cause with
  | .malformed =>
    if f.offset < byteLength cs then s!"Invalid syntax at row {row}, column {column}"
      else "Unexpected EOF"
  | .unknownKind name => s!"Invalid node type at row {row}, column {column}: {name}"
  | .unknownField name => s!"Invalid field name at row {row}, column {column}: {name}"

def overwrite : Nat → Bool → List Char → List Char
  | 0, _, cs => cs
  | _ + 1, _, [] => []
  | k + 1, inPiece, c :: cs =>
    if c == nul then c :: cs
    else if c == '\n' then
      (if inPiece then nul :: overwrite k false cs else c :: overwrite (k + 1) false cs)
    else c :: overwrite (k + 1) true cs

def Flaw.remains (f : Flaw) (cs : List Char) : List Char := overwrite ((f.place cs).1 + 1) false cs

def attempt (v : Vocabulary) : Nat → List Char → Except String Query
  | earlier, cs =>
    match earlier, read v cs with
    | _, .ok q => .ok q
    | 0, .error f => .error (f.message cs)
    | n + 1, .error f => attempt v n (f.remains cs)

def compile (v : Vocabulary) (text : String) (earlier : Nat) : Except Fault Query :=
  (attempt v earlier text.toList).mapError fun reason => ⟨"QueryError", reason⟩

end SourceOutline.Query
