import SourceOutline.Text.Blank

/-! Source lines. Only the line feed ends a line, as in the row numbers of a syntax tree; a carriage
return stays in the line it ends. -/
namespace SourceOutline.Text

/-- One step of `cutAt`, from the right: a separator opens a new piece, any other element joins the
first piece. -/
def cutStep [BEq α] (sep c : α) (pieces : List (List α)) : List (List α) :=
  if c == sep then [] :: pieces
  else match pieces with
    | [] => [[c]]
    | piece :: rest => (c :: piece) :: rest

/-- The pieces between separators. There is always at least one piece. -/
def cutAt [BEq α] (sep : α) (cs : List α) : List (List α) :=
  cs.foldr (cutStep sep) [[]]

@[simp] theorem cutAt_nil [BEq α] (sep : α) : cutAt sep [] = [[]] := rfl

@[simp] theorem cutAt_cons [BEq α] (sep c : α) (cs : List α) :
    cutAt sep (c :: cs) = cutStep sep c (cutAt sep cs) := rfl

/-- A final empty piece is dropped when it is not the only piece: a line feed at the very end opens
no further line. -/
def dropFinalEmpty (pieces : List (List α)) : List (List α) :=
  match pieces.getLast? with
  | some [] => if pieces.length ≤ 1 then pieces else pieces.dropLast
  | _ => pieces

def lineChars (cs : List Char) : List (List Char) :=
  dropFinalEmpty (cutAt '\n' cs)

def lines (text : String) : List String :=
  (lineChars text.toList).map String.ofList

def isLineEnd (c : Char) : Bool :=
  [0x0A, 0x0B, 0x0C, 0x0D, 0x1C, 0x1D, 0x1E, 0x85, 0x2028, 0x2029].contains c.toNat

def splitStep (c : Char) (next : List Char) (lines : List (List Char)) : List (List Char) :=
  if isLineEnd c then (if c == '\r' && next.head? == some '\n' then lines else [] :: lines)
  else match lines with
    | [] => [[c]]
    | line :: rest => (c :: line) :: rest

/-- The lines of written text, without their ends. Nothing after the last end is no line. -/
def splitLines : List Char → List (List Char)
  | [] => []
  | c :: cs => splitStep c cs (splitLines cs)

theorem cutAt_ne_nil [BEq α] (sep : α) (cs : List α) : cutAt sep cs ≠ [] := by
  cases cs with
  | nil => simp
  | cons c cs =>
    rw [cutAt_cons]
    unfold cutStep
    split
    · simp
    · split <;> simp

end SourceOutline.Text
