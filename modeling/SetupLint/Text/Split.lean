/-! Pieces of a text: between separators, before and after a mark. -/
namespace SetupLint.Text

/-- The pieces between the characters that satisfy `gap`. A text without such
a character is a single piece. -/
def pieces (gap : Char → Bool) : List Char → List (List Char)
  | [] => [[]]
  | c :: cs =>
    if gap c then [] :: pieces gap cs
    else match pieces gap cs with
      | [] => [[c]]
      | piece :: rest => (c :: piece) :: rest

/-- The lines of a text: the pieces between its line feeds. -/
def lines (cs : List Char) : List (List Char) := pieces (· == '\n') cs

/-- A line without a carriage return at its end. -/
def withoutReturn (line : List Char) : List Char :=
  if line.getLast? = some '\r' then line.dropLast else line

/-- The lines of a text as they are read one after another. A carriage return before a line
feed belongs to the break, and behind the last break there is a line only if it has text. -/
def readLines (cs : List Char) : List (List Char) :=
  (lines cs).dropLast.map withoutReturn ++
    ((lines cs).getLast?.filter fun line => !line.isEmpty).toList

/-- The text behind `start`, if the text starts with it. -/
def behind? (start cs : List Char) : Option (List Char) :=
  if start.isPrefixOf cs then some (cs.drop start.length) else none

/-- The maximal runs of characters that do not satisfy `gap`. -/
def runs (gap : Char → Bool) (cs : List Char) : List (List Char) :=
  (pieces gap cs).filter fun piece => !piece.isEmpty

/-- The text behind the first occurrence of `mark`. -/
def after? (mark : List Char) : List Char → Option (List Char)
  | [] => if mark.isEmpty then some [] else none
  | c :: cs =>
    if mark.isPrefixOf (c :: cs) then some ((c :: cs).drop mark.length) else after? mark cs

/-- The text up to the first occurrence of `mark`, or all of it. -/
def before (mark : List Char) : List Char → List Char
  | [] => []
  | c :: cs => if mark.isPrefixOf (c :: cs) then [] else c :: before mark cs

def contains (part cs : List Char) : Bool := (after? part cs).isSome

/-- A text has at least one piece, perhaps an empty one. -/
theorem pieces_ne_nil (gap : Char → Bool) (cs : List Char) : pieces gap cs ≠ [] := by
  cases cs with
  | nil => simp [pieces]
  | cons c cs =>
    simp only [pieces]
    split
    · simp
    · split <;> simp

end SetupLint.Text
