import SetupLint.Text.Offset

/-! Lines of a text and the positions of byte offsets in them. A line ends at
a line feed; lines are counted from 0 and a column counts characters.

Offsets and the numbers of lines are kept in 32 bits. What does not fit is cut down to its low
bits, so an index is that of its text only if the text is shorter than `2 ^ 32` bytes. -/
namespace SetupLint.Text

structure Position where
  line : Nat
  column : Nat
deriving DecidableEq, Repr

/-- The last of `size` places from `base` on whose number is at most `x`, by halving. The
numbers are in order, and the one at `base` counts as at most `x`. -/
def searchFrom (xs : Array UInt32) (x base size : Nat) : Nat :=
  if 1 < size then
    let half := size / 2
    let middle := (xs.getD (base + half) 0).toNat
    searchFrom xs x (if x < middle then base else base + half) (size - half)
  else base
termination_by size
decreasing_by omega

/-- Binary search for a number among numbers in order: its place, or else the place at which
it would have to be inserted. -/
def search (xs : Array UInt32) (x : Nat) : Except Nat Nat :=
  if xs.isEmpty then .error 0
  else
    let place := searchFrom xs x 0 xs.size
    let found := (xs.getD place 0).toNat
    if found = x then .ok place
    else if found < x then .error (place + 1)
    else .error place

/-- The byte offsets at which the lines of a text start, in order. -/
structure LineIndex where
  starts : Array UInt32
deriving DecidableEq, Repr

/-- The offsets right after the line feeds of a text that starts at `offset`. -/
def startsAfterBreaks (offset : Nat) : List Char → List Nat
  | [] => []
  | c :: cs =>
    let next := offset + c.utf8Size
    if c = '\n' then next :: startsAfterBreaks next cs else startsAfterBreaks next cs

namespace LineIndex

/-- The index of a text. Its first line starts at 0, so it is never empty. -/
def ofText (cs : List Char) : LineIndex :=
  ⟨((0 :: startsAfterBreaks 0 cs).map UInt32.ofNat).toArray⟩

def empty : LineIndex := ⟨#[]⟩

/-- The line that holds `offset`: the one that starts at it, or else the one before the first
line that starts behind it. -/
def lineOf (index : LineIndex) (offset : Nat) : Nat :=
  match search index.starts offset with
  | .ok line => line % UInt32.size
  | .error next => (next - 1) % UInt32.size

/-- The position of `offset` in the text `cs`. An offset past the end stands
for the end, one inside a character for the place after that character. Only
an index without lines has no answer. -/
def position? (index : LineIndex) (cs : List Char) (offset : Nat) : Option Position :=
  let offset := min offset (byteLength cs)
  let line := index.lineOf offset
  index.starts[line]?.map fun start =>
    let column := match cut? start.toNat cs with
      | some (_, rest) => countBefore (offset - start.toNat) rest
      | none => 0
    ⟨line, column⟩

def lineCount (index : LineIndex) : Nat := index.starts.size

end LineIndex

/-- The position of `offset` in a text, by the index of that text. -/
def positionOf (cs : List Char) (offset : Nat) : Position :=
  ((LineIndex.ofText cs).position? cs offset).getD ⟨0, 0⟩

end SetupLint.Text
