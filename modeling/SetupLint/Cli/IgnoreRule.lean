import SetupLint.Text.Blank
import SetupLint.Text.Split
import SetupLint.Text.Wildcard

/-! Rules that keep entries out of a walk, one on each line of a file. A rule speaks of
paths below the directory of its file; a path is compared by the bytes of its UTF-8
form. A star stands for any bytes of a name, two stars between slashes for any names, a
question mark for one byte, brackets for one of some bytes, and braces for one of some
patterns. -/
namespace SetupLint

/-- A piece of the pattern of a rule. -/
inductive PathPiece where
  | char (c : Char)
  | one
  | many
  | oneOf (negated : Bool) (ranges : List (Char × Char))
  /-- Any names before what follows, or none. -/
  | anyBefore
  /-- Any names between what precedes and what follows, or none. -/
  | anyBetween
  /-- Whatever is below what precedes. -/
  | anyBelow
  | oneOfPatterns (pattern : Wildcard)
deriving DecidableEq

namespace PathPiece

def bytes (c : Char) : List Nat := (String.utf8EncodeChar c).map UInt8.toNat

def slash : Wildcard := .one (.only '/'.toNat)

def anything : Wildcard := .many .all

/-- The ranges of bytes that a range of characters comes to: it reaches from the last
byte of the first character to the first byte of the last one, and their other bytes
count as well. -/
def byteRanges (first last : Char) : List (Nat × Nat) :=
  let single (b : Nat) : Nat × Nat := (b, b)
  if first = last then (bytes first).map single
  else
    (bytes first).dropLast.map single ++
      ((bytes first).getLastD 0, (bytes last).headD 0) :: (bytes last).tail.map single

/-- The wildcard of a piece. Its symbols are bytes. -/
def wildcard : PathPiece → Wildcard
  | .char c => .sequence ((bytes c).map fun b => .one (.only b))
  | .one => .one (.except '/'.toNat)
  | .many => .many (.except '/'.toNat)
  | .oneOf negated ranges =>
    .one ⟨negated, ranges.flatMap fun (first, last) => byteRanges first last⟩
  | .anyBefore => .choice [.nothing, slash, .append anything slash]
  | .anyBetween => .either slash (.sequence [slash, anything, slash])
  | .anyBelow => .append slash anything
  | .oneOfPatterns pattern => pattern

def wildcards (pieces : List PathPiece) : Wildcard := .sequence (pieces.map wildcard)

/-- The character that a piece stands for, if it leaves no choice. -/
def char? : PathPiece → Option Char
  | .char c => some c
  | _ => none

end PathPiece

/-- How brackets are read. -/
inductive BracketReading where
  | closed (ranges : List (Char × Char)) (rest : List Char)
  | unclosed
  /-- A range ends before it starts. -/
  | disordered

/-- Read brackets from behind the opening one. The first character belongs to them
whatever it is. After a dash the last range is still open; the dash counts as a
character of its own if nothing ends that range. -/
def BracketReading.of (isFirst isOpen : Bool) (ranges : List (Char × Char)) :
    List Char → BracketReading
  | [] => .unclosed
  | c :: rest =>
    if c = ']' ∧ !isFirst then
      .closed (if isOpen then ('-', '-') :: ranges else ranges) rest
    else if isOpen then
      match ranges with
      | (first, _) :: ranges =>
        if c < first then .disordered else .of false false ((first, c) :: ranges) rest
      | [] => .of false false [(c, c)] rest
    else if c = '-' ∧ !isFirst then .of false true ranges rest
    else .of false false ((c, c) :: ranges) rest

/-- Read brackets, with a mark before the characters if those are not meant. -/
def readBrackets : List Char → Bool × BracketReading
  | '!' :: rest => (true, .of true false [] rest)
  | '^' :: rest => (true, .of true false [] rest)
  | rest => (false, .of true false [] rest)

/-- A pattern that is being read: its pieces so far, the last one first, and for each
open brace, the innermost one first, the pieces before it and the finished patterns
in it. -/
structure PathDraft where
  pieces : List PathPiece := []
  braces : List (List PathPiece × List Wildcard) := []

namespace PathDraft

def push (d : PathDraft) (piece : PathPiece) : PathDraft :=
  { d with pieces := piece :: d.pieces }

/-- Replace the slash before two stars. Two stars in a row are as good as one. -/
def widen (d : PathDraft) (piece : PathPiece) : PathDraft :=
  match d.pieces with
  | .anyBefore :: _ => d
  | .anyBelow :: _ => d
  | pieces => { d with pieces := piece :: pieces.tail }

/-- Open a brace. -/
def enter (d : PathDraft) : PathDraft := ⟨[], (d.pieces, []) :: d.braces⟩

def pattern (d : PathDraft) : Wildcard := PathPiece.wildcards d.pieces.reverse

/-- A comma: inside braces it ends a pattern. -/
def comma (d : PathDraft) : PathDraft :=
  match d.braces with
  | [] => d.push (.char ',')
  | (before, patterns) :: outer => ⟨[], (before, patterns ++ [d.pattern]) :: outer⟩

/-- Close a brace. Empty patterns in it do not count. -/
def leave? (d : PathDraft) : Option PathDraft :=
  match d.braces with
  | [] => none
  | (before, patterns) :: outer =>
    let patterns := (patterns ++ [d.pattern]).filter (· ≠ .nothing)
    some ⟨.oneOfPatterns (.choice patterns) :: before, outer⟩

/-- Two stars behind the character `previous`, and what is left to read after them.
They stand for names only if they are a name themselves. -/
def putStars (d : PathDraft) (previous : Option Char) (rest : List Char) :
    PathDraft × List Char :=
  let inName := ((d.push .many).push .many, rest)
  if d.pieces.isEmpty then
    match rest with
    | [] => (d.push .anyBefore, [])
    | '/' :: rest => (d.push .anyBefore, rest)
    | _ => inName
  else if previous = some '/' ∨ !d.braces.isEmpty ∧ (previous = some ',' ∨ previous = some '\x7b')
  then
    match rest with
    | [] => (d.widen .anyBelow, [])
    | '/' :: rest => (d.widen .anyBetween, rest)
    | c :: _ =>
      if !d.braces.isEmpty ∧ (c = ',' ∨ c = '\x7d') then (d.widen .anyBelow, rest) else inName
  else inName

end PathDraft

namespace PathPiece

/-- Parse a pattern from behind the character `previous` on. A bracket that is never
closed stands for itself, and so do all behind it. Every step uses up a character, so
the length of the text is enough fuel. -/
def parseWithin : (fuel : Nat) → (bracketsCount : Bool) → PathDraft → (previous : Option Char) →
    List Char → Option (List PathPiece)
  | _, _, d, _, [] => if d.braces.isEmpty then some d.pieces.reverse else none
  | 0, _, _, _, _ => none
  | fuel + 1, brackets, d, previous, c :: rest =>
    match c, rest with
    | '?', _ => parseWithin fuel brackets (d.push .one) (some c) rest
    | '*', '*' :: rest =>
      let (d, left) := d.putStars previous rest
      parseWithin fuel brackets d (if left.length < rest.length then some '/' else some c) left
    | '*', _ => parseWithin fuel brackets (d.push .many) (some c) rest
    | '\x7b', _ => parseWithin fuel brackets d.enter (some c) rest
    | '\x7d', _ => d.leave?.bind fun d => parseWithin fuel brackets d (some c) rest
    | ',', _ => parseWithin fuel brackets d.comma (some c) rest
    | '\\', [] => none
    | '\\', escaped :: rest =>
      parseWithin fuel brackets (d.push (.char escaped)) (some escaped) rest
    | '[', _ =>
      if brackets then
        match readBrackets rest with
        | (_, .disordered) => none
        | (_, .unclosed) => parseWithin fuel false (d.push (.char c)) (some c) rest
        | (negated, .closed ranges rest) =>
          parseWithin fuel brackets (d.push (.oneOf negated ranges)) (some ']') rest
      else parseWithin fuel brackets (d.push (.char c)) (some c) rest
    | _, _ => parseWithin fuel brackets (d.push (.char c)) (some c) rest

def parse? (cs : List Char) : Option (List PathPiece) := parseWithin cs.length true {} none cs

/-- The wildcard of a whole pattern. Two stars alone stand for every path. -/
def whole : List PathPiece → Wildcard
  | [.anyBefore] => anything
  | pieces => wildcards pieces

/-- Whether a pattern is looked up rather than searched for: it spells the end of the
path, or the end of its last name from a point on. -/
def isPlain (pieces : List PathPiece) : Bool :=
  let spelled := match pieces with
    | .anyBefore :: rest => rest
    | pieces => pieces
  let tail := pieces.reverse.map char?
  (!spelled.isEmpty && spelled.all fun piece => piece.char?.isSome) ||
    ((tail.takeWhile fun c => c.isSome && c ≠ some '/').contains (some '.'))

end PathPiece

/-- What a rule says about an entry: that a walk leaves it out, or that it does not
although another rule says so. -/
inductive Verdict where
  | ignored
  | kept
deriving DecidableEq, Repr

structure IgnoreRule where
  verdict : Verdict
  onlyDirectories : Bool
  pieces : List PathPiece

namespace IgnoreRule

/-- A line without the blanks at its end. If the last one is escaped, they belong to the
pattern. -/
def trimLine (line : List Char) : List Char :=
  if [' ', '\\'].isPrefixOf line.reverse then line
  else (Text.trimStart line.reverse).reverse

/-- The verdict of a line, and the pattern that is left of it. A mark at its start tells
that entries are kept, unless it is escaped. -/
def readVerdict : List Char → Verdict × List Char
  | '\\' :: '!' :: rest => (.ignored, '!' :: rest)
  | '\\' :: '#' :: rest => (.ignored, '#' :: rest)
  | '!' :: rest => (.kept, rest)
  | rest => (.ignored, rest)

/-- Whether a pattern is meant for directories only, and what is left of it: it is if
it ends with a slash. -/
def readKind (cs : List Char) : Bool × List Char :=
  match cs.reverse with
  | '/' :: '\\' :: rest => (true, rest.reverse)
  | '/' :: rest => (true, rest.reverse)
  | _ => (false, cs)

/-- A pattern with what it leaves out: without a slash it is meant for names at any
depth, and two stars at its end stand for what is in a directory, not for the directory
itself. -/
def complete (fromStart : Bool) (cs : List Char) : List Char :=
  let cs := if fromStart || cs.contains '/' || cs == ['*', '*'] then cs else "**/".toList ++ cs
  if ['*', '*', '/'].isPrefixOf cs.reverse then cs ++ ['/', '*'] else cs

/-- The rule of a line. There is none if the line is empty, a comment or no pattern. -/
def ofLine? (line : List Char) : Option IgnoreRule :=
  let line := if line.head? = some '#' then [] else trimLine line
  if line.isEmpty then none
  else
    let (verdict, cs) := readVerdict line
    let fromStart := cs.head? = some '/'
    let (onlyDirectories, cs) := readKind (if fromStart then cs.tail else cs)
    (PathPiece.parse? (complete fromStart cs)).map fun pieces =>
      { verdict, onlyDirectories, pieces }

/-- The rules of a text, in the order of its lines. Byte order marks at its start do not
count. -/
def ofText (text : String) : List IgnoreRule :=
  (Text.readLines (text.toList.dropWhile (· = '\uFEFF'))).filterMap ofLine?

def fits (rule : IgnoreRule) (path : List Nat) (isDirectory : Bool) : Bool :=
  (!rule.onlyDirectories || isDirectory) && (PathPiece.whole rule.pieces).fits path

/-- The verdict of some rules: the last one that fits counts. -/
def verdict? (rules : List IgnoreRule) (path : List Nat) (isDirectory : Bool) : Option Verdict :=
  (rules.reverse.find? fun rule => rule.fits path isDirectory).map (·.verdict)

/-- A rule behind others has the last word on what fits it, and none on the rest. -/
theorem verdict?_append_singleton (rules : List IgnoreRule) (rule : IgnoreRule) (path : List Nat)
    (isDirectory : Bool) :
    verdict? (rules ++ [rule]) path isDirectory =
      if rule.fits path isDirectory then some rule.verdict
      else verdict? rules path isDirectory := by
  cases h : rule.fits path isDirectory <;> simp [verdict?, h]

end IgnoreRule
end SetupLint
