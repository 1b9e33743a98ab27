import SetupLint.Cli.Files
import SetupLint.Text.Wildcard

/-! Patterns for paths. A star stands for any characters of a name, a question mark
for one, brackets for one of some characters or for none of them, and a name of
two stars for any number of directories. -/
namespace SetupLint

/-- A piece of a pattern for a name. -/
inductive GlobToken where
  | char (c : Char)
  | one
  | many
  | oneOf (isNegated : Bool) (ranges : List (Char × Char))
deriving DecidableEq

/-- A pattern for one name of a path, or for any number of directories. -/
inductive GlobName where
  | pattern (tokens : List GlobToken)
  | anyDepth
deriving DecidableEq

namespace GlobToken

/-- The ranges in brackets. A single character is a range of its own. -/
def ranges : List Char → List (Char × Char)
  | a :: '-' :: b :: rest => (a, b) :: ranges rest
  | c :: rest => (c, c) :: ranges rest
  | [] => []

/-- What stands in brackets, and what follows them. The first character always
belongs to the brackets. -/
def brackets? : List Char → Option (List Char × List Char)
  | [] => none
  | first :: rest =>
    match rest.dropWhile (· ≠ ']') with
    | [] => none
    | _ :: after => some (first :: rest.takeWhile (· ≠ ']'), after)

/-- Parse the pattern of a name. Two stars in a row are no pattern. A pattern has at
most as many tokens as characters, so this much fuel is enough. -/
def parseWithin : (fuel : Nat) → List Char → Option (List GlobToken)
  | _, [] => some []
  | 0, _ => none
  | fuel + 1, '?' :: rest => (parseWithin fuel rest).map (.one :: ·)
  | _ + 1, '*' :: '*' :: _ => none
  | fuel + 1, '*' :: rest => (parseWithin fuel rest).map (.many :: ·)
  | fuel + 1, '[' :: '!' :: rest => do
    let (inside, after) ← brackets? rest
    return .oneOf true (ranges inside) :: (← parseWithin fuel after)
  | fuel + 1, '[' :: rest => do
    let (inside, after) ← brackets? rest
    return .oneOf false (ranges inside) :: (← parseWithin fuel after)
  | fuel + 1, c :: rest => (parseWithin fuel rest).map (.char c :: ·)

/-- The wildcard of a token. Its symbols are code points. -/
def wildcard : GlobToken → Wildcard
  | .char c => .one (.only c.toNat)
  | .one => .one .all
  | .many => .many .all
  | .oneOf isNegated ranges =>
    .one ⟨isNegated, ranges.map fun (first, last) => (first.toNat, last.toNat)⟩

def fitAll (tokens : List GlobToken) (name : String) : Bool :=
  (Wildcard.sequence (tokens.map wildcard)).fits (name.toList.map Char.toNat)

/-- The name that tokens without a choice spell. -/
def literal? : List GlobToken → Option (List Char)
  | [] => some []
  | .char c :: tokens => (literal? tokens).map (c :: ·)
  | _ :: _ => none

end GlobToken

namespace GlobName

def parse? (cs : List Char) : Option GlobName :=
  if cs = ['*', '*'] then some .anyDepth
  else (GlobToken.parseWithin cs.length cs).map .pattern

def fits (name : String) : GlobName → Bool
  | .pattern tokens => GlobToken.fitAll tokens name
  | .anyDepth => true

/-- Any depth twice in a row is any depth. -/
def collapse : List GlobName → List GlobName
  | .anyDepth :: .anyDepth :: rest => collapse (.anyDepth :: rest)
  | name :: rest => name :: collapse rest
  | [] => []

/-- The entries of a directory that fit tokens, in order. The directory itself and
the one above it count only for a pattern that starts with a point, and come
first. -/
def entriesIn (f : Files) (e : Entry) (tokens : List GlobToken) : List Entry :=
  let special := if tokens.head? = some (.char '.') then ["..", "."] else []
  (special ++ f.names e.path).filterMap fun name =>
    if GlobToken.fitAll tokens name then f.follow? e name else none

/-- The entries that fit a list of patterns, from an entry on. An empty name leads
from a directory to itself, but not where nothing has been entered yet. -/
def search (f : Files) : List GlobName → Entry → List Entry
  | [], e => [e]
  | .pattern tokens :: rest, e =>
    match GlobToken.literal? tokens with
    | some name =>
      if name.isEmpty && e.isHere then []
      else (f.follow? e (String.ofList name)).elim [] (search f rest)
    | none => (entriesIn f e tokens).flatMap (search f rest)
  | [.anyDepth], e => (f.below e).filter fun entry => f.isDirectory entry.path
  | .anyDepth :: name :: rest, e =>
    (f.below e).flatMap fun entry =>
      if entry.fileName?.any name.fits then search f rest entry else []

end GlobName

namespace Files

/-- The patterns of the names of a written path. A slash at the end adds no name. -/
def patternsOf? (names : List String) : Option (List GlobName) :=
  let names := if names.getLast? = some "" then names.dropLast else names
  (names.mapM fun name => GlobName.parse? name.toList).map GlobName.collapse

/-- The entries that a pattern stands for, in order. With a slash at its end it
stands for directories only; what is no pattern stands for nothing. -/
def glob (f : Files) (pattern : String) : List Entry :=
  let (start, names) := f.start pattern
  match patternsOf? names with
  | none => []
  | some patterns =>
    let found := GlobName.search f patterns start
    if names.getLast? = some "" then found.filter fun entry => f.isDirectory entry.path
    else found

def isPattern (path : String) : Bool :=
  path.toList.any fun c => c == '*' || c == '?' || c == '['

end Files
end SetupLint
