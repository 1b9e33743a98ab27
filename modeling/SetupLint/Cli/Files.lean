import SetupLint.Text.Split

/-! The files that a command sees. A path is the list of its names from the top; a
directory is there when a file is below it. An entry is a file or a directory together
with the names by which a command came to it, for a report speaks of those. -/
namespace SetupLint

/-- Some files with their contents, and the directory in which a command runs. A
file without content cannot be read. -/
structure Files where
  here : List String
  entries : List (List String × Option String)

/-- A file or directory: the names that were written or met on the way, and the path to
which they lead. -/
structure Entry where
  names : List String
  path : List String
deriving DecidableEq

namespace Entry

def child (e : Entry) (name : String) : Entry := ⟨e.names ++ [name], e.path ++ [name]⟩

/-- The name of an entry. Names that lead nowhere are passed over; an entry that was
entered from below has none. -/
def fileName? (e : Entry) : Option String :=
  match (e.names.filter fun name => name ≠ "" ∧ name ≠ ".").getLast? with
  | some ".." => none
  | name => name

/-- Whether an entry is written as the directory of the command itself. -/
def isHere (e : Entry) : Bool := e.names.all (· == ".")

def written (e : Entry) : String := "/".intercalate e.names

end Entry

namespace Files

def isFile (f : Files) (path : List String) : Bool :=
  f.entries.any fun (file, _) => file == path

def isDirectory (f : Files) (path : List String) : Bool :=
  path == f.here ||
    f.entries.any fun (file, _) => path.isPrefixOf file && decide (path.length < file.length)

def isThere (f : Files) (path : List String) : Bool := f.isFile path || f.isDirectory path

def read? (f : Files) (path : List String) : Option String :=
  (f.entries.find? fun (file, _) => file == path).bind (·.2)

def names (f : Files) (path : List String) : List String :=
  let below := f.entries.filterMap fun (file, _) =>
    if path.isPrefixOf file then file[path.length]? else none
  below.eraseDups.mergeSort fun a b => decide (a ≤ b)

def children (f : Files) (e : Entry) : List Entry := (f.names e.path).map e.child

/-- The length of the longest path. -/
def depth (f : Files) : Nat := f.entries.foldl (fun depth (file, _) => max depth file.length) 0

/-- The entries below an entry, in order and each before those below itself. No path
has more names than the longest one, so this much fuel is enough. -/
def belowWithin (f : Files) : (fuel : Nat) → Entry → List Entry
  | 0, _ => []
  | fuel + 1, e => (f.children e).flatMap fun child => child :: belowWithin f fuel child

def below (f : Files) (e : Entry) : List Entry := f.belowWithin f.depth e

/-- The path that `name` leads to from a directory. A point stands for the directory
itself and two points for the one above it. -/
def enter? (f : Files) (path : List String) (name : String) : Option (List String) :=
  if !f.isDirectory path then none
  else if name = "." ∨ name = "" then some path
  else if name = ".." then some path.dropLast
  else
    let entry := path ++ [name]
    if f.isThere entry then some entry else none

def follow? (f : Files) (e : Entry) (name : String) : Option Entry :=
  (f.enter? e.path name).map fun path => ⟨e.names ++ [name], path⟩

def namesOf (path : String) : List String :=
  (Text.pieces (· == '/') path.toList).map String.ofList

/-- The name that stands for the directory in which a command runs. No written path
enters a directory of this name. -/
def hereName : String := "."

/-- A written path without the names that lead nowhere. A path that does not start
at the top starts in the directory of the command. -/
def pathOf (written : String) : List String :=
  let names := (namesOf written).filter fun name => name ≠ "" ∧ name ≠ "."
  if "/".isPrefixOf written then names else hereName :: names

/-- The files with some contents, given by their written paths. -/
def ofContents (contents : List (String × Option String)) : Files where
  here := [hereName]
  entries := contents.map fun (written, content) => (pathOf written, content)

/-- The entry at which a written path starts, and the names to follow from there. -/
def start (f : Files) (path : String) : Entry × List String :=
  match namesOf path with
  | "" :: names => (⟨[""], []⟩, names)
  | names => (⟨[], f.here⟩, names)

def locate? (f : Files) (path : String) : Option Entry :=
  if path.isEmpty then none
  else
    let (start, names) := f.start path
    names.foldlM f.follow? start

def readWritten? (f : Files) (path : String) : Option String :=
  (f.locate? path).bind fun e => f.read? e.path

end Files
end SetupLint
