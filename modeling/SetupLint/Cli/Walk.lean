import SetupLint.Cli.Glob
import SetupLint.Cli.Log

/-! Walks through directories. A walk passes over hidden entries and over those that the
rules of a directory above them ignore. Rules that come with a repository count only
inside of one. -/
namespace SetupLint

/-- The rules that a directory holds, by the files in which they are. -/
structure DirectoryRules where
  general : List IgnoreRule := []
  versioned : List IgnoreRule := []
  excluded : List IgnoreRule := []
  isRepository : Bool := false

namespace Files

/-- One path behind another one. -/
def joined (first second : String) : String :=
  if first.isEmpty then second else first ++ "/" ++ second

def firstLine? (f : Files) (path : List String) : Option String :=
  (f.read? path).bind fun text =>
    (Text.readLines text.toList).head?.map String.ofList

/-- The path at which a repository is kept whose place is written in a file. That place
names another one that is shared with other repositories, seen from itself if it starts
with a point. -/
def sharedRepository? (f : Files) (file : List String) : Option String := do
  let line ← f.firstLine? file
  let mark := "gitdir: "
  guard (mark.isPrefixOf line)
  let place := String.ofList (line.toList.drop mark.length)
  let shared ← (f.locate? (joined place "commondir")).bind fun e => f.firstLine? e.path
  return if ".".isPrefixOf shared then joined place shared else shared

/-- The file with the rules that only this copy of a repository has. -/
def exclusions? (f : Files) (directory : List String) : Option (List String) :=
  let repository := directory ++ [".git"]
  if f.isFile repository then do
    let shared ← f.sharedRepository? repository
    return (← f.locate? (joined shared "info/exclude")).path
  else
    let file := repository ++ ["info", "exclude"]
    if f.isThere file then some file else none

/-- The files of a directory that hold rules: those for all walks, those of a repository
and those of one copy of it. -/
def ruleFiles (f : Files) (directory : List String) : List (List String) :=
  [directory ++ [".ignore"], directory ++ [".gitignore"]].filter f.isThere ++
    (f.exclusions? directory).toList

/-- The rules in a file. A file that cannot be read has none. -/
def rulesIn (f : Files) (file : List String) : List IgnoreRule :=
  (f.read? file).elim [] IgnoreRule.ofText

def directoryRules (f : Files) (directory : List String) : DirectoryRules where
  general := f.rulesIn (directory ++ [".ignore"])
  versioned := f.rulesIn (directory ++ [".gitignore"])
  excluded := (f.exclusions? directory).elim [] f.rulesIn
  isRepository := f.isThere (directory ++ [".git"]) || f.isThere (directory ++ [".jj"])

/-- What the log tells about the rules of a directory. -/
def ruleLogs (f : Files) (directory : List String) : List Cli.LogEntry :=
  (f.ruleFiles directory).flatMap fun file =>
    let rules := f.rulesIn file
    let searched := rules.filter fun rule => !PathPiece.isPlain rule.pieces
    .openedRules file :: searched.map (fun rule => .searchedRule rule.pieces) ++
      if rules.isEmpty then [] else [.builtRules rules.length]

end Files

/-- The directories above an entry, the nearest one first: their rules, and the path that
leads from there to the entry. -/
abbrev RuleChain := List (DirectoryRules × List Nat)

namespace RuleChain

/-- The directories above the entry with a path, given their rules. The nearest one sees
its name only, and every other one also the names of the directories between. -/
def toPath (rules : List DirectoryRules) (path : List String) : RuleChain :=
  rules.mapIdx fun i directory =>
    let names := path.drop (path.length - (i + 1))
    (directory, ("/".intercalate names).toList.flatMap PathPiece.bytes)

/-- The directories up to and with the nearest one that holds a repository. -/
def upToRepository : RuleChain → RuleChain
  | [] => []
  | link :: links => if link.1.isRepository then [link] else link :: upToRepository links

/-- The verdict of the nearest directory that has one. -/
def nearest? (rules : DirectoryRules → List IgnoreRule) (isDirectory : Bool) (chain : RuleChain) :
    Option Verdict :=
  chain.findSome? fun (directory, path) => IgnoreRule.verdict? (rules directory) path isDirectory

/-- The verdict of all rules. Those for all walks come before those of a repository; the
latter count if there is a repository, and no farther than up to it. -/
def verdict? (isDirectory : Bool) (chain : RuleChain) : Option Verdict :=
  let inRepository := if chain.any (·.1.isRepository) then upToRepository chain else []
  nearest? (·.general) isDirectory chain
    <|> nearest? (·.versioned) isDirectory inRepository
    <|> nearest? (·.excluded) isDirectory inRepository

end RuleChain

namespace Files

/-- The verdict on an entry, given the rules of the directories above it. A hidden entry
is ignored if no rule keeps it. -/
def judge? (f : Files) (rules : List DirectoryRules) (e : Entry) : Option Verdict :=
  let isHidden := e.fileName?.any ".".isPrefixOf
  (RuleChain.toPath rules e.path).verdict? (f.isDirectory e.path)
    <|> if isHidden then some .ignored else none

/-- The entries that a walk meets below a directory, in order and each before those below
itself, with the verdicts on them. Below ignored ones it does not look. No path has more
names than the longest one, so this much fuel is enough. -/
def stepsWithin (f : Files) : (fuel : Nat) → List DirectoryRules → Entry →
    List (Entry × Option Verdict)
  | 0, _, _ => []
  | fuel + 1, rules, directory =>
    (f.children directory).flatMap fun e =>
      let verdict := f.judge? rules e
      (e, verdict) ::
        if verdict = some .ignored then []
        else stepsWithin f fuel (f.directoryRules e.path :: rules) e

/-- The directories above a path, the nearest one first. -/
def above (path : List String) : List (List String) :=
  (List.range path.length).reverse.map path.take

/-- The entries that a walk from an entry meets. The entry itself needs no verdict. -/
def steps (f : Files) (start : Entry) : List (Entry × Option Verdict) :=
  (start, none) ::
    f.stepsWithin f.depth ((start.path :: above start.path).map f.directoryRules) start

/-- Whether a written path stands for the input of the command. -/
def isInput (path : String) : Bool :=
  match namesOf path with
  | "-" :: names => names.all fun name => name == "" || name == "."
  | _ => false

/-- The entry at which a walk starts. The input of the command is no file. -/
def walkStart? (f : Files) (path : String) : Option Entry :=
  if isInput path then none else f.locate? path

/-- The entry that a written path leads to and those below it that a walk passes
through. -/
def walk (f : Files) (path : String) : List Entry :=
  (f.walkStart? path).elim [] fun start =>
    ((f.steps start).filter fun (_, verdict) => verdict ≠ some .ignored).map (·.1)

/-- What the log tells about a walk: the rules of all directories that it meets and of
those above it, and the verdicts. A walk through a single file needs no rules. -/
def walkLogs (f : Files) (path : String) : List Cli.LogEntry :=
  match f.walkStart? path with
  | none => []
  | some start =>
    if f.isDirectory start.path then
      (above start.path).flatMap f.ruleLogs ++
        (f.steps start).flatMap fun (e, verdict) =>
          (verdict.map (.judged e)).toList ++
            if f.isDirectory e.path then f.ruleLogs e.path else []
    else []

/-- The entries that a written path or pattern stands for. -/
def select (f : Files) (path : String) : List Entry :=
  if isPattern path then f.glob path else f.walk path

/-- What the log tells about the search for them. -/
def selectLogs (f : Files) (path : String) : List Cli.LogEntry :=
  if isPattern path then [] else f.walkLogs path

end Files
end SetupLint
