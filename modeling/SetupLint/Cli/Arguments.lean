/-! The arguments of a command line. -/
namespace SetupLint.Cli

inductive Format where
  | text
  | json
  | lsp
deriving DecidableEq

def Format.ofName? (name : String) : Option Format :=
  if name = "text" then some .text
  else if name = "json" then some .json
  else if name = "lsp" then some .lsp
  else none

/-- What is to be linted and how. -/
structure LintOptions where
  patterns : List String
  config : Option String
  format : Format
  maxWarnings : Option Nat
  quiet : Bool

inductive Command where
  | lint (options : LintOptions)
  | rules (config : Option String) (format : String)
  | schema

/-- What a command line asks for, and how much it wants to be told. -/
structure Invocation where
  command : Command
  verbosity : Nat

/-- An option by its long name. -/
structure OptionName where
  name : String
  short : Option Char
  takesValue : Bool

def optionNames : List OptionName :=
  [⟨"config", some 'c', true⟩, ⟨"format", some 'f', true⟩, ⟨"max-warnings", none, true⟩,
   ⟨"quiet", some 'q', false⟩, ⟨"parallel-rules", none, false⟩,
   ⟨"verbose", some 'v', false⟩]

/-- A piece of a command line. -/
inductive Piece where
  | operand (text : String)
  | option (name : String) (value : String)
deriving DecidableEq

/-- Whether an argument names options. A single dash does not. -/
def namesOptions (argument : String) : Bool := "-".isPrefixOf argument && argument != "-"

/-- The next argument as the value of an option. -/
def valueOfNext? (next : Option String) : Option String :=
  next.filter fun value => !namesOptions value

/-- Options that are named by single letters. The value of an option follows its
letter or is the next argument; the second component tells whether that was
used up. -/
def readLetters (next : Option String) : List Char → Option (List Piece × Bool)
  | [] => some ([], false)
  | c :: rest => do
    let option ← optionNames.find? (·.short = some c)
    if option.takesValue then
      match rest with
      | [] => return ([.option option.name (← valueOfNext? next)], true)
      | '=' :: value => return ([.option option.name (String.ofList value)], false)
      | value => return ([.option option.name (String.ofList value)], false)
    else
      let (pieces, used) ← readLetters next rest
      return (.option option.name "" :: pieces, used)

/-- An option that is named by a word. -/
def readWord (next : Option String) (word : List Char) : Option (List Piece × Bool) := do
  let name := String.ofList (word.takeWhile (· ≠ '='))
  let option ← optionNames.find? (·.name = name)
  match option.takesValue, word.dropWhile (· ≠ '=') with
  | true, _ :: value => return ([.option option.name (String.ofList value)], false)
  | true, [] => return ([.option option.name (← valueOfNext? next)], true)
  | false, [] => return ([.option option.name ""], false)
  | false, _ :: _ => none

/-- The pieces of an argument, given the one after it. -/
def readArgument (next : Option String) (argument : String) : Option (List Piece × Bool) :=
  match argument.toList with
  | '-' :: '-' :: word => readWord next word
  | '-' :: c :: rest => readLetters next (c :: rest)
  | _ => some ([.operand argument], false)

/-- The pieces of a command line. After two dashes there are only operands. -/
def readPieces : List String → Option (List Piece)
  | [] => some []
  | "--" :: rest => some (rest.map .operand)
  | [argument] => (readArgument none argument).map (·.1)
  | argument :: next :: rest => do
    let (pieces, used) ← readArgument (some next) argument
    if used then return pieces ++ (← readPieces rest)
    else return pieces ++ (← readPieces (next :: rest))

def operands (pieces : List Piece) : List String :=
  pieces.filterMap fun
    | .operand text => some text
    | .option _ _ => none

def valueOf? (name : String) (pieces : List Piece) : Option String :=
  pieces.findSome? fun
    | .option other value => if other = name then some value else none
    | .operand _ => none

/-- Whether only known options are given, each at most once except the one that may be
repeated. A configuration has a name. -/
def onlyOptions (known : List String) (pieces : List Piece) : Bool :=
  let given := pieces.filterMap fun
    | .option name _ => if name = "verbose" then none else some name
    | .operand _ => none
  given.all (known.contains ·) && given.eraseDups.length == given.length &&
    valueOf? "config" pieces != some ""

def defaultPatterns : List String := ["./**/*.unit.json"]

def largestLimit : Nat := UInt64.size - 1

/-- The limit that a text stands for: digits, with a plus sign or without. -/
def limit? (text : String) : Option Nat :=
  let digits := match text.toList with
    | '+' :: digits => digits
    | digits => digits
  if digits.isEmpty || !digits.all Char.isDigit then none
  else
    let limit := digits.foldl (fun n c => n * 10 + (c.toNat - '0'.toNat)) 0
    if limit ≤ largestLimit then some limit else none

def lintCommand? (pieces : List Piece) : Option Command := do
  guard (onlyOptions ["config", "format", "max-warnings", "quiet", "parallel-rules"] pieces)
  let format ← Format.ofName? ((valueOf? "format" pieces).getD "text")
  let maxWarnings ← match valueOf? "max-warnings" pieces with
    | some value => (limit? value).map some
    | none => some none
  let patterns := operands pieces
  return .lint
    { patterns := if patterns.isEmpty then defaultPatterns else patterns
      config := valueOf? "config" pieces
      format
      maxWarnings
      quiet := (valueOf? "quiet" pieces).isSome }

def rulesCommand? (pieces : List Piece) : Option Command := do
  guard (onlyOptions ["config", "format"] pieces && (operands pieces).isEmpty)
  return .rules (valueOf? "config" pieces) ((valueOf? "format" pieces).getD "text")

def countVerbose (pieces : List Piece) : Nat := pieces.count (.option "verbose" "")

/-- The command of a name with its options and operands, if there is one. -/
def Command.ofPieces? (name : String) (pieces : List Piece) : Option Command :=
  if name = "lint" ∨ name = "patina" then lintCommand? pieces
  else if name = "rules" then rulesCommand? pieces
  else if name = "schema" then do
    guard (onlyOptions [] pieces && (operands pieces).isEmpty)
    return .schema
  else none

/-- What a command line asks for, if it asks for a command. Before its name only how much
to tell may stand; if that stands behind it as well, what is behind counts. -/
def Invocation.ofArguments? (arguments : List String) : Option Invocation := do
  let before := arguments.takeWhile namesOptions
  guard (!before.contains "--")
  let before ← readPieces before
  guard (onlyOptions [] before)
  match arguments.dropWhile namesOptions with
  | [] => none
  | name :: rest => do
    let pieces ← readPieces rest
    let command ← Command.ofPieces? name pieces
    let verbosity := countVerbose pieces
    return { command, verbosity := if verbosity = 0 then countVerbose before else verbosity }

end SetupLint.Cli
