import SetupLint.Cli.Run

/-! The command line. It is given the names of the files that it may look at on
standard input, one on a line, and finds those with units among them by its
patterns. -/
namespace SetupLint.Cli

/-- The content of a file, if it can be read as a text. -/
def readContent (name : String) : IO (Option String) := do
  try
    return some (← IO.FS.readFile name)
  catch _ =>
    return none

/-- The files whose names are on standard input, and the usual configuration. -/
def readFiles : IO Files := do
  let listed ← (← IO.getStdin).lines
  let names := listed.toList.filter fun name => !name.isEmpty
  let contents ← names.mapM fun name => return (name, ← readContent name)
  let config := (← readContent configFile).map fun text => (configFile, some text)
  return .ofContents (contents ++ config.toList)

def runAndPrint (arguments : List String) : IO UInt32 := do
  let files ← readFiles
  let began ← IO.monoMsNow
  let outcome := run files arguments
  IO.print outcome.output
  if let some units := outcome.linted then
    IO.println s!"Linted {units} units in {(← IO.monoMsNow) - began}ms"
  for line in outcome.errors do
    IO.eprintln line
  for entry in outcome.logs do
    IO.eprintln s!"{entry.level.word} {entry.message}"
  return UInt32.ofNat outcome.code

end SetupLint.Cli

def main (arguments : List String) : IO UInt32 := SetupLint.Cli.runAndPrint arguments
