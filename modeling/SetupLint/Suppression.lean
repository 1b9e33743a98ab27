import SetupLint.Diagnostic
import SetupLint.Text.Blank
import SetupLint.Text.Line
import SetupLint.Text.Split

/-! Comments that suppress findings. A directive is the text behind the first two
slashes of a line; it holds for the whole file or for the line after it, and for
the rules that it names or for all rules. -/
namespace SetupLint

/-- The rules that one or more directives hold for. -/
inductive RuleSet where
  | all
  | only (codes : List String)
deriving DecidableEq

namespace RuleSet

/-- The mark before a remark. -/
def remarkMark : List Char := ['-', '-']

/-- Whether a character stands between codes. -/
def isCodeGap (c : Char) : Bool := c == ',' || Text.isBlank c

/-- A code without its namespace. -/
def bareCode (code : List Char) : List Char :=
  (Text.behind? (ruleNamespace.toList ++ ['/']) code).getD code

/-- The rules in the rest of a directive: those whose codes stand between blanks and commas
before a remark, or all rules if there is no code. -/
def parse (rest : List Char) : RuleSet :=
  let codes := (Text.runs isCodeGap (Text.before remarkMark rest)).map fun code =>
    String.ofList (bareCode code)
  if codes.isEmpty then .all else .only codes

def merge : RuleSet → RuleSet → RuleSet
  | _, .all => .all
  | .all, .only _ => .all
  | .only codes, .only more => .only (codes ++ more)

def covers : RuleSet → String → Bool
  | .all, _ => true
  | .only codes, rule => codes.any (· == rule)

end RuleSet

/-- Where a directive holds. -/
inductive Reach where
  | file
  | nextLine
deriving DecidableEq

structure Directive where
  reach : Reach
  rules : RuleSet
deriving DecidableEq

namespace Directive

def commentMark : List Char := ['/', '/']

def fileWord : List Char := "gesso-disable".toList

def nextLineWord : List Char := "gesso-disable-next-line".toList

/-- Whether the rest of a directive for a file ends its word. -/
def endsWord (rest : List Char) : Bool :=
  match rest with
  | [] => true
  | c :: _ => Text.isBlank c

/-- The directive in the text of a comment. The word of the directive for a file
must end; the other word may go on. -/
def ofComment? (comment : List Char) : Option Directive :=
  match Text.behind? nextLineWord comment with
  | some rest => some ⟨.nextLine, .parse rest⟩
  | none =>
    match Text.behind? fileWord comment with
    | some rest => if endsWord rest then some ⟨.file, .parse rest⟩ else none
    | none => none

def ofLine? (line : List Char) : Option Directive :=
  (Text.after? commentMark line).bind fun comment => ofComment? (Text.trimStart comment)

end Directive

/-- The rules for some lines, by the numbers of the lines in 32 bits. -/
abbrev LineRules := List (Nat × RuleSet)

def LineRules.add (target : Nat) (rules : RuleSet) : LineRules → LineRules
  | [] => [(target, rules)]
  | (line, old) :: table =>
    if line = target then (line, old.merge rules) :: table
    else (line, old) :: add target rules table

/-- What the directives of a source suppress: rules in the whole file, and rules in single
lines. -/
structure Suppression where
  fileWide : Option RuleSet := none
  nextLine : LineRules := []
  lines : Text.LineIndex := .empty

namespace Suppression

/-- Suppress what the directive in a line does, if there is one. -/
def read (s : Suppression) (line : List Char) (number : Nat) : Suppression :=
  match Directive.ofLine? line with
  | some ⟨.file, rules⟩ =>
    { s with fileWide := some (s.fileWide.elim rules fun old => old.merge rules) }
  | some ⟨.nextLine, rules⟩ =>
    { s with nextLine := s.nextLine.add ((number + 1) % UInt32.size) rules }
  | none => s

/-- Suppress what the directives of a source do. A source without the word of a directive is
not read. -/
def ofSource (source : String) : Suppression :=
  let cs := source.toList
  let nothing : Suppression := { lines := .ofText cs }
  if Text.contains Directive.fileWord cs then
    (Text.readLines cs).zipIdx.foldl (fun s (line, number) => s.read line number) nothing
  else nothing

def isEmpty (s : Suppression) : Bool := s.fileWide.isNone && s.nextLine.isEmpty

/-- Whether findings of `rule` that start at `offset` are suppressed. -/
def suppresses (s : Suppression) (rule : String) (offset : UInt32) : Bool :=
  s.fileWide.any (·.covers rule) ||
    (s.nextLine.lookup (s.lines.lineOf offset.toNat)).any (·.covers rule)

/-- The findings that are not suppressed, in order. -/
def filter (s : Suppression) (diagnostics : List Diagnostic) : List Diagnostic :=
  if s.isEmpty then diagnostics
  else diagnostics.filter fun d => !s.suppresses d.rule d.span.start

end Suppression
end SetupLint
