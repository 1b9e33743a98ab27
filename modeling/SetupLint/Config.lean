import SetupLint.Linter

/-! Configurations: which rules run and which names they look for. -/
namespace SetupLint

open Json (Decoder Document Schema)

/-- A choice of rules to start from. -/
inductive Preset where
  | recommended
  | essential
deriving DecidableEq, Inhabited

instance : Worded Preset where
  all := [.recommended, .essential]
  word
    | .recommended => "recommended"
    | .essential => "essential"

def Preset.rules : Preset → List Rule
  | .recommended => Rule.recommended
  | .essential => Rule.essential

/-- Codes of rules, each with whether the rule runs, ordered by the codes. -/
abbrev RuleFlags := List (String × Bool)

namespace RuleFlags

/-- Set the flag of a code. An earlier flag of this code is lost. -/
def set (code : String) (enabled : Bool) : RuleFlags → RuleFlags
  | [] => [(code, enabled)]
  | (other, flag) :: rest =>
    if code = other then (code, enabled) :: rest
    else if code < other then (code, enabled) :: (other, flag) :: rest
    else (other, flag) :: set code enabled rest

def ofEntries (entries : List (String × Bool)) : RuleFlags :=
  entries.foldl (fun flags (code, enabled) => set code enabled flags) []

def decode : Decoder RuleFlags := fun place reading =>
  (Json.Decode.dictionary Json.Decode.bool place reading).map ofEntries

def encode (flags : RuleFlags) : Document :=
  Json.record (flags.map fun (code, enabled) => (code, .bool enabled))

end RuleFlags

/-- What is configured about linting. -/
structure LintConfig where
  preset : Preset := .recommended
  /-- Takes precedence over the preset. -/
  rules : RuleFlags := []
  catalogs : CatalogExtensions := {}
deriving Inhabited

namespace LintConfig

def enables (c : LintConfig) (r : Rule) : Bool :=
  (c.rules.lookup r.code).getD (Rule.find? c.preset.rules r.code).isSome

/-- The codes of the rules that run, in the order of the rules. -/
def enabledCodes (c : LintConfig) : List String :=
  (Rule.recommended.filter c.enables).map Rule.code

/-- The codes that no rule has. -/
def unknownCodes (c : LintConfig) : List String :=
  (c.rules.map (·.1)).filter fun code => (Rule.find? Rule.recommended code).isNone

def extendedCatalogs (c : LintConfig) : Catalogs :=
  if c.catalogs = {} then .builtin else .extended c.catalogs

/-- The linter of a configuration, or the first code that no rule has. -/
def linter (c : LintConfig) : Except String Linter :=
  (Rule.select c.enabledCodes).map fun rules => { rules, catalogs := c.extendedCatalogs }

def schema : Schema LintConfig where
  fields :=
    .cons (defaulted "preset" Worded.decode .recommended) <|
    .cons (defaulted "rules" RuleFlags.decode []) <|
    .cons (defaulted "catalogs" CatalogExtensions.schema.decode {}) .nil
  make := fun ⟨preset, rules, catalogs, _⟩ => { preset, rules, catalogs }

/-- A configuration of linting in JSON. What adds nothing is left out. -/
def encode (c : LintConfig) : Document :=
  Json.record <| [("preset", Worded.encode c.preset)] ++
    (if c.rules.isEmpty then [] else [("rules", c.rules.encode)]) ++
    (if c.catalogs = {} then [] else [("catalogs", c.catalogs.encode)])

end LintConfig

structure Config where
  /-- The schema that the file names. -/
  schemaRef : Option String := none
  lint : LintConfig := {}
deriving Inhabited

namespace Config

def decode : Decoder Config :=
  Schema.decode
    { fields :=
        .cons (optional "$schema" Json.Decode.text) <|
        .cons (defaulted "lint" LintConfig.schema.decode {}) .nil
      make := fun ⟨schemaRef, lint, _⟩ => { schemaRef, lint } }

def encode (c : Config) : Document :=
  Json.record <| optionally "$schema" (c.schemaRef.map .text) ++ [("lint", c.lint.encode)]

def ofText (text : String) : Except Json.DecodeError Config := decode.run text

end Config
end SetupLint
