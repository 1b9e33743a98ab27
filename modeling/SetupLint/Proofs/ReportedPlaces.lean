import SetupLint.Cli.Run

/-! Where a report places its findings. For an editor each unit is told with its own source. The
JSON report looks the source up by the path, and of several sources under one path the last one
counts for all units with this path. So it places findings in their own source as long as no two
units have one path and different sources, and misplaces them otherwise. -/
namespace SetupLint

namespace Report

/-! ### Places -/

/-- The lines and columns of a finding in JSON: of its start and of its end. -/
def humanPlace (source : Option String) (d : Diagnostic) : (Nat × Nat) × (Nat × Nat) :=
  (humanPosition source d.span.start, humanPosition source d.span.stop)

/-- A position for an editor as it is told to people: both counts start at 1. -/
def fromOne (p : Text.Position) : Nat × Nat := (p.line + 1, p.column + 1)

/-- The range of a finding for an editor, with both counts from 1. -/
def editorPlace (source : Option String) (d : Diagnostic) : (Nat × Nat) × (Nat × Nat) :=
  (fromOne (EditorFinding.ofDiagnostic source d).start,
    fromOne (EditorFinding.ofDiagnostic source d).stop)

/-- With a source, JSON and an editor are told the same place. -/
theorem humanPlace_eq_editorPlace {source : Option String} (h : source.isSome) (d : Diagnostic) :
    humanPlace source d = editorPlace source d := by
  obtain ⟨text, rfl⟩ := Option.isSome_iff_exists.mp h
  rfl

/-- A place consists of zeros exactly if there is no source. -/
theorem humanPlace_eq_zero_iff {source : Option String} {d : Diagnostic} :
    humanPlace source d = ((0, 0), (0, 0)) ↔ source = none := by
  cases source with
  | none => simp [humanPlace, humanPosition]
  | some text => simp [humanPlace, humanPosition]

/-! ### Sources -/

/-- A result in JSON, its findings placed in a source. -/
def placedRecord (source : Option String) (result : LintResult) : Json.Document :=
  Json.record
    [("file", .text result.file),
     ("messages", Json.list (result.diagnostics.map (findingRecord source))),
     ("errorCount", Json.int result.errorCount),
     ("warningCount", Json.int result.warningCount)]

/-- A later source for a file counts more than an earlier one. -/
theorem Sources.find?_cons (name source : String) (sources : Sources) (file : String) :
    Sources.find? ((name, source) :: sources) file =
      (sources.find? file).or (if name = file then some source else none) := by
  unfold Sources.find?
  rw [List.reverse_cons, List.find?_append, Option.map_or, List.find?_singleton]
  congr 1
  by_cases hName : name = file <;> simp [hName]

end Report

namespace Cli

open Report (humanPlace editorPlace placedRecord)

/-- The sources of some units under their paths. -/
def sourcesOf (units : List CompilationUnit) : Report.Sources :=
  units.filterMap fun unit => unit.source.map fun source => (unit.path, source)

/-- The source in which the findings of the units with a path are placed. -/
def sourceUnder (path : String) (units : List CompilationUnit) : Option String :=
  (sourcesOf units).find? path

variable {path : String} {unit : CompilationUnit} {units : List CompilationUnit}

/-- Of several sources under a path the last one counts. -/
theorem sourceUnder_cons (path : String) (unit : CompilationUnit) (units : List CompilationUnit) :
    sourceUnder path (unit :: units) =
      (sourceUnder path units).or (if unit.path = path then unit.source else none) := by
  unfold sourceUnder sourcesOf
  cases hSource : unit.source with
  | none => simp [hSource]
  | some source => simp [hSource, Report.Sources.find?_cons]

/-- The source under a path is the source of a unit with this path. -/
theorem exists_unit_of_sourceUnder {source : String} (h : sourceUnder path units = some source) :
    ∃ unit ∈ units, unit.path = path ∧ unit.source = some source := by
  induction units with
  | nil => simp [sourceUnder, sourcesOf, Report.Sources.find?] at h
  | cons unit units ih =>
      rw [sourceUnder_cons, Option.or_eq_some_iff] at h
      rcases h with hLater | ⟨-, hHere⟩
      · obtain ⟨other, hOther, hUnit⟩ := ih hLater
        exact ⟨other, List.mem_cons_of_mem _ hOther, hUnit⟩
      · split at hHere
        · exact ⟨unit, List.mem_cons_self, ‹_›, hHere⟩
        · cases hHere

/-- Under the path of a unit with a source there is a source. -/
theorem isSome_sourceUnder (hMem : unit ∈ units) (hSource : unit.source.isSome) :
    (sourceUnder unit.path units).isSome := by
  induction units with
  | nil => cases hMem
  | cons first units ih =>
      rw [sourceUnder_cons, Option.isSome_or]
      rcases List.mem_cons.mp hMem with rfl | hMem
      · simp [hSource]
      · simp [ih hMem]

/-- All units with one path have one source, or all of them have none. -/
def OneSourceForEachPath (units : List CompilationUnit) : Prop :=
  ∀ first ∈ units, ∀ second ∈ units, first.path = second.path → first.source = second.source

instance (units : List CompilationUnit) : Decidable (OneSourceForEachPath units) :=
  inferInstanceAs (Decidable (∀ first ∈ units, ∀ second ∈ units,
    first.path = second.path → first.source = second.source))

/-- Each unit finds its own source under its path exactly if no two units with one path differ in
their sources. -/
theorem sourceUnder_eq_own_iff :
    (∀ unit ∈ units, sourceUnder unit.path units = unit.source) ↔ OneSourceForEachPath units := by
  constructor
  · intro hOwn first hFirst second hSecond hPath
    rw [← hOwn first hFirst, ← hOwn second hSecond, hPath]
  · intro hOne unit hUnit
    cases hFound : sourceUnder unit.path units with
    | some source =>
      obtain ⟨other, hOther, hPath, hSource⟩ := exists_unit_of_sourceUnder hFound
      rw [hOne unit hUnit other hOther hPath.symm, hSource]
    | none =>
      cases hSource : unit.source with
      | none => rfl
      | some source =>
        have hSome := isSome_sourceUnder hUnit (hSource ▸ Option.isSome_some)
        rw [hFound] at hSome
        cases hSome

/-! ### Reports -/

/-- The JSON report of some units places the findings of each in the source under its path. -/
theorem report_json (l : Linter) (units : List CompilationUnit) :
    report .json units (l.lintAll units).1 =
      Json.pretty (Json.list (units.map fun unit =>
        placedRecord (sourceUnder unit.path units) (l.lint unit))) := by
  have hRecords : (units.map l.lint).map (Report.resultRecord (sourcesOf units)) =
      units.map fun unit => placedRecord (sourceUnder unit.path units) (l.lint unit) := by
    rw [List.map_map]
    rfl
  exact congrArg (fun records => Json.pretty (Json.list records)) hRecords

/-- The report for an editor places the findings of each unit in its own source. -/
theorem report_lsp (l : Linter) (units : List CompilationUnit) :
    report .lsp units (l.lintAll units).1 =
      String.join (units.map fun unit => Report.editor (l.lint unit) unit.source) := by
  have hPairs : (units.map l.lint).zip (units.map (·.source)) =
      units.map fun unit => (l.lint unit, unit.source) := by
    rw [List.zip_map']
  show String.join _ ++ "" = _
  rw [Linter.lintAll, hPairs, List.map_map, String.append_empty]
  rfl

/-- If no two units with one path differ in their sources, the JSON report places every finding in
the source of its own unit. The lines and columns are zeros exactly for the units without a source,
and for the others they are those that an editor is told, counted from 1. -/
theorem report_json_own (l : Linter) (units : List CompilationUnit)
    (h : OneSourceForEachPath units) :
    report .json units (l.lintAll units).1 =
        Json.pretty (Json.list (units.map fun unit => placedRecord unit.source (l.lint unit))) ∧
      ∀ unit ∈ units, ∀ d ∈ (l.lint unit).diagnostics,
        (humanPlace unit.source d = ((0, 0), (0, 0)) ↔ unit.source = none) ∧
        (unit.source.isSome → humanPlace unit.source d = editorPlace unit.source d) := by
  constructor
  · rw [report_json]
    have hOwn := sourceUnder_eq_own_iff.mpr h
    rw [List.map_congr_left fun unit hUnit => by rw [hOwn unit hUnit]]
  · intro unit _ d _
    exact ⟨Report.humanPlace_eq_zero_iff, fun hSome => Report.humanPlace_eq_editorPlace hSome d⟩

/-- A component with a field that is not final, on its second line. -/
def fieldUnit : CompilationUnit where
  path := "lib/a.dart"
  source := some "class A extends CompositionWidget \x7b\n  var x;\n\x7d\n"
  declarations := [.class
    { span := ⟨0, 46⟩
      name := ⟨"A", ⟨6, 7⟩⟩
      superclass := some ⟨⟨16, 33⟩, "CompositionWidget", [], false⟩
      isAbstract := false
      members := [.field
        { span := ⟨38, 44⟩
          keywords := [⟨.varWord, ⟨38, 41⟩⟩]
          type := none
          declared := .ofList [.declarator ⟨42, 43⟩ ⟨"x", ⟨42, 43⟩⟩ .none] }] }]

/-- The same file with nothing in it but a comment. -/
def commentUnit : CompilationUnit where
  path := "lib/a.dart"
  source := some "// a\n"

/-- A unit may come twice, and one without a source may come with it. -/
theorem report_json_fieldUnit :
    let units := [fieldUnit, { fieldUnit with path := "lib/b.dart", source := none }, fieldUnit]
    OneSourceForEachPath units ∧
      report .json units (({} : Linter).lintAll units).1 =
        Json.pretty (Json.list (units.map fun unit =>
          placedRecord unit.source (({} : Linter).lint unit))) ∧
      units.map (fun unit => (({} : Linter).lint unit).diagnostics.map (humanPlace unit.source)) =
        [[((2, 3), (2, 9))], [((0, 0), (0, 0))], [((2, 3), (2, 9))]] :=
  have hOne : OneSourceForEachPath
      [fieldUnit, { fieldUnit with path := "lib/b.dart", source := none }, fieldUnit] := by decide
  ⟨hOne, (report_json_own {} _ hOne).1, by decide +kernel⟩

/-- The comment comes later under the same path, so the field is placed in the comment: at the end
of its single line and not on the second line of its own source. -/
theorem report_json_commentUnit :
    let units := [fieldUnit, commentUnit]
    report .json units (({} : Linter).lintAll units).1 ≠
        Json.pretty (Json.list (units.map fun unit =>
          placedRecord unit.source (({} : Linter).lint unit))) ∧
      (({} : Linter).lint fieldUnit).diagnostics.map (fun d =>
          (humanPlace (sourceUnder fieldUnit.path units) d, editorPlace fieldUnit.source d)) =
        [(((2, 1), (2, 1)), ((2, 3), (2, 9)))] := by
  constructor
  · -- the characters are compared and not the bytes of the texts, which are slow to compute
    rw [report_json, Json.pretty, Json.pretty, ne_eq, String.ofList_inj]
    decide +kernel
  · decide +kernel

end Cli
end SetupLint
