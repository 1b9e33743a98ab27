import Mathlib.Algebra.BigOperators.Group.List.Basic
import SetupLint.Proofs.JsonText
import SetupLint.Proofs.ReportedPlaces

/-! What is delivered to other programs and to editors. Each result becomes one document with all
its findings in order, and the documents of a delivery stand right behind one another, with nothing
around them. So a delivery is a single document exactly if it is about a single result. -/
namespace SetupLint

namespace Json

/-- The documents of a text that consists of documents, one behind another with blanks between
them. Each of them has a character, so the length of the text is enough fuel. -/
def documentsFrom? : (fuel : Nat) → List Char → Option (List Document)
  | 0, _ => none
  | fuel + 1, cs =>
    if (skipGap cs).isEmpty then some []
    else
      match readPart (2 * cs.length + 1) .value cs with
      | (value, some rest) => do return (← value.complete?) :: (← documentsFrom? fuel rest)
      | (_, none) => none

def documents? (text : String) : Option (List Document) :=
  documentsFrom? (text.length + 1) text.toList

/-- What is read of a complete tree is complete. -/
theorem complete?_asRead {p : Part} (tree : Json Empty p) : tree.asRead.complete? = some tree := by
  induction tree with
  | array items ih => simp [asRead, complete?, ih]
  | object members ih => simp [asRead, complete?, ih]
  | item value rest ihValue ihRest => simp [asRead, complete?, ihValue, ihRest]
  | member key value rest ihValue ihRest => simp [asRead, complete?, ihValue, ihRest]
  | unkeyed why => cases why
  | fault why => cases why
  | _ => rfl

/-- The texts of some documents, one right behind another. -/
def prettyAll (documents : List Document) : String := String.join (documents.map pretty)

/-- An array of values whose numbers are all whole. -/
def IsWholeArray (document : Document) : Prop :=
  ∃ values, document = Json.list values ∧ ∀ value ∈ values, value.AllNumbers Numeral.IsWhole

variable {document : Document} {documents : List Document}

theorem toList_prettyAll (documents : List Document) :
    (prettyAll documents).toList = documents.flatMap (render .pretty 0) := by
  simp [prettyAll, List.flatMap_map, pretty]

/-- The text of an array starts with a bracket, so it ends a number and begins no blanks. -/
theorem IsWholeArray.render_eq_cons (h : document.IsWholeArray) :
    ∃ tail, render .pretty 0 document = '[' :: tail := by
  obtain ⟨values, rfl, -⟩ := h
  exact ⟨_, rfl⟩

/-- The text of an array starts with a bracket, so no number goes on with it. -/
theorem endsNumber_flatMap (h : ∀ document ∈ documents, document.IsWholeArray) :
    EndsNumber (documents.flatMap (render .pretty 0)) := by
  intro c tail hText
  cases documents with
  | nil => cases hText
  | cons document documents =>
      obtain ⟨first, hFirst⟩ := (h document List.mem_cons_self).render_eq_cons
      rw [List.flatMap_cons, hFirst] at hText
      cases hText
      decide

/-- The first of some texts of arrays is read on its own. -/
theorem IsWholeArray.readPart_append (h : document.IsWholeArray) {rest : List Char}
    (hRest : EndsNumber rest) :
    let cs := render .pretty 0 document ++ rest
    (skipGap cs).isEmpty = false ∧
      readPart (2 * cs.length + 1) .value cs = (document.asRead, some rest) := by
  constructor
  · obtain ⟨tail, hTail⟩ := h.render_eq_cons
    rw [hTail, List.cons_append, skipGap_cons rfl]
    rfl
  · obtain ⟨values, rfl, hValues⟩ := h
    apply readsBack isBlank_pretty (allNumbers_list.mpr hValues) 0
    · rw [List.length_append]
      omega
    · exact hRest

/-- Arrays one behind another are read back one by one. -/
theorem documentsFrom?_flatMap (h : ∀ document ∈ documents, document.IsWholeArray) {fuel : Nat}
    (hFuel : documents.length < fuel) :
    documentsFrom? fuel (documents.flatMap (render .pretty 0)) = some documents := by
  induction documents generalizing fuel with
  | nil =>
      obtain ⟨fuel, rfl⟩ := Nat.exists_eq_succ_of_ne_zero (Nat.ne_of_gt hFuel)
      rfl
  | cons document documents ih =>
      obtain ⟨fuel, rfl⟩ := Nat.exists_eq_succ_of_ne_zero (Nat.ne_zero_of_lt hFuel)
      rw [List.forall_mem_cons] at h
      obtain ⟨hStart, hRead⟩ := h.1.readPart_append (endsNumber_flatMap h.2)
      have hOthers := ih h.2 (Nat.lt_of_succ_lt_succ hFuel)
      rw [documentsFrom?, List.flatMap_cons, hStart, hRead]
      simp [complete?_asRead, hOthers]

/-- The texts of arrays, one right behind another, consist of just these arrays. -/
theorem documents?_prettyAll (h : ∀ document ∈ documents, document.IsWholeArray) :
    documents? (prettyAll documents) = some documents := by
  rw [documents?, toList_prettyAll, ← String.length_toList, toList_prettyAll]
  apply documentsFrom?_flatMap h
  apply Nat.lt_succ_of_le
  rw [List.length_flatMap]
  have hPositive : ∀ n ∈ documents.map fun d => (render .pretty 0 d).length, 1 ≤ n := by
    intro n hn
    obtain ⟨document, hMem, rfl⟩ := List.mem_map.mp hn
    obtain ⟨tail, hTail⟩ := (h document hMem).render_eq_cons
    simp [hTail]
  simpa using List.length_le_sum_of_one_le _ hPositive

/-- They are one document only if there is one of them. -/
theorem document?_prettyAll (h : ∀ document ∈ documents, document.IsWholeArray) :
    document? (prettyAll documents) =
      match documents with
      | [document] => some document
      | _ => none := by
  rw [document?, read, toList_prettyAll]
  cases documents with
  | nil => rfl
  | cons document documents =>
      rw [List.forall_mem_cons] at h
      have hRead := (h.1.readPart_append (endsNumber_flatMap h.2)).2
      rw [List.flatMap_cons, hRead]
      cases documents with
      | nil => simp [skipGap, complete?_asRead]
      | cons next others =>
          rw [List.forall_mem_cons] at h
          have hStart := (h.2.1.readPart_append (endsNumber_flatMap h.2.2)).1
          simp [hStart]

/-- The texts of arrays, joined, are one JSON text iff there is just one. -/
theorem isSome_document?_prettyAll (h : ∀ document ∈ documents, document.IsWholeArray) :
    (document? (prettyAll documents)).isSome ↔ documents.length = 1 := by
  rw [document?_prettyAll h]
  cases documents with
  | nil => simp
  | cons document others => cases others <;> simp

end Json

namespace Report

open Json (Document document? documents? prettyAll)

/-- A result for other programs. -/
def machineDocument (source : Option String) (result : LintResult) : Document :=
  Json.list [placedRecord source result]

/-- A result for an editor: all its findings, in order. -/
def editorDocument (source : Option String) (result : LintResult) : Document :=
  Json.list (result.diagnostics.map fun d => (EditorFinding.ofDiagnostic source d).encode)

/-- A report for other programs is an array, and its numbers are whole. -/
theorem isWholeArray_machineDocument (source : Option String) (result : LintResult) :
    (machineDocument source result).IsWholeArray := by
  refine ⟨_, rfl, ?_⟩
  simp [placedRecord, findingRecord, or_imp, forall_and]

/-- A report for an editor is an array, and its numbers are whole. -/
theorem isWholeArray_editorDocument (source : Option String) (result : LintResult) :
    (editorDocument source result).IsWholeArray := by
  refine ⟨_, rfl, ?_⟩
  simp [EditorFinding.encode, EditorFinding.encodePosition]

theorem isWholeArray_machineDocuments (results : List (LintResult × Option String)) :
    ∀ document ∈ results.map fun p => machineDocument p.2 p.1, document.IsWholeArray :=
  List.forall_mem_map.mpr fun _ _ => isWholeArray_machineDocument _ _

theorem isWholeArray_editorDocuments (results : List (LintResult × Option String)) :
    ∀ document ∈ results.map fun p => editorDocument p.2 p.1, document.IsWholeArray :=
  List.forall_mem_map.mpr fun _ _ => isWholeArray_editorDocument _ _

/-- The text of a result for an editor is the text of its document. -/
theorem editor_eq (result : LintResult) (source : Option String) :
    Report.editor result source = Json.pretty (editorDocument source result) := by
  simp [Report.editor, editorFindings, editorDocument, Function.comp_def]

/-- Some results are delivered to a program as one array for each of them. -/
theorem Emitter.emitAll_machine (results : List (LintResult × Option String)) :
    Emitter.machine.emitAll results =
      prettyAll (results.map fun p => machineDocument p.2 p.1) := by
  have hSource (p : LintResult × Option String) :
      Emitter.machine.emit p.1 p.2 = Json.pretty (machineDocument p.2 p.1) := by
    obtain ⟨result, source⟩ := p
    have hFind : (Emitter.sourcesFor result source).find? result.file = source := by
      cases source <;> simp [Emitter.sourcesFor, Sources.find?]
    have hRecord : resultRecord (Emitter.sourcesFor result source) result =
        placedRecord source result := by
      rw [resultRecord, hFind, placedRecord]
    simp [Emitter.emit, Report.machine, machineDocument, hRecord]
  simp [Emitter.emitAll, Emitter.emitSummary, prettyAll, hSource, Function.comp_def]

/-- Some results are delivered to an editor as one array for each of them. -/
theorem Emitter.emitAll_editor (results : List (LintResult × Option String)) :
    Emitter.editor.emitAll results =
      prettyAll (results.map fun p => editorDocument p.2 p.1) := by
  simp [Emitter.emitAll, Emitter.emitSummary, Emitter.emit, prettyAll, editor_eq,
    Function.comp_def]

end Report

namespace Linter

/-- Nothing is counted exactly if nothing is found. -/
theorem counts_eq_zero_iff (l : Linter) (units : List CompilationUnit) :
    (l.lintAll units).2.errorCount = 0 ∧ (l.lintAll units).2.warningCount = 0 ↔
      ∀ unit ∈ units, (l.lint unit).diagnostics = [] := by
  induction units with
  | nil => simp [lintAll, LintSummary.ofResults]
  | cons unit units ih =>
      have hUnit : (l.lint unit).errorCount = 0 ∧ (l.lint unit).warningCount = 0 ↔
          (l.lint unit).diagnostics = [] := by
        have hLe : (l.lint unit).errorCount ≤ (l.lint unit).diagnostics.length :=
          List.countP_le_length
        have hWarnings : (l.lint unit).warningCount =
            (l.lint unit).diagnostics.length - (l.lint unit).errorCount := rfl
        rw [← List.length_eq_zero_iff]
        omega
      rw [List.forall_mem_cons, ← ih, ← hUnit]
      simp only [lintAll, LintSummary.ofResults, List.map_cons, List.foldr_cons]
      omega

end Linter

namespace Cli

open Json (document? documents? prettyAll document?_prettyAll documents?_prettyAll
  isSome_document?_prettyAll)
open Report (Emitter machineDocument editorDocument)

/-- Nothing is printed of a delivery that is held back, and a blank one is empty. -/
theorem shown_prettyAll {documents : List Json.Document}
    (h : ∀ document ∈ documents, document.IsWholeArray) (isSilent : Bool) :
    (if isSilent || (prettyAll documents).toList.all Text.isBlank then ""
        else prettyAll documents) =
      prettyAll (if isSilent then [] else documents) := by
  cases isSilent with
  | true => rfl
  | false =>
      cases documents with
      | nil => rfl
      | cons document documents =>
          obtain ⟨tail, hTail⟩ := (h document List.mem_cons_self).render_eq_cons
          have hBlank : Text.isBlank '[' = false := by decide
          simp [Json.toList_prettyAll, hTail, hBlank]

/-- The documents that linting for an editor prints: the findings of each unit, and nothing if it
is to be quiet and there are no findings. -/
def printedDocuments (options : LintOptions) (l : Linter) (units : List CompilationUnit) :
    List Json.Document :=
  if options.quiet ∧ ∀ unit ∈ units, (l.lint unit).diagnostics = [] then []
  else units.map fun unit => editorDocument unit.source (l.lint unit)

/-- Linting for an editor prints its documents, one right behind another. -/
theorem output_lintUnits (options : LintOptions) (l : Linter) (units : List CompilationUnit) :
    (lintUnits { options with format := .lsp } l units).output =
      prettyAll (printedDocuments options l units) := by
  have hReport : report .lsp units (l.lintAll units).1 =
      prettyAll (units.map fun unit => editorDocument unit.source (l.lint unit)) := by
    simp [report_lsp, prettyAll, Report.editor_eq, Function.comp_def]
  have hArrays : ∀ document ∈ units.map fun unit => editorDocument unit.source (l.lint unit),
      document.IsWholeArray := by
    simp [Report.isWholeArray_editorDocument]
  have hShown := shown_prettyAll hArrays
    (options.quiet && (l.lintAll units).2.errorCount == 0 &&
      (l.lintAll units).2.warningCount == 0)
  simp only [printedDocuments, ← l.counts_eq_zero_iff units]
  simpa [lintUnits, hReport, and_assoc] using hShown

theorem isWholeArray_printedDocuments (options : LintOptions) (l : Linter)
    (units : List CompilationUnit) :
    ∀ document ∈ printedDocuments options l units, document.IsWholeArray := by
  unfold printedDocuments
  split
  · simp
  · simp [Report.isWholeArray_editorDocument]

/-- Every delivery to programs and to editors consists of one document for each result, with all
its findings in order, and so does what linting for an editor prints. A delivery is a single
document exactly if it is about a single result. -/
theorem emitAll_documents (results : List (LintResult × Option String)) (options : LintOptions)
    (l : Linter) (units : List CompilationUnit) :
    let machine := Emitter.machine.emitAll results
    let editor := Emitter.editor.emitAll results
    let output := (lintUnits { options with format := .lsp } l units).output
    documents? machine = some (results.map fun p => machineDocument p.2 p.1) ∧
      documents? editor = some (results.map fun p => editorDocument p.2 p.1) ∧
      documents? output = some (printedDocuments options l units) ∧
      ((document? machine).isSome ↔ results.length = 1) ∧
      ((document? editor).isSome ↔ results.length = 1) ∧
      ((document? output).isSome ↔ (printedDocuments options l units).length = 1) := by
  have hMachine := Report.isWholeArray_machineDocuments results
  have hEditor := Report.isWholeArray_editorDocuments results
  have hPrinted := isWholeArray_printedDocuments options l units
  simp only [Emitter.emitAll_machine, Emitter.emitAll_editor, output_lintUnits]
  refine ⟨documents?_prettyAll hMachine, documents?_prettyAll hEditor,
    documents?_prettyAll hPrinted, ?_, ?_, isSome_document?_prettyAll hPrinted⟩
  · rw [isSome_document?_prettyAll hMachine, List.length_map]
  · rw [isSome_document?_prettyAll hEditor, List.length_map]

/-- Two results with a finding each are delivered as a text that is no document, and so are two
units with a finding each. -/
theorem emitAll_documents_fieldUnit :
    let result := ({} : Linter).lint fieldUnit
    let results := [(result, fieldUnit.source), (result, none)]
    let options : LintOptions := ⟨[], none, .lsp, none, false⟩
    result.diagnostics.length = 1 ∧
      document? (Emitter.machine.emitAll results) = none ∧
      document? (Emitter.editor.emitAll results) = none ∧
      document? (lintUnits options {} [fieldUnit, fieldUnit]).output = none := by
  refine ⟨by decide +kernel, ?_, ?_, ?_⟩
  · rw [Emitter.emitAll_machine, document?_prettyAll (Report.isWholeArray_machineDocuments _)]
    rfl
  · rw [Emitter.emitAll_editor, document?_prettyAll (Report.isWholeArray_editorDocuments _)]
    rfl
  · rw [output_lintUnits ⟨[], none, .lsp, none, false⟩,
      document?_prettyAll (isWholeArray_printedDocuments _ _ _)]
    rfl

end Cli
end SetupLint
