import SetupLint.Proofs.LinePosition
import SetupLint.Report.Editor

/-! Where an editor is told that a finding is. The protocol counts lines by their line feeds and
columns in UTF-16 code units, as long as no other encoding is agreed on. The columns of a report
count characters. The two counts agree as long as all characters of the line before the position are
in the basic plane, and part behind the first one that takes two code units. -/
namespace SetupLint

namespace Text

/-- Whether a character takes two UTF-16 code units. -/
def IsPaired (c : Char) : Prop := 0x10000 ≤ c.toNat

instance (c : Char) : Decidable (IsPaired c) := inferInstanceAs (Decidable (_ ≤ _))

/-- The number of UTF-16 code units of a text. -/
def unitLength : List Char → Nat
  | [] => 0
  | c :: cs => (if IsPaired c then 2 else 1) + unitLength cs

/-- The position right behind a text, with its column in UTF-16 code units. -/
def Position.unitsBehind (cs : List Char) : Position := ⟨cs.count '\n', unitLength (lastLine cs)⟩

/-- There is one more unit than characters for each character with two units. -/
theorem unitLength_eq (cs : List Char) :
    unitLength cs = cs.length + cs.countP fun c => decide (IsPaired c) := by
  induction cs with
  | nil => rfl
  | cons c cs ih =>
      rw [unitLength, ih, List.length_cons, List.countP_cons]
      by_cases hPaired : IsPaired c
      · simp only [hPaired, if_true, decide_true]
        omega
      · simp only [hPaired, if_false, decide_false, Bool.false_eq_true]
        omega

/-- The two columns agree iff no character of the line takes two code units. -/
theorem Position.behind_eq_unitsBehind_iff (cs : List Char) :
    behind cs = unitsBehind cs ↔ ∀ c ∈ lastLine cs, ¬ IsPaired c := by
  have hCount : (lastLine cs).countP (fun c => decide (IsPaired c)) = 0 ↔
      ∀ c ∈ lastLine cs, ¬ IsPaired c := by
    simp [List.countP_eq_zero]
  rw [behind, unitsBehind, unitLength_eq, ← hCount, Position.mk.injEq]
  omega

end Text

namespace Report

open Text (Position byteLength)

/-- The position of a boundary of the source is the one right behind the text in front of it. -/
theorem editorPosition_boundary {source : String} {left right : List Char} {offset : UInt32}
    (hSize : byteLength source.toList < UInt32.size) (hSource : source.toList = left ++ right)
    (hOffset : byteLength left = offset.toNat) :
    editorPosition (some source) offset = .behind left := by
  rw [hSource] at hSize
  rw [editorPosition, Text.positionOf, hSource, ← hOffset,
    Text.LineIndex.position?_boundary hSize]
  rfl

/-- A finding between two boundaries of a source whose lines can be numbered is reported at the
positions right behind the texts in front of them, in characters. They are those of the protocol
exactly if no character between the start of the line and the boundary takes two code units. -/
theorem EditorFinding.ofDiagnostic_range (d : Diagnostic) (source : String)
    {beforeStart fromStart beforeStop fromStop : List Char}
    (hSize : byteLength source.toList < UInt32.size)
    (hStart : source.toList = beforeStart ++ fromStart)
    (hStop : source.toList = beforeStop ++ fromStop)
    (hStartAt : byteLength beforeStart = d.span.start.toNat)
    (hStopAt : byteLength beforeStop = d.span.stop.toNat) :
    let finding := ofDiagnostic (some source) d
    finding.start = .behind beforeStart ∧ finding.stop = .behind beforeStop ∧
      (finding.start = .unitsBehind beforeStart ↔
        ∀ c ∈ Text.lastLine beforeStart, ¬ Text.IsPaired c) ∧
      (finding.stop = .unitsBehind beforeStop ↔
        ∀ c ∈ Text.lastLine beforeStop, ¬ Text.IsPaired c) := by
  have hStartPosition := editorPosition_boundary hSize hStart hStartAt
  have hStopPosition := editorPosition_boundary hSize hStop hStopAt
  simp only [ofDiagnostic, hStartPosition, hStopPosition]
  exact ⟨trivial, trivial, Position.behind_eq_unitsBehind_iff _,
    Position.behind_eq_unitsBehind_iff _⟩

/-- A finding of a field that is not final. -/
def fieldFinding (span : Span) : Diagnostic where
  rule := "no-mutable-fields"
  severity := .warning
  message := "Field `x` of `A` is mutable"
  span := span

/-- A character with two units counts for its own line only, and one with two bytes never does. -/
theorem EditorFinding.ofDiagnostic_range_nextLine :
    let source := "// 😀\nlate final é = 1; var x;"
    let beforeStart := "// 😀\nlate final é = 1; ".toList
    let beforeStop := "// 😀\nlate final é = 1; var x".toList
    let finding := ofDiagnostic (some source) (fieldFinding ⟨27, 32⟩)
    byteLength source.toList < UInt32.size ∧
      source.toList = beforeStart ++ "var x;".toList ∧ source.toList = beforeStop ++ ";".toList ∧
      byteLength beforeStart = 27 ∧ byteLength beforeStop = 32 ∧
      finding.start = .unitsBehind beforeStart ∧ finding.stop = .unitsBehind beforeStop ∧
      (finding.start, finding.stop) = (⟨1, 18⟩, ⟨1, 23⟩) := by
  intro source beforeStart beforeStop finding
  have hSize : byteLength source.toList < UInt32.size := by decide
  have hStart : source.toList = beforeStart ++ "var x;".toList := by decide
  have hStop : source.toList = beforeStop ++ ";".toList := by decide
  have hStartAt : byteLength beforeStart = 27 := by decide
  have hStopAt : byteLength beforeStop = 32 := by decide
  obtain ⟨-, -, hStartUnits, hStopUnits⟩ :=
    ofDiagnostic_range (fieldFinding ⟨27, 32⟩) source hSize hStart hStop hStartAt hStopAt
  have hSingleStart : (Text.lastLine beforeStart).all fun c => ¬ Text.IsPaired c := by decide
  have hSingleStop : (Text.lastLine beforeStop).all fun c => ¬ Text.IsPaired c := by decide
  exact ⟨hSize, hStart, hStop, hStartAt, hStopAt, hStartUnits.mpr (by simpa using hSingleStart),
    hStopUnits.mpr (by simpa using hSingleStop), by decide +kernel⟩

/-- Behind a character with two units, the reported columns are one too small. -/
theorem EditorFinding.range_behind_paired :
    let source := "class A extends CompositionWidget \x7b final s = '😀'; var x; \x7d\n"
    let before := "class A extends CompositionWidget \x7b final s = '😀'; ".toList
    let finding := ofDiagnostic (some source) (fieldFinding ⟨54, 59⟩)
    source.toList = before ++ "var x; \x7d\n".toList ∧ byteLength before = 54 ∧
      Text.IsBoundary source.toList 59 ∧ finding.start ≠ .unitsBehind before ∧
      (finding.start, Position.unitsBehind before) = (⟨0, 51⟩, ⟨0, 52⟩) := by
  decide +kernel

end Report
end SetupLint
