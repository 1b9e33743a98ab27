import SetupLint.Proofs.TextSplit
import SetupLint.Suppression

/-! The text of a directive: in which lines it stands and which rules it is for. Blanks at
the end of a line do not change what it directs. -/
namespace SetupLint

namespace RuleSet

/-- The text before the remark in the rest of a directive. -/
inductive CodeText : List Char → List Char → Prop where
  | remark {rest codes remark : List Char} (cut : Text.CutAt remarkMark rest codes remark) :
      CodeText rest codes
  | bare {rest : List Char} (noRemark : ¬ remarkMark <:+: rest) : CodeText rest rest

/-- A code names a rule, possibly with the namespace in front. -/
inductive Names : List Char → String → Prop where
  | qualified (rule : String) : Names (ruleNamespace.toList ++ '/' :: rule.toList) rule
  | bare {rule : String} (unqualified : ¬ ruleNamespace.toList ++ ['/'] <+: rule.toList) :
      Names rule.toList rule

/-- The rest of a directive is for a rule: one of its codes names the rule, or it has no code. -/
def Covers (rest : List Char) (rule : String) : Prop :=
  ∃ text, CodeText rest text ∧
    ((∀ code, ¬ Text.MaximalRun isCodeGap text code) ∨
      ∃ code, Text.MaximalRun isCodeGap text code ∧ Names code rule)

/-- The codes end where the remark starts. -/
theorem codeText_iff {rest text : List Char} :
    CodeText rest text ↔ Text.before remarkMark rest = text := by
  constructor
  · rintro (hCut | hNone)
    · exact hCut.before_eq
    · exact Text.before_eq_self hNone
  · rintro rfl
    by_cases hInfix : remarkMark <:+: rest
    · obtain ⟨remark, hRemark⟩ := Option.isSome_iff_exists.mp (Text.contains_iff.mpr hInfix)
      obtain ⟨codes, hCut⟩ := Text.after?_eq_some_iff.mp hRemark
      rw [hCut.before_eq]
      exact CodeText.remark hCut
    · rw [Text.before_eq_self hInfix]
      exact CodeText.bare hInfix

/-- A code names a rule with its namespace or without. -/
theorem names_iff {code : List Char} {rule : String} :
    Names code rule ↔ String.ofList (bareCode code) = rule := by
  unfold bareCode
  constructor
  · rintro (_ | hBare)
    · rw [Text.behind?_eq_some_iff.mpr (List.append_cons ..), Option.getD_some,
        String.ofList_toList]
    · rw [Text.behind?_eq_none_iff.mpr hBare, Option.getD_none, String.ofList_toList]
  · intro h
    cases hBehind : Text.behind? (ruleNamespace.toList ++ ['/']) code with
    | some bare =>
        rw [hBehind, Option.getD_some] at h
        rw [Text.behind?_eq_some_iff.mp hBehind, ← h, List.append_assoc]
        have hNames := Names.qualified (String.ofList bare)
        rwa [String.toList_ofList] at hNames
    | none =>
        rw [hBehind, Option.getD_none] at h
        have hCode : code = rule.toList := by rw [← h, String.toList_ofList]
        rw [hCode] at hBehind ⊢
        exact Names.bare (Text.behind?_eq_none_iff.mp hBehind)

/-- The rules that are read from the rest of a directive are those that it is for. -/
theorem covers_parse {rest : List Char} {rule : String} :
    (parse rest).covers rule = true ↔ Covers rest rule := by
  have hCovers : Covers rest rule ↔ Text.runs isCodeGap (Text.before remarkMark rest) = [] ∨
      ∃ code ∈ Text.runs isCodeGap (Text.before remarkMark rest),
        String.ofList (bareCode code) = rule := by
    simp only [Covers, codeText_iff, ← Text.mem_runs_iff, names_iff, exists_eq_left',
      List.eq_nil_iff_forall_not_mem]
  rw [hCovers]
  unfold parse
  cases hRuns : Text.runs isCodeGap (Text.before remarkMark rest) with
  | nil => simp [covers]
  | cons code codes => simp [covers]

/-- Two directives together are for the rules of each. -/
theorem covers_merge (a b : RuleSet) (rule : String) :
    (a.merge b).covers rule = (a.covers rule || b.covers rule) := by
  cases a <;> cases b <;> simp [merge, covers]

/-- A carriage return at the end of a directive does not change its rules. -/
theorem parse_concat_return (rest : List Char) : parse (rest ++ ['\r']) = parse rest := by
  have hRemark : '\r' ∉ remarkMark := by decide
  have hRuns : Text.runs isCodeGap (Text.before remarkMark (rest ++ ['\r'])) =
      Text.runs isCodeGap (Text.before remarkMark rest) := by
    rcases Text.before_concat hRemark rest with hSame | hLonger
    · rw [hSame]
    · rw [hLonger, Text.runs_concat (by decide)]
  unfold parse
  rw [hRuns]

end RuleSet

namespace Directive

/-- A line is a directive with a reach and a rest: its comment starts, but for blanks, with the
word of the directive. A comment that starts with both words is for the next line. -/
inductive Directs (line : List Char) : Reach → List Char → Prop where
  | nextLine {before comment rest : List Char}
      (mark : Text.CutAt commentMark line before comment)
      (word : comment.dropWhile Text.isBlank = nextLineWord ++ rest) :
      Directs line .nextLine rest
  | file {before comment rest : List Char}
      (mark : Text.CutAt commentMark line before comment)
      (other : ¬ nextLineWord <+: comment.dropWhile Text.isBlank)
      (word : comment.dropWhile Text.isBlank = fileWord ++ rest)
      (ends : ∀ c ∈ rest.head?, Text.isBlank c = true) :
      Directs line .file rest

/-- A directive has the word of a directive for a file in it, as both words start with this. -/
theorem Directs.has_word {line rest : List Char} {reach : Reach} (h : Directs line reach rest) :
    fileWord <:+: line := by
  have hInfix : ∀ {before comment text : List Char}, Text.CutAt commentMark line before comment →
      comment.dropWhile Text.isBlank = fileWord ++ text → fileWord <:+: line := by
    intro before comment text hMark hWord
    have hComment : comment <:+ line := ⟨before ++ commentMark, hMark.append.symm⟩
    exact (hWord ▸ List.prefix_append fileWord text).isInfix.trans
      ((List.dropWhile_suffix Text.isBlank).trans hComment).isInfix
  have hLonger : nextLineWord = fileWord ++ "-next-line".toList := by decide
  cases h with
  | nextLine hMark hWord =>
      rw [hLonger, List.append_assoc] at hWord
      exact hInfix hMark hWord
  | file hMark hOther hWord hEnds => exact hInfix hMark hWord

/-- The word of a directive ends at a blank or with the line. -/
theorem endsWord_iff {rest : List Char} :
    endsWord rest = true ↔ ∀ c ∈ rest.head?, Text.isBlank c = true := by
  cases rest <;> simp [endsWord]

/-- A comment is a directive iff it starts with one of the two words, of which the one for the file
has to end. -/
theorem ofComment?_eq_some_iff {comment : List Char} {d : Directive} :
    ofComment? comment = some d ↔ ∃ rest, d.rules = .parse rest ∧
      ((d.reach = .nextLine ∧ comment = nextLineWord ++ rest) ∨
        (d.reach = .file ∧ ¬ nextLineWord <+: comment ∧ comment = fileWord ++ rest ∧
          ∀ c ∈ rest.head?, Text.isBlank c = true)) := by
  obtain ⟨reach, rules⟩ := d
  unfold ofComment?
  cases hNext : Text.behind? nextLineWord comment with
  | some rest =>
      have hComment := Text.behind?_eq_some_iff.mp hNext
      constructor
      · intro h
        cases h
        exact ⟨rest, rfl, Or.inl ⟨rfl, hComment⟩⟩
      · rintro ⟨rest', rfl, ⟨rfl, hComment'⟩ | ⟨-, hOther, -⟩⟩
        · rw [List.append_cancel_left (hComment.symm.trans hComment')]
        · exact absurd ⟨rest, hComment.symm⟩ hOther
  | none =>
      have hOther := Text.behind?_eq_none_iff.mp hNext
      constructor
      · intro h
        cases hFile : Text.behind? fileWord comment with
        | none => simp [hFile] at h
        | some rest =>
            simp only [hFile, Option.ite_none_right_eq_some] at h
            obtain ⟨hEnds, h⟩ := h
            cases h
            exact ⟨rest, rfl, Or.inr ⟨rfl, hOther, Text.behind?_eq_some_iff.mp hFile,
              endsWord_iff.mp hEnds⟩⟩
      · rintro ⟨rest, rfl, ⟨-, hComment⟩ | ⟨rfl, -, hComment, hEnds⟩⟩
        · exact absurd ⟨rest, hComment.symm⟩ hOther
        · simp only [Text.behind?_eq_some_iff.mpr hComment, endsWord_iff.mpr hEnds, if_true]

/-- The directive that is read from a line is the one that the line is. -/
theorem ofLine?_eq_some_iff {line : List Char} {d : Directive} :
    ofLine? line = some d ↔ ∃ rest, Directs line d.reach rest ∧ d.rules = .parse rest := by
  unfold ofLine?
  rw [Option.bind_eq_some_iff]
  constructor
  · rintro ⟨comment, hAfter, hComment⟩
    obtain ⟨before, hMark⟩ := Text.after?_eq_some_iff.mp hAfter
    obtain ⟨rest, hRules, ⟨hReach, hWord⟩ | ⟨hReach, hOther, hWord, hEnds⟩⟩ :=
      ofComment?_eq_some_iff.mp hComment
    · rw [hReach]
      exact ⟨rest, Directs.nextLine hMark hWord, hRules⟩
    · rw [hReach]
      exact ⟨rest, Directs.file hMark hOther hWord hEnds, hRules⟩
  · obtain ⟨reach, rules⟩ := d
    rintro ⟨rest, hDirects, rfl⟩
    cases hDirects with
    | nextLine hMark hWord =>
        exact ⟨_, Text.after?_eq_some_iff.mpr ⟨_, hMark⟩,
          ofComment?_eq_some_iff.mpr ⟨rest, rfl, Or.inl ⟨rfl, hWord⟩⟩⟩
    | file hMark hOther hWord hEnds =>
        exact ⟨_, Text.after?_eq_some_iff.mpr ⟨_, hMark⟩,
          ofComment?_eq_some_iff.mpr ⟨rest, rfl, Or.inr ⟨rfl, hOther, hWord, hEnds⟩⟩⟩

/-- A carriage return at the end of a line makes no directive and spoils none. -/
theorem ofComment?_concat_return (comment : List Char) :
    ofComment? (comment ++ ['\r']) = ofComment? comment := by
  have hEnds : ∀ rest, endsWord (rest ++ ['\r']) = endsWord rest := by
    intro rest
    cases rest with
    | nil => decide
    | cons => rfl
  have hNext : '\r' ∉ nextLineWord := by decide
  have hFile : '\r' ∉ fileWord := by decide
  unfold ofComment?
  rw [Text.behind?_concat hNext, Text.behind?_concat hFile]
  cases Text.behind? nextLineWord comment with
  | some rest => simp only [Option.map_some, RuleSet.parse_concat_return]
  | none =>
      cases Text.behind? fileWord comment with
      | some rest =>
          simp only [Option.map_some, Option.map_none, hEnds, RuleSet.parse_concat_return]
      | none => rfl

/-- A carriage return at the end of a line does not change its directive. -/
theorem ofLine?_concat_return (line : List Char) : ofLine? (line ++ ['\r']) = ofLine? line := by
  have hMark : '\r' ∉ commentMark := by decide
  unfold ofLine?
  rw [Text.after?_concat hMark (by decide)]
  cases Text.after? commentMark line with
  | none => rfl
  | some comment =>
      rw [Option.map_some, Option.bind_some, Option.bind_some, Text.trimStart, Text.trimStart,
        List.dropWhile_append]
      split
      · rename_i hBlank
        -- a comment of blanks is no directive, with or without the carriage return
        rw [List.isEmpty_iff.mp hBlank]
        rfl
      · exact ofComment?_concat_return _

theorem ofLine?_withoutReturn (line : List Char) :
    ofLine? (Text.withoutReturn line) = ofLine? line := by
  unfold Text.withoutReturn
  split
  · rename_i hReturn
    obtain ⟨init, rfl⟩ := List.getLast?_eq_some_iff.mp hReturn
    rw [List.dropLast_concat, ofLine?_concat_return]
  · rfl

end Directive
end SetupLint
