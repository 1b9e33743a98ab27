import SetupLint.Proofs.DirectiveText
import SetupLint.Proofs.LineNumber

/-! Which findings the comments of a source suppress, in terms of its lines: those of a rule that
some line of the source directs away in the whole file, and those in a line before which a line
directs the rule away. The lines are read while the line feeds are counted in another way, so
both have to find the same lines. -/
namespace SetupLint

/-- The lines of a text: what stands between its line feeds, without a carriage return. -/
def Text.textLines (cs : List Char) : List (List Char) :=
  (cs.splitOn '\n').map Text.withoutReturn

/-- The number of the line that holds a byte offset: the number of line feeds before it. -/
def Text.lineNumber (source : String) (offset : UInt32) : Nat :=
  (source.toUTF8.data.toList.take offset.toNat).count 0x0A

/-- A source suppresses the findings of a rule that start at an offset. -/
inductive Suppressed (source : String) (rule : String) (offset : UInt32) : Prop where
  | file {line rest : List Char}
      (isLine : line ∈ Text.textLines source.toList)
      (directs : Directive.Directs line .file rest)
      (covers : RuleSet.Covers rest rule)
  | nextLine {number : Nat} {line rest : List Char}
      (isLine : (Text.textLines source.toList)[number]? = some line)
      (directs : Directive.Directs line .nextLine rest)
      (covers : RuleSet.Covers rest rule)
      (next : number + 1 = Text.lineNumber source offset)

namespace Text

/-- The index gives the number of line feeds before an offset. -/
theorem lineOf_ofText {source : String} (hSize : byteLength source.toList < UInt32.size)
    (offset : UInt32) :
    (LineIndex.ofText source.toList).lineOf offset.toNat = lineNumber source offset := by
  have hBytes : source.toUTF8.data.toList = utf8 source.toList := by
    rw [String.toUTF8_eq_toByteArray, ← String.utf8Encode_toList]
    exact List.toList_data_toByteArray
  rw [LineIndex.lineOf_ofText hSize, lineNumber, hBytes, breaksBefore]

/-- A part of a line is a part of the text. -/
theorem infix_of_mem_lines {cs line : List Char} (h : line ∈ lines cs) : line <:+: cs := by
  obtain ⟨-, left, right, hText, -⟩ := mem_pieces_iff.mp h
  exact ⟨left, right, hText.symm⟩

/-- A line that is read has the directive of the line of the text with the same number. -/
theorem readLines_ofLine? (cs : List Char) (number : Nat) :
    (readLines cs)[number]?.bind Directive.ofLine? =
      (textLines cs)[number]?.bind Directive.ofLine? := by
  obtain ⟨init, last, hLines⟩ : ∃ init last, lines cs = init ++ [last] :=
    ⟨_, _, (List.dropLast_append_getLast (pieces_ne_nil _ cs)).symm⟩
  unfold readLines textLines
  rw [← lines_eq_splitOn, hLines, List.dropLast_concat, List.getLast?_concat, List.map_append]
  rcases Nat.lt_trichotomy number init.length with hBefore | hLast | hBehind
  · rw [List.getElem?_append_left (by simpa using hBefore),
      List.getElem?_append_left (by simpa using hBefore)]
  · -- the last line keeps its carriage return, but if it is empty there is nothing to read
    rw [List.getElem?_append_right (by simp [hLast]), List.getElem?_append_right (by simp [hLast])]
    have hZero : number - (init.map withoutReturn).length = 0 := by
      rw [List.length_map]
      omega
    rw [hZero, List.map_cons, List.getElem?_cons_zero, Option.bind_some,
      Directive.ofLine?_withoutReturn]
    cases last with
    | nil => rfl
    | cons => rfl
  · have hNone : ∀ suffix : List (List Char), suffix.length ≤ 1 →
        (init.map withoutReturn ++ suffix)[number]? = none := by
      intro suffix hSuffix
      rw [List.getElem?_eq_none_iff, List.length_append, List.length_map]
      omega
    rw [hNone _ (by cases last <;> simp), hNone _ (by simp)]

/-- A text has at most one line more than line feeds. -/
theorem length_readLines_le (cs : List Char) : (readLines cs).length ≤ cs.count '\n' + 1 := by
  have hLines : (lines cs).length = cs.count '\n' + 1 := length_pieces _ cs
  have hLast : (((lines cs).getLast?.filter fun line => !line.isEmpty).toList).length ≤ 1 :=
    Option.length_toList_le
  rw [readLines, List.length_append, List.length_map, List.length_dropLast, hLines]
  omega

/-- Every character has a byte. -/
theorem length_le_byteLength (cs : List Char) : cs.length ≤ byteLength cs := by
  induction cs with
  | nil => exact Nat.le_refl 0
  | cons c cs ih =>
      have hSize := Char.utf8Size_pos c
      rw [List.length_cons, byteLength]
      omega

/-- The numbers of the lines fit into 32 bits, and so does the one behind the last line if one of
the lines has the word of a directive. -/
theorem length_readLines_lt {cs : List Char} (hSize : byteLength cs < UInt32.size)
    (hWord : Directive.fileWord <:+: cs) : (readLines cs).length < UInt32.size := by
  obtain ⟨left, right, rfl⟩ := hWord
  have hBreaks : Directive.fileWord.count '\n' = 0 := by decide
  have hWordLength : Directive.fileWord.length = 13 := by decide
  have hLeft : left.count '\n' ≤ left.length := List.count_le_length
  have hRight : right.count '\n' ≤ right.length := List.count_le_length
  have hLines := length_readLines_le (left ++ Directive.fileWord ++ right)
  have hBytes := length_le_byteLength (left ++ Directive.fileWord ++ right)
  simp only [List.count_append, List.length_append, hBreaks, hWordLength] at hLines hBytes
  omega

end Text

namespace LineRules

/-- Whether the rules for a line cover a rule. -/
def covers (table : LineRules) (line : Nat) (rule : String) : Bool :=
  (table.lookup line).any (·.covers rule)

/-- Rules for one line cover no other line. -/
theorem covers_add (table : LineRules) (target line : Nat) (rules : RuleSet) (rule : String) :
    (table.add target rules).covers line rule =
      (table.covers line rule || line == target && rules.covers rule) := by
  unfold covers
  induction table with
  | nil =>
      rw [add, List.lookup_cons, List.lookup_nil]
      cases line == target <;> simp
  | cons entry table ih =>
      obtain ⟨key, old⟩ := entry
      rw [add]
      split
      · rename_i hKey
        rw [List.lookup_cons, List.lookup_cons, hKey]
        cases line == target <;> simp [RuleSet.covers_merge]
      · rename_i hKey
        rw [List.lookup_cons, List.lookup_cons]
        cases hLine : line == key
        · exact ih
        · have hTarget : (line == target) = false := by
            rw [beq_iff_eq.mp hLine]
            exact beq_false_of_ne hKey
          simp [hTarget]

end LineRules

namespace Suppression

/-- Whether findings of a rule in a line are suppressed. -/
def suppressesIn (s : Suppression) (rule : String) (line : Nat) : Bool :=
  s.fileWide.any (·.covers rule) || s.nextLine.covers line rule

/-- Whether a directive in line `number` suppresses findings of a rule in a line. -/
def directsAway (d : Directive) (number : Nat) (rule : String) (line : Nat) : Bool :=
  match d.reach with
  | .file => d.rules.covers rule
  | .nextLine => line == number + 1 && d.rules.covers rule

/-- A directive is added to those that are already there. -/
theorem suppressesIn_read (s : Suppression) (text : List Char) {number : Nat}
    (hNumber : number + 1 < UInt32.size) (rule : String) (line : Nat) :
    (s.read text number).suppressesIn rule line = (s.suppressesIn rule line ||
      (Directive.ofLine? text).any fun d => directsAway d number rule line) := by
  unfold read suppressesIn
  cases Directive.ofLine? text with
  | none => simp
  | some d =>
      obtain ⟨reach, rules⟩ := d
      cases reach with
      | file =>
          have hMerge : ∀ fileWide : Option RuleSet,
              (some (fileWide.elim rules fun old => old.merge rules)).any (·.covers rule) =
                (fileWide.any (·.covers rule) || rules.covers rule) := by
            intro fileWide
            cases fileWide <;> simp [RuleSet.covers_merge]
          simp only [hMerge, Option.any_some, directsAway]
          rw [Bool.or_right_comm]
      | nextLine =>
          simp only [LineRules.covers_add, Nat.mod_eq_of_lt hNumber, Option.any_some, directsAway,
            Bool.or_assoc]

theorem lines_read (s : Suppression) (text : List Char) (number : Nat) :
    (s.read text number).lines = s.lines := by
  unfold read
  split <;> rfl

/-- The directives of some lines are added to those that are already there. -/
theorem suppressesIn_foldl {texts : List (List Char)} {start : Nat}
    (hNumbers : start + texts.length < UInt32.size) (s : Suppression) (rule : String)
    (line : Nat) :
    ((texts.zipIdx start).foldl (fun s (text, number) => s.read text number) s).suppressesIn
        rule line = true ↔
      s.suppressesIn rule line = true ∨ ∃ (i : Nat) (d : Directive),
        texts[i]?.bind Directive.ofLine? = some d ∧
          directsAway d (start + i) rule line = true := by
  induction texts generalizing start s with
  | nil => simp
  | cons text texts ih =>
      rw [List.length_cons] at hNumbers
      rw [List.zipIdx_cons, List.foldl_cons, ih (by omega), suppressesIn_read _ _ (by omega),
        Bool.or_eq_true, or_assoc]
      apply or_congr Iff.rfl
      constructor
      · rintro (hFirst | ⟨i, d, hDirective, hAway⟩)
        · obtain ⟨d, hDirective, hAway⟩ := (Option.any_eq_true ..).mp hFirst
          exact ⟨0, d, hDirective, hAway⟩
        · exact ⟨i + 1, d, hDirective, by rwa [Nat.add_comm i 1, ← Nat.add_assoc]⟩
      · rintro ⟨i, d, hDirective, hAway⟩
        cases i with
        | zero => exact Or.inl ((Option.any_eq_true ..).mpr ⟨d, hDirective, hAway⟩)
        | succ i => exact Or.inr ⟨i, d, hDirective, by rwa [Nat.add_assoc, Nat.add_comm 1 i]⟩

/-- Reading directives does not touch the index of lines. -/
theorem lines_foldl (texts : List (List Char × Nat)) (s : Suppression) :
    (texts.foldl (fun s (text, number) => s.read text number) s).lines = s.lines := by
  induction texts generalizing s with
  | nil => rfl
  | cons text texts ih => rw [List.foldl_cons, ih, lines_read]

/-- Whether the directive of a line suppresses findings of a rule in a line. -/
theorem directsAway_iff {text : List Char} {number line : Nat} {rule : String} :
    (∃ d, Directive.ofLine? text = some d ∧ directsAway d number rule line = true) ↔
      ∃ rest, RuleSet.Covers rest rule ∧ (Directive.Directs text .file rest ∨
        Directive.Directs text .nextLine rest ∧ number + 1 = line) := by
  constructor
  · rintro ⟨⟨reach, rules⟩, hDirective, hAway⟩
    obtain ⟨rest, hDirects, rfl⟩ := Directive.ofLine?_eq_some_iff.mp hDirective
    cases reach with
    | file => exact ⟨rest, RuleSet.covers_parse.mp hAway, Or.inl hDirects⟩
    | nextLine =>
        obtain ⟨hLine, hCovers⟩ := Bool.and_eq_true_iff.mp hAway
        exact ⟨rest, RuleSet.covers_parse.mp hCovers,
          Or.inr ⟨hDirects, (beq_iff_eq.mp hLine).symm⟩⟩
  · rintro ⟨rest, hCovers, hDirects | ⟨hDirects, rfl⟩⟩
    · exact ⟨⟨.file, .parse rest⟩, Directive.ofLine?_eq_some_iff.mpr ⟨rest, hDirects, rfl⟩,
        RuleSet.covers_parse.mpr hCovers⟩
    · exact ⟨⟨.nextLine, .parse rest⟩, Directive.ofLine?_eq_some_iff.mpr ⟨rest, hDirects, rfl⟩,
        Bool.and_eq_true_iff.mpr ⟨beq_self_eq_true _, RuleSet.covers_parse.mpr hCovers⟩⟩

/-- A source suppresses findings by the directive of one of its lines. -/
theorem suppressed_iff {source rule : String} {offset : UInt32} :
    Suppressed source rule offset ↔ ∃ (i : Nat) (d : Directive),
      (Text.textLines source.toList)[i]?.bind Directive.ofLine? = some d ∧
        directsAway d i rule (Text.lineNumber source offset) = true := by
  constructor
  · intro h
    cases h with
    | file hLine hDirects hCovers =>
        obtain ⟨i, hi⟩ := List.mem_iff_getElem?.mp hLine
        obtain ⟨d, hd⟩ := directsAway_iff.mpr ⟨_, hCovers, Or.inl hDirects⟩
        exact ⟨i, d, by rw [hi]; exact hd.1, hd.2⟩
    | nextLine hLine hDirects hCovers hNext =>
        obtain ⟨d, hd⟩ := directsAway_iff.mpr ⟨_, hCovers, Or.inr ⟨hDirects, hNext⟩⟩
        exact ⟨_, d, by rw [hLine]; exact hd.1, hd.2⟩
  · rintro ⟨i, d, hDirective, hAway⟩
    obtain ⟨text, hText, hDirective⟩ := Option.bind_eq_some_iff.mp hDirective
    obtain ⟨rest, hCovers, hDirects | ⟨hDirects, hNext⟩⟩ :=
      directsAway_iff.mp ⟨d, hDirective, hAway⟩
    · exact Suppressed.file (List.mem_of_getElem? hText) hDirects hCovers
    · exact Suppressed.nextLine hText hDirects hCovers hNext

instance (source rule : String) (offset : UInt32) : Decidable (Suppressed source rule offset) :=
  decidable_of_iff
    ((Text.textLines source.toList).zipIdx.any fun (text, number) =>
      (Directive.ofLine? text).any fun d =>
        directsAway d number rule (Text.lineNumber source offset))
    (by
      rw [suppressed_iff, List.any_eq_true]
      constructor
      · rintro ⟨⟨text, number⟩, hText, hAway⟩
        obtain ⟨d, hDirective, hAway⟩ := (Option.any_eq_true ..).mp hAway
        refine ⟨number, d, ?_, hAway⟩
        rw [List.mem_zipIdx_iff_getElem?.mp hText]
        exact hDirective
      · rintro ⟨number, d, hDirective, hAway⟩
        obtain ⟨text, hText, hDirective⟩ := Option.bind_eq_some_iff.mp hDirective
        exact ⟨(text, number), List.mem_zipIdx_iff_getElem?.mpr hText,
          (Option.any_eq_true ..).mpr ⟨d, hDirective, hAway⟩⟩)

/-- Without the word of a directive in it a source has no line with a directive. -/
theorem ofLine?_eq_none_of_no_word {cs line : List Char}
    (hWord : ¬ Directive.fileWord <:+: cs) (hLine : line ∈ Text.textLines cs) :
    Directive.ofLine? line = none := by
  obtain ⟨text, hText, rfl⟩ := List.mem_map.mp hLine
  rw [← Text.lines_eq_splitOn] at hText
  rw [Directive.ofLine?_withoutReturn, Option.eq_none_iff_forall_ne_some]
  intro d hDirective
  obtain ⟨rest, hDirects, -⟩ := Directive.ofLine?_eq_some_iff.mp hDirective
  exact hWord (hDirects.has_word.trans (Text.infix_of_mem_lines hText))

/-- Without the word of a directive in it a source suppresses nothing. -/
theorem not_suppressed_of_no_word {source rule : String} {offset : UInt32}
    (hWord : ¬ Directive.fileWord <:+: source.toList) : ¬ Suppressed source rule offset := by
  rw [suppressed_iff]
  rintro ⟨i, d, hDirective, -⟩
  obtain ⟨text, hText, hDirective⟩ := Option.bind_eq_some_iff.mp hDirective
  rw [ofLine?_eq_none_of_no_word hWord (List.mem_of_getElem? hText)] at hDirective
  cases hDirective

/-- The findings that a source suppresses. -/
theorem suppresses_ofSource {source : String} (hSize : Text.byteLength source.toList < UInt32.size)
    (rule : String) (offset : UInt32) :
    (ofSource source).suppresses rule offset = true ↔ Suppressed source rule offset := by
  have hIn : ∀ s : Suppression, s.suppresses rule offset =
      s.suppressesIn rule (s.lines.lineOf offset.toNat) := fun _ => rfl
  have hNothing : ∀ line, ({ lines := .ofText source.toList } : Suppression).suppressesIn rule line
      = false := fun _ => rfl
  rw [hIn]
  unfold ofSource
  by_cases hWord : Text.contains Directive.fileWord source.toList = true
  · have hNumbers : 0 + (Text.readLines source.toList).length < UInt32.size := by
      rw [Nat.zero_add]
      exact Text.length_readLines_lt hSize (Text.contains_iff.mp hWord)
    simp only [hWord, if_true]
    rw [lines_foldl, Text.lineOf_ofText hSize, suppressesIn_foldl hNumbers, hNothing,
      suppressed_iff]
    simp only [Text.readLines_ofLine?, Nat.zero_add, Bool.false_eq_true, false_or]
  · simp only [hWord, Bool.false_eq_true, if_false]
    rw [Text.contains_iff] at hWord
    rw [hNothing]
    simp [not_suppressed_of_no_word hWord]

/-- If nothing is suppressed, no rule is. -/
theorem suppresses_of_isEmpty {s : Suppression} (h : s.isEmpty = true) (rule : String)
    (offset : UInt32) : s.suppresses rule offset = false := by
  obtain ⟨hFile, hLines⟩ := Bool.and_eq_true_iff.mp h
  unfold suppresses
  rw [Option.isNone_iff_eq_none.mp hFile, List.isEmpty_iff.mp hLines]
  rfl

/-- Whether a finding is kept depends on its rule and its place. -/
theorem filter_eq (s : Suppression) (diagnostics : List Diagnostic) :
    s.filter diagnostics = diagnostics.filter fun d => !s.suppresses d.rule d.span.start := by
  unfold filter
  split
  · rename_i hEmpty
    simp [suppresses_of_isEmpty hEmpty]
  · rfl

end Suppression
end SetupLint
