import SetupLint.Proofs.SuppressionFilter

/-! Words that only resemble the word of a directive. A comment is a directive by its first word,
and a source without such a word suppresses nothing. The word of a directive for the whole file has
to be complete, but of a directive for the next line it is enough that the word starts as it
should. -/
namespace SetupLint

namespace Text

/-- The first word of a text: what stands between the blanks at its start and the next blank. -/
structure FirstWord (cs word : List Char) : Prop where
  nonempty : word ≠ []
  unbroken : ∀ c ∈ word, isBlank c = false
  bounded : ∃ blanks rest, cs = blanks ++ word ++ rest ∧ (∀ c ∈ blanks, isBlank c = true) ∧
    ∀ c ∈ rest.head?, isBlank c = true

/-- The characters of a text from its first one that is not blank up to the next blank. -/
def firstWord (cs : List Char) : List Char :=
  (cs.dropWhile isBlank).takeWhile fun c => !isBlank c

/-- Behind its blanks a text goes on with its first word, and then with a blank or not at all. -/
theorem FirstWord.dropWhile_eq {cs word : List Char} (h : FirstWord cs word) :
    ∃ rest, cs.dropWhile isBlank = word ++ rest ∧ ∀ c ∈ rest.head?, isBlank c = true := by
  obtain ⟨hWord, hUnbroken, blanks, rest, rfl, hBlanks, hRest⟩ := h
  obtain ⟨c, word, rfl⟩ := List.exists_cons_of_ne_nil hWord
  have hFirst : isBlank c = false := hUnbroken c List.mem_cons_self
  refine ⟨rest, ?_, hRest⟩
  rw [List.append_assoc, List.dropWhile_append_of_pos hBlanks, List.cons_append,
    List.dropWhile_cons_of_neg (by simp [hFirst])]

/-- The first word is the one that is computed. -/
theorem FirstWord.firstWord_eq {cs word : List Char} (h : FirstWord cs word) :
    firstWord cs = word := by
  obtain ⟨rest, hRest, hHead⟩ := h.dropWhile_eq
  rw [firstWord, hRest, List.takeWhile_append_of_pos fun c hc => by simp [h.unbroken c hc]]
  cases rest with
  | nil => rw [List.takeWhile_nil, List.append_nil]
  | cons c rest =>
      rw [List.takeWhile_cons_of_neg (by simp [hHead c rfl]), List.append_nil]

/-- A text that is not blank has a first word. -/
theorem firstWord_spec {cs : List Char} (h : cs.dropWhile isBlank ≠ []) :
    FirstWord cs (firstWord cs) where
  nonempty := by
    obtain ⟨c, rest, hRest⟩ := List.exists_cons_of_ne_nil h
    have hFirst := List.head?_dropWhile_not isBlank cs
    rw [hRest] at hFirst
    rw [firstWord, hRest, List.takeWhile_cons_of_pos (by simpa using hFirst)]
    exact List.cons_ne_nil _ _
  unbroken := by
    intro c hc
    simpa using List.mem_takeWhile_imp hc
  bounded := by
    refine ⟨cs.takeWhile isBlank, (cs.dropWhile isBlank).dropWhile fun c => !isBlank c, ?_,
      fun c => List.mem_takeWhile_imp, fun c hc => ?_⟩
    · rw [firstWord, List.append_assoc, List.takeWhile_append_dropWhile,
        List.takeWhile_append_dropWhile]
    · have hHead := List.head?_dropWhile_not (fun c => !isBlank c) (cs.dropWhile isBlank)
      rw [Option.mem_def.mp hc] at hHead
      simpa using hHead

/-- A text without blanks is at the start of another one iff it is at the start of the piece before
the first blank. -/
theorem prefix_append_iff_of_blank {mark word rest : List Char}
    (hMark : ∀ c ∈ mark, isBlank c = false) (hRest : ∀ c ∈ rest.head?, isBlank c = true) :
    mark <+: word ++ rest ↔ mark <+: word := by
  constructor
  · intro h
    rcases List.prefix_or_prefix_of_prefix h (List.prefix_append word rest) with hWord | hLonger
    · exact hWord
    · obtain ⟨more, rfl⟩ := hLonger
      rw [List.prefix_append_right_inj] at h
      cases more with
      | nil => exact (List.append_nil word).symm ▸ List.prefix_refl word
      | cons c more =>
          obtain ⟨tail, rfl⟩ := h
          -- the text would go on with the blank
          have hBlank := hMark c (by simp)
          rw [hRest c rfl] at hBlank
          cases hBlank
  · exact fun h => h.trans (List.prefix_append word rest)

end Text

namespace Directive

/-- A word is the first one behind the comment mark of a line. -/
inductive CommentWord (line word : List Char) : Prop where
  | intro {before comment : List Char} (mark : Text.CutAt commentMark line before comment)
      (first : Text.FirstWord comment word) : CommentWord line word

/-- A word makes a comment a directive. -/
def IsWord (word : List Char) : Prop := word = fileWord ∨ nextLineWord <+: word

/-- The first word of a comment is the one behind its mark. -/
theorem CommentWord.after?_eq {line word : List Char} (h : CommentWord line word) :
    (Text.after? commentMark line).map Text.firstWord = some word := by
  obtain ⟨mark, first⟩ := h
  rw [Text.after?_eq_some_iff.mpr ⟨_, mark⟩, Option.map_some, first.firstWord_eq]

theorem isBlank_of_mem_nextLineWord : ∀ c ∈ nextLineWord, Text.isBlank c = false := by
  have hAll : (nextLineWord.all fun c => !Text.isBlank c) = true := by decide
  simpa using hAll

theorem isBlank_of_mem_fileWord : ∀ c ∈ fileWord, Text.isBlank c = false := by
  have hAll : (fileWord.all fun c => !Text.isBlank c) = true := by decide
  simpa using hAll

/-- A line is a directive iff the first word of its comment makes it one. -/
theorem exists_directs_iff {line : List Char} :
    (∃ reach rest, Directs line reach rest) ↔ ∃ word, CommentWord line word ∧ IsWord word := by
  constructor
  · rintro ⟨reach, rest, hDirects⟩
    cases hDirects with
    | @nextLine before comment _ mark word =>
        have hComment : comment.dropWhile Text.isBlank ≠ [] := by
          rw [word]
          nofun
        have hFirst := Text.firstWord_spec hComment
        obtain ⟨tail, hTail, hHead⟩ := hFirst.dropWhile_eq
        refine ⟨_, ⟨mark, hFirst⟩, Or.inr ?_⟩
        rw [← Text.prefix_append_iff_of_blank isBlank_of_mem_nextLineWord hHead, ← hTail, word]
        exact List.prefix_append ..
    | @file before comment _ mark other word ends =>
        refine ⟨fileWord, ⟨mark, nofun, isBlank_of_mem_fileWord, ?_⟩, Or.inl rfl⟩
        refine ⟨comment.takeWhile Text.isBlank, rest, ?_, fun c => List.mem_takeWhile_imp, ends⟩
        rw [List.append_assoc, ← word, List.takeWhile_append_dropWhile]
  · rintro ⟨word, ⟨mark, first⟩, hWord⟩
    obtain ⟨rest, hRest, hHead⟩ := first.dropWhile_eq
    rcases hWord with rfl | ⟨more, rfl⟩
    · refine ⟨.file, rest, .file mark ?_ hRest hHead⟩
      rw [hRest, Text.prefix_append_iff_of_blank isBlank_of_mem_nextLineWord hHead]
      decide
    · exact ⟨.nextLine, more ++ rest, .nextLine mark (by rw [hRest, List.append_assoc])⟩

/-- A line has no directive iff the first word of its comment makes it none. -/
theorem ofLine?_eq_none_iff {line : List Char} :
    ofLine? line = none ↔ ∀ word, CommentWord line word → ¬ IsWord word := by
  have hSome : (∃ d, ofLine? line = some d) ↔ ∃ reach rest, Directs line reach rest := by
    constructor
    · rintro ⟨d, hd⟩
      obtain ⟨rest, hDirects, -⟩ := ofLine?_eq_some_iff.mp hd
      exact ⟨_, rest, hDirects⟩
    · rintro ⟨reach, rest, hDirects⟩
      exact ⟨⟨reach, .parse rest⟩, ofLine?_eq_some_iff.mpr ⟨rest, hDirects, rfl⟩⟩
  rw [Option.eq_none_iff_forall_ne_some, ← not_exists, hSome, exists_directs_iff]
  simp only [not_exists, not_and]

end Directive

namespace Suppression

/-- A line adds to what is suppressed iff it is a directive. -/
theorem isEmpty_read (s : Suppression) (line : List Char) (number : Nat) :
    (s.read line number).isEmpty = (s.isEmpty && (Directive.ofLine? line).isNone) := by
  have hAdd : ∀ (table : LineRules) (target : Nat) (rules : RuleSet),
      (table.add target rules).isEmpty = false := by
    intro table target rules
    cases table with
    | nil => rfl
    | cons entry table =>
        rw [LineRules.add]
        split <;> rfl
  unfold read isEmpty
  cases Directive.ofLine? line with
  | none => simp
  | some d =>
      obtain ⟨reach, rules⟩ := d
      cases reach with
      | file => simp
      | nextLine => simp [hAdd]

/-- Some lines suppress nothing iff none of them has a directive. -/
theorem isEmpty_foldl (lines : List (List Char × Nat)) (s : Suppression) :
    (lines.foldl (fun s (line, number) => s.read line number) s).isEmpty = true ↔
      s.isEmpty = true ∧ ∀ line ∈ lines.map Prod.fst, Directive.ofLine? line = none := by
  induction lines generalizing s with
  | nil => simp
  | cons line lines ih =>
      rw [List.foldl_cons, ih, isEmpty_read, Bool.and_eq_true, Option.isNone_iff_eq_none,
        List.map_cons, List.forall_mem_cons, and_assoc]

/-- The lines that are read have a directive iff those of the text have one. -/
theorem forall_readLines_iff (cs : List Char) :
    (∀ line ∈ Text.readLines cs, Directive.ofLine? line = none) ↔
      ∀ line ∈ Text.textLines cs, Directive.ofLine? line = none := by
  have hBind : ∀ lines : List (List Char), (∀ line ∈ lines, Directive.ofLine? line = none) ↔
      ∀ i : Nat, lines[i]?.bind Directive.ofLine? = none := by
    intro lines
    simp only [List.mem_iff_getElem?, Option.bind_eq_none_iff]
    exact ⟨fun h i line hLine => h line ⟨i, hLine⟩, fun h line ⟨i, hLine⟩ => h i line hLine⟩
  rw [hBind, hBind]
  simp only [Text.readLines_ofLine?]

/-- A source suppresses nothing iff none of its lines has a directive. -/
theorem isEmpty_ofSource_iff_lines (source : String) :
    (ofSource source).isEmpty = true ↔
      ∀ line ∈ Text.textLines source.toList, Directive.ofLine? line = none := by
  unfold ofSource
  by_cases hWord : Text.contains Directive.fileWord source.toList = true
  · simp only [hWord, if_true]
    rw [isEmpty_foldl, List.zipIdx_map_fst, forall_readLines_iff]
    exact and_iff_right rfl
  · simp only [hWord, Bool.false_eq_true, if_false]
    rw [Text.contains_iff] at hWord
    refine iff_of_true rfl fun line hLine => ?_
    exact ofLine?_eq_none_of_no_word hWord hLine

/-- A source suppresses nothing and keeps all findings iff no line has a comment that starts with
the word of a directive for the file, or with a word that starts like the one of a directive for
the next line. -/
theorem isEmpty_ofSource_iff (source : String) :
    ((ofSource source).isEmpty = true ∧
        ∀ diagnostics, (ofSource source).filter diagnostics = diagnostics) ↔
      ∀ line ∈ Text.textLines source.toList, ∀ word, Directive.CommentWord line word →
        word ≠ Directive.fileWord ∧ ¬ Directive.nextLineWord <+: word := by
  have hFilter : (ofSource source).isEmpty = true →
      ∀ diagnostics, (ofSource source).filter diagnostics = diagnostics :=
    fun hEmpty diagnostics => if_pos hEmpty
  rw [and_iff_left_of_imp hFilter, isEmpty_ofSource_iff_lines]
  simp only [Directive.ofLine?_eq_none_iff, Directive.IsWord, not_or]

/-- A comment that starts with no word of a directive, but with one that resembles it. -/
def linesSource : String := "// gesso-disable-next-lines no-mutable-fields\nvar count = 0;"

/-- The comment suppresses findings in the next line all the same. -/
theorem isEmpty_linesSource :
    (∀ line ∈ Text.textLines linesSource.toList, ∀ word, Directive.CommentWord line word →
        word ≠ Directive.fileWord ∧ word ≠ Directive.nextLineWord) ∧
      (ofSource linesSource).isEmpty = false ∧
      (ofSource linesSource).filter
        [{ rule := "no-mutable-fields", severity := .warning, message := "", span := ⟨46, 60⟩ }] =
          [] := by
  refine ⟨?_, by decide +kernel, by decide +kernel⟩
  have hLines : Text.textLines linesSource.toList =
      ["// gesso-disable-next-lines no-mutable-fields".toList, "var count = 0;".toList] := by
    decide +kernel
  rw [hLines, List.forall_mem_cons, List.forall_mem_singleton]
  refine ⟨fun word hWord => ?_, fun word hWord => ?_⟩
  · have hRead : (Text.after? Directive.commentMark
        "// gesso-disable-next-lines no-mutable-fields".toList).map Text.firstWord =
          some "gesso-disable-next-lines".toList := by decide +kernel
    cases hRead.symm.trans hWord.after?_eq
    exact ⟨by decide, by decide⟩
  · have hRead : (Text.after? Directive.commentMark "var count = 0;".toList).map
        Text.firstWord = none := by decide +kernel
    cases hRead.symm.trans hWord.after?_eq

end Suppression
end SetupLint
