import Mathlib.Data.List.Forall2
import SetupLint.Tree.Name

/-! The text of a written type tells the type. A name ends where a mark comes, so a type can be read
back from the start of a longer text, as long as what comes behind it is another type of a list or
the end of one. -/
namespace SetupLint.TypeRef

/-- The characters that a type is written with besides its names. -/
def marks : List Char := ['<', '>', ',', '?', ' ']

/-- No name in a type has a mark in it, however deep it stands. -/
inductive HasPlainNames : TypeRef → Prop where
  | intro {span : Span} {name : String} {args : List TypeRef} {nullable : Bool}
      (plain : ∀ c ∈ name.toList, c ∉ marks) (inside : ∀ arg ∈ args, HasPlainNames arg) :
      HasPlainNames ⟨span, name, args, nullable⟩

/-- Two types are the same, but for where they stand. -/
inductive Agrees : TypeRef → TypeRef → Prop where
  | intro {span span' : Span} {name : String} {args args' : List TypeRef} {nullable : Bool}
      (inside : List.Forall₂ Agrees args args') :
      Agrees ⟨span, name, args, nullable⟩ ⟨span', name, args', nullable⟩

/-- A text that may come behind a type: nothing, the rest of a list or its end. -/
def EndsType (rest : List Char) : Prop := ∀ c ∈ rest.head?, c = ',' ∨ c = '>'

def nullMark (nullable : Bool) : List Char := if nullable then ['?'] else []

/-- What is written behind the name of a type. -/
def behindName (args : List TypeRef) (nullable : Bool) : List Char :=
  (if args.isEmpty then [] else '<' :: (displayAll args ++ ['>'])) ++ nullMark nullable

/-- What is written behind a type in a list of types. -/
def behindType : List TypeRef → List Char
  | [] => []
  | types => ',' :: ' ' :: displayAll types

/-- A type is written as its name and what is behind it. -/
theorem display_eq (span : Span) (name : String) (args : List TypeRef) (nullable : Bool) :
    display ⟨span, name, args, nullable⟩ = name.toList ++ behindName args nullable := by
  rw [display, List.append_assoc]
  rfl

theorem displayAll_cons (t : TypeRef) (types : List TypeRef) :
    displayAll (t :: types) = t.display ++ behindType types := by
  cases types with
  | nil => exact (List.append_nil _).symm
  | cons u types =>
      rw [displayAll, List.append_assoc]
      · rfl
      · simp

/-- A type in a list ends at a comma or with the list. -/
theorem endsType_behindType (types : List TypeRef) (rest : List Char) :
    EndsType (behindType types ++ '>' :: rest) := by
  cases types <;> simp [EndsType, behindType]

/-- Behind a name there is a mark, if there is anything. -/
theorem head_behindName {args : List TypeRef} {nullable : Bool} {rest : List Char}
    (hRest : EndsType rest) : ∀ c ∈ (behindName args nullable ++ rest).head?, c ∈ marks := by
  intro c hc
  cases args with
  | cons arg args =>
      cases hc
      decide
  | nil =>
      cases nullable with
      | true =>
          cases hc
          decide
      | false =>
          rcases hRest c hc with rfl | rfl <;> decide

/-! ### Reading back -/

/-- A name without marks ends at the first mark. -/
theorem name_append_inj {name name' rest rest' : List Char} (hName : ∀ c ∈ name, c ∉ marks)
    (hName' : ∀ c ∈ name', c ∉ marks) (hRest : ∀ c ∈ rest.head?, c ∈ marks)
    (hRest' : ∀ c ∈ rest'.head?, c ∈ marks) (h : name ++ rest = name' ++ rest') :
    name = name' ∧ rest = rest' := by
  induction name generalizing name' with
  | nil =>
      cases name' with
      | nil => exact ⟨rfl, h⟩
      | cons c name' =>
          subst h
          exact absurd (hRest c rfl) (hName' c List.mem_cons_self)
  | cons c name ih =>
      cases name' with
      | nil =>
          subst h
          exact absurd (hRest' c rfl) (hName c List.mem_cons_self)
      | cons c' name' =>
          obtain ⟨rfl, hTail⟩ := List.cons.inj h
          obtain ⟨rfl, hEq⟩ := ih (fun c hc => hName c (List.mem_cons_of_mem _ hc))
            (fun c hc => hName' c (List.mem_cons_of_mem _ hc)) hTail
          exact ⟨rfl, hEq⟩

/-- No other text that may come behind a type starts with the mark of `null`. -/
theorem nullMark_append_inj {nullable nullable' : Bool} {rest rest' : List Char}
    (hLeft : EndsType rest) (hRight : EndsType rest')
    (h : nullMark nullable ++ rest = nullMark nullable' ++ rest') :
    nullable = nullable' ∧ rest = rest' := by
  have hMark : ¬ ('?' = ',' ∨ '?' = '>') := by decide
  cases nullable <;> cases nullable'
  · exact ⟨rfl, h⟩
  · subst h
    exact absurd (hLeft '?' rfl) hMark
  · subst h
    exact absurd (hRight '?' rfl) hMark
  · exact ⟨rfl, (List.cons.inj h).2⟩

/-- Without type arguments no `<` comes behind a name. -/
theorem nullMark_append_ne {nullable : Bool} {rest others : List Char} (hRest : EndsType rest) :
    nullMark nullable ++ rest ≠ '<' :: others := by
  intro h
  cases nullable with
  | true => simp [nullMark] at h
  | false =>
      subst h
      exact absurd (hRest '<' rfl) (by decide)

mutual

/-- A type is read back from the start of a longer text. -/
theorem agrees_of_display_append : (t u : TypeRef) → {rest rest' : List Char} →
    t.HasPlainNames → u.HasPlainNames → EndsType rest → EndsType rest' →
    t.display ++ rest = u.display ++ rest' → t.Agrees u ∧ rest = rest'
  | ⟨_, name, args, nullable⟩, ⟨_, name', args', nullable'⟩, rest, rest',
      .intro plain inside, .intro plain' inside', hRest, hRest', h => by
    rw [display_eq, display_eq, List.append_assoc, List.append_assoc] at h
    obtain ⟨hName, hBehind⟩ :=
      name_append_inj plain plain' (head_behindName hRest) (head_behindName hRest') h
    obtain rfl := String.toList_inj.mp hName
    -- The first character behind the name tells whether there are type arguments.
    match args, args' with
    | [], [] =>
        obtain ⟨rfl, hEq⟩ := nullMark_append_inj hRest hRest' hBehind
        exact ⟨.intro .nil, hEq⟩
    | [], arg :: args => exact absurd hBehind (nullMark_append_ne hRest)
    | arg :: args, [] => exact absurd hBehind.symm (nullMark_append_ne hRest')
    | arg :: args, arg' :: args' =>
        have hArgs : behindType (arg :: args) ++ '>' :: (nullMark nullable ++ rest) =
            behindType (arg' :: args') ++ '>' :: (nullMark nullable' ++ rest') := by
          simpa [behindName, behindType] using hBehind
        obtain ⟨hAgree, hNull⟩ :=
          agrees_of_behindType_append (arg :: args) (arg' :: args') inside inside' hArgs
        obtain ⟨rfl, hEq⟩ := nullMark_append_inj hRest hRest' hNull
        exact ⟨.intro hAgree, hEq⟩

/-- The rest of a list of types is read back up to the end of the list. -/
theorem agrees_of_behindType_append : (ts us : List TypeRef) → {rest rest' : List Char} →
    (∀ t ∈ ts, HasPlainNames t) → (∀ u ∈ us, HasPlainNames u) →
    behindType ts ++ '>' :: rest = behindType us ++ '>' :: rest' →
    List.Forall₂ Agrees ts us ∧ rest = rest'
  | [], [], _, _, _, _, h => ⟨.nil, (List.cons.inj h).2⟩
  | [], _ :: _, _, _, _, _, h => by simp [behindType] at h
  | _ :: _, [], _, _, _, _, h => by simp [behindType] at h
  | t :: ts, u :: us, rest, rest', ht, hu, h => by
    have hDisplay : t.display ++ (behindType ts ++ '>' :: rest) =
        u.display ++ (behindType us ++ '>' :: rest') := by
      simpa [behindType, displayAll_cons] using h
    obtain ⟨hFirst, hOthers⟩ := agrees_of_display_append t u (ht t List.mem_cons_self)
      (hu u List.mem_cons_self) (endsType_behindType ts rest) (endsType_behindType us rest')
      hDisplay
    obtain ⟨hAgree, hEq⟩ := agrees_of_behindType_append ts us
      (fun t h => ht t (List.mem_cons_of_mem _ h)) (fun u h => hu u (List.mem_cons_of_mem _ h))
      hOthers
    exact ⟨.cons hFirst hAgree, hEq⟩

end

/-! ### Writing -/

mutual

/-- Types that agree are written alike. -/
theorem display_eq_of_agrees : (t u : TypeRef) → t.Agrees u → t.display = u.display
  | ⟨_, name, args, nullable⟩, ⟨_, _, args', _⟩, .intro inside => by
    have hEmpty : args.isEmpty = args'.isEmpty := by cases inside <;> rfl
    rw [display_eq, display_eq, behindName, behindName, hEmpty,
      displayAll_eq_of_agrees args args' inside]

theorem displayAll_eq_of_agrees : (ts us : List TypeRef) → List.Forall₂ Agrees ts us →
    displayAll ts = displayAll us
  | [], [], _ => rfl
  | t :: ts, u :: us, .cons hFirst hOthers => by
    have hBehind : behindType ts = behindType us := by
      have hAll := displayAll_eq_of_agrees ts us hOthers
      cases hOthers with
      | nil => rfl
      | cons => exact congrArg (',' :: ' ' :: ·) hAll
    rw [displayAll_cons, displayAll_cons, display_eq_of_agrees t u hFirst, hBehind]

end

/-- Two types without marks in their names have one text iff they have the same name, may both be
`null` or both not, and have type arguments of which the same holds, one by one. -/
theorem text_eq_iff_agrees {t u : TypeRef} (ht : t.HasPlainNames) (hu : u.HasPlainNames) :
    t.text = u.text ↔ t.Agrees u := by
  have hNothing : EndsType [] := nofun
  constructor
  · intro h
    have hDisplay : t.display ++ [] = u.display ++ [] :=
      congrArg (· ++ []) (String.ofList_injective h)
    exact (agrees_of_display_append t u ht hu hNothing hNothing hDisplay).1
  · intro h
    exact congrArg String.ofList (display_eq_of_agrees t u h)

/-- A type with lists of types at two depths, at an offset. -/
def colorTable (offset : UInt32) : TypeRef :=
  let span (start stop : UInt32) : Span := ⟨offset + start, offset + stop⟩
  ⟨span 0 29, "Map",
    [⟨span 4 10, "String", [], false⟩,
     ⟨span 12 27, "List", [⟨span 17 25, "ui.Color", [], false⟩], true⟩], true⟩

theorem hasPlainNames_colorTable (offset : UInt32) : (colorTable offset).HasPlainNames := by
  have hLeaf : ∀ (span : Span) (name : String), (∀ c ∈ name.toList, c ∉ marks) →
      HasPlainNames ⟨span, name, [], false⟩ := fun _ _ plain => .intro plain nofun
  refine .intro (by simp [marks]) ?_
  simp only [List.forall_mem_cons]
  refine ⟨hLeaf _ _ (by simp [marks]), .intro (by simp [marks]) ?_, nofun⟩
  simp only [List.forall_mem_cons]
  exact ⟨hLeaf _ _ (by simp [marks]), nofun⟩

theorem agrees_colorTable :
    (colorTable 0).HasPlainNames ∧ (colorTable 40).HasPlainNames ∧
      (colorTable 0).text = "Map<String, List<ui.Color>?>?" ∧
      (colorTable 0).Agrees (colorTable 40) :=
  have h := hasPlainNames_colorTable
  ⟨h 0, h 40, rfl, (text_eq_iff_agrees (h 0) (h 40)).mp rfl⟩

/-- With marks in a name the text of another type can be written. -/
example : text ⟨.zero, "List<int>", [], false⟩ =
    text ⟨.zero, "List", [⟨.zero, "int", [], false⟩], false⟩ := rfl

end SetupLint.TypeRef
