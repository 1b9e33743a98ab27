import SetupLint.Proofs.ResourceLeaks

/-! The order of the findings about resources. A declaration is reported as a whole before the
initial values of its variables are looked into. So the findings are in the order of the source but
for one case: a variable that is declared inside an initial value is reported after all variables
of the declaration around it, also after those that come later in the source. -/
namespace SetupLint

namespace LocalPlace

/-- The address of the variable at a place. -/
def address (place : LocalPlace) : Address :=
  place.declaration ++ 0 :: Phrase.statementAddress place.entry

/-- A place is inside the initial value of an earlier variable of the declaration of another one. -/
def InEarlierValue (inner outer : LocalPlace) : Prop :=
  ∃ entry < outer.entry,
    (⟨outer.declaration, entry⟩ : LocalPlace).address <+: inner.declaration

/-- The order in which places are reported: that of the source, but what is inside the initial value
of an earlier variable of a declaration comes after the declaration. -/
def ReportedBefore (first second : LocalPlace) : Prop :=
  (first.address < second.address ∧ ¬ first.InEarlierValue second) ∨
    (second.address < first.address ∧ second.InEarlierValue first)

end LocalPlace

/-! ### Addresses -/

/-- An address that comes first and does not lead to the other one comes first whatever follows. -/
theorem Address.append_lt_append {first second : Address} (h : first < second)
    (hPrefix : ¬ first <+: second) (x y : Address) : first ++ x < second ++ y := by
  induction h with
  | nil => exact absurd (List.nil_prefix) hPrefix
  | rel hlt => exact List.Lex.rel hlt
  | cons _ ih => exact List.Lex.cons (ih fun h => hPrefix ((List.prefix_cons_inj _).mpr h))

/-- An address comes before those that it leads to. -/
theorem Address.lt_append (address : Address) {rest : Address} (h : rest ≠ []) :
    address < address ++ rest := by
  obtain ⟨i, rest, rfl⟩ := List.exists_cons_of_ne_nil h
  calc address
    _ = address ++ [] := (List.append_nil address).symm
    _ < address ++ i :: rest := List.append_left_lt List.Lex.nil

/-- The elements of a list come in order with all that is in them. -/
theorem Phrase.statementAddress_append_lt {i j : Nat} (h : i < j) (x y : Address) :
    statementAddress i ++ x < statementAddress j ++ y := by
  induction i generalizing j with
  | zero =>
      obtain ⟨j, rfl⟩ := Nat.exists_eq_add_one_of_ne_zero (Nat.ne_of_gt h)
      exact List.Lex.rel Nat.zero_lt_one
  | succ i ih =>
      obtain ⟨j, rfl⟩ := Nat.exists_eq_add_one_of_ne_zero (Nat.ne_of_gt (Nat.zero_lt_of_lt h))
      exact List.Lex.cons (ih (Nat.lt_of_succ_lt_succ h))

/-- What is in a list is in one of its elements. -/
theorem Phrase.exists_element_of_at? {c : Category} {l : Phrase (.list c)} {address : Address}
    {node : Node} (h : l.at? address = some node) (hNode : node.category ≠ .list c) :
    ∃ i rest, address = statementAddress i ++ rest := by
  induction l using induction_list generalizing address with
  | nil =>
      cases address with
      | nil =>
          cases h
          exact absurd rfl hNode
      | cons => cases h
  | cons head tail ih =>
      match address with
      | [] =>
          cases h
          exact absurd rfl hNode
      | 0 :: rest => exact ⟨0, rest, rfl⟩
      | 1 :: rest =>
          obtain ⟨i, rest, rfl⟩ := ih h
          exact ⟨i + 1, rest, rfl⟩
      | (_ + 2) :: _ => cases h

namespace LocalPlace

/-- The address of a variable leads through its declaration. -/
theorem address_append (place : LocalPlace) (rest : Address) :
    place.address ++ rest =
      place.declaration ++ 0 :: (Phrase.statementAddress place.entry ++ rest) := by
  rw [address, List.append_assoc, List.cons_append]

/-- Variables of one declaration come in order with all that is in them. -/
theorem address_append_lt {declaration : Address} {i j : Nat} (h : i < j) (x y : Address) :
    (⟨declaration, i⟩ : LocalPlace).address ++ x <
      (⟨declaration, j⟩ : LocalPlace).address ++ y := by
  rw [address_append, address_append]
  exact List.append_left_lt (List.Lex.cons (Phrase.statementAddress_append_lt h x y))

/-- What is inside an earlier initial value comes first in the source. -/
theorem InEarlierValue.address_lt {inner outer : LocalPlace} (h : inner.InEarlierValue outer) :
    inner.address < outer.address := by
  obtain ⟨entry, hEntry, rest, hInner⟩ := h
  rw [address, ← hInner, List.append_assoc, ← List.append_nil outer.address]
  exact address_append_lt hEntry _ []

/-- A declaration is not inside its own initial values, nor is what comes before it. -/
theorem InEarlierValue.declaration_lt {inner outer : LocalPlace} (h : inner.InEarlierValue outer) :
    outer.declaration < inner.declaration := by
  obtain ⟨entry, -, rest, hInner⟩ := h
  rw [← hInner, address_append]
  exact outer.declaration.lt_append (List.cons_ne_nil _ _)

/-- A variable inside an earlier value of a declaration does not come before its variables. -/
theorem Precedes.not_inEarlierValue {first second : LocalPlace} (h : first.Precedes second) :
    ¬ first.InEarlierValue second := by
  intro hIn
  rcases h with hlt | ⟨hSame, -⟩
  · exact List.lt_asymm hlt hIn.declaration_lt
  · exact List.lt_irrefl _ (hSame ▸ hIn.declaration_lt)

end LocalPlace

/-- A declaration inside another one is in the initial value of one of its variables. -/
theorem Phrase.DeclaresAt.exists_entry {setup : Body} {outer inner : LocalPlace} {d e : Declarator}
    (hOuter : setup.DeclaresAt outer d) (hInner : setup.DeclaresAt inner e)
    (hInside : outer.declaration <+: inner.declaration)
    (hNe : outer.declaration ≠ inner.declaration) :
    ∃ entry, (⟨outer.declaration, entry⟩ : LocalPlace).address <+: inner.declaration := by
  obtain ⟨way, hWay⟩ := hInside
  obtain ⟨declaration, -, -⟩ := hOuter
  obtain ⟨declarationInner, -, -⟩ := hInner
  rw [← hWay, at?_append, declaration, Option.bind_some] at declarationInner
  match way with
  | [] => exact absurd ((List.append_nil _).symm.trans hWay) hNe
  | 0 :: way =>
      obtain ⟨entry, rest, rfl⟩ := exists_element_of_at? declarationInner nofun
      refine ⟨entry, rest, ?_⟩
      rw [LocalPlace.address_append]
      exact hWay
  | (_ + 1) :: _ => cases declarationInner

/-- Places that come declaration by declaration are in the order of reports. -/
theorem Phrase.reportedBefore_of_precedes {setup : Body} {first second : LocalPlace}
    {d e : Declarator} (hFirst : setup.DeclaresAt first d) (hSecond : setup.DeclaresAt second e)
    (h : first.Precedes second) : first.ReportedBefore second := by
  by_cases hEarlier : second.InEarlierValue first
  · exact Or.inr ⟨hEarlier.address_lt, hEarlier⟩
  refine Or.inl ⟨?_, h.not_inEarlierValue⟩
  rcases h with hlt | ⟨hSame, hlt⟩
  · -- an address is less than another one in two ways: it leads to it or branches off before it
    by_cases hInside : first.declaration <+: second.declaration
    · have hNe : first.declaration ≠ second.declaration := fun hSame =>
        List.lt_irrefl _ (hSame ▸ hlt)
      obtain ⟨entry, rest, hRest⟩ := hFirst.exists_entry hSecond hInside hNe
      have hEntry : first.entry ≤ entry :=
        Nat.le_of_not_lt fun hLt => hEarlier ⟨entry, hLt, rest, hRest⟩
      show first.address < second.declaration ++ _
      rw [← hRest, List.append_assoc]
      rcases Nat.lt_or_eq_of_le hEntry with hLt | rfl
      · rw [← List.append_nil first.address]
        exact LocalPlace.address_append_lt hLt [] _
      · exact first.address.lt_append (by simp)
    · exact Address.append_lt_append hlt hInside _ _
  · obtain ⟨declaration, i⟩ := first
    obtain ⟨_, j⟩ := second
    cases hSame
    have hLess : LocalPlace.address ⟨declaration, i⟩ ++ [] <
        LocalPlace.address ⟨declaration, j⟩ ++ [] := LocalPlace.address_append_lt hlt [] []
    rwa [List.append_nil, List.append_nil] at hLess

/-- The findings about resources in a component, each with the place of its variable, come in the
order of the source, except that a variable inside an initial value comes after all variables of the
declaration around it. -/
theorem Component.checkComponent_order (catalogs : Catalogs) (c : Component) :
    ∃ trace : List (LocalPlace × Diagnostic),
      Rule.resourceLifecycle.checkComponent catalogs c = trace.map Prod.snd ∧
        (∀ place d, (place, d) ∈ trace ↔
          ∃ setup, c.body? = some setup ∧ setup.Leaks catalogs place d) ∧
        (trace.map Prod.fst).Pairwise LocalPlace.ReportedBefore := by
  rw [Rule.checkComponent, c.checkLifecycle_eq catalogs]
  cases c.body? with
  | none => exact ⟨[], rfl, by simp, List.Pairwise.nil⟩
  | some setup =>
      refine ⟨setup.leaks catalogs, rfl, fun place d => by simp [Phrase.mem_leaks_iff], ?_⟩
      have hDeclared : ∀ place ∈ (setup.leaks catalogs).map Prod.fst,
          ∃ d, setup.DeclaresAt place d := by
        intro place hPlace
        obtain ⟨⟨_, _⟩, hLeak, rfl⟩ := List.mem_map.mp hPlace
        obtain ⟨declared⟩ := Phrase.mem_leaks_iff.mp hLeak
        exact ⟨_, declared⟩
      refine (pairwise_foundAt setup.pairwise_locals).imp_of_mem fun hFirst hSecond hPrecedes => ?_
      obtain ⟨_, declaredFirst⟩ := hDeclared _ hFirst
      obtain ⟨_, declaredSecond⟩ := hDeclared _ hSecond
      exact Phrase.reportedBefore_of_precedes declaredFirst declaredSecond hPrecedes

/-- A setup body with the timers `a` and `c` in one declaration, and with the timer `b` in the
callback of `a`: `final a = Timer(() { final b = Timer(); }), c = Timer();`. -/
def timersSetup : Body :=
  let timer (start stop : UInt32) (args : List Argument) : Phrase (.option .expr) :=
    .some (.create ⟨start, stop⟩ ⟨⟨start, start + 5⟩, "Timer", [], false⟩ none (.ofList args) false)
  let locals (span : Span) (declared : List Declarator) : Stmt :=
    .variableStmt (.variableDecl span [⟨.finalWord, ⟨span.start, span.start + 5⟩⟩] none
      (.ofList declared))
  let block (span : Span) (statements : List Stmt) : Body :=
    .body span .sync (.blockBody (.block span (.ofList statements)))
  let callback : Closure :=
    .closure ⟨72, 97⟩ .nil (block ⟨75, 97⟩
      [locals ⟨77, 95⟩ [.declarator ⟨83, 94⟩ ⟨"b", ⟨83, 84⟩⟩ (timer 87 94 [])]])
  let builder : Closure :=
    .closure ⟨124, 131⟩ .nil (.body ⟨127, 131⟩ .sync (.exprBody (.identifier ⟨130, 131⟩ "a" none)))
  block ⟨50, 136⟩
    [locals ⟨56, 112⟩
      [.declarator ⟨62, 98⟩ ⟨"a", ⟨62, 63⟩⟩ (timer 66 98 [.argument none (.function callback)]),
        .declarator ⟨100, 111⟩ ⟨"c", ⟨100, 101⟩⟩ (timer 104 111 [])],
     .returnStmt ⟨117, 132⟩ (.some (.function builder))]

/-- A component with these timers. -/
def timers : Component :=
  let setup : MethodDecl :=
    { span := ⟨42, 136⟩
      name := ⟨"setup", ⟨42, 47⟩⟩
      kind := .method
      keywords := []
      returnType := none
      params := .nil
      body := timersSetup }
  { decl :=
      { span := ⟨0, 138⟩
        name := ⟨"Clock", ⟨6, 11⟩⟩
        superclass := some ⟨⟨20, 37⟩, "CompositionWidget", [], false⟩
        isAbstract := false
        members := [.method setup] }
    setup := some setup }

/-- The timers are reported in the order `a`, `c`, `b`, so their findings do not come in the order
of the source. -/
theorem Component.checkComponent_timers_unordered :
    ¬ ∃ trace : List (LocalPlace × Diagnostic),
      Rule.resourceLifecycle.checkComponent .builtin timers = trace.map Prod.snd ∧
        (∀ place d, (place, d) ∈ trace ↔
          ∃ setup, timers.body? = some setup ∧ setup.Leaks .builtin place d) ∧
        (trace.map fun leak => leak.1.address).Pairwise (· < ·) := by
  rintro ⟨trace, hFindings, hTrace, hOrdered⟩
  let outer : Address := [0, 0, 0, 0, 0]
  let inner : Address := [0, 0, 0, 0, 0, 0, 0, 0, 0, 0, 0, 0, 0, 1, 0, 0, 0, 0, 0]
  let reported : List (LocalPlace × Span) :=
    [(⟨outer, 0⟩, ⟨62, 98⟩), (⟨outer, 1⟩, ⟨100, 111⟩), (⟨inner, 0⟩, ⟨83, 94⟩)]
  have hLeaks :
      (timersSetup.leaks .builtin).map (fun leak => (leak.1, leak.2.span)) = reported := by
    decide +kernel
  have hPlaces : ∀ leak ∈ trace, (leak.1, leak.2.span) ∈ reported := by
    intro leak hMem
    obtain ⟨setup, hSetup, hLeak⟩ := (hTrace leak.1 leak.2).mp hMem
    cases hSetup
    rw [← hLeaks]
    exact List.mem_map.mpr ⟨leak, Phrase.mem_leaks_iff.mpr hLeak, rfl⟩
  have hSpans : trace.map (fun leak => leak.2.span) = reported.map Prod.snd := by
    have hReported : (Rule.resourceLifecycle.checkComponent .builtin timers).map Diagnostic.span =
        reported.map Prod.snd := by decide +kernel
    rw [hFindings, List.map_map] at hReported
    exact hReported
  obtain ⟨a, rest, rfl, -, hSpans⟩ := List.map_eq_cons_iff.mp hSpans
  obtain ⟨c, rest, rfl, hSpanC, hSpans⟩ := List.map_eq_cons_iff.mp hSpans
  obtain ⟨b, rest, rfl, hSpanB, -⟩ := List.map_eq_cons_iff.mp hSpans
  have hC : c.1 = ⟨outer, 1⟩ := by simpa [reported, hSpanC] using hPlaces c (by simp)
  have hB : b.1 = ⟨inner, 0⟩ := by simpa [reported, hSpanB] using hPlaces b (by simp)
  have hLess : c.1.address < b.1.address := by
    simp only [List.map_cons, List.pairwise_cons, List.mem_cons] at hOrdered
    exact hOrdered.2.1 _ (Or.inl rfl)
  rw [hC, hB] at hLess
  exact absurd hLess (by decide)

end SetupLint
