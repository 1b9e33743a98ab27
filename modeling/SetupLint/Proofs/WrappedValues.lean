import SetupLint.Proofs.HeldValues

/-! What the search for a held value sees through. Parentheses, `!`, a cast and a cascade hand on
the object that they are put around. The search goes on behind parentheses and behind `!`, in any
number and order, but a cast or a cascade ends it. So a change of a held value is reported behind
parentheses and `!` just as without them, and behind a cast or a cascade it is never reported. -/
namespace SetupLint

/-- What can be put around an expression without changing the object that it stands for. -/
inductive Wrapper where
  | paren (span : Span)
  | nullAssert (span : Span)
  | cast (span : Span) (type : TypeRef)
  /-- The value of a cascade is its target. -/
  | cascade (span : Span) (sections : Phrase (.list .expr))

namespace Wrapper

/-- An expression with something around it. -/
def around (e : Expr) : Wrapper → Expr
  | paren span => .paren span e
  | nullAssert span => .unary span .nullAssert e
  | cast span type => .typeTest span .as e type
  | cascade span sections => .cascade span e sections

/-- Whether the search for a held value goes on behind it. -/
def isSeenThrough : Wrapper → Bool
  | paren _ => true
  | nullAssert _ => true
  | cast .. => false
  | cascade .. => false

end Wrapper

/-- A place in an object: one of its elements or properties, perhaps in parentheses. -/
inductive Accessor where
  | element (span : Span) (position : Expr)
  | property (span : Span) (name : Name) (nullAware : Bool)
  | paren (span : Span) (inner : Accessor)

/-- The place in the object that an expression stands for. -/
def Accessor.of (e : Expr) : Accessor → Expr
  | element span position => .index span e position
  | property span name nullAware => .property span e name nullAware
  | paren span inner => .paren span (inner.of e)

/-- What may change an object: the call of one of its methods, or a write to a place in it. -/
inductive Change where
  | call (span : Span) (method : Name) (typeArgs : List TypeRef) (args : Phrase (.list .argument))
      (nullAware : Bool) (resolved : Option Resolution)
  | assign (span : Span) (operator : AssignOp) (accessor : Accessor) (value : Expr)
  | update (span : Span) (operator : UpdateOp) (isBefore : Bool) (accessor : Accessor)

/-- The change of the object that an expression stands for. -/
def Change.of (e : Expr) : Change → Expr
  | call span method typeArgs args nullAware resolved =>
    .call span (.some e) method typeArgs args nullAware resolved
  | assign span operator accessor value => .assign span operator (accessor.of e) value
  | update span operator isBefore accessor => .update span operator isBefore (accessor.of e)

/-- An expression with some things around it, the innermost first. -/
def Phrase.wrapped (e : Expr) (ws : List Wrapper) : Expr := ws.foldl Wrapper.around e

namespace Rule

variable {held : String} {cascade : Bool}

/-- A wrapper is seen through, or it ends the search. -/
theorem reachesHeld_around (w : Wrapper) (e : Expr) :
    reachesHeld held cascade (w.around e) = (w.isSeenThrough && reachesHeld held cascade e) := by
  cases w <;> rfl

/-- What is wrapped reaches a held value iff the expression does and everything around it is seen
through. -/
theorem reachesHeld_wrapped (ws : List Wrapper) (e : Expr) :
    reachesHeld held cascade (e.wrapped ws) =
      (ws.all Wrapper.isSeenThrough && reachesHeld held cascade e) := by
  induction ws generalizing e with
  | nil => rfl
  | cons w ws ih =>
      show reachesHeld held cascade ((w.around e).wrapped ws) = _
      rw [ih, reachesHeld_around, List.all_cons, ← Bool.and_assoc, Bool.and_comm w.isSeenThrough]

/-- Writing to a place in an object changes a held value iff the object is reached through one. -/
theorem isMutatingTarget_of (accessor : Accessor) (e : Expr) :
    isMutatingTarget held cascade (accessor.of e) = reachesHeld held cascade e := by
  induction accessor with
  | element | property => rfl
  | paren span inner ih => exact ih

/-- A change of what is wrapped is reported like that of the expression, if everything around it is
seen through, and else it is not reported. -/
theorem mutationAt?_wrapped (catalogs : Catalogs) (change : Change) (e : Expr)
    (ws : List Wrapper) :
    mutationAt? catalogs cascade (change.of (e.wrapped ws)) =
      if ws.all Wrapper.isSeenThrough then mutationAt? catalogs cascade (change.of e)
      else none := by
  have hReaches : reachesHeld catalogs.vocabulary.heldValue cascade (e.wrapped ws) = _ :=
    reachesHeld_wrapped ws e
  have hWrite (span : Span) (accessor : Accessor) :
      writeFinding? catalogs.vocabulary.heldValue cascade span (accessor.of (e.wrapped ws)) =
        if ws.all Wrapper.isSeenThrough then
          writeFinding? catalogs.vocabulary.heldValue cascade span (accessor.of e)
        else none := by
    unfold writeFinding?
    rw [isMutatingTarget_of, isMutatingTarget_of, hReaches]
    cases ws.all Wrapper.isSeenThrough <;> simp
  cases change with
  | call span method typeArgs args nullAware resolved =>
      show mutationFinding? catalogs cascade ⟨span, some _, method, typeArgs, _, nullAware,
        resolved⟩ = ite _ (mutationFinding? catalogs cascade ⟨span, some e, method, typeArgs,
          args.toList, nullAware, resolved⟩) none
      unfold mutationFinding?
      simp only [Option.any_some, hReaches]
      cases ws.all Wrapper.isSeenThrough <;> simp
  | assign span operator accessor value => exact hWrite span accessor
  | update span operator isBefore accessor => exact hWrite span accessor

/-- Whether the target of the innermost of some cascades reaches a held value, judged in the
cascades around this one. -/
def receiverReaches (held : String) : List Expr → Bool
  | [] => false
  | target :: around => reachesHeld held (receiverReaches held around) target

/-- A rule that finds nothing in components finds what it does in the unit. -/
theorem findings_eq_checkUnit {r : Rule} {catalogs : Catalogs}
    (h : ∀ component, r.checkComponent catalogs component = []) (unit : CompilationUnit) :
    r.findings catalogs unit = r.checkUnit catalogs unit := by
  rw [findings, List.flatMap_eq_nil_iff.mpr fun component _ => h component, List.nil_append]

end Rule

/-- The walk that keeps the targets of the cascades with a section around a phrase, the innermost
first. -/
def cascadeWalk : Walk (List Expr) Empty where
  visit _ _ := []
  sections target around := target :: around

/-- What the walk keeps of the cascades around a part is what the rule hands down to it. -/
theorem receiverReaches_within (catalogs : Catalogs) {c : Category} (p : Phrase c) (i : Nat)
    (around : List Expr) :
    Rule.receiverReaches catalogs.vocabulary.heldValue (cascadeWalk.within p i around) =
      (Rule.heldValueWalk catalogs).within p i
        (Rule.receiverReaches catalogs.vocabulary.heldValue around) := by
  unfold Walk.within
  split <;> rfl

/-- Of the cascades around an address the walk keeps only whether the target of the innermost one
reaches a held value. -/
theorem Phrase.contextAt_heldValueWalk (catalogs : Catalogs) {c : Category} (p : Phrase c)
    (around : List Expr) (address : Address) :
    p.contextAt (Rule.heldValueWalk catalogs)
        (Rule.receiverReaches catalogs.vocabulary.heldValue around) address =
      Rule.receiverReaches catalogs.vocabulary.heldValue
        (p.contextAt cascadeWalk around address) := by
  induction address generalizing c p around with
  | nil => rfl
  | cons i address ih =>
      rw [contextAt, contextAt, ← receiverReaches_within]
      cases p.parts[i]? with
      | none => rfl
      | some part => exact ih part.phrase _

namespace CompilationUnit

variable {u v : CompilationUnit} {catalogs : Catalogs} {address place : Address} {d : Diagnostic}

/-- The targets of the cascades with a section around an address, the innermost first. -/
def cascadesAround (u : CompilationUnit) (address : Address) : List Expr :=
  u.contextAt cascadeWalk [] address

/-- The judgement of the rule at an address is that of the cascades around it. -/
theorem heldContext_eq_receiverReaches (u : CompilationUnit) (catalogs : Catalogs)
    (address : Address) :
    u.heldContext catalogs address =
      Rule.receiverReaches catalogs.vocabulary.heldValue (u.cascadesAround address) := by
  cases address with
  | nil => rfl
  | cons i address =>
      show u.roots[i]?.elim false _ =
        Rule.receiverReaches _ (u.roots[i]?.elim [] _)
      cases u.roots[i]? with
      | none => rfl
      | some root => exact root.phrase.contextAt_heldValueWalk catalogs [] address

/-- A change is found at an address iff the rule finds it there in the cascades around. -/
theorem mem_heldFindings_iff_mutationAt? {c : Category} {p : Phrase c}
    (h : u.at? address = some ⟨p⟩) :
    (address, d) ∈ u.heldFindings catalogs ↔
      Rule.mutationAt? catalogs
        (Rule.receiverReaches catalogs.vocabulary.heldValue (u.cascadesAround address)) p =
          some d := by
  rw [mem_heldFindings_iff, ← heldContext_eq_receiverReaches]
  exact (mutationAt?_eq_some_iff h).symm

/-- The findings of the rule are found at addresses. At an address a change of what is wrapped is
reported iff everything that is put around the expression is seen through and the same change of the
expression itself is reported where the same cascades are around it. -/
theorem heldFindings_wrapped (catalogs : Catalogs) :
    (∀ u, Rule.heldValue.findings catalogs u = (u.heldFindings catalogs).map Prod.snd) ∧
      ∀ {u v : CompilationUnit} {address place : Address} (change : Change) (e : Expr)
        (ws : List Wrapper), u.at? address = some ⟨change.of e⟩ →
        v.at? place = some ⟨change.of (e.wrapped ws)⟩ →
        v.cascadesAround place = u.cascadesAround address →
        ∀ d, (place, d) ∈ v.heldFindings catalogs ↔
          (∀ w ∈ ws, w.isSeenThrough) ∧ (address, d) ∈ u.heldFindings catalogs := by
  refine ⟨fun u => ?_, fun change e ws hBare hWrapped hCascades d => ?_⟩
  · rw [Rule.findings_eq_checkUnit (r := .heldValue) fun _ => rfl]
    exact checkHeldValues_eq catalogs u
  · rw [mem_heldFindings_iff_mutationAt? hBare, mem_heldFindings_iff_mutationAt? hWrapped,
      hCascades, Rule.mutationAt?_wrapped, Option.ite_none_right_eq_some, List.all_eq_true]

/-- A function whose body is an expression: `update() => e`. -/
def updateUnit (e : Expr) : CompilationUnit where
  path := "lib/store.dart"
  source := none
  declarations := [.function
    (.functionDecl .zero ⟨"update", .zero⟩ none .nil (.body .zero .sync (.exprBody e)))]

/-- The held value `items.value`. -/
def itemsValue : Expr :=
  .property .zero (.identifier .zero "items" none) ⟨"value", .zero⟩ false

/-- The call of a method without arguments, which adds to a list or sorts it. -/
def listCall (span : Span) (method : String) : Change :=
  .call span ⟨method, .zero⟩ [] .nil false none

/-- In `items.value..clear()` the receiver of the section is the held value, and in `(..!).clear()`
it still is. -/
theorem heldFindings_updateUnit :
    let clear (ws : List Wrapper) : CompilationUnit :=
      updateUnit (.cascade .zero itemsValue
        (.ofList [(listCall ⟨13, 20⟩ "clear").of (Phrase.wrapped (.cascadeReceiver .zero) ws)]))
    ∃ d, ([0, 1, 0, 0, 1, 0], d) ∈ (clear []).heldFindings .builtin ∧
      ([0, 1, 0, 0, 1, 0], d) ∈
        (clear [.nullAssert .zero, .paren .zero]).heldFindings .builtin := by
  intro clear
  have hPlaced (ws : List Wrapper) : (clear ws).at? [0, 1, 0, 0, 1, 0] =
      some ⟨(listCall ⟨13, 20⟩ "clear").of (Phrase.wrapped (.cascadeReceiver .zero) ws)⟩ := rfl
  have hBare : ∃ d, ([0, 1, 0, 0, 1, 0], d) ∈ (clear []).heldFindings .builtin :=
    ⟨_, (mem_heldFindings_iff_mutationAt? (hPlaced [])).mpr rfl⟩
  obtain ⟨d, hReported⟩ := hBare
  refine ⟨d, hReported, ((heldFindings_wrapped .builtin).2 _ _ _ (hPlaced []) (hPlaced _) rfl d).mpr
    ⟨by decide, hReported⟩⟩

/-- All of `items.value.add()`, `(items.value as List).add()` and `(items.value..sort()).add()` add
to the held value, but only the first of these calls is reported, and of the last one only the call
in the cascade. -/
theorem findings_updateUnit_hidden :
    let reported (ws : List Wrapper) : List Span :=
      (Rule.heldValue.findings .builtin
        (updateUnit ((listCall ⟨0, 29⟩ "add").of (itemsValue.wrapped ws)))).map Diagnostic.span
    let sorting : Expr := (listCall ⟨14, 20⟩ "sort").of (.cascadeReceiver .zero)
    reported [] = [⟨0, 29⟩] ∧
      reported [.cast .zero ⟨.zero, "List", [], false⟩, .paren .zero] = [] ∧
      reported [.cascade .zero (.ofList [sorting]), .paren .zero] = [⟨14, 20⟩] := by
  decide +kernel

end CompilationUnit
end SetupLint
