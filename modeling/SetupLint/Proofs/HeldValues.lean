import Mathlib.Data.List.Induction
import SetupLint.Linter
import SetupLint.Proofs.PlacedNodes

/-! Changes inside held values, in lexical terms. The walk that looks for them hands down whether
the target of the cascade around it reaches a held value. Here this is said without a walk: the
receiver of a cascade stands for the target of the innermost cascade with a section around it, and
the target is judged where it stands. -/
namespace SetupLint

/-- Whether the way from an expression to a held value leads on to its first part: the target of a
property, of an element or of a call, or what is in parentheses or before `!`. -/
def Phrase.leadsOn : {c : Category} → Phrase c → Bool
  | _, .property .. => true
  | _, .index .. => true
  | _, .call .. => true
  | _, .some _ => true
  | _, .paren .. => true
  | _, .unary _ .nullAssert _ => true
  | _, _ => false

namespace CompilationUnit

/-- What stands at `address` is in a section of the cascade at `cascade`. -/
def InSection (u : CompilationUnit) (cascade address : Address) : Prop :=
  (∃ span target sections, u.at? cascade = some ⟨.cascade span target sections⟩) ∧
    cascade ++ [1] <+: address

/-- The innermost cascade with a section around an address. -/
structure InnermostCascade (u : CompilationUnit) (cascade address : Address) : Prop where
  inSection : u.InSection cascade address
  innermost : ∀ other, u.InSection other address → other <+: cascade

/-- The expression at an address reaches a held value. -/
inductive ReachesHeld (u : CompilationUnit) (held : String) : Address → Prop where
  | met {address : Address} {span : Span} {target : Expr} {name : Name} {nullAware : Bool}
      (property : u.at? address = some ⟨.property span target name nullAware⟩)
      (named : name.text = held) : ReachesHeld u held address
  | onward {address : Address} {node : Node} (placed : u.at? address = some node)
      (leadsOn : node.phrase.leadsOn) (first : ReachesHeld u held (address ++ [0])) :
      ReachesHeld u held address
  /-- A cascade starts with its target. -/
  | receiver {address cascade : Address} {span : Span}
      (placed : u.at? address = some ⟨.cascadeReceiver span⟩)
      (innermost : u.InnermostCascade cascade address)
      (target : ReachesHeld u held (cascade ++ [0])) : ReachesHeld u held address

/-- The expression at `address` is a property or an element of the one at `holder`, but for the
parentheses around it. -/
inductive MemberOf (u : CompilationUnit) : Address → Address → Prop where
  | property {address : Address} {span : Span} {target : Expr} {name : Name} {nullAware : Bool}
      (placed : u.at? address = some ⟨.property span target name nullAware⟩) :
      MemberOf u address (address ++ [0])
  | element {address : Address} {span : Span} {target position : Expr}
      (placed : u.at? address = some ⟨.index span target position⟩) :
      MemberOf u address (address ++ [0])
  | paren {address holder : Address} {span : Span} {expression : Expr}
      (placed : u.at? address = some ⟨.paren span expression⟩)
      (inner : MemberOf u (address ++ [0]) holder) : MemberOf u address holder

/-- An assignment or an update stands at an address. -/
inductive Writes (u : CompilationUnit) (address : Address) (span : Span) : Prop where
  | assign {operator : AssignOp} {target value : Expr}
      (placed : u.at? address = some ⟨.assign span operator target value⟩) : Writes u address span
  | update {operator : UpdateOp} {isBefore : Bool} {operand : Expr}
      (placed : u.at? address = some ⟨.update span operator isBefore operand⟩) :
      Writes u address span

/-- A warning about a change inside a held value. -/
def changeWarning (message : String) (span : Span) : Diagnostic where
  rule := "shallow-reactivity"
  severity := .warning
  message := message
  span := span
  help := some "Assign a new value instead, e.g. `items.value = [...items.value, item]`"

/-- What stands at an address changes something inside a held value, and this is the finding for it.
What is written to and the target of a call are first parts. -/
inductive ChangesHeld (u : CompilationUnit) (catalogs : Catalogs) (address : Address) :
    Diagnostic → Prop where
  | write {span : Span} {holder : Address} (writes : u.Writes address span)
      (member : u.MemberOf (address ++ [0]) holder)
      (reaches : u.ReachesHeld catalogs.vocabulary.heldValue holder) :
      ChangesHeld u catalogs address
        (changeWarning
          ("Writing inside `." ++ catalogs.vocabulary.heldValue ++
            "` mutates it in place and does not trigger updates") span)
  | call {span : Span} {target : Expr} {method : Name} {typeArgs : List TypeRef}
      {args : Phrase (.list .argument)} {nullAware : Bool} {resolved : Option Resolution}
      (placed : u.at? address =
        some ⟨.call span (.some target) method typeArgs args nullAware resolved⟩)
      (mutating : method.text ∈ catalogs.mutatingMethods.entries)
      (reaches : u.ReachesHeld catalogs.vocabulary.heldValue (address ++ [0])) :
      ChangesHeld u catalogs address
        (changeWarning
          ("`" ++ method.text ++ "()` mutates `." ++ catalogs.vocabulary.heldValue ++
            "` in place and does not trigger updates") span)

/-- The findings about held values in a unit, each with the address of what it is about. -/
structure HeldTrace (u : CompilationUnit) (catalogs : Catalogs)
    (trace : List (Address × Diagnostic)) : Prop where
  /-- An address is less than another one if it comes first or leads to it. -/
  ordered : (trace.map Prod.fst).Pairwise (· < ·)
  exactly : ∀ address d, (address, d) ∈ trace ↔ u.ChangesHeld catalogs address d
  /-- What is written to a property or an element of something that reaches no held value is never
  reported, whatever the name of the property. -/
  replaced : ∀ {address holder : Address} {span : Span}, u.Writes address span →
    u.MemberOf (address ++ [0]) holder → ¬ u.ReachesHeld catalogs.vocabulary.heldValue holder →
    address ∉ trace.map Prod.fst

end CompilationUnit

namespace Rule

variable {held : String} {cascade : Bool} {c : Category} {p : Phrase c}

/-- What leads on to its first part reaches a held value if that part does. -/
theorem reachesHeld_onward {part : Node} (hLeads : p.leadsOn) (hPart : p.parts[0]? = some part)
    (h : reachesHeld held cascade part.phrase = true) : reachesHeld held cascade p = true := by
  cases p <;> try cases hLeads
  case property =>
    cases hPart
    simp [reachesHeld, h]
  case unary span operator operand =>
    cases operator with
    | nullAssert =>
        cases hPart
        exact h
    | _ => cases hLeads
  all_goals
    cases hPart
    exact h

/-- What reaches a held value is a property with its name, or leads on to what reaches one, or is
the receiver of a cascade that does. -/
theorem reachesHeld_cases (h : reachesHeld held cascade p = true) :
    (∃ span target name nullAware,
      (⟨p⟩ : Node) = ⟨.property span target name nullAware⟩ ∧ name.text = held) ∨
    (p.leadsOn ∧ ∃ part, p.parts[0]? = some part ∧
      reachesHeld held cascade part.phrase = true) ∨
    (∃ span, (⟨p⟩ : Node) = ⟨.cascadeReceiver span⟩) ∧ cascade = true := by
  cases p <;> try cases h
  case property span target name nullAware =>
    rcases Bool.or_eq_true_iff.mp h with hName | hTarget
    · exact Or.inl ⟨span, target, name, nullAware, rfl, eq_of_beq hName⟩
    · exact Or.inr (Or.inl ⟨rfl, ⟨target⟩, rfl, hTarget⟩)
  case unary span operator operand =>
    cases operator with
    | nullAssert => exact Or.inr (Or.inl ⟨rfl, ⟨operand⟩, rfl, h⟩)
    | _ => cases h
  case cascadeReceiver span => exact Or.inr (Or.inr ⟨⟨span, rfl⟩, rfl⟩)
  all_goals exact Or.inr (Or.inl ⟨rfl, _, rfl, h⟩)

end Rule

namespace CompilationUnit

variable {u : CompilationUnit} {catalogs : Catalogs} {held : String} {address cascade : Address}
  {node : Node}

/-! ### Cascades around an address -/

/-- What stands at an address is a root or a part of what stands at the address before. -/
theorem eq_nil_or_of_at?_concat {i : Nat} (h : u.at? (address ++ [i]) = some node) :
    address = [] ∨ ∃ outer, u.at? address = some outer := by
  cases address with
  | nil => exact Or.inl rfl
  | cons j address =>
      obtain ⟨root, hRoot, hNode⟩ := Option.bind_eq_some_iff.mp h
      obtain ⟨outer, hOuter, -⟩ := Option.bind_eq_some_iff.mp
        ((root.phrase.at?_append address [i]).symm.trans hNode)
      exact Or.inr ⟨outer, Option.bind_eq_some_iff.mpr ⟨root, hRoot, hOuter⟩⟩

/-- Only the step from a cascade to its sections leads into a section. -/
theorem inSection_concat {other : Address} {i : Nat} :
    u.InSection other (address ++ [i]) ↔ u.InSection other address ∨
      i = 1 ∧ other = address ∧
        ∃ span target sections, u.at? address = some ⟨.cascade span target sections⟩ := by
  unfold InSection
  rw [List.prefix_concat_iff]
  constructor
  · rintro ⟨hCascade, hLast | hBefore⟩
    · obtain ⟨rfl, hIndex⟩ := List.append_inj' hLast rfl
      cases hIndex
      exact Or.inr ⟨rfl, rfl, hCascade⟩
    · exact Or.inl ⟨hCascade, hBefore⟩
  · rintro (⟨hCascade, hBefore⟩ | ⟨rfl, rfl, hCascade⟩)
    · exact ⟨hCascade, Or.inr hBefore⟩
    · exact ⟨hCascade, Or.inl rfl⟩

/-- Apart from this step the same cascades are around an address. -/
theorem InnermostCascade.concat {i : Nat} (h : u.InnermostCascade cascade address)
    (hOther : i = 1 → ¬ ∃ span target sections,
      u.at? address = some ⟨.cascade span target sections⟩) :
    u.InnermostCascade cascade (address ++ [i]) where
  inSection := inSection_concat.mpr (Or.inl h.inSection)
  innermost := by
    intro other hIn
    rcases inSection_concat.mp hIn with hIn | ⟨rfl, -, hCascade⟩
    · exact h.innermost other hIn
    · exact absurd hCascade (hOther rfl)

/-- A section is deeper than its cascade. -/
theorem InSection.length_lt (h : u.InSection cascade address) :
    cascade.length < address.length := by
  have hLength := h.2.length_le
  rw [List.length_append] at hLength
  exact hLength

/-- The sections of a cascade are directly inside of it. -/
theorem innermostCascade_concat
    (h : ∃ span target sections, u.at? address = some ⟨.cascade span target sections⟩) :
    u.InnermostCascade address (address ++ [1]) where
  inSection := inSection_concat.mpr (Or.inr ⟨rfl, rfl, h⟩)
  innermost := by
    intro other hIn
    rcases inSection_concat.mp hIn with hIn | ⟨-, rfl, -⟩
    · exact (List.prefix_append other [1]).trans hIn.2
    · exact List.prefix_rfl

/-- There is only one innermost cascade. -/
theorem InnermostCascade.unique {other : Address} (h : u.InnermostCascade cascade address)
    (hOther : u.InnermostCascade other address) : cascade = other :=
  (hOther.innermost _ h.inSection).eq_of_length_le (h.innermost _ hOther.inSection).length_le

/-! ### The context of the walk -/

/-- Whether the target of the cascade around an address reaches a held value, as the walk hands it
down. -/
def heldContext (u : CompilationUnit) (catalogs : Catalogs) (address : Address) : Bool :=
  u.contextAt (Rule.heldValueWalk catalogs) false address

/-- The sections of a cascade are judged by its target. -/
theorem heldContext_sections {span : Span} {target : Expr} {sections : Phrase (.list .expr)}
    (h : u.at? address = some ⟨.cascade span target sections⟩) :
    u.heldContext catalogs (address ++ [1]) =
      Rule.reachesHeld catalogs.vocabulary.heldValue (u.heldContext catalogs address) target :=
  contextAt_concat _ h false 1

/-- Outside of the sections of a cascade the judgement is handed on. -/
theorem heldContext_concat {i : Nat} (h : u.at? address = some node)
    (hOther : i = 1 → ¬ ∃ span target sections,
      u.at? address = some ⟨.cascade span target sections⟩) :
    u.heldContext catalogs (address ++ [i]) = u.heldContext catalogs address := by
  obtain ⟨p⟩ := node
  rw [heldContext, contextAt_concat _ h]
  cases p with
  | cascade span target sections =>
      match i with
      | 0 => rfl
      | 1 => exact absurd ⟨_, _, _, h⟩ (hOther rfl)
      | _ + 2 => rfl
  | _ => rfl

/-- The walk hands down whether the target of the innermost cascade reaches a held value, judged
where the cascade stands. -/
theorem heldContext_eq (catalogs : Catalogs) (h : u.at? address = some node) :
    (∃ cascade span target sections, u.InnermostCascade cascade address ∧
      u.at? cascade = some ⟨.cascade span target sections⟩ ∧
      u.heldContext catalogs address =
        Rule.reachesHeld catalogs.vocabulary.heldValue (u.heldContext catalogs cascade) target) ∨
    (∀ cascade, ¬ u.InSection cascade address) ∧ u.heldContext catalogs address = false := by
  induction address using List.reverseRecOn generalizing node with
  | nil => cases h
  | append_singleton address i ih =>
      rcases eq_nil_or_of_at?_concat h with rfl | ⟨outer, hOuter⟩
      · refine Or.inr ⟨?_, ?_⟩
        · intro cascade hIn
          obtain ⟨span, target, sections, hCascade⟩ := hIn.1
          have hNil : cascade = [] := List.length_eq_zero_iff.mp (Nat.lt_one_iff.mp hIn.length_lt)
          rw [hNil] at hCascade
          cases hCascade
        · show u.roots[i]?.elim false (fun _ => false) = false
          cases u.roots[i]? <;> rfl
      · by_cases hSections : i = 1 ∧ ∃ span target sections,
            u.at? address = some ⟨.cascade span target sections⟩
        · obtain ⟨rfl, span, target, sections, hCascade⟩ := hSections
          exact Or.inl ⟨address, span, target, sections,
            innermostCascade_concat ⟨_, _, _, hCascade⟩, hCascade, heldContext_sections hCascade⟩
        · rw [heldContext_concat hOuter fun hi hCascade => hSections ⟨hi, hCascade⟩]
          refine (ih hOuter).imp ?_ (And.imp_left ?_)
          · rintro ⟨cascade, span, target, sections, hInnermost, hCascade, hContext⟩
            exact ⟨cascade, span, target, sections,
              hInnermost.concat fun hi hCascade => hSections ⟨hi, hCascade⟩, hCascade, hContext⟩
          · intro hNone cascade hIn
            rcases inSection_concat.mp hIn with hIn | ⟨hi, -, hCascade⟩
            · exact hNone cascade hIn
            · exact hSections ⟨hi, hCascade⟩

/-! ### Reaching a held value -/

/-- What reaches a held value in the context that the walk hands down reaches one where it stands,
if the context is right. -/
theorem reachesHeld_of_context {context : Bool} {c : Category} {p : Phrase c}
    (h : u.at? address = some ⟨p⟩)
    (hContext : context = true → ∃ cascade, u.InnermostCascade cascade address ∧
      u.ReachesHeld held (cascade ++ [0]))
    (hReaches : Rule.reachesHeld held context p = true) : u.ReachesHeld held address := by
  induction p using Phrase.induction_parts generalizing address with
  | step p ih =>
      rcases Rule.reachesHeld_cases hReaches with
        ⟨span, target, name, nullAware, hProperty, hName⟩ | ⟨hLeads, part, hPart, hFirst⟩ |
        ⟨⟨span, hReceiver⟩, hTrue⟩
      · exact .met (h.trans (congrArg some hProperty)) hName
      · have hPlaced : u.at? (address ++ [0]) = some part := (at?_concat h 0).trans hPart
        refine .onward h hLeads (ih part (List.mem_of_getElem? hPart) hPlaced ?_ hFirst)
        intro hTrue
        obtain ⟨cascade, hInnermost, hTarget⟩ := hContext hTrue
        exact ⟨cascade, hInnermost.concat (by simp), hTarget⟩
      · obtain ⟨cascade, hInnermost, hTarget⟩ := hContext hTrue
        exact .receiver (h.trans (congrArg some hReceiver)) hInnermost hTarget

/-- The context that the walk hands down is right. -/
theorem exists_innermost_of_heldContext (h : u.at? address = some node)
    (hContext : u.heldContext catalogs address = true) :
    ∃ cascade, u.InnermostCascade cascade address ∧
      u.ReachesHeld catalogs.vocabulary.heldValue (cascade ++ [0]) := by
  -- the target of a cascade is judged in the context of the cascade, at a shorter address
  induction hLength : address.length using Nat.strongRecOn generalizing address node with
  | _ length ih =>
      rcases heldContext_eq catalogs h with
        ⟨cascade, span, target, sections, hInnermost, hCascade, hEq⟩ | ⟨-, hFalse⟩
      · refine ⟨cascade, hInnermost, reachesHeld_of_context (at?_concat hCascade 0) ?_
          (hEq.symm.trans hContext)⟩
        intro hTrue
        have hLt : cascade.length < length := hLength ▸ hInnermost.inSection.length_lt
        obtain ⟨outer, hOuter, hTarget⟩ := ih _ hLt hCascade hTrue rfl
        exact ⟨outer, hOuter.concat (by simp), hTarget⟩
      · rw [hFalse] at hContext
        cases hContext

/-- What reaches a held value by its address does so for the rule. -/
theorem ReachesHeld.reachesHeld_heldContext
    (h : u.ReachesHeld catalogs.vocabulary.heldValue address) :
    ∃ node, u.at? address = some node ∧
      Rule.reachesHeld catalogs.vocabulary.heldValue (u.heldContext catalogs address)
        node.phrase = true := by
  induction h with
  | met property named => exact ⟨_, property, by simp [Rule.reachesHeld, named]⟩
  | @onward address node placed leadsOn first ih =>
      obtain ⟨part, hPart, hReaches⟩ := ih
      rw [heldContext_concat placed (by simp)] at hReaches
      exact ⟨node, placed, Rule.reachesHeld_onward leadsOn
        ((at?_concat placed 0).symm.trans hPart) hReaches⟩
  | @receiver address cascade span placed innermost target ih =>
      obtain ⟨part, hPart, hReaches⟩ := ih
      refine ⟨_, placed, ?_⟩
      show u.heldContext catalogs address = true
      rcases heldContext_eq catalogs placed with
        ⟨other, otherSpan, otherTarget, sections, hInnermost, hCascade, hEq⟩ | ⟨hNone, -⟩
      · cases innermost.unique hInnermost
        have hTarget : some (⟨otherTarget⟩ : Node) = some part :=
          (at?_concat hCascade 0).symm.trans hPart
        cases hTarget
        rw [hEq, ← hReaches, heldContext_concat hCascade (by simp)]
      · exact absurd innermost.inSection (hNone cascade)

/-- The walk and the lexical account agree on what reaches a held value. -/
theorem reachesHeld_heldContext_iff (h : u.at? address = some node) :
    Rule.reachesHeld catalogs.vocabulary.heldValue (u.heldContext catalogs address)
      node.phrase = true ↔ u.ReachesHeld catalogs.vocabulary.heldValue address := by
  constructor
  · exact reachesHeld_of_context h (exists_innermost_of_heldContext h)
  · intro hReaches
    obtain ⟨other, hOther, hContext⟩ := hReaches.reachesHeld_heldContext
    rw [h] at hOther
    cases hOther
    exact hContext

/-! ### What is written to -/

/-- An expression is a member of one object at most. -/
theorem MemberOf.unique {holder other : Address} (h : u.MemberOf address holder)
    (hOther : u.MemberOf address other) : holder = other := by
  induction h with
  | property placed =>
      cases hOther with
      | property | element => rfl
      | paren placedOther inner => cases placed.symm.trans placedOther
  | element placed =>
      cases hOther with
      | property | element => rfl
      | paren placedOther inner => cases placed.symm.trans placedOther
  | paren placed inner ih =>
      cases hOther with
      | property placedOther => cases placed.symm.trans placedOther
      | element placedOther => cases placed.symm.trans placedOther
      | paren placedOther innerOther => exact ih innerOther

/-- Writing changes something inside a held value iff what is written to is a member of something
that reaches one. -/
theorem isMutatingTarget_iff {target : Expr} (h : u.at? address = some ⟨target⟩) :
    Rule.isMutatingTarget catalogs.vocabulary.heldValue (u.heldContext catalogs address) target =
      true ↔
    ∃ holder, u.MemberOf address holder ∧ u.ReachesHeld catalogs.vocabulary.heldValue holder := by
  induction target using Phrase.induction_paren generalizing address with
  | paren span expression ih =>
      have hInner := ih (at?_concat h 0)
      rw [heldContext_concat h (by simp)] at hInner
      refine hInner.trans ⟨?_, ?_⟩
      · rintro ⟨holder, hMember, hReaches⟩
        exact ⟨holder, .paren h hMember, hReaches⟩
      · rintro ⟨holder, hMember, hReaches⟩
        cases hMember with
        | property placed => cases h.symm.trans placed
        | element placed => cases h.symm.trans placed
        | paren placed inner => exact ⟨holder, inner, hReaches⟩
  | bare e hBare =>
      have hFirst {part : Node} (hPart : u.at? (address ++ [0]) = some part) :
          Rule.reachesHeld catalogs.vocabulary.heldValue (u.heldContext catalogs address)
            part.phrase = true ↔ u.ReachesHeld catalogs.vocabulary.heldValue (address ++ [0]) := by
        rw [← reachesHeld_heldContext_iff hPart, heldContext_concat h (by simp)]
      constructor
      · intro hMutating
        cases e <;> try cases hMutating
        case property => exact ⟨_, .property h, (hFirst (at?_concat h 0)).mp hMutating⟩
        case index => exact ⟨_, .element h, (hFirst (at?_concat h 0)).mp hMutating⟩
        case paren => exact absurd rfl (hBare _ _)
      · rintro ⟨holder, hMember, hReaches⟩
        cases hMember with
        | property placed =>
            cases h.symm.trans placed
            exact (hFirst (at?_concat h 0)).mpr hReaches
        | element placed =>
            cases h.symm.trans placed
            exact (hFirst (at?_concat h 0)).mpr hReaches
        | paren placed inner =>
            cases h.symm.trans placed
            exact absurd rfl (hBare _ _)

/-! ### The findings -/

/-- A place that is written to is reported iff it is a member of something that reaches a held
value. -/
theorem writeFinding?_eq_some_iff {target : Expr} {span : Span} {d : Diagnostic}
    (h : u.at? address = some ⟨target⟩) :
    Rule.writeFinding? catalogs.vocabulary.heldValue (u.heldContext catalogs address) span target =
      some d ↔
    (∃ holder, u.MemberOf address holder ∧
      u.ReachesHeld catalogs.vocabulary.heldValue holder) ∧
      changeWarning ("Writing inside `." ++ catalogs.vocabulary.heldValue ++
        "` mutates it in place and does not trigger updates") span = d := by
  rw [Rule.writeFinding?, Option.ite_none_right_eq_some, isMutatingTarget_iff h,
    Option.some.injEq]
  rfl

/-- The walk reports at an address what changes something inside a held value there. -/
theorem mutationAt?_eq_some_iff {d : Diagnostic} (h : u.at? address = some node) :
    Rule.mutationAt? catalogs (u.heldContext catalogs address) node.phrase = some d ↔
      u.ChangesHeld catalogs address d := by
  -- what is written to and the target of a call are judged in the context of the whole
  have hContext : u.heldContext catalogs (address ++ [0]) = u.heldContext catalogs address :=
    heldContext_concat h (by simp)
  have hWrite {target : Expr} {span : Span} (hTarget : u.at? (address ++ [0]) = some ⟨target⟩) :
      Rule.writeFinding? catalogs.vocabulary.heldValue (u.heldContext catalogs address) span
        target = some d ↔ _ :=
    hContext ▸ writeFinding?_eq_some_iff hTarget
  obtain ⟨p⟩ := node
  constructor
  · intro hFinding
    cases p <;> try cases hFinding
    case assign span operator target value =>
      obtain ⟨⟨holder, hMember, hReaches⟩, rfl⟩ := (hWrite (at?_concat h 0)).mp hFinding
      exact .write (.assign h) hMember hReaches
    case update span operator isBefore operand =>
      obtain ⟨⟨holder, hMember, hReaches⟩, rfl⟩ := (hWrite (at?_concat h 0)).mp hFinding
      exact .write (.update h) hMember hReaches
    case call span target method typeArgs args nullAware resolved =>
      obtain ⟨hCall, hFinding⟩ := Option.ite_none_right_eq_some.mp hFinding
      rw [Bool.and_eq_true] at hCall
      cases hFinding
      cases target with
      | none => cases hCall.2
      | some target =>
          have hTarget : u.at? (address ++ [0]) = some ⟨.some target⟩ := at?_concat h 0
          refine .call h (of_decide_eq_true hCall.1)
            ((reachesHeld_heldContext_iff hTarget).mp ?_)
          rw [hContext]
          exact hCall.2
  · intro hChanges
    cases hChanges with
    | write writes member reaches =>
        cases writes with
        | assign placed =>
            cases h.symm.trans placed
            exact (hWrite (at?_concat h 0)).mpr ⟨⟨_, member, reaches⟩, rfl⟩
        | update placed =>
            cases h.symm.trans placed
            exact (hWrite (at?_concat h 0)).mpr ⟨⟨_, member, reaches⟩, rfl⟩
    | @call span target method typeArgs args nullAware resolved placed mutating reaches =>
        cases h.symm.trans placed
        have hReaches := (reachesHeld_heldContext_iff (at?_concat h 0)).mpr reaches
        rw [hContext] at hReaches
        refine Option.ite_none_right_eq_some.mpr ⟨?_, rfl⟩
        rw [Bool.and_eq_true]
        exact ⟨decide_eq_true mutating, hReaches⟩

/-- The findings about held values with their addresses. -/
def heldFindings (u : CompilationUnit) (catalogs : Catalogs) : List (Address × Diagnostic) :=
  foundAt PlacedNode.address
    (fun placed =>
      Rule.mutationAt? catalogs (u.heldContext catalogs placed.address) placed.node.phrase)
    u.placedNodes

/-- Something is at the address of a change. -/
theorem ChangesHeld.exists_at? {d : Diagnostic} (h : u.ChangesHeld catalogs address d) :
    ∃ node, u.at? address = some node := by
  cases h with
  | write writes => cases writes with | assign placed | update placed => exact ⟨_, placed⟩
  | call placed => exact ⟨_, placed⟩

/-- The walk finds the changes inside held values, and nothing else. -/
theorem mem_heldFindings_iff {d : Diagnostic} :
    (address, d) ∈ u.heldFindings catalogs ↔ u.ChangesHeld catalogs address d := by
  rw [heldFindings, mem_foundAt_iff]
  constructor
  · rintro ⟨placed, hPlaced, rfl, hFinding⟩
    exact (mutationAt?_eq_some_iff (mem_placedNodes_iff.mp hPlaced)).mp hFinding
  · intro hChanges
    obtain ⟨node, hNode⟩ := hChanges.exists_at?
    exact ⟨⟨address, node⟩, mem_placedNodes_iff.mpr hNode, rfl,
      (mutationAt?_eq_some_iff hNode).mpr hChanges⟩

/-- The walk gives the findings in their order. -/
theorem checkHeldValues_eq (catalogs : Catalogs) (u : CompilationUnit) :
    Rule.checkHeldValues catalogs u = (u.heldFindings catalogs).map Prod.snd := by
  rw [Rule.checkHeldValues, walk_eq_placedNodes, heldFindings, map_snd_foundAt,
    List.filterMap_eq_flatMap_toList]
  rfl

/-- A change in what reaches no held value is none. -/
theorem ChangesHeld.reachesHeld_of_writes {d : Diagnostic} {span : Span} {holder : Address}
    (h : u.ChangesHeld catalogs address d) (writes : u.Writes address span)
    (member : u.MemberOf (address ++ [0]) holder) :
    u.ReachesHeld catalogs.vocabulary.heldValue holder := by
  cases h with
  | write _ other reaches =>
      cases member.unique other
      exact reaches
  | call placed =>
      cases writes with
      | assign placedOther => cases placed.symm.trans placedOther
      | update placedOther => cases placed.symm.trans placedOther

/-- The findings about held values are, in the order of the source, those for the assignments,
updates and calls that change something inside a held value, and whether they do is a matter of
the expressions around them. -/
theorem findings_heldValue (catalogs : Catalogs) (u : CompilationUnit) :
    ∃ trace, Rule.heldValue.findings catalogs u = trace.map Prod.snd ∧
      u.HeldTrace catalogs trace := by
  have hComponents :
      (u.components catalogs.vocabulary).flatMap (Rule.heldValue.checkComponent catalogs) = [] :=
    List.flatMap_eq_nil_iff.mpr fun _ _ => rfl
  refine ⟨u.heldFindings catalogs, ?_, pairwise_foundAt u.pairwise_placedNodes,
    fun _ _ => mem_heldFindings_iff, ?_⟩
  · rw [Rule.findings, hComponents, List.nil_append]
    exact checkHeldValues_eq catalogs u
  · intro address holder span writes member hReaches hReported
    obtain ⟨⟨_, d⟩, hFinding, rfl⟩ := List.mem_map.mp hReported
    exact hReaches ((mem_heldFindings_iff.mp hFinding).reachesHeld_of_writes writes member)

end CompilationUnit
end SetupLint
