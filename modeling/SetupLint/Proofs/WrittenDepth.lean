import SetupLint.Proofs.JsonNesting
import SetupLint.Proofs.NameDecoding
import SetupLint.Tree.Declaration

/-! The text of a unit nests as deeply as its document, whatever numbers are in it. A number
never opens anything: also that of a double is digits around a point, and an exponent. -/
namespace SetupLint

open Json (Document)

namespace Double

/-- The digits of a double in an interval are decimal. -/
theorem isDigit_digits (i : Interval) : ∀ c ∈ i.digits.1, c.isDigit = true := by
  have hFound : ∀ c ∈ (((List.range 17).findSome? fun (k : Nat) =>
      (i.onGrid? (i.firstPlace - k)).map fun count =>
        (Nat.toDigits 10 count, i.firstPlace - k)).getD (['0'], 0)).1, c.isDigit = true := by
    intro c hc
    cases hSome : (List.range 17).findSome? fun (k : Nat) =>
        (i.onGrid? (i.firstPlace - k)).map fun count =>
          (Nat.toDigits 10 count, i.firstPlace - k) with
    | none =>
        rw [hSome] at hc
        rw [List.mem_singleton.mp hc]
        rfl
    | some found =>
        rw [hSome] at hc
        obtain ⟨k, -, hGrid⟩ := List.exists_of_findSome?_eq_some hSome
        obtain ⟨count, -, rfl⟩ := Option.map_eq_some_iff.mp hGrid
        exact Nat.isDigit_of_mem_toDigits (by decide) (by decide) hc
  intro c hc
  refine hFound c ?_
  have hKept := (List.dropWhile_suffix _).subset (List.mem_reverse.mp hc)
  exact List.mem_reverse.mp hKept

theorem isDigit_replicate (n : Nat) : ∀ c ∈ List.replicate n '0', c.isDigit = true := by
  intro c hc
  rw [List.eq_of_mem_replicate hc]
  rfl

/-- A double is written with digits around its point. -/
theorem isDigital_positional (x : Double) : x.positional.IsDigital := by
  have hDigits := isDigit_digits (interval x.code)
  have hZero : ∀ c ∈ ['0'], c.isDigit = true := isDigit_replicate 1
  unfold positional
  split
  · exact ⟨hZero, hZero⟩
  · simp only
    split
    · exact ⟨List.forall_mem_append.mpr ⟨hDigits, isDigit_replicate _⟩, hZero⟩
    · split
      · exact ⟨fun c hc => hDigits c (List.mem_of_mem_take hc),
          fun c hc => hDigits c (List.mem_of_mem_drop hc)⟩
      · exact ⟨hZero, List.forall_mem_append.mpr ⟨isDigit_replicate _, hDigits⟩⟩

/-- A double is written with digits around a point. -/
theorem isDigital_numeral (x : Double) : x.numeral.IsDigital := by
  have hDigits := isDigit_digits (interval x.code)
  unfold numeral
  simp only
  split
  · exact isDigital_positional x
  · exact ⟨fun c hc => hDigits c (List.mem_of_mem_take hc),
      fun c hc => hDigits c (List.mem_of_mem_drop hc)⟩

end Double

/-- A tree whose numbers have nothing but digits around their points. -/
abbrev Json.IsDigital {p : Json.Part} (tree : Json Empty p) : Prop :=
  tree.AllNumbers Numeral.IsDigital

/-- Members whose numbers have nothing but digits around their points. -/
def Digital (members : List (String × Document)) : Prop :=
  ∀ member ∈ members, member.2.IsDigital

section Members

variable {member : String × Document} {members others : List (String × Document)} {key : String}

@[simp] theorem digital_nil : Digital [] := List.forall_mem_nil _

@[simp]
theorem digital_cons : Digital (member :: members) ↔ member.2.IsDigital ∧ Digital members :=
  List.forall_mem_cons

/-- Members one behind another are digital together. -/
@[simp]
theorem digital_append : Digital (members ++ others) ↔ Digital members ∧ Digital others :=
  List.forall_mem_append

@[simp]
theorem digital_optionally_map {α : Type} {encode : α → Document} (h : ∀ a, (encode a).IsDigital)
    (value : Option α) : Digital (optionally key (value.map encode)) := by
  cases value <;> simp [optionally, h]

@[simp]
theorem digital_optionally_first? {items : Json Empty .items} (h : items.IsDigital) :
    Digital (optionally key items.first?) := by
  cases items with
  | item value rest => simp [Json.first?, optionally, h.1]
  | _ => simp [Json.first?, optionally]

theorem isDigital_record (h : Digital members) : (Json.record members).IsDigital :=
  Json.allNumbers_record.mpr h

theorem isDigital_withMembers {rest : Json Empty .members} (h : Digital members)
    (hRest : rest.IsDigital) : (Json.withMembers members rest).IsDigital := by
  induction members with
  | nil => exact hRest
  | cons member members ih =>
      obtain ⟨hHead, hTail⟩ := digital_cons.mp h
      exact ⟨hHead, ih hTail⟩

@[simp]
theorem isDigital_tagged {tag : String} (h : Digital members) : (tagged tag members).IsDigital :=
  isDigital_withMembers (digital_cons.mpr ⟨trivial, h⟩) trivial

@[simp]
theorem isDigital_untagged (h : Digital members) : (untagged members).IsDigital :=
  isDigital_withMembers h trivial

@[simp]
theorem isDigital_close {p : Json.Part} {tree : Json Empty p} (h : tree.IsDigital) :
    tree.close.IsDigital := by
  cases p <;> exact h

theorem isDigital_list {values : List Document} (h : ∀ value ∈ values, value.IsDigital) :
    (Json.list values).IsDigital := Json.allNumbers_list.mpr h

end Members

/-! What is written inside a tree. -/

@[simp] theorem isDigital_int (i : Int) : (Json.int i).IsDigital := Numeral.isDigital_ofInt i

@[simp]
theorem Worded.isDigital_encode {α : Type} [Worded α] (a : α) : (Worded.encode a).IsDigital :=
  trivial

@[simp]
theorem Span.isDigital_encode (span : Span) : span.encode.IsDigital :=
  isDigital_record (by simp)

@[simp]
theorem Name.isDigital_encode (name : Name) : name.encode.IsDigital :=
  isDigital_record (by simp)

@[simp]
theorem Keyword.isDigital_encode (keyword : Keyword) : keyword.encode.IsDigital :=
  isDigital_record (by simp)

@[simp]
theorem Resolution.isDigital_encode (resolved : Resolution) : resolved.encode.IsDigital :=
  isDigital_record (by simp)

@[simp]
theorem LiteralValue.isDigital_encode (value : LiteralValue) : value.encode.IsDigital := by
  cases value with
  | double d =>
      exact isDigital_record (by simp [optionally, Json.AllNumbers, d.isDigital_numeral])
  | _ => exact isDigital_record (by simp [optionally])

namespace TypeRef

mutual

@[simp]
theorem isDigital_encode : (t : TypeRef) → t.encode.IsDigital
  | ⟨span, name, args, nullable⟩ => by
      have hArgs := isDigital_list (isDigital_encodeAll args)
      rw [encode]
      exact isDigital_record (by simp [hArgs])

theorem isDigital_encodeAll : (ts : List TypeRef) → ∀ document ∈ encodeAll ts, document.IsDigital
  | [] => List.forall_mem_nil _
  | t :: ts => List.forall_mem_cons.mpr ⟨isDigital_encode t, isDigital_encodeAll ts⟩

end

end TypeRef

/-! The members of a node. -/

section Nodes

variable {key : String}

@[simp] theorem digital_nameMember (name : Option Name) : Digital (nameMember key name) := by
  simp [nameMember]

@[simp] theorem digital_typeMember (type : Option TypeRef) : Digital (typeMember key type) := by
  simp [typeMember]

@[simp]
theorem isDigital_spanMember (span : Span) : (spanMember span).2.IsDigital :=
  span.isDigital_encode

@[simp]
theorem isDigital_flagMember (value : Bool) : (flagMember key value).2.IsDigital := trivial

@[simp]
theorem isDigital_typesMember (types : List TypeRef) : (typesMember key types).2.IsDigital :=
  isDigital_list (TypeRef.isDigital_encodeAll types)

@[simp]
theorem isDigital_keywordsMember (keywords : List Keyword) :
    (keywordsMember keywords).2.IsDigital :=
  isDigital_list (by simp)

end Nodes

/-- All numbers that a phrase is written with have digits around their points. -/
@[simp]
theorem Phrase.isDigital_encode {c : Category} (p : Phrase c) : p.encode.IsDigital := by
  induction p with
  | _ => simp [encode, Json.AllNumbers, *]

@[simp]
theorem Phrase.isDigital_document {c : Category} (p : Phrase c) : p.document.IsDigital :=
  isDigital_close p.isDigital_encode

@[simp]
theorem FieldDecl.isDigital_encode (f : FieldDecl) : f.encode.IsDigital := by
  simp [encode]

@[simp]
theorem MethodDecl.isDigital_encode (m : MethodDecl) : m.encode.IsDigital := by
  simp [encode]

@[simp]
theorem ConstructorDecl.isDigital_encode (k : ConstructorDecl) : k.encode.IsDigital := by
  simp [encode]

@[simp]
theorem Member.isDigital_encode (m : Member) : m.encode.IsDigital := by
  cases m <;> simp [encode, Json.AllNumbers]

@[simp]
theorem ClassDecl.isDigital_encode (c : ClassDecl) : c.encode.IsDigital := by
  have hMembers : (Json.list (c.members.map Member.encode)).IsDigital :=
    isDigital_list (by simp)
  simp [encode, hMembers]

@[simp]
theorem Declaration.isDigital_encode (d : Declaration) : d.encode.IsDigital := by
  cases d <;> simp [encode, Json.AllNumbers]

namespace CompilationUnit

/-- All numbers in the document of a unit are digits around a point. -/
theorem isDigital_encode (u : CompilationUnit) : u.encode.IsDigital := by
  have hDeclarations : (Json.list (u.declarations.map Declaration.encode)).IsDigital :=
    isDigital_list (by simp)
  exact isDigital_record (by simp [hDeclarations])

/-- The text of a unit nests as deeply as its document, also if there are doubles in it. -/
theorem nesting_text_eq (u : CompilationUnit) : Json.nesting u.text = u.encode.depth :=
  Json.nesting_pretty_of_isDigital u.isDigital_encode

end CompilationUnit

end SetupLint
