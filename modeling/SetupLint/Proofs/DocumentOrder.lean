import SetupLint.Proofs.NameDecoding
import SetupLint.Proofs.Traversal

/-! The traversal of a unit against its encoding. -/
namespace SetupLint

open Json (Document)

namespace Json

variable {φ : Type}

/-- The members of the objects in a tree, in the order of the text. -/
def objects : {p : Part} → Json φ p → List (Json φ .members)
  | _, .array items => items.objects
  | _, .object members => members :: members.objects
  | _, .item value rest => value.objects ++ rest.objects
  | _, .member _ value rest => value.objects ++ rest.objects
  | _, .unkeyed _ value rest => value.objects ++ rest.objects
  | _, _ => []

def get? (key : String) : {p : Part} → Json φ p → Option (Json φ .value)
  | _, .member name value rest => if key = name then some value else rest.get? key
  | _, .unkeyed _ _ rest => rest.get? key
  | _, _ => none

/-- A tagged object: the tag, and the span and the name if there are any. -/
structure Mark where
  tag : String
  span : Option Document
  name : Option Document := none

/-- The tags of the objects that have a mark. -/
def markedTags : List String := ["Identifier", "This", "Call", "PropertyAccess"]

/-- The mark of an object that is tagged as an identifier, `this`, a call or a property access. -/
def mark? (members : Json Empty .members) : Option Mark :=
  match members.get? tagKey with
  | some (.text tag) =>
    if tag ∈ markedTags then some ⟨tag, members.get? "span", members.get? "name"⟩ else none
  | _ => none

/-- The marks of a tree, in the order of the text. -/
def marks {p : Part} (tree : Json Empty p) : List Mark := tree.objects.filterMap mark?

end Json

/-- The mark of the object that an announcement is for. -/
def Announcement.mark? : Announcement → Option Json.Mark
  | .identifier span name => some ⟨"Identifier", some span.encode, some (.text name)⟩
  | .node .this span => some ⟨"This", some span.encode, none⟩
  | .node .call span => some ⟨"Call", some span.encode, none⟩
  | .node .propertyAccess span => some ⟨"PropertyAccess", some span.encode, none⟩
  | _ => none

namespace Json

variable {members : List (String × Document)}

/-- The mark of an object comes before those in it. -/
theorem marks_object (members : Json Empty .members) :
    (Json.object members).marks = (mark? members).toList ++ members.marks := by
  rw [marks, objects, List.filterMap_cons]
  cases mark? members <;> rfl

@[simp]
theorem marks_bool (b : Bool) : (Json.bool b : Document).marks = [] := rfl

@[simp]
theorem marks_text (s : String) : (Json.text s : Document).marks = [] := rfl

@[simp]
theorem marks_array (items : Json Empty .items) : (Json.array items).marks = items.marks := rfl

theorem marks_item (value : Document) (rest : Json Empty .items) :
    (Json.item value rest).marks = value.marks ++ rest.marks := List.filterMap_append

theorem marks_member (key : String) (value : Document) (rest : Json Empty .members) :
    (Json.member key value rest).marks = value.marks ++ rest.marks := List.filterMap_append

/-- The marks of members are those of their values. -/
theorem marks_someMembers (members : List (String × Document)) :
    (someMembers members).marks = members.flatMap fun member => member.2.marks := by
  induction members with
  | nil => rfl
  | cons member members ih =>
      rw [List.flatMap_cons, ← ih]
      exact marks_member ..

theorem lookup_cons {α : Type} (key name : String) (value : α) (members : List (String × α)) :
    ((name, value) :: members).lookup key =
      if key = name then some value else members.lookup key := by
  by_cases hKey : key = name
  · simp [hKey]
  · have hFalse : (key == name) = false := beq_false_of_ne hKey
    simp [List.lookup_cons, hKey, hFalse]

theorem lookup_optionally (key name : String) (value : Option Document) :
    (optionally name value).lookup key = if key = name then value else none := by
  cases value with
  | none => simp [optionally]
  | some value => exact lookup_cons key name value []

/-- A member that is written is found under its key. -/
theorem get?_someMembers (key : String) (members : List (String × Document)) :
    (someMembers members).get? key = members.lookup key := by
  induction members with
  | nil => rfl
  | cons member members ih =>
      rw [lookup_cons, ← ih]
      rfl

/-- The object of a tagged node. -/
theorem marks_tagged (tag : String) (members : List (String × Document)) :
    (Json.object (SetupLint.tagged tag members)).marks =
      (if tag ∈ markedTags then [⟨tag, members.lookup "span", members.lookup "name"⟩] else []) ++
        members.flatMap fun member => member.2.marks := by
  have hTag : (SetupLint.tagged tag members).get? tagKey = some (.text tag) := rfl
  have hSpan : (SetupLint.tagged tag members).get? "span" = members.lookup "span" :=
    get?_someMembers "span" members
  have hName : (SetupLint.tagged tag members).get? "name" = members.lookup "name" :=
    get?_someMembers "name" members
  have hMembers : (SetupLint.tagged tag members).marks =
      members.flatMap fun member => member.2.marks := marks_someMembers members
  rw [marks_object, hMembers]
  simp only [mark?, hTag, hSpan, hName]
  split <;> rfl

/-- The object of a node with a tag that gives no mark. -/
theorem marks_unmarked {tag : String} (h : tag ∉ markedTags) (members : List (String × Document)) :
    (Json.object (SetupLint.tagged tag members)).marks =
      members.flatMap fun member => member.2.marks := by
  rw [marks_tagged, if_neg h, List.nil_append]

/-- The object of a node without a tag. -/
theorem marks_untagged {members : List (String × Document)} (h : members.lookup tagKey = none) :
    (Json.object (SetupLint.untagged members)).marks =
      members.flatMap fun member => member.2.marks := by
  have hTag : (SetupLint.untagged members).get? tagKey = none := (get?_someMembers ..).trans h
  have hMark : mark? (SetupLint.untagged members) = none := by simp only [mark?, hTag]
  have hMembers : (SetupLint.untagged members).marks =
      members.flatMap fun member => member.2.marks := marks_someMembers members
  rw [marks_object, hMark, hMembers]
  rfl

/-- A tag beside the members of a node that has no tag itself. -/
theorem marks_retagged {members : List (String × Document)} (h : members.lookup tagKey = none)
    {tag : String} (hTag : tag ∉ markedTags) :
    (Json.object (.member tagKey (.text tag) (SetupLint.untagged members))).marks =
      (Json.object (SetupLint.untagged members)).marks :=
  (marks_unmarked hTag members).trans (marks_untagged h).symm

/-- The marks of an array are those of its elements. -/
theorem marks_list (values : List Document) :
    (Json.list values).marks = values.flatMap marks := by
  induction values with
  | nil => rfl
  | cons value values ih =>
      have hItem := marks_item value (values.foldr .item .noItems)
      rw [List.flatMap_cons, ← ih]
      exact hItem

theorem marks_optionally {α : Type} {encode : α → Document} (h : ∀ a, (encode a).marks = [])
    (name : String) (a : Option α) :
    ((optionally name (a.map encode)).flatMap fun member => member.2.marks) = [] := by
  cases a with
  | none => rfl
  | some a => simp [optionally, h]

end Json

@[simp]
theorem Span.marks_encode (s : Span) : s.encode.marks = [] := rfl

@[simp]
theorem Name.marks_encode (n : Name) : n.encode.marks = [] := rfl

@[simp]
theorem Keyword.marks_encode (k : Keyword) : k.encode.marks = [] := rfl

@[simp]
theorem Worded.marks_encode {α : Type} [Worded α] (a : α) : (Worded.encode a).marks = [] := rfl

@[simp]
theorem Resolution.marks_encode (r : Resolution) : r.encode.marks = [] := by
  obtain ⟨kind, owner, isStatic⟩ := r
  cases owner <;> rfl

@[simp]
theorem LiteralValue.marks_encode (v : LiteralValue) : v.encode.marks = [] := by
  cases v <;> rfl

namespace TypeRef

mutual

theorem marks_encode : (t : TypeRef) → t.encode.marks = []
  | ⟨span, name, args, nullable⟩ => by
      have hArgs : (Json.list (encodeAll args)).marks = [] := by
        rw [encodeAll_eq, Json.marks_list, List.flatMap_eq_nil_iff]
        exact marks_encodeAll args
      have hMembers := @Json.marks_untagged [("span", span.encode), ("name", .text name),
        ("args", Json.list (encodeAll args)), ("nullable", .bool nullable)] rfl
      rw [encode]
      refine hMembers.trans ?_
      simp [hArgs]

theorem marks_encodeAll : (ts : List TypeRef) → ∀ document ∈ ts.map encode, document.marks = []
  | [] => nofun
  | t :: ts => List.forall_mem_cons.mpr ⟨marks_encode t, marks_encodeAll ts⟩

end

@[simp]
theorem marks_types (ts : List TypeRef) : (Json.list (encodeAll ts)).marks = [] := by
  rw [encodeAll_eq, Json.marks_list, List.flatMap_eq_nil_iff]
  exact marks_encodeAll ts

end TypeRef

@[simp]
theorem Keyword.marks_keywords (keywords : List Keyword) :
    (Json.list (keywords.map encode)).marks = [] := by
  rw [Json.marks_list, List.flatMap_map, List.flatMap_eq_nil_iff]
  exact fun k _ => k.marks_encode

namespace Phrase

variable {c : Category}

/-- An optional part has the marks of its own document, if it is there. -/
@[simp]
theorem marks_first? (name : String) (p : Phrase (.option c)) :
    ((optionally name p.encode.first?).flatMap fun member => member.2.marks) =
      p.encode.marks := by
  cases p with
  | none => rfl
  | some value =>
      have hItem : value.some.encode.marks = value.document.marks ++ [] :=
        Json.marks_item value.document .noItems
      rw [hItem]
      rfl

/-- The marks of a document are the mark of the phrase and those of its parts, in order. -/
theorem marks_document (p : Phrase c) : p.document.marks =
    (p.detail?.bind Announcement.mark?).toList ++
      p.parts.flatMap fun part => part.phrase.document.marks := by
  have hType (name : String) := Json.marks_optionally TypeRef.marks_encode name
  have hName (name : String) := Json.marks_optionally Name.marks_encode name
  cases p with
  | function fn =>
      cases fn
      exact (Json.marks_retagged rfl (by decide)).trans (List.append_nil _).symm
  | blockStmt inner =>
      cases inner
      exact (Json.marks_retagged rfl (by decide)).trans (List.append_nil _).symm
  | variableStmt decl =>
      cases decl with
      | variableDecl span keywords type declared =>
          have hTag : List.lookup Json.tagKey ([spanMember span, keywordsMember keywords] ++
              typeMember "ty" type ++ [("variables", declared.document)]) = none := by
            cases type <;> rfl
          exact (Json.marks_retagged hTag (by decide)).trans (List.append_nil _).symm
  | functionStmt decl =>
      cases decl with
      | functionDecl span name returnType params inner =>
          have hTag : List.lookup Json.tagKey ([spanMember span, ("name", name.encode)] ++
              typeMember "return_type" returnType ++
              [("params", params.document), ("body", inner.document)]) = none := by
            cases returnType <;> rfl
          exact (Json.marks_retagged hTag (by decide)).trans (List.append_nil _).symm
  | nil => rfl
  | cons head tail =>
      have hItem : (Phrase.cons head tail).document.marks =
          head.document.marks ++ tail.document.marks := Json.marks_item head.document tail.encode
      rw [hItem, ← List.append_nil tail.document.marks]
      rfl
  | none => rfl
  | some value => exact Json.marks_item value.document .noItems
  | _ =>
      -- the object by unification, as unfolding `encode` is slow
      delta detail?
      first
      | refine (Json.marks_tagged _ _).trans ?_
      | refine (Json.marks_untagged ?_).trans ?_
      all_goals
        simp [-List.flatMap_eq_nil_iff, hName, hType, document, Json.close, parts,
          Announcement.mark?, Json.markedTags, Json.tagKey, Json.kindKey, Json.contentKey,
          Json.marks_optionally, Json.lookup_cons, Json.lookup_optionally, List.lookup_append,
          spanMember, nameMember, typeMember, typesMember, keywordsMember, flagMember,
          TypeRef.marks_encode]

end Phrase

/-- The mark of a phrase in the course of a walk, if it has one. -/
def Node.marks (node : Node) : List Json.Mark :=
  (node.phrase.detail?.bind Announcement.mark?).toList

/-- The marks of a document are those of the phrases in it, each before those in the phrase. -/
theorem Phrase.marks_document_eq_nodes {c : Category} (p : Phrase c) :
    p.document.marks = p.nodes.flatMap Node.marks := by
  induction p using induction_parts with
  | step p ih =>
      rw [marks_document, nodes_eq, List.flatMap_cons, List.flatMap_assoc]
      congr 1
      exact List.flatMap_congr ih

/-- The announcements of a phrase tell its mark, if it has one. -/
theorem Phrase.filterMap_announcements {c : Category} (p : Phrase c) :
    p.announcements.filterMap Announcement.mark? = Node.marks ⟨p⟩ := by
  have hHook : ((c.hook?.map fun hook => Announcement.node hook p.span).toList).filterMap
      Announcement.mark? = [] := by
    cases c <;> rfl
  rw [announcements, List.filterMap_append, hHook, List.nil_append, Node.marks]
  cases p.detail? with
  | none => rfl
  | some announcement => cases h : announcement.mark? <;> simp [h]

/-- The marks in a member are those of its phrases, in the order of the walk. -/
theorem Member.marks_encode (m : Member) : m.encode.marks = m.nodes.flatMap Node.marks := by
  cases m with
  | field f =>
      have hType := Json.marks_optionally TypeRef.marks_encode "ty" f.type
      refine (Json.marks_unmarked (by decide) _).trans ?_
      simp [typeMember, hType, spanMember, keywordsMember, Phrase.marks_document_eq_nodes, nodes]
  | method m =>
      have hType := Json.marks_optionally TypeRef.marks_encode "return_type" m.returnType
      refine (Json.marks_unmarked (by decide) _).trans ?_
      simp [typeMember, hType, spanMember, keywordsMember, Phrase.marks_document_eq_nodes, nodes]
  | constructor k =>
      have hName := Json.marks_optionally Name.marks_encode "name" k.name
      refine (Json.marks_unmarked (by decide) _).trans ?_
      simp [nameMember, hName, spanMember, flagMember, Phrase.marks_document_eq_nodes, nodes]

theorem Declaration.marks_encode (d : Declaration) :
    d.encode.marks = d.nodes.flatMap Node.marks := by
  cases d with
  | «class» c =>
      have hType := Json.marks_optionally TypeRef.marks_encode "superclass" c.superclass
      have hMembers : (c.members.map Member.encode).flatMap Json.marks =
          (c.members.flatMap Member.nodes).flatMap Node.marks := by
        rw [List.flatMap_map, List.flatMap_assoc]
        exact List.flatMap_congr fun m _ => m.marks_encode
      refine (Json.marks_unmarked (by decide) _).trans ?_
      simp [typeMember, hType, spanMember, flagMember, Json.marks_list, nodes, hMembers]
  | function f =>
      have hStmt : encode (.function f) = (Phrase.functionStmt f).document := rfl
      rw [hStmt, Phrase.marks_document_eq_nodes]
      rfl
  | «variable» v =>
      have hStmt : encode (.variable v) = (Phrase.variableStmt v).document := rfl
      rw [hStmt, Phrase.marks_document_eq_nodes]
      rfl

namespace CompilationUnit

/-- The marks in a unit are those of its phrases, in the order of the walk. -/
theorem marks_encode (u : CompilationUnit) : u.encode.marks = u.nodes.flatMap Node.marks := by
  have hSource := Json.marks_optionally Json.marks_text "source" u.source
  have hTag : List.lookup Json.tagKey ([("path", .text u.path)] ++
      optionally "source" (u.source.map Json.text) ++
      [("declarations", Json.list (u.declarations.map Declaration.encode))]) = none := by
    cases u.source <;> rfl
  have hDeclarations : (u.declarations.map Declaration.encode).flatMap Json.marks =
      (u.declarations.flatMap Declaration.nodes).flatMap Node.marks := by
    rw [List.flatMap_map, List.flatMap_assoc]
    exact List.flatMap_congr fun d _ => d.marks_encode
  refine (Json.marks_untagged hTag).trans ?_
  simp [hSource, Json.marks_list, nodes, hDeclarations]

/-- The walk through a unit announces each of its expressions, statements and patterns once, in
the order of the source, and it announces the identifiers, `this`, the calls and the property
accesses in the order in which the text of the unit has their objects. -/
theorem course_announces (u : CompilationUnit) :
    u.course.filter (·.isFor .expr) =
      ((u.nodes.filter (·.category = .expr)).map fun node => .node .expr node.phrase.span) ∧
    u.course.filter (·.isFor .stmt) =
      ((u.nodes.filter (·.category = .stmt)).map fun node => .node .stmt node.phrase.span) ∧
    u.course.filter (·.isFor .pattern) =
      ((u.nodes.filter (·.category = .pattern)).map fun node =>
        .node .pattern node.phrase.span) ∧
    u.course.filterMap Announcement.mark? = u.encode.objects.filterMap Json.mark? := by
  refine ⟨filter_course (by decide) u, filter_course (by decide) u, filter_course (by decide) u, ?_⟩
  have hOutside : ∀ hook span, hook.isOutside →
      Announcement.mark? (.node hook span) = none := by
    intro hook span hOutside
    cases hook <;> first | rfl | cases hOutside
  have hNodes := List.flatMap_congr fun (node : Node) (_ : node ∈ u.nodes) =>
    node.phrase.filterMap_announcements
  exact (filterMap_course hOutside (fun _ => rfl) u).trans (hNodes.trans u.marks_encode.symm)

end CompilationUnit
end SetupLint
