import SetupLint.Proofs.JsonNesting
import SetupLint.Proofs.PhraseDecoding
import SetupLint.Tree.Walk

/-! Reading back units. A unit without doubles is read back from its text as it was written, as
long as the text does not nest too deeply, and a text that does is taken for malformed. -/
namespace SetupLint

open Json (Decoder Document Reads RecordField RecordFields Schema someMembers)

/-- The doubles among the literals of a unit. -/
def CompilationUnit.doubles (u : CompilationUnit) : List Double := u.walk .doubles ()

section Parts

variable {bound : Nat} {c : Category}

/-- A phrase without doubles is read wherever it stands. -/
theorem Phrase.readBy_decode {p : Phrase c} (h : p.walk .doubles () = [])
    (hNode : c.item.isNode) (bound : Nat) : p.ReadBy bound Phrase.decode := by
  have hRead (room : Nat) : p.ReadBy (room + 1) (PhraseDecoder.nested (2 * room + 2)) :=
    readBy_of_legible (legible p h) hNode (by omega)
  cases c with
  | option d =>
      intro value hValue
      exact ⟨(hRead 0 value hValue).exact, fun place _ =>
        (hRead place.room value hValue).decode place place.room.lt_succ_self⟩
  | _ => exact ⟨(hRead 0).exact, fun place _ =>
      (hRead place.room).decode place place.room.lt_succ_self⟩

/-- What a phrase without doubles contains is read wherever it stands. -/
theorem Phrase.contents_readBy_decode {p : Phrase c} (hNode : c.isNode)
    (hParts : p.contents = p.parts) (h : p.walk .doubles () = []) (bound : Nat) :
    p.parts.Forall fun part => part.phrase.ReadBy bound Phrase.decode := by
  refine List.forall_iff_forall_mem.mpr fun part hPart => ?_
  exact readBy_decode (doubles_parts h part hPart)
    (isNode_contents p hNode part (hParts ▸ hPart)) bound

end Parts

/-- A field without doubles writes its members. -/
theorem FieldDecl.writes (bound : Nat) (f : FieldDecl) (h : f.declared.walk .doubles () = []) :
    ∃ members, f.encode = someMembers members ∧ FieldDecl.schema.Writes bound members f := by
  have hDeclared := writes_required "variables" (Phrase.readBy_decode h rfl bound)
  exact ⟨_, rfl, writes_three f.span FieldDecl.mk (writes_keywords bound f.keywords)
    (writes_optionalType bound "ty" f.type) hDeclared⟩

theorem MethodDecl.writes (bound : Nat) (m : MethodDecl) (hParams : m.params.walk .doubles () = [])
    (hBody : m.body.walk .doubles () = []) :
    ∃ members, m.encode = someMembers members ∧ MethodDecl.schema.Writes bound members m := by
  have hKind := writes_defaulted "kind" MethodKind.method (Json.reads_word bound m.kind)
  have hFields := RecordFields.Writes.cons (writes_span bound m.span) <|
    .cons (writes_name bound "name" m.name) <|
    .cons hKind <|
    .cons (writes_keywords bound m.keywords) <|
    .cons (writes_optionalType bound "return_type" m.returnType) <|
    .cons (Phrase.writes_parts "params" (Phrase.readBy_decode hParams rfl bound)) <|
    .last (Phrase.writes_part "body" (Phrase.readBy_decode hBody rfl bound))
  exact ⟨_, rfl, _, hFields, rfl⟩

theorem ConstructorDecl.writes (bound : Nat) (k : ConstructorDecl)
    (hParams : k.params.walk .doubles () = []) (hInit : k.initializers.walk .doubles () = [])
    (hBody : k.body.walk .doubles () = []) :
    ∃ members, k.encode = someMembers members ∧ ConstructorDecl.schema.Writes bound members k := by
  have hFields := RecordFields.Writes.cons (writes_span bound k.span) <|
    .cons (writes_optionalName bound "name" k.name) <|
    .cons (writes_flag bound "is_const" k.isConst) <|
    .cons (Phrase.writes_parts "params" (Phrase.readBy_decode hParams rfl bound)) <|
    .cons (Phrase.writes_parts "initializers" (Phrase.readBy_decode hInit rfl bound)) <|
    .last (Phrase.writes_part "body" (Phrase.readBy_decode hBody rfl bound))
  exact ⟨_, rfl, _, hFields, rfl⟩

/-- A member of a class is read back. -/
theorem Member.reads (bound : Nat) (m : Member) (h : m.walk .doubles () = []) :
    Reads bound Member.decode m.encode m := by
  have hNames : ∀ names ∈ fieldNames [("Field", FieldDecl.schema.map Member.field),
      ("Method", MethodDecl.schema.map .method),
      ("Constructor", ConstructorDecl.schema.map .constructor)],
      (Json.tagKey :: names).Nodup := by decide
  suffices hRead : Reads (bound + 1) Member.decode m.encode m from hRead.mono (Nat.le_succ bound)
  cases m with
  | field f =>
      obtain ⟨members, hEncode, hWrites⟩ := f.writes bound h
      have hRead := reads_variant hNames "Field" (hWrites.map Member.field) rfl
      rw [Member.encode, hEncode]
      exact hRead
  | method m =>
      obtain ⟨hParams, hBody⟩ := List.append_eq_nil_iff.mp h
      obtain ⟨members, hEncode, hWrites⟩ := m.writes bound hParams hBody
      have hRead := reads_variant hNames "Method" (hWrites.map Member.method) rfl
      rw [Member.encode, hEncode]
      exact hRead
  | constructor k =>
      obtain ⟨hParams, hRest⟩ := List.append_eq_nil_iff.mp h
      obtain ⟨hInit, hBody⟩ := List.append_eq_nil_iff.mp hRest
      obtain ⟨members, hEncode, hWrites⟩ := k.writes bound hParams hInit hBody
      have hRead := reads_variant hNames "Constructor" (hWrites.map Member.constructor) rfl
      rw [Member.encode, hEncode]
      exact hRead

/-- A class without doubles writes its members. -/
theorem ClassDecl.writes (bound : Nat) (c : ClassDecl)
    (h : ∀ m ∈ c.members, m.walk .doubles () = []) :
    ∃ members, c.encode = someMembers members ∧ ClassDecl.schema.Writes bound members c := by
  have hMembers := writes_defaulted "members" []
    (Json.reads_list_all bound fun m hm => Member.reads bound m (h m hm))
  exact ⟨_, rfl, writes_four c.span ClassDecl.mk (writes_name bound "name" c.name)
    (writes_optionalType bound "superclass" c.superclass)
    (writes_flag bound "is_abstract" c.isAbstract) hMembers⟩

/-- A declaration is read back. -/
theorem Declaration.reads (bound : Nat) (d : Declaration) (h : d.walk .doubles () = []) :
    Reads bound Declaration.decode d.encode d := by
  have hNames : ∀ names ∈ fieldNames [("Class", ClassDecl.schema.map Declaration.class),
      ("Function", (PhraseDecoder.functionDecl Phrase.decode).map .function),
      ("Variable", (PhraseDecoder.variableDecl Phrase.decode).map .variable)],
      (Json.tagKey :: names).Nodup := by decide
  suffices hRead : Reads (bound + 1) Declaration.decode d.encode d from
    hRead.mono (Nat.le_succ bound)
  cases d with
  | «class» c =>
      obtain ⟨members, hEncode, hWrites⟩ := c.writes bound (List.flatMap_eq_nil_iff.mp h)
      have hRead := reads_variant hNames "Class" (hWrites.map Declaration.class) rfl
      rw [Declaration.encode, hEncode]
      exact hRead
  | function f =>
      have hParts := Phrase.contents_readBy_decode rfl (by cases f; rfl) h bound
      obtain ⟨members, hEncode, hWrites⟩ := Phrase.writes_functionDecl f hParts
      have hRead := reads_variant hNames "Function" (hWrites.map Declaration.function) rfl
      rw [Declaration.encode, hEncode]
      exact hRead
  | «variable» v =>
      have hParts := Phrase.contents_readBy_decode rfl (by cases v; rfl) h bound
      obtain ⟨members, hEncode, hWrites⟩ := Phrase.writes_variableDecl v hParts
      have hRead := reads_variant hNames "Variable" (hWrites.map Declaration.variable) rfl
      rw [Declaration.encode, hEncode]
      exact hRead

namespace CompilationUnit

variable {u : CompilationUnit}

/-- A unit without doubles reads back from its document. -/
theorem reads (bound : Nat) (h : u.doubles = []) :
    Reads bound CompilationUnit.decode u.encode u := by
  suffices hRead : Reads (bound + 1) CompilationUnit.decode u.encode u from
    hRead.mono (Nat.le_succ bound)
  have hDeclarations := writes_defaulted "declarations" [] <|
    Json.reads_list_all bound fun d hd =>
      Declaration.reads bound d (List.flatMap_eq_nil_iff.mp h d hd)
  have hSource := writes_optional "source" u.source (Json.reads_text bound) nofun
  have hFields := RecordFields.Writes.cons
    (writes_required "path" (Json.reads_text bound u.path)) (.cons hSource (.last hDeclarations))
  exact Schema.Writes.reads ⟨(u.path, u.source, u.declarations, ()), hFields, rfl⟩
    (by decide : ["path", "source", "declarations"].Nodup)

/-- The text of a unit nests as deeply as its document. -/
theorem nesting_text (h : u.doubles = []) : Json.nesting u.text = u.encode.depth :=
  Json.nesting_pretty (reads 0 h).exact

/-- The text of a unit without doubles stands for this unit, unless there is a point in it where
more arrays and objects are open than may be. -/
theorem ofText_text (u : CompilationUnit) (h : u.doubles = []) :
    ofText u.text =
      if Json.nesting u.text ≤ Json.maxDepth then .ok u else .error .malformed := by
  have hReads := reads (Json.maxDepth + 1) h
  have hDecode := hReads.decode ⟨Json.maxDepth, false⟩ (Nat.lt_succ_self _)
  have hText : Json.read u.text = (u.encode.asRead, false) := Json.read_pretty hReads.exact
  rw [nesting_text h, ofText, Decoder.run, hText]
  by_cases hFits : u.encode.depth ≤ Json.maxDepth
  · rw [Json.fitting_of_le hFits] at hDecode
    simp [hDecode, hFits]
  · rw [Json.fitting_of_lt (Nat.lt_of_not_le hFits)] at hDecode
    simp [hDecode, hFits]

/-- A function that returns a text with a quote in it, inside some pairs of parentheses. -/
def quoting (pairs : Nat) : CompilationUnit :=
  let text : Expr := .literal .zero (.text "\"")
  let wrapped : Expr := Nat.repeat (Phrase.paren .zero) pairs text
  { path := "lib/quote.dart"
    declarations := [.function
      (.functionDecl .zero ⟨"quote", .zero⟩ none .nil (.body .zero .sync (.exprBody wrapped)))] }

/-- The last depth that is read, and the first that is not. -/
theorem ofText_text_quoting :
    (quoting 120).doubles = [] ∧ ofText (quoting 120).text = .ok (quoting 120) ∧
      (quoting 121).doubles = [] ∧ ofText (quoting 121).text = .error .malformed := by
  have hFits : (quoting 120).doubles = [] := by decide +kernel
  have hDeep : (quoting 121).doubles = [] := by decide +kernel
  refine ⟨hFits, ?_, hDeep, ?_⟩
  · rw [ofText_text _ hFits, if_pos]
    rw [nesting_text hFits]
    decide +kernel
  · rw [ofText_text _ hDeep, if_neg]
    rw [nesting_text hDeep]
    decide +kernel

end CompilationUnit
end SetupLint
