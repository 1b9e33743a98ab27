import SetupLint.Proofs.RecordDecoding
import SetupLint.Tree.Decoding

/-! Reading back what the phrases of a tree carry: spans, names, types, keywords, resolutions
and literals. -/
namespace SetupLint

open Json (Decoder Document Reads RecordField RecordFields Schema someMembers)

instance : LawfulWorded SymbolKind where
  mem_all a := by cases a <;> decide
  nodup := by decide

instance : LawfulWorded KeywordKind where
  mem_all a := by cases a <;> decide
  nodup := by decide

instance : LawfulWorded MethodKind where
  mem_all a := by cases a <;> decide
  nodup := by decide

instance : LawfulWorded BodyModifier where
  mem_all a := by cases a <;> decide
  nodup := by decide

instance : LawfulWorded AssignOp where
  mem_all a := by cases a <;> decide
  nodup := by decide

instance : LawfulWorded UpdateOp where
  mem_all a := by cases a <;> decide
  nodup := by decide

instance : LawfulWorded UnaryOp where
  mem_all a := by cases a <;> decide
  nodup := by decide

instance : LawfulWorded TypeTestKind where
  mem_all a := by cases a <;> decide
  nodup := by decide

section Fields

variable {bound : Nat} {α : Type} {decode : Decoder α} {document : Document} {a : α}

/-- A field that must be present is written as one member. -/
theorem writes_required (name : String) (h : Reads bound decode document a) :
    (required name decode).Writes bound [(name, document)] a := .present h

/-- A field with a default is written even when it has the default. -/
theorem writes_defaulted (name : String) (value : α) (h : Reads bound decode document a) :
    (defaulted name decode value).Writes bound [(name, document)] a := .present h

/-- A value that is written only if there is one. -/
theorem writes_optional (name : String) {encode : α → Document} (a : Option α)
    (h : ∀ value, Reads bound decode (encode value) value) (hNull : ∀ value, encode value ≠ .null) :
    (optional name decode).Writes bound (optionally name (a.map encode)) a := by
  cases a with
  | none => exact .absent rfl
  | some value => exact .present ((h value).nullable (hNull value))

theorem writes_flag (bound : Nat) (name : String) (value : Bool) :
    (flag name).Writes bound [flagMember name value] value := .present (Json.reads_bool bound value)

theorem writes_word [Worded α] [LawfulWorded α] (bound : Nat) (name : String) (a : α) :
    (required name Worded.decode).Writes bound [(name, Worded.encode a)] a :=
  .present (Json.reads_word bound a)

/-- What is written as a record can be read wherever it stands. -/
theorem Json.Schema.Writes.reads_all {schema : Schema α} {members : List (String × Document)}
    (h : ∀ bound, schema.Writes bound members a) (hNames : schema.fields.names.Nodup)
    (bound : Nat) : Reads bound schema.decode (Json.record members) a :=
  ((h bound).reads hNames).mono (Nat.le_succ bound)

end Fields

/-- A span reads back. -/
theorem Span.reads (bound : Nat) (s : Span) : Reads bound Span.schema.decode s.encode s := by
  have hWrites (bound : Nat) : Span.schema.Writes bound
      [("start", Json.int s.start.toNat), ("end", Json.int s.stop.toNat)] s := by
    refine ⟨(s.start, s.stop, ()), ?_, rfl⟩
    exact .cons (.present (Json.reads_uint32 bound s.start)) <|
      .cons (.present (Json.reads_uint32 bound s.stop)) .nil
  exact Schema.Writes.reads_all hWrites (by decide) bound

theorem writes_span (bound : Nat) (s : Span) : spanField.Writes bound [spanMember s] s :=
  .present (s.reads bound)

theorem Name.reads (bound : Nat) (n : Name) : Reads bound Name.schema.decode n.encode n := by
  have hWrites (bound : Nat) : Name.schema.Writes bound
      [("name", .text n.text), ("span", n.span.encode)] n := by
    refine ⟨(n.text, n.span, ()), ?_, rfl⟩
    exact .cons (.present (Json.reads_text bound n.text)) <|
      .cons (.present (n.span.reads bound)) .nil
  exact Schema.Writes.reads_all hWrites (by decide) bound

theorem writes_name (bound : Nat) (key : String) (n : Name) :
    (nameField key).Writes bound [(key, n.encode)] n := .present (n.reads bound)

theorem writes_optionalName (bound : Nat) (key : String) (n : Option Name) :
    (optionalName key).Writes bound (nameMember key n) n :=
  writes_optional key n (Name.reads bound) nofun

theorem Keyword.reads (bound : Nat) (k : Keyword) :
    Reads bound Keyword.schema.decode k.encode k := by
  have hWrites (bound : Nat) : Keyword.schema.Writes bound
      [("kind", Worded.encode k.kind), ("span", k.span.encode)] k := by
    refine ⟨(k.kind, k.span, ()), ?_, rfl⟩
    exact .cons (writes_word bound "kind" k.kind) <| .cons (.present (k.span.reads bound)) .nil
  exact Schema.Writes.reads_all hWrites (by decide) bound

/-- A list can be read wherever it stands if its items can. -/
theorem Json.reads_list_all {α : Type} {decode : Decoder α} {encode : α → Document}
    {values : List α} (bound : Nat) (h : ∀ a ∈ values, Reads bound decode (encode a) a) :
    Reads bound (Json.Decode.list decode) (Json.list (values.map encode)) values :=
  (Json.reads_list h).mono (Nat.le_succ bound)

theorem writes_keywords (bound : Nat) (keywords : List Keyword) :
    keywordsField.Writes bound [keywordsMember keywords] keywords :=
  .present (Json.reads_list_all bound fun k _ => k.reads bound)

theorem Resolution.reads (bound : Nat) (r : Resolution) :
    Reads bound Resolution.schema.decode r.encode r := by
  have hWrites (bound : Nat) : Resolution.schema.Writes bound
      ([("kind", Worded.encode r.kind)] ++ (optionally "owner" (r.owner.map .text) ++
        [("is_static", .bool r.isStatic)])) r := by
    refine ⟨(r.kind, r.owner, r.isStatic, ()), ?_, rfl⟩
    exact .cons (writes_word bound "kind" r.kind) <|
      .cons (writes_optional "owner" r.owner (Json.reads_text bound) nofun) <|
      .cons (writes_flag bound "is_static" r.isStatic) .nil
  exact Schema.Writes.reads_all hWrites (by decide) bound

/-- A resolution that is missing is not written. -/
theorem writes_resolved (bound : Nat) (r : Option Resolution) :
    resolvedField.Writes bound (optionally "resolved" (r.map Resolution.encode)) r :=
  writes_optional "resolved" r (Resolution.reads bound) nofun

namespace TypeRef

theorem encodeAll_eq (ts : List TypeRef) : encodeAll ts = ts.map encode := by
  induction ts with
  | nil => rfl
  | cons t ts ih => rw [encodeAll, ih, List.map_cons]

/-- A type is read if its arguments are. -/
theorem reads_step {bound : Nat} {decodeArgs : Decoder (List TypeRef)} {span : Span}
    {name : String} {args : List TypeRef} {nullable : Bool}
    (h : Reads bound decodeArgs (Json.list (args.map encode)) args) :
    Reads (bound + 1) (schema decodeArgs).decode (encode ⟨span, name, args, nullable⟩)
      ⟨span, name, args, nullable⟩ := by
  have hNames : (schema decodeArgs).fields.names.Nodup :=
    (by decide : ["span", "name", "args", "nullable"].Nodup)
  have hWrites : (schema decodeArgs).Writes bound
      [("span", span.encode), ("name", .text name), ("args", Json.list (args.map encode)),
       ("nullable", .bool nullable)] ⟨span, name, args, nullable⟩ := by
    refine ⟨(span, name, args, nullable, ()), ?_, rfl⟩
    exact .cons (.present (span.reads bound)) <| .cons (.present (Json.reads_text bound name)) <|
      .cons (.present h) <| .cons (writes_flag bound "nullable" nullable) .nil
  rw [encode, encodeAll_eq]
  exact hWrites.reads hNames

mutual

/-- A type is read back with as much fuel as there is room. -/
theorem reads_nested : (t : TypeRef) → ∀ {bound fuel : Nat}, bound ≤ fuel →
    Reads bound (decodeNested fuel) t.encode t
  | ⟨span, name, args, nullable⟩, bound, fuel, hFuel => by
      have hStep {bound fuel : Nat} (hFuel : bound ≤ fuel) :
          Reads (bound + 1) (decodeNested (fuel + 1)) (encode ⟨span, name, args, nullable⟩)
            ⟨span, name, args, nullable⟩ :=
        reads_step (Json.reads_list_all bound (reads_nestedAll args hFuel))
      cases bound with
      | zero => exact ⟨(hStep (Nat.le_refl 0)).exact, nofun⟩
      | succ bound =>
          cases fuel with
          | zero => omega
          | succ fuel => exact hStep (Nat.le_of_succ_le_succ hFuel)

/-- The same for each of some types. -/
theorem reads_nestedAll : (ts : List TypeRef) → ∀ {bound fuel : Nat}, bound ≤ fuel →
    ∀ t ∈ ts, Reads bound (decodeNested fuel) t.encode t
  | [], _, _, _ => nofun
  | t :: ts, _, _, hFuel =>
      List.forall_mem_cons.mpr ⟨reads_nested t hFuel, reads_nestedAll ts hFuel⟩

end

/-- A type reads back, however deep its arguments nest. -/
theorem reads (bound : Nat) (t : TypeRef) : Reads bound decode t.encode t where
  exact := (reads_nested t (Nat.le_refl 0)).exact
  decode place _ :=
    (reads_nested t (Nat.le_refl (place.room + 1))).decode place place.room.lt_succ_self

/-- No type is written as `null`, so one that is missing can be told. -/
theorem encode_ne_null (t : TypeRef) : t.encode ≠ .null := by
  cases t
  rw [encode]
  nofun

end TypeRef

theorem writes_type (bound : Nat) (key : String) (t : TypeRef) :
    (required key TypeRef.decode).Writes bound [(key, t.encode)] t := .present (t.reads bound)

theorem writes_optionalType (bound : Nat) (key : String) (t : Option TypeRef) :
    (optionalType key).Writes bound (typeMember key t) t :=
  writes_optional key t (TypeRef.reads bound) TypeRef.encode_ne_null

theorem writes_types (bound : Nat) (key : String) (types : List TypeRef) :
    (typesField key).Writes bound [typesMember key types] types := by
  rw [typesMember, TypeRef.encodeAll_eq]
  exact .present (Json.reads_list_all bound fun t _ => t.reads bound)

/-- A literal is read back, unless it is a double: the text of a double may stand for another. -/
theorem LiteralValue.reads (bound : Nat) (value : LiteralValue) (h : ∀ d, value ≠ .double d) :
    Reads bound LiteralValue.decode value.encode value := by
  suffices hRead : Reads (bound + 1) LiteralValue.decode value.encode value from
    hRead.mono (Nat.le_succ bound)
  cases value with
  | null => exact Json.reads_paired_bare rfl
  | bool b => exact ((Json.reads_bool bound b).map LiteralValue.bool).paired rfl
  | int i => exact ((Json.reads_int64 bound i).map LiteralValue.int).paired rfl
  | double d => exact absurd rfl (h d)
  | text s => exact ((Json.reads_text bound s).map LiteralValue.text).paired rfl
  | symbol s => exact ((Json.reads_text bound s).map LiteralValue.symbol).paired rfl

end SetupLint
