import SetupLint.Json.Printer
import SetupLint.Tree.Decoding

/-! Classes, their members and the other declarations of a source file, and the
unit that such a file is handed over as. -/
namespace SetupLint

open Json (Decoder Document Schema)

/-- A field of a class. It may declare several variables. -/
structure FieldDecl where
  span : Span
  keywords : List Keyword
  type : Option TypeRef
  /-- The variables, each with its initial value. -/
  declared : Phrase (.list .declarator)
deriving DecidableEq

/-- A method of a class, or a getter, setter or operator. -/
structure MethodDecl where
  span : Span
  name : Name
  kind : MethodKind
  keywords : List Keyword
  returnType : Option TypeRef
  params : Phrase (.list .param)
  body : Body
deriving DecidableEq

structure ConstructorDecl where
  span : Span
  name : Option Name
  isConst : Bool
  params : Phrase (.list .param)
  initializers : Phrase (.list .expr)
  body : Body
deriving DecidableEq

inductive Member where
  | field (decl : FieldDecl)
  | method (decl : MethodDecl)
  | constructor (decl : ConstructorDecl)
deriving DecidableEq

structure ClassDecl where
  span : Span
  name : Name
  superclass : Option TypeRef
  isAbstract : Bool
  members : List Member
deriving DecidableEq

/-- A declaration at the top level of a file. -/
inductive Declaration where
  | class (decl : ClassDecl)
  | function (decl : FunctionDecl)
  | variable (decl : VariableDecl)
deriving DecidableEq

/-- A source file, resolved. Its path is the path of the source file. -/
structure CompilationUnit where
  path : String
  source : Option String := none
  declarations : List Declaration := []
deriving DecidableEq

namespace FieldDecl

/-- Whether the field belongs to the class and not to its instances. -/
def isStatic (f : FieldDecl) : Bool := (Keyword.find? .staticWord f.keywords).isSome

/-- Whether the field is final or constant. -/
def isImmutable (f : FieldDecl) : Bool :=
  (Keyword.find? .finalWord f.keywords).isSome || (Keyword.find? .constWord f.keywords).isSome

def schema : Schema FieldDecl :=
  tripleSchema keywordsField (optionalType "ty")
    (required "variables" (Phrase.decode (.list .declarator))) .mk

def encode (f : FieldDecl) : Json Empty .members :=
  untagged <| [spanMember f.span, keywordsMember f.keywords] ++ typeMember "ty" f.type ++
    [("variables", f.declared.document)]

end FieldDecl

namespace MethodDecl

def isStatic (m : MethodDecl) : Bool := (Keyword.find? .staticWord m.keywords).isSome

def schema : Schema MethodDecl where
  fields :=
    .cons spanField <|
    .cons (nameField "name") <|
    .cons (defaulted "kind" Worded.decode .method) <|
    .cons keywordsField <|
    .cons (optionalType "return_type") <|
    .cons (PhraseDecoder.parts Phrase.decode "params" .param) <|
    .cons (PhraseDecoder.part Phrase.decode "body" .body) .nil
  make := fun ⟨span, name, kind, keywords, returnType, params, body, _⟩ =>
    ⟨span, name, kind, keywords, returnType, params, body⟩

def encode (m : MethodDecl) : Json Empty .members :=
  untagged <| [spanMember m.span, ("name", m.name.encode), ("kind", Worded.encode m.kind),
    keywordsMember m.keywords] ++ typeMember "return_type" m.returnType ++
    [("params", m.params.document), ("body", m.body.document)]

end MethodDecl

namespace ConstructorDecl

def schema : Schema ConstructorDecl where
  fields :=
    .cons spanField <|
    .cons (optionalName "name") <|
    .cons (flag "is_const") <|
    .cons (PhraseDecoder.parts Phrase.decode "params" .param) <|
    .cons (PhraseDecoder.parts Phrase.decode "initializers" .expr) <|
    .cons (PhraseDecoder.part Phrase.decode "body" .body) .nil
  make := fun ⟨span, name, isConst, params, initializers, body, _⟩ =>
    ⟨span, name, isConst, params, initializers, body⟩

def encode (k : ConstructorDecl) : Json Empty .members :=
  untagged <| [spanMember k.span] ++ nameMember "name" k.name ++
    [flagMember "is_const" k.isConst, ("params", k.params.document),
     ("initializers", k.initializers.document), ("body", k.body.document)]

end ConstructorDecl

namespace Member

def span : Member → Span
  | .field f => f.span
  | .method m => m.span
  | .constructor k => k.span

def decode : Decoder Member :=
  Json.tagged
    [("Field", FieldDecl.schema.map .field),
     ("Method", MethodDecl.schema.map .method),
     ("Constructor", ConstructorDecl.schema.map .constructor)]

def encode : Member → Document
  | .field f => .object (.member Json.tagKey (.text "Field") f.encode)
  | .method m => .object (.member Json.tagKey (.text "Method") m.encode)
  | .constructor k => .object (.member Json.tagKey (.text "Constructor") k.encode)

def asField? : Member → Option FieldDecl
  | .field f => some f
  | _ => none

def asMethod? : Member → Option MethodDecl
  | .method m => some m
  | _ => none

end Member

namespace ClassDecl

def superclassName (c : ClassDecl) : Option String := c.superclass.map TypeRef.simpleName

def fields (c : ClassDecl) : List FieldDecl := c.members.filterMap Member.asField?

def methods (c : ClassDecl) : List MethodDecl := c.members.filterMap Member.asMethod?

/-- The first plain method of the instances with a given name. -/
def instanceMethod? (c : ClassDecl) (name : String) : Option MethodDecl :=
  c.methods.find? fun m => !m.isStatic && m.kind = .method && m.name.text = name

def schema : Schema ClassDecl :=
  fourfoldSchema (nameField "name") (optionalType "superclass") (flag "is_abstract")
    (defaulted "members" (Json.Decode.list Member.decode) []) .mk

def encode (c : ClassDecl) : Json Empty .members :=
  untagged <| [spanMember c.span, ("name", c.name.encode)] ++
    typeMember "superclass" c.superclass ++
    [flagMember "is_abstract" c.isAbstract, ("members", Json.list (c.members.map Member.encode))]

end ClassDecl

namespace Declaration

def span : Declaration → Span
  | .class c => c.span
  | .function f => f.span
  | .variable v => v.span

def asClass? : Declaration → Option ClassDecl
  | .class c => some c
  | _ => none

def decode : Decoder Declaration :=
  Json.tagged
    [("Class", ClassDecl.schema.map .class),
     ("Function", (PhraseDecoder.functionDecl Phrase.decode).map .function),
     ("Variable", (PhraseDecoder.variableDecl Phrase.decode).map .variable)]

def encode : Declaration → Document
  | .class c => .object (.member Json.tagKey (.text "Class") c.encode)
  | .function f => .object (.member Json.tagKey (.text "Function") f.encode)
  | .variable v => .object (.member Json.tagKey (.text "Variable") v.encode)

end Declaration

namespace CompilationUnit

def classes (u : CompilationUnit) : List ClassDecl :=
  u.declarations.filterMap Declaration.asClass?

def decode : Decoder CompilationUnit :=
  Schema.decode
    { fields :=
        .cons (required "path" Json.Decode.text) <|
        .cons (optional "source" Json.Decode.text) <|
        .cons (defaulted "declarations" (Json.Decode.list Declaration.decode) []) .nil
      make := fun ⟨path, source, declarations, _⟩ => ⟨path, source, declarations⟩ }

def encode (u : CompilationUnit) : Document :=
  Json.record <| [("path", .text u.path)] ++ optionally "source" (u.source.map .text) ++
    [("declarations", Json.list (u.declarations.map Declaration.encode))]

def ofText (text : String) : Except Json.DecodeError CompilationUnit := decode.run text

def text (u : CompilationUnit) : String := u.encode.pretty

/-- Whether the text of a unit stands for this unit. It does not when the text
nests too deeply, nor when a number in it does not read back. -/
def readsBack (u : CompilationUnit) : Bool :=
  match ofText u.text with
  | .ok v => u = v
  | .error _ => false

end CompilationUnit
end SetupLint
