import SetupLint.Text.Split
import SetupLint.Tree.Name

/-! The names that the rules look for: catalogs of names and the vocabulary of
the framework, built in and as extended by a configuration. -/
namespace SetupLint

open Json (Decoder Document RecordField Schema)

/-- A named set of texts. -/
structure Catalog where
  name : String
  entries : List String

namespace Catalog

def size (c : Catalog) : Nat := c.entries.eraseDups.length

def isEmpty (c : Catalog) : Bool := c.entries.isEmpty

def contains (c : Catalog) (value : String) : Bool := decide (value ∈ c.entries)

/-- Whether an entry is a prefix of `value`. -/
def hasPrefixOf (c : Catalog) (value : String) : Bool :=
  c.entries.any fun entry => entry.toList.isPrefixOf value.toList

/-- Whether an entry occurs in `value`. -/
def hasFragmentOf (c : Catalog) (value : String) : Bool :=
  c.entries.any fun entry => Text.contains entry.toList value.toList

/-- The different entries, ordered by code points. -/
def sorted (c : Catalog) : List String :=
  c.entries.eraseDups.mergeSort fun a b => decide (a ≤ b)

def extend (c : Catalog) (more : List String) : Catalog :=
  { c with entries := c.entries ++ more }

end Catalog

/-- The words of the framework. -/
structure Vocabulary where
  /-- The type whose direct subclasses are components. -/
  hostBase : String := "CompositionWidget"
  /-- The method that sets a component up. -/
  setupMethod : String := "setup"
  /-- The property that holds the value of a reactive wrapper. -/
  heldValue : String := "value"
  /-- The method that releases a resource. -/
  disposalMethod : String := "dispose"
  /-- The function that registers a callback for the end. -/
  cleanupRegistration : String := "onCleanup"
  /-- What the names of helpers that own a resource start with. -/
  helperPrefix : String := "use"
  /-- The property through which a component may read its own fields. -/
  selfLookup : String := "widget"
  provide : String := "provide"
  inject : String := "inject"
deriving DecidableEq, Inhabited

namespace Vocabulary

/-- A word that is replaced when it is present. -/
def wordField (name : String) (word : String) : RecordField String :=
  defaulted name Json.Decode.text word

def schema : Schema Vocabulary where
  fields :=
    let standard : Vocabulary := {}
    .cons (wordField "hostBase" standard.hostBase) <|
    .cons (wordField "setupMethod" standard.setupMethod) <|
    .cons (wordField "heldValue" standard.heldValue) <|
    .cons (wordField "disposalMethod" standard.disposalMethod) <|
    .cons (wordField "cleanupRegistration" standard.cleanupRegistration) <|
    .cons (wordField "helperPrefix" standard.helperPrefix) <|
    .cons (wordField "selfLookup" standard.selfLookup) <|
    .cons (wordField "provide" standard.provide) <|
    .cons (wordField "inject" standard.inject) .nil
  make := fun ⟨hostBase, setupMethod, heldValue, disposalMethod, cleanupRegistration,
      helperPrefix, selfLookup, provide, inject, _⟩ =>
    { hostBase, setupMethod, heldValue, disposalMethod, cleanupRegistration, helperPrefix,
      selfLookup, provide, inject }

def encode (v : Vocabulary) : Document :=
  Json.record
    [("hostBase", .text v.hostBase), ("setupMethod", .text v.setupMethod),
     ("heldValue", .text v.heldValue), ("disposalMethod", .text v.disposalMethod),
     ("cleanupRegistration", .text v.cleanupRegistration),
     ("helperPrefix", .text v.helperPrefix), ("selfLookup", .text v.selfLookup),
     ("provide", .text v.provide), ("inject", .text v.inject)]

end Vocabulary

/-- What a configuration adds to the catalogs. -/
structure CatalogExtensions where
  compositionPrimitives : List String := []
  disposablePrefixes : List String := []
  mutatingMethods : List String := []
  primitiveTypes : List String := []
  wrapperTypes : List String := []
  resourceKeywords : List String := []
  /-- Takes the place of the whole vocabulary. -/
  vocabulary : Option Vocabulary := none
deriving DecidableEq, Inhabited

namespace CatalogExtensions

/-- Names that may be absent. -/
def namesField (name : String) : RecordField (List String) :=
  defaulted name (Json.Decode.list Json.Decode.text) []

def schema : Schema CatalogExtensions where
  fields :=
    .cons (namesField "compositionPrimitives") <|
    .cons (namesField "disposablePrefixes") <|
    .cons (namesField "mutatingMethods") <|
    .cons (namesField "primitiveTypes") <|
    .cons (namesField "wrapperTypes") <|
    .cons (namesField "resourceKeywords") <|
    .cons (optional "vocabulary" Vocabulary.schema.decode) .nil
  make := fun ⟨compositionPrimitives, disposablePrefixes, mutatingMethods, primitiveTypes,
      wrapperTypes, resourceKeywords, vocabulary, _⟩ =>
    { compositionPrimitives, disposablePrefixes, mutatingMethods, primitiveTypes, wrapperTypes,
      resourceKeywords, vocabulary }

def encode (e : CatalogExtensions) : Document :=
  let names (texts : List String) : Document := Json.list (texts.map .text)
  Json.record <|
    [("compositionPrimitives", names e.compositionPrimitives),
     ("disposablePrefixes", names e.disposablePrefixes),
     ("mutatingMethods", names e.mutatingMethods),
     ("primitiveTypes", names e.primitiveTypes),
     ("wrapperTypes", names e.wrapperTypes),
     ("resourceKeywords", names e.resourceKeywords)] ++
      optionally "vocabulary" (e.vocabulary.map Vocabulary.encode)

end CatalogExtensions

/-- All catalogs and the vocabulary. -/
structure Catalogs where
  vocabulary : Vocabulary := {}
  /-- Functions that make reactive state, effects and hooks. -/
  compositionPrimitives : Catalog :=
    ⟨"composition-primitives",
     ["state", "derived", "writableDerived", "readonly", "customState", "hotState", "watch",
      "watchEffect", "onMounted", "onUnmounted", "onCleanup", "onBuild", "provide", "inject",
      "useContext", "useScrollController", "usePageController", "useFocusNode",
      "useTextEditingController", "useAnimationController", "useTabController", "useStream",
      "useFuture", "useAsyncData"]⟩
  /-- What the names of types start with that have to be disposed of. -/
  disposablePrefixes : Catalog :=
    ⟨"disposable-prefixes",
     ["ResourceController", "ScrollController", "TextEditingController", "AnimationController",
      "TabController", "PageController", "FocusNode", "StreamController", "StreamSubscription",
      "Timer"]⟩
  /-- Methods that change their receiver. -/
  mutatingMethods : Catalog :=
    ⟨"mutating-methods",
     ["add", "addAll", "addEntries", "insert", "insertAll", "remove", "removeAt", "removeLast",
      "removeRange", "removeWhere", "retainWhere", "clear", "sort", "shuffle", "fillRange",
      "setAll", "setRange", "replaceRange", "putIfAbsent", "update", "updateAll"]⟩
  /-- Types that are too common to be the key of a dependency. -/
  primitiveTypes : Catalog :=
    ⟨"primitive-types",
     ["String", "int", "double", "bool", "num", "List", "Map", "Set", "dynamic", "Object"]⟩
  /-- Types of reactive wrappers. -/
  wrapperTypes : Catalog :=
    ⟨"wrapper-types", ["State", "ReadonlyState", "Derived", "WritableDerived"]⟩
  /-- Words in the names of helpers that own a resource. -/
  resourceKeywords : Catalog :=
    ⟨"resource-keywords", ["Controller", "FocusNode", "Subscription", "Timer", "Stream"]⟩

namespace Catalogs

def builtin : Catalogs := {}

def extended (e : CatalogExtensions) : Catalogs where
  vocabulary := e.vocabulary.getD builtin.vocabulary
  compositionPrimitives := builtin.compositionPrimitives.extend e.compositionPrimitives
  disposablePrefixes := builtin.disposablePrefixes.extend e.disposablePrefixes
  mutatingMethods := builtin.mutatingMethods.extend e.mutatingMethods
  primitiveTypes := builtin.primitiveTypes.extend e.primitiveTypes
  wrapperTypes := builtin.wrapperTypes.extend e.wrapperTypes
  resourceKeywords := builtin.resourceKeywords.extend e.resourceKeywords

def all (c : Catalogs) : List Catalog :=
  [c.compositionPrimitives, c.disposablePrefixes, c.mutatingMethods, c.primitiveTypes,
   c.wrapperTypes, c.resourceKeywords]

/-- Whether a function of this name is a helper that owns the resource it makes. -/
def isResourceHelper (c : Catalogs) (callee : String) : Bool :=
  c.vocabulary.helperPrefix.toList.isPrefixOf callee.toList &&
    c.resourceKeywords.hasFragmentOf callee

end Catalogs
end SetupLint
