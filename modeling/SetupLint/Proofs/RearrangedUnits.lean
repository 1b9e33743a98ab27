import Mathlib.Logic.Relation
import SetupLint.Proofs.AddedMembers
import SetupLint.Proofs.Reencoding

/-! Texts of one unit. A text in which members have changed places, and in which nodes have got
members that they have no use for, stands for the same unit: neither a swap of two members nor a
member more makes a difference to the decoder, so no number of them does. -/
namespace SetupLint

open Json (Fault Place Reading Schema)

namespace CompilationUnit

/-- A tree with members that have changed places and members that have been added to nodes. -/
def Rearranged : Reading → Reading → Prop :=
  Relation.ReflTransGen fun reading reading' =>
    Json.Swapped reading reading' ∨ Extended decode reading reading'

/-- A unit is decoded alike from members in another order and with others added. -/
theorem Rearranged.decode_eq {reading reading' : Reading} (h : Rearranged reading reading')
    {place : Place} {u : CompilationUnit} (hDecode : decode place reading = .ok u) :
    decode place reading' = .ok u := by
  induction h with
  | refl => exact hDecode
  | tail _ hStep ih =>
      rcases hStep with hSwapped | hExtended
      · exact matches_decode place (Nat.lt_succ_self _) _ _ (.inr ⟨.inl trivial, hSwapped⟩) u ih
      · exact hExtended.decode_eq ih

/-- The members of a text may come in any order, and any node may have members that it has no use
for: the unit is the same. -/
theorem ofText_rearranged {t t' : String} {u : CompilationUnit} (hText : ofText t = .ok u)
    (hTree : Rearranged (Json.read t).1 (Json.read t').1) (hTrailing : (Json.read t').2 = false) :
    ofText t' = .ok u :=
  ofText_of_decode (hTree.decode_eq (decode_of_ofText hText).1) hTrailing

/-! A function whose body is the expression `this`. In its text the content of the body comes
first, and the expression says something about itself that nobody asks for. -/

/-- The function. -/
def thisUnit : CompilationUnit where
  path := "a"
  declarations :=
    [.function <| .functionDecl ⟨0, 9⟩ ⟨"f", .zero⟩ none .nil <|
      .body ⟨3, 9⟩ .sync <| .exprBody <| .this ⟨5, 9⟩]

/-- A span in the form of an array. -/
def spanItems {φ : Type} (start stop : Int) : Json φ .value :=
  .array <| .item (.number (.ofInt start)) <| .item (.number (.ofInt stop)) .noItems

/-- The function as a tree, around the kind of its body. -/
def thisTree {φ : Type} (kind : Json φ .members) : Json φ .value :=
  .object <|
    .member "declarations" (.array <| .item (.object <|
      .member "type" (.text "Function") <|
      .member "body" (.object <|
        .member "kind" (.object kind) <|
        .member "span" (spanItems 3 9) .noMembers) <|
      .member "name" (.array <| .item (.text "f") .noItems) <|
      .member "span" (spanItems 0 9) .noMembers) .noItems) <|
    .member "path" (.text "a") .noMembers

/-- A swap in the kind of the body is one in the function. -/
theorem swapped_thisTree {kind kind' : Json Fault .members} (h : Json.Swapped kind kind') :
    Json.Swapped (thisTree kind) (thisTree kind') :=
  .object <| .entryValue (.ok "declarations") _ <| .array <| .itemValue _ <| .object <|
    .entryRest (.ok "type") _ <| .entryValue (.ok "body") _ <| .object <|
    .entryValue (.ok "kind") _ <| .object h

/-- A member that is added within the kind of the body is one more in the function. -/
theorem extended_thisTree {kind kind' : Json Fault .members}
    (h : Extended (Phrase.decode .bodyKind) (.object kind) (.object kind')) :
    Extended decode (thisTree kind) (thisTree kind') := by
  have hKind : (PhraseDecoder.body Phrase.decode).fields.Has
      (PhraseDecoder.part Phrase.decode "kind" .bodyKind) ["span", "modifier"] :=
    .later _ <| .later _ <| .first _
  have hBody : ((PhraseDecoder.functionDecl Phrase.decode).map Declaration.function).fields.Has
      (PhraseDecoder.part Phrase.decode "body" .body) ["span", "name", "return_type", "params"] :=
    .later _ <| .later _ <| .later _ <| .later _ <| .first _
  obtain ⟨schema, hSchema, hDeclarations⟩ : ∃ schema : Schema CompilationUnit,
      decode = schema.decode ∧ schema.fields.Has
        (defaulted "declarations" (Json.Decode.list Declaration.decode) []) ["path", "source"] :=
    ⟨_, rfl, .later _ <| .later _ <| .first _⟩
  rw [hSchema]
  refine .recordField _ hDeclarations (by decide) <| .list [] .noItems <| .variant ?_ ?_ <|
    .recordField _ hBody ?_ <| .phrase (c := .body) rfl <| .recordField _ hKind (by decide) h
  · intro place index hTag
    cases hTag
    exact ⟨_, rfl⟩
  · simp [Json.keys, Json.tagKey]
  · decide

/-- The kind of the body before its content, around what stands behind the tag of that. -/
def kindFirst {φ : Type} (expression : Json φ .members) : Json φ .members :=
  .member "kind" (.text "Expression") <|
    .member "value" (.object <| .member "type" (.text "This") expression) .noMembers

/-- The content of the body before its kind. -/
def kindLast {φ : Type} (expression : Json φ .members) : Json φ .members :=
  .member "value" (.object <| .member "type" (.text "This") expression) <|
    .member "kind" (.text "Expression") .noMembers

/-- The expression with nothing but its span. -/
def bareThis {φ : Type} : Json φ .members := .member "span" (spanItems 5 9) .noMembers

/-- The expression with a member that is not used. -/
def notedThis {φ : Type} : Json φ .members := .member "note" (.bool true) bareThis

theorem extended_notedThis :
    Extended (Phrase.decode .bodyKind) (.object (kindFirst bareThis))
      (.object (kindFirst notedThis)) := by
  have hKind : Json.Picks (Json.Decode.choice ["Block", "Expression", "Empty"])
      Phrase.decode.bodyKinds (.text "Expression")
      (.holding fun place reading => (Phrase.decode .expr place reading).map .exprBody) := by
    intro place index hTag
    cases hTag
    exact ⟨_, rfl⟩
  have hThis : Json.Picks (Json.Decode.tag (Phrase.decode.exprs.map (·.1))) Phrase.decode.exprs
      (.text "This") (spanSchema .this) := by
    intro place index hTag
    cases hTag
    exact ⟨_, rfl⟩
  exact .phrase rfl <| .caseContent _ hKind <| .map _ <| .phrase (c := .expr) rfl <|
    .variant hThis (by decide) <| .recordMember (by decide) (.bool true)

theorem ofText_rearranged_this :
    let before := (thisTree (kindFirst bareThis)).pretty
    let after := (thisTree (kindLast notedThis)).pretty
    ofText before = .ok thisUnit ∧ Rearranged (Json.read before).1 (Json.read after).1 ∧
      (Json.read after).2 = false ∧ ofText after = .ok thisUnit := by
  intro before after
  have hSpan (start stop : Int) : (spanItems start stop).AllNumbers Numeral.IsWhole :=
    ⟨⟨start, rfl⟩, ⟨stop, rfl⟩, trivial⟩
  have hBefore : Json.read before = (thisTree (kindFirst bareThis), false) :=
    Json.read_pretty_of_whole <| by simp [thisTree, kindFirst, bareThis, Json.AllNumbers, hSpan]
  have hAfter : Json.read after = (thisTree (kindLast notedThis), false) :=
    Json.read_pretty_of_whole <| by
      simp [thisTree, kindLast, notedThis, bareThis, Json.AllNumbers, hSpan]
  have hText : ofText before = .ok thisUnit := by
    apply ofText_of_decode
    · rw [hBefore]
      decide +kernel
    · rw [hBefore]
  have hTree : Rearranged (Json.read before).1 (Json.read after).1 := by
    rw [hBefore, hAfter]
    refine .tail (.single (.inr (extended_thisTree extended_notedThis))) (.inl ?_)
    exact swapped_thisTree (.swap (.ok "kind") (.ok "value") _ _ _)
  have hTrailing : (Json.read after).2 = false := by rw [hAfter]
  exact ⟨hText, hTree, hTrailing, ofText_rearranged hText hTree hTrailing⟩

end CompilationUnit

end SetupLint
