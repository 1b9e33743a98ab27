import Mathlib.Algebra.BigOperators.Group.Multiset.Basic
import SetupLint.Proofs.BuiltNodes

/-! The spans of what is built. Each span that is handed out is put at one place of one tree, so
what the trees carry that were built is just what was handed out, in whatever order they were
built. -/
namespace SetupLint

/-- The spans of what a draft becomes, in no order. -/
def DraftKind.carried : (k : DraftKind) → k.Built → Multiset Span
  | .expr => Phrase.carried
  | .stmt => Phrase.carried
  | .pattern => Phrase.carried
  | .body => Phrase.carried
  | .bodyKind => Phrase.carried
  | .argument => Phrase.carried
  | .type => TypeRef.carried
  | .arm => Fresh.armCarried
  | .member => Member.carried
  | .declaration => Declaration.carried
  | .list k => fun built => (built.map k.carried).sum
  | .option k => fun built => (built.toList.map k.carried).sum

namespace Sketch

open Fresh

variable {Ready : DraftKind → Type} {k : DraftKind}

/-- The parts of a sketch that are there already, in their order. -/
def readyParts : {k : DraftKind} → Sketch Ready k → List (Sigma Ready)
  | k, .ready part => [⟨k, part⟩]
  | _, .listLiteral elements => elements.readyParts
  | _, .spread operand => operand.readyParts
  | _, .property target _ => target.readyParts
  | _, .index target position => target.readyParts ++ position.readyParts
  | _, .call target _ typeArgs args _ =>
    target.readyParts ++ typeArgs.readyParts ++ args.readyParts
  | _, .create _ args => args.readyParts
  | _, .arrow _ result => result.readyParts
  | _, .closure _ statements => statements.readyParts
  | _, .assign _ target value => target.readyParts ++ value.readyParts
  | _, .update _ operand => operand.readyParts
  | _, .conditional test consequent alternate =>
    test.readyParts ++ consequent.readyParts ++ alternate.readyParts
  | _, .binary _ left right => left.readyParts ++ right.readyParts
  | _, .unary _ operand => operand.readyParts
  | _, .await operand => operand.readyParts
  | _, .paren expression => expression.readyParts
  | _, .cascade target sections => target.readyParts ++ sections.readyParts
  | _, .expressionStmt expression => expression.readyParts
  | _, .localStmt _ _ init => init.readyParts
  | _, .patternStmt pattern init => pattern.readyParts ++ init.readyParts
  | _, .blockStmt statements => statements.readyParts
  | _, .ifStmt test consequent alternate =>
    test.readyParts ++ consequent.readyParts ++ alternate.readyParts
  | _, .forInStmt _ iterable statements => iterable.readyParts ++ statements.readyParts
  | _, .whileStmt test statements => test.readyParts ++ statements.readyParts
  | _, .switchStmt discriminant arms default =>
    discriminant.readyParts ++ arms.readyParts ++ default.readyParts
  | _, .returnStmt operand => operand.readyParts
  | _, .arm constant statements => constant.readyParts ++ statements.readyParts
  | _, .body _ kind => kind.readyParts
  | _, .blockBody statements => statements.readyParts
  | _, .exprBody expression => expression.readyParts
  | _, .positional value => value.readyParts
  | _, .named _ value => value.readyParts
  | _, .type _ args => args.readyParts
  | _, .field _ _ _ init => init.readyParts
  | _, .method _ _ inner => inner.readyParts
  | _, .function _ inner => inner.readyParts
  | _, .classDecl _ _ members => members.readyParts
  | _, .cons head tail => head.readyParts ++ tail.readyParts
  | _, .some value => value.readyParts
  | _, _ => []

section Build

variable (built : {k : DraftKind} → Ready k → k.Built)

/-- The spans of parts that are there already. -/
def carriedBy (parts : List (Sigma Ready)) : Multiset Span :=
  (parts.map fun part => part.1.carried (built part.2)).sum

/-- Parts one behind another carry what each of them carries. -/
theorem carriedBy_append (first second : List (Sigma Ready)) :
    carriedBy built (first ++ second) = carriedBy built first + carriedBy built second := by
  rw [carriedBy, List.map_append, List.sum_append, carriedBy, carriedBy]

variable {built} {α β γ δ : Type} {first : Fresh α} {second : Fresh β} {third : Fresh γ}
  {ca : α → Multiset Span} {cb : β → Multiset Span} {cc : γ → Multiset Span}
  {cd : δ → Multiset Span} {l m n : List (Sigma Ready)}

/-- Two parts are built, and both go into what comes next. -/
theorem places_two {last : α → β → Fresh δ} (hFirst : Places first ca (carriedBy built l))
    (hSecond : Places second cb (carriedBy built m))
    (hLast : ∀ a b, Places (last a b) cd (ca a + cb b)) :
    Places (first >>= fun a => second >>= last a) cd (carriedBy built (l ++ m)) := by
  rw [carriedBy_append]
  exact hFirst.bind_both hSecond hLast

/-- Three parts are built, and all of them go into what comes next. -/
theorem places_three {last : α → β → γ → Fresh δ} (hFirst : Places first ca (carriedBy built l))
    (hSecond : Places second cb (carriedBy built m))
    (hThird : Places third cc (carriedBy built n))
    (hLast : ∀ a b c, Places (last a b c) cd (ca a + cb b + cc c)) :
    Places (first >>= fun a => second >>= fun b => third >>= last a b) cd
      (carriedBy built (l ++ m ++ n)) := by
  rw [carriedBy_append, carriedBy_append]
  exact hFirst.bind_three hSecond hThird hLast

variable (built) in
/-- A sketch is built of new spans around the parts that are there, and what it becomes carries
each of the new spans and each of the parts once. -/
theorem places_build (d : Sketch Ready k) :
    Places (d.build built) k.carried (carriedBy built d.readyParts) := by
  induction d with
  | ready part => exact places_pure List.sum_singleton.symm
  | identifier name resolved => exact places_leaf (fun _ => rfl) fun _ => rfl
  | this => exact places_leaf (fun _ => rfl) fun _ => rfl
  | literal value => exact places_leaf (fun _ => rfl) fun _ => rfl
  | listLiteral elements ih => exact ih.bind_all fun elements => places_listLiteral elements
  | spread operand ih => exact ih.bind_all fun _ => places_single (fun _ => rfl) fun _ => rfl
  | property target name ih => exact ih.bind_all fun target => places_property target name
  | index target position ihTarget ihPosition =>
      exact places_two ihTarget ihPosition fun _ _ => places_pair (fun _ => rfl) fun _ => rfl
  | call target method typeArgs args resolved ihTarget ihTypes ihArgs =>
      exact places_three ihTarget ihTypes ihArgs fun target typeArgs args =>
        places_call target method typeArgs args resolved
  | create type args ih => exact ih.bind_all fun args => places_create type args
  | arrow params result ih => exact ih.bind_all fun result => places_arrow params result
  | closure params statements ih =>
      exact ih.bind_all fun statements => places_closure params statements
  | assign operator target value ihTarget ihValue =>
      exact places_two ihTarget ihValue fun _ _ => places_pair (fun _ => rfl) fun _ => rfl
  | update operator operand ih =>
      exact ih.bind_all fun _ => places_single (fun _ => rfl) fun _ => rfl
  | conditional test consequent alternate ihTest ihConsequent ihAlternate =>
      exact places_three ihTest ihConsequent ihAlternate places_conditional
  | binary operator left right ihLeft ihRight =>
      exact places_two ihLeft ihRight fun _ _ => places_pair (fun _ => rfl) fun _ => rfl
  | unary operator operand ih =>
      exact ih.bind_all fun _ => places_single (fun _ => rfl) fun _ => rfl
  | await operand ih => exact ih.bind_all fun _ => places_single (fun _ => rfl) fun _ => rfl
  | paren expression ih => exact ih.bind_all fun _ => places_single (fun _ => rfl) fun _ => rfl
  | cascade target sections ihTarget ihSections =>
      exact places_two ihTarget ihSections places_cascade
  | cascadeReceiver => exact places_leaf (fun _ => rfl) fun _ => rfl
  | expressionStmt expression ih =>
      exact ih.bind_all fun _ => places_single (fun _ => rfl) fun _ => rfl
  | localStmt keyword name init ih => exact ih.bind_all (places_localStmt keyword name)
  | patternStmt pattern init ihPattern ihInit =>
      exact places_two ihPattern ihInit places_patternStmt
  | blockStmt statements ih => exact ih.bind_all places_blockStmt
  | ifStmt test consequent alternate ihTest ihConsequent ihAlternate =>
      exact places_three ihTest ihConsequent ihAlternate places_ifStmt
  | forInStmt name iterable statements ihIterable ihStatements =>
      exact places_two ihIterable ihStatements (places_forInStmt name)
  | whileStmt test statements ihTest ihStatements =>
      exact places_two ihTest ihStatements places_whileStmt
  | switchStmt discriminant arms default ihDiscriminant ihArms ihDefault =>
      exact places_three ihDiscriminant ihArms ihDefault places_switchStmt
  | returnStmt operand ih => exact ih.bind_all places_returnStmt
  | arm constant statements ihConstant ihStatements =>
      exact places_two ihConstant ihStatements fun _ _ => places_pure rfl
  | variablePattern name => exact places_variablePattern name
  | recordPattern names => exact places_recordPattern names
  | body modifier kind ih => exact ih.bind_all (places_body modifier)
  | blockBody statements ih => exact ih.bind_all places_blockBody
  | exprBody expression ih => exact ih.bind_all places_exprBody
  | noBody => exact places_pure rfl
  | positional value ih => exact ih.bind_all places_positional
  | named label value ih => exact ih.bind_all (places_namedArgument label)
  | type name args ih => exact ih.bind_all (places_typeRef name)
  | field keywords declared name init ih =>
      exact ih.bind_all (places_field keywords declared name)
  | method kind name inner ih => exact ih.bind_all (places_method kind name)
  | function name inner ih => exact ih.bind_all (places_function name)
  | classDecl name superclass members ih => exact ih.bind_all (places_classDecl name superclass)
  | nil => exact places_pure rfl
  | cons head tail ihHead ihTail =>
      exact places_two ihHead ihTail fun _ _ => places_pure (List.sum_cons ..)
  | none => exact places_pure rfl
  | some value ih => exact ih.bind_all fun _ => places_pure (List.sum_singleton)

end Build

end Sketch

namespace Draft

open Fresh

/-- Spans that are just those handed out below an offset. -/
structure AreFresh (spans : List Span) (next : Nat) : Prop where
  /-- The offset is where the next span starts. -/
  whole : width ∣ next
  /-- Every span that was handed out is there, once, and there is no other. -/
  exact : (spans.map fun s => (s.start.toNat, s.stop.toNat)).Perm
    ((List.range (next / width)).map fun k => (width * k, width * k + width - 1))
  nonempty : ∀ s ∈ spans, s.isEmpty = false
  disjoint : spans.Pairwise fun s t => s.stop ≤ t.start ∨ t.stop ≤ s.start

/-- A span that ends below the largest offset is where it was handed out. -/
theorem toNat_spanAt {start : Nat} (h : start + width ≤ UInt32.size) :
    (spanAt start).start.toNat = start ∧ (spanAt start).stop.toNat = start + width - 1 := by
  have hWidth : 0 < width := Nat.zero_lt_succ _
  exact ⟨UInt32.toNat_ofNat_of_lt' (by omega), UInt32.toNat_ofNat_of_lt' (by omega)⟩

/-- What is handed out below the largest offset are different spans. -/
theorem areFresh_of_perm {spans : List Span} {count : Nat} (hCount : count < 2 ^ 30)
    (hPerm : spans.Perm ((List.range count).map fun k => spanAt (width * k))) :
    AreFresh spans (width * count) := by
  have hWidth : width = 4 := rfl
  have hPlace : ∀ k ∈ List.range count, (spanAt (width * k)).start.toNat = width * k ∧
      (spanAt (width * k)).stop.toNat = width * k + width - 1 := by
    intro k hk
    have hFit : width * k + width ≤ UInt32.size := by
      rw [List.mem_range] at hk
      simp only [hWidth, UInt32.size]
      omega
    exact toNat_spanAt hFit
  refine ⟨Nat.dvd_mul_right _ _, ?_, ?_, ?_⟩
  · rw [Nat.mul_div_cancel_left _ (by decide)]
    apply (hPerm.map _).trans
    rw [List.map_map, List.map_congr_left]
    intro k hk
    obtain ⟨hStart, hStop⟩ := hPlace k hk
    rw [Function.comp_apply, hStart, hStop]
  · intro s hs
    obtain ⟨k, hk, rfl⟩ := List.mem_map.mp (hPerm.mem_iff.mp hs)
    obtain ⟨hStart, hStop⟩ := hPlace k hk
    rw [Span.isEmpty, decide_eq_false_iff_not, UInt32.le_iff_toNat_le, hStart, hStop]
    omega
  · rw [hPerm.pairwise_iff Or.symm, List.pairwise_map]
    refine List.pairwise_lt_range.imp_of_mem fun {i j} hi hj hij => Or.inl ?_
    obtain ⟨-, hStop⟩ := hPlace i hi
    obtain ⟨hStart, -⟩ := hPlace j hj
    rw [UInt32.le_iff_toNat_le, hStop, hStart, hWidth]
    omega

/-- The spans of declarations that carry what was handed out, and nothing else, are fresh. -/
theorem areFresh_of_carried {declarations : List Declaration} {next count : Nat}
    (hNext : next = width * count) (hBound : next < width * 2 ^ 30)
    (hCarried : (declarations.map Declaration.carried).sum = newSpans 0 count) :
    AreFresh (declarations.flatMap Declaration.carriedSpans) next := by
  subst hNext
  refine areFresh_of_perm (Nat.lt_of_mul_lt_mul_left hBound) (Multiset.coe_eq_coe.mp ?_)
  calc ((declarations.flatMap Declaration.carriedSpans : List Span) : Multiset Span)
    _ = (declarations.map Declaration.carried).sum := coe_flatMap _ _
    _ = newSpans 0 count := hCarried
    _ = (List.range count).map fun k => spanAt (width * k) := by
      simp only [zero_add, newSpans]
      rfl

/-- The spans that are written in the declarations that some drafts become. -/
def builtSpans (drafts : List (Draft .declaration)) : List Span :=
  (buildAll drafts).1.flatMap Declaration.carriedSpans

/-- In a draft nothing is there already. -/
theorem readyParts_eq_nil {k : DraftKind} (d : Draft k) : d.readyParts = [] :=
  List.eq_nil_iff_forall_not_mem.mpr fun part _ => nomatch part.2

/-- The spans in a tree that was built are fresh, and none is lost. -/
theorem builtSpans_fresh (drafts : List (Draft .declaration))
    (h : (buildAll drafts).2 < width * 2 ^ 30) :
    AreFresh (builtSpans drafts) (buildAll drafts).2 := by
  obtain ⟨count, hNext, hCarried⟩ := (Sketch.ofList drafts).places_build Empty.elim 0
  rw [readyParts_eq_nil] at hCarried
  rw [zero_add] at hNext
  exact areFresh_of_carried hNext h (hCarried.trans (zero_add _))

/-- A class with a field and a setup routine. -/
def counter : Draft .declaration :=
  .classDecl "Counter" (some "CompositionWidget") <| .ofList
    [.field [.finalWord] (some "int") "step" (.some (.literal (.int 1))),
     .method .method "setup" <| .blockOf
      [.localStmt (some .finalWord) "count" (.some (.callFunction "ref" [] [.literal (.int 0)])),
       .ifStmt (.identifier "ready" none) (.ofList [.expressionStmt (.this)]) .none,
       .returnStmt (.arrow ["context"] (.property (.identifier "count" none) "value"))]]

/-- The class carries thirty-three spans, up to the offset where the next one would start. -/
theorem builtSpans_fresh_counter :
    (buildAll [counter]).2 < width * 2 ^ 30 ∧ AreFresh (builtSpans [counter]) 132 :=
  ⟨by decide, builtSpans_fresh [counter] (by decide)⟩

end Draft

/-! ### Building in any order -/

/-- A node that was built. -/
abbrev BuiltNode := Sigma DraftKind.Built

def BuiltNode.carried (node : BuiltNode) : Multiset Span := node.1.carried node.2

def BuiltNode.ofDeclaration (d : Declaration) : BuiltNode := ⟨.declaration, d⟩

/-- What a builder has made: the nodes that are not yet parts of others, and the offset of the next
new span. The next node may be built around any of these nodes, which are used up then. -/
inductive Bench : Multiset BuiltNode → Nat → Prop
  | empty : Bench 0 0
  | build {k : DraftKind} {rest : Multiset BuiltNode} {next : Nat}
      (sketch : Sketch DraftKind.Built k) (before : Bench (sketch.readyParts + rest) next) :
      Bench (⟨k, ((sketch.build fun part => part).run next).1⟩ ::ₘ rest)
        ((sketch.build fun part => part).run next).2

namespace Bench

open Fresh

variable {nodes : Multiset BuiltNode} {next : Nat}

/-- The nodes that are not yet parts of others carry all that was handed out, each span once. -/
theorem carried_eq (h : Bench nodes next) :
    ∃ count, next = width * count ∧ (nodes.map BuiltNode.carried).sum = newSpans 0 count := by
  induction h with
  | empty => exact ⟨0, rfl, rfl⟩
  | @build k rest next sketch _ ih =>
      obtain ⟨m, hNext, hBefore⟩ := ih
      obtain ⟨n, hStop, hBuilt⟩ := sketch.places_build (fun part => part) next
      refine ⟨m + n, ?_, ?_⟩
      · rw [hStop, hNext, Nat.mul_add]
      · have hReady : ((sketch.readyParts : Multiset BuiltNode).map BuiltNode.carried).sum =
            Sketch.carriedBy (fun part => part) sketch.readyParts := rfl
        rw [Multiset.map_add, Multiset.sum_add, hReady] at hBefore
        rw [Multiset.map_cons, Multiset.sum_cons, newSpans_add, ← hBefore, zero_add, ← hNext,
          BuiltNode.carried, hBuilt]
        abel

/-- If only declarations are left, then their spans are fresh, whatever was built first. -/
theorem areFresh {declarations : List Declaration}
    (h : Bench (declarations.map BuiltNode.ofDeclaration) next) (hBound : next < width * 2 ^ 30) :
    Draft.AreFresh (declarations.flatMap Declaration.carriedSpans) next := by
  obtain ⟨count, hNext, hCarried⟩ := h.carried_eq
  refine Draft.areFresh_of_carried hNext hBound ?_
  rw [← hCarried, Multiset.map_coe, Multiset.sum_coe, List.map_map]
  rfl

/-- A field that is built before its class has the first spans. -/
example : ∃ person, Bench {BuiltNode.ofDeclaration person} 20 := by
  let field : Sketch DraftKind.Built .member := .field [] none "age" .none
  have hField : Bench _ 12 := @Bench.build .member 0 0 field .empty
  let member : Member := ((field.build fun part => part).run 0).1
  let person : Sketch DraftKind.Built .declaration :=
    .classDecl "Person" none (.cons (.ready (k := .member) member) .nil)
  exact ⟨_, @Bench.build .declaration 0 12 person hField⟩

end Bench

end SetupLint
