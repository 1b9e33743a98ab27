import Mathlib.Data.List.Forall2
import SetupLint.Proofs.DecoderMatch

/-! Variants that are read the same. Their tag may stand anywhere among their fields, because
everything is held before the fields are decoded. A tag beside a content is different: outside of
a held tree the content is decoded where it stands if its tag comes first, and is held if it comes
last, so only in a held tree the two may be swapped. -/
namespace SetupLint.Json

variable {α : Type} {bound : Nat} {always : Prop}

/-- Without their tags members are as near to each other as with them, if all keys can be read. -/
theorem Near.untagged {swaps : Prop} {σ : Type}
    {step : σ → String → Reading → Except DecodeError σ} {p : Part} {tree tree' : Json Fault p}
    (h : Near swaps tree tree') {s s' : σ} (hFold : foldMembers step tree s = .ok s') :
    Near swaps (Json.untagged tree) (Json.untagged tree') := by
  rcases h with rfl | ⟨hSwaps, h⟩
  · exact .refl _
  · induction h generalizing s with
    | swap key key' value value' rest =>
        cases key with
        | error why => cases hFold
        | ok key =>
            obtain ⟨_, -, hRest⟩ := exists_ok_of_bind hFold
            cases key' with
            | error why => cases hRest
            | ok key' =>
                simp only [entry, Json.untagged]
                by_cases hTag : key = tagKey
                · simp [hTag, Near.refl]
                · by_cases hTag' : key' = tagKey
                  · simp [hTag, hTag', Near.refl]
                  · simp only [hTag, hTag', if_false]
                    exact .inr ⟨hSwaps, .swap (.ok key) (.ok key') value value' _⟩
    | entryValue key rest h _ =>
        cases key with
        | error why => cases hFold
        | ok key =>
            simp only [entry, Json.untagged]
            by_cases hTag : key = tagKey
            · simp [hTag, Near.refl]
            · simp only [hTag, if_false]
              exact .inr ⟨hSwaps, .entryValue (.ok key) _ h⟩
    | entryRest key value h ih =>
        cases key with
        | error why => cases hFold
        | ok key =>
            obtain ⟨_, -, hRest⟩ := exists_ok_of_bind hFold
            simp only [entry, Json.untagged]
            by_cases hTag : key = tagKey
            · simp only [hTag, if_true]
              exact ih hRest
            · simp only [hTag, if_false]
              rcases ih hRest with hSame | ⟨-, h⟩
              · exact .inl (by rw [hSame])
              · exact .inr ⟨hSwaps, .entryRest (.ok key) value h⟩
    | array h => exact .inr ⟨hSwaps, .array h⟩
    | object h => exact .inr ⟨hSwaps, .object h⟩
    | itemValue rest h => exact .inr ⟨hSwaps, .itemValue rest h⟩
    | itemRest value h => exact .inr ⟨hSwaps, .itemRest value h⟩

section Tagged

variable {names : List String} {place : Place}

/-- The tag is found alike in members that are near. -/
theorem tagStep_near {swaps : Prop} :
    StepsNear swaps Eq (tagStep names place) (tagStep names place) := by
  rintro found _ key value value' next rfl hNear hStep
  refine ⟨next, tagStep_iff.mpr ((tagStep_iff.mp hStep).imp ?_ ?_), rfl⟩
  · rintro ⟨hTag, hFound, index, hIndex, hNext⟩
    rw [hNear.leaf_inv (tag_depth hIndex)]
    exact ⟨hTag, hFound, index, hIndex, hNext⟩
  · rintro ⟨hTag, hCheck, hNext⟩
    exact ⟨hTag, hNear.checkWhole hCheck, hNext⟩

/-- The tag may stand anywhere among the members. -/
theorem tagStep_commute : StepsCommute (tagStep names place) := by
  intro found key key' value value' next last hFirst hSecond
  rcases tagStep_iff.mp hFirst with ⟨hTag, rfl, index, hIndex, rfl⟩ | ⟨hTag, hCheck, rfl⟩
  · rcases tagStep_iff.mp hSecond with ⟨-, hFound, -⟩ | ⟨hTag', hCheck', rfl⟩
    · cases hFound
    · exact ⟨none, tagStep_iff.mpr (.inr ⟨hTag', hCheck', rfl⟩), hFirst⟩
  · exact ⟨last, hSecond, tagStep_iff.mpr (.inr ⟨hTag, hCheck, rfl⟩)⟩

end Tagged

universe u

/-- Named alternatives that are related one by one, under the same names. -/
abbrev NamedMatch {γ : Type u} (related : γ → γ → Prop) (these those : List (String × γ)) : Prop :=
  List.Forall₂ (fun named named' => named'.1 = named.1 ∧ related named.2 named'.2) these those

section Named

variable {γ : Type u} {related : γ → γ → Prop} {these those : List (String × γ)}
  (h : NamedMatch related these those)
include h

theorem NamedMatch.names : those.map (·.1) = these.map (·.1) := by
  induction h with
  | nil => rfl
  | cons hFirst _ ih => rw [List.map_cons, List.map_cons, hFirst.1, ih]

theorem NamedMatch.getElem? {index : Nat} {name : String} {chosen : γ}
    (hIndex : these[index]? = some (name, chosen)) :
    ∃ chosen', those[index]? = some (name, chosen') ∧ related chosen chosen' := by
  induction h generalizing index with
  | nil => cases hIndex
  | @cons _ named' _ _ hFirst _ ih =>
      cases index with
      | zero =>
          cases hIndex
          exact ⟨named'.2, congrArg some (Prod.ext hFirst.1 rfl), hFirst.2⟩
      | succ index => exact ih hIndex

end Named

theorem room_hold {place inside : Place} (hEnter : place.enter = .ok inside)
    (hRoom : place.room < bound + 1) : inside.hold.room < bound := by
  obtain ⟨hInside, -⟩ := enter_eq_ok hEnter
  change inside.room < bound
  omega

/-- The tag of a variant may stand anywhere among its fields. -/
theorem matches_tagged {variants variants' : List (String × Schema α)}
    (h : NamedMatch (Schema.Matches bound False) variants variants') :
    Matches (bound + 1) always (tagged variants) (tagged variants') := by
  intro place hRoom reading reading' hNear a hDecode
  have hHold (inside : Place) : False ∨ inside.hold.held = true := .inr rfl
  cases reading with
  | object members =>
      obtain ⟨members', rfl, hMembers⟩ := hNear.object_inv
      obtain ⟨inside, index, name, schema, hEnter, hTag, hIndex, hFields⟩ :=
        tagged_object_iff.mp hDecode
      rw [findTag_eq_fold] at hTag
      obtain ⟨found, hFold, hFound⟩ := exists_ok_of_bind hTag
      obtain ⟨_, hFold', rfl⟩ := foldMembers_near tagStep_near (fun _ => tagStep_commute)
        hMembers rfl hFold
      have hTag' : findTag (variants'.map (·.1)) inside members' none = .ok index := by
        rw [h.names, findTag_eq_fold, hFold']
        exact hFound
      have hUntagged := (hMembers.untagged hFold).mono fun _ => hHold inside
      obtain ⟨schema', hIndex', hSchema⟩ := h.getElem? hIndex
      exact tagged_object_iff.mpr ⟨inside, index, name, schema', hEnter, hTag', hIndex',
        hSchema.ofMembers (room_hold hEnter hRoom) hUntagged hFields⟩
  | array items =>
      obtain ⟨items', rfl, hItems⟩ := hNear.array_inv
      obtain ⟨value, rest, inside, index, name, schema, rfl, hEnter, hTag, hCheck, hIndex,
        hFields⟩ := tagged_array_iff.mp hDecode
      obtain ⟨value', rest', rfl, hValue, hRest⟩ := hItems.item_inv
      obtain ⟨schema', hIndex', hSchema⟩ := h.getElem? hIndex
      have hSame : value' = value := hValue.leaf_inv (tag_depth hTag)
      rw [← h.names, ← hSame] at hTag
      exact tagged_array_iff.mpr ⟨value', rest', inside, index, name, schema', rfl, hEnter, hTag,
        hRest.checkWhole hCheck, hIndex',
        hSchema.ofItems (room_hold hEnter hRoom) (hRest.mono fun _ => hHold inside) hFields⟩
  | _ => cases hDecode

/-! A tag beside a content. -/

/-- Cases that match: both without content and with the same value, or with contents that are
read the same. -/
inductive Case.Matches (bound : Nat) (always : Prop) : Case α → Case α → Prop where
  | bare (value : α) : Matches bound always (.bare value) (.bare value)
  | holding {decode decode' : Decoder α} (h : Json.Matches bound always decode decode') :
      Matches bound always (.holding decode) (.holding decode')

/-- Cases that match are decoded alike. -/
theorem Case.Matches.decode {chosen chosen' : Case α} (h : chosen.Matches bound always chosen') :
    Json.Matches bound always chosen.decode chosen'.decode := by
  cases h with
  | bare value =>
      refine matches_leaf fun place reading a hDecode => ?_
      cases reading with
      | array items =>
          obtain ⟨_, -, hDecode⟩ := exists_ok_of_bind hDecode
          cases hDecode
      | object members =>
          obtain ⟨_, -, hDecode⟩ := exists_ok_of_bind hDecode
          cases hDecode
      | _ => rfl
  | holding h => exact h

section Paired

variable {cases cases' : List (String × Case α)} {place : Place} {pairing next : Pairing α}
  {key : String} {value : Reading}

/-- In a held tree a content is decoded the same whether its tag comes before or after it. -/
theorem pairStep_commute (hHeld : place.held = true) : StepsCommute (pairStep cases place) := by
  have hPlace : place.hold = place := by
    obtain ⟨room, held⟩ := place
    cases hHeld
    rfl
  intro pairing key key' value value' next last hFirst hSecond
  simp only [pairStep_iff] at hFirst hSecond ⊢
  have hWhole (reading : Reading) : checkWhole place reading = .ok () := by
    simp [checkWhole, hHeld]
  cases hFirst with
  | kind h =>
      cases hSecond with
      | contentOf hContent =>
          exact ⟨_, .content (hWhole value'), .kindOf h (by rwa [hPlace])⟩
      | skip hKind hContent hSkip => exact ⟨_, .skip hKind hContent hSkip, .kind h⟩
  | content h =>
      cases hSecond with
      | kindOf hChosen hWaiting =>
          exact ⟨_, .kind hChosen, .contentOf (by rwa [hPlace] at hWaiting)⟩
      | skip hKind hContent hSkip => exact ⟨_, .skip hKind hContent hSkip, .content h⟩
  | contentOf h =>
      cases hSecond with
      | skip hKind hContent hSkip => exact ⟨_, .skip hKind hContent hSkip, .contentOf h⟩
  | kindOf h hWaiting =>
      cases hSecond with
      | skip hKind hContent hSkip => exact ⟨_, .skip hKind hContent hSkip, .kindOf h hWaiting⟩
  | skip hKind hContent hSkip => exact ⟨_, hSecond, .skip hKind hContent hSkip⟩

/-- What has been met of a tag and its content in two trees that are near to each other. -/
inductive Pairing.Related (bound : Nat) (swaps : Prop) : Pairing α → Pairing α → Prop where
  | nothing : Related bound swaps .nothing .nothing
  | kind {this that : Case α} (h : this.Matches bound False that) :
      Related bound swaps (.kind this) (.kind that)
  | content {waiting waiting' : Reading} (h : Near swaps waiting waiting') :
      Related bound swaps (.content waiting) (.content waiting')
  | both (a : α) : Related bound swaps (.both a) (.both a)

theorem Pairing.Related.close {swaps : Prop} {pairing' : Pairing α}
    (h : pairing.Related bound swaps pairing') {a : α} (hClose : pairing.close = .ok a) :
    pairing'.close = .ok a := by
  cases h with
  | kind h =>
      cases h with
      | bare value => exact hClose
      | holding h => cases hClose
  | content h => cases hClose
  | _ => exact hClose

variable (h : NamedMatch (Case.Matches bound False) cases cases')
include h

/-- Near tags choose cases that match. -/
theorem Chosen.near {swaps : Prop} {value' : Reading} (hNear : Near swaps value value')
    {this : Case α} (hChosen : Chosen cases place value this) :
    ∃ that, Chosen cases' place value' that ∧ this.Matches bound False that := by
  obtain ⟨index, name, hChoice, hIndex⟩ := hChosen
  obtain ⟨that, hIndex', hThat⟩ := h.getElem? hIndex
  rw [← h.names] at hChoice
  rw [hNear.choice hChoice]
  exact ⟨that, ⟨index, name, hChoice, hIndex'⟩, hThat⟩

/-- A tag beside a content is met alike in members that are near. -/
theorem pairStep_near (hRoom : place.room < bound) :
    StepsNear (False ∨ place.held = true) (Pairing.Related bound (False ∨ place.held = true))
      (pairStep cases place) (pairStep cases' place) := by
  intro pairing pairing' key value value' next hRelated hNear hStep
  simp only [pairStep_iff] at hStep ⊢
  cases hStep with
  | kind hChosen =>
      cases hRelated
      obtain ⟨that, hChosen', hThat⟩ := hChosen.near h hNear
      exact ⟨_, .kind hChosen', .kind hThat⟩
  | content hCheck =>
      cases hRelated
      exact ⟨_, .content (hNear.checkWhole hCheck), .content hNear⟩
  | contentOf hContent =>
      cases hRelated with
      | kind hThat =>
          exact ⟨_, .contentOf (hThat.decode place hRoom _ _ hNear _ hContent), .both _⟩
  | kindOf hChosen hWaiting =>
      cases hRelated with
      | content hContent =>
          obtain ⟨that, hChosen', hThat⟩ := hChosen.near h hNear
          have hHold := hContent.mono fun _ => (.inr rfl : False ∨ place.hold.held = true)
          exact ⟨_, .kindOf hChosen' (hThat.decode place.hold hRoom _ _ hHold _ hWaiting), .both _⟩
  | skip hKind hContent hSkip => exact ⟨_, .skip hKind hContent (hNear.checkSkip hSkip), hRelated⟩

/-- In a held tree a content may come before its tag or after it. -/
theorem matches_paired : Matches (bound + 1) False (paired cases) (paired cases') := by
  intro place hRoom reading reading' hNear a hDecode
  cases reading with
  | object members =>
      obtain ⟨members', rfl, hMembers⟩ := hNear.object_inv
      obtain ⟨inside, hEnter, hPair⟩ := paired_object_iff.mp hDecode
      obtain ⟨hInside, hHeld⟩ := enter_eq_ok hEnter
      rw [← hHeld] at hMembers
      rw [pairMembers_eq_fold] at hPair
      obtain ⟨pairing, hFold, hClose⟩ := exists_ok_of_bind hPair
      obtain ⟨pairing', hFold', hRelated⟩ := foldMembers_near (pairStep_near h (by omega))
        (fun hSwaps => pairStep_commute (hSwaps.resolve_left id)) hMembers .nothing hFold
      refine paired_object_iff.mpr ⟨inside, hEnter, ?_⟩
      rw [pairMembers_eq_fold, hFold']
      exact hRelated.close hClose
  | array items =>
      obtain ⟨items', rfl, hItems⟩ := hNear.array_inv
      obtain ⟨kind, content, inside, index, name, this, rfl, hEnter, hTag, hIndex, hContent⟩ :=
        paired_array_iff.mp hDecode
      obtain ⟨hInside, hHeld⟩ := enter_eq_ok hEnter
      rw [← hHeld] at hItems
      obtain ⟨kind', behind, rfl, hKind, hBehind⟩ := hItems.item_inv
      obtain ⟨content', done, rfl, hNearContent, hDone⟩ := hBehind.item_inv
      obtain ⟨that, hIndex', hThat⟩ := h.getElem? hIndex
      have hSame : kind' = kind := hKind.leaf_inv (tag_depth hTag)
      rw [← h.names, ← hSame] at hTag
      rw [hDone.done_inv rfl]
      exact paired_array_iff.mpr ⟨kind', content', inside, index, name, that, rfl, hEnter, hTag,
        hIndex', hThat.decode inside (by omega) _ _ hNearContent _ hContent⟩
  | _ => cases hDecode

end Paired

end SetupLint.Json
