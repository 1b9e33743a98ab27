import Mathlib.Data.List.Induction
import Mathlib.Data.Prod.Lex
import SetupLint.Proofs.SimultaneousEdits

/-! Fixes that list their edits in different orders. The edits are sorted by their starts alone, so
an insertion and a replacement that start at one place are made as they are listed, the first one
first. If this is the replacement, the text is the same for all such lists. If it is the insertion,
the replacement then removes the inserted text, or its beginning, in place of its own span. What is
outside of the spans survives in any case. -/
namespace SetupLint

open Text (IsBoundary byteLength utf8)

/-- Where a span starts and, among those that start at one place, where it ends. -/
def Span.place (s : Span) : ℕ ×ₗ ℕ := toLex (s.start.toNat, s.stop.toNat)

theorem Span.place_injective : Function.Injective place := by
  intro s t h
  have hEnds := Prod.mk.inj (toLex_inj.mp h)
  cases s
  cases t
  exact congrArg₂ Span.mk (UInt32.toNat_inj.mp hEnds.1) (UInt32.toNat_inj.mp hEnds.2)

/-- Places are compared by starts first. -/
theorem Span.place_le_iff {s t : Span} :
    s.place ≤ t.place ↔ s.start.toNat < t.start.toNat ∨
      s.start.toNat = t.start.toNat ∧ s.stop.toNat ≤ t.stop.toNat :=
  Prod.Lex.toLex_le_toLex

/-- A stable sort keeps the order of elements that are tied. -/
theorem pairwise_mergeSort_of_ties {α : Type} {le : α → α → Bool} {r : α → α → Prop}
    (hTrans : ∀ a b c, le a b → le b c → le a c) (hTotal : ∀ a b, le a b || le b a) {l : List α}
    (h : l.Pairwise fun a b => le b a → r a b) :
    (l.mergeSort le).Pairwise fun a b => le b a → r a b := by
  induction l with
  | nil =>
      rw [List.mergeSort_nil]
      exact List.Pairwise.nil
  | cons a l ih =>
      obtain ⟨before, behind, hSorted, hRest, hBefore⟩ := List.mergeSort_cons hTrans hTotal a l
      obtain ⟨hHead, hTail⟩ := List.pairwise_cons.mp h
      have hPairs := ih hTail
      rw [hRest, List.pairwise_append] at hPairs
      rw [hSorted, List.pairwise_append, List.pairwise_cons]
      refine ⟨hPairs.1, ⟨fun b hb => hHead b ?_, hPairs.2.1⟩, ?_⟩
      · have hSame : b ∈ l.mergeSort le ↔ b ∈ l := List.mem_mergeSort
        rw [← hSame, hRest]
        exact List.mem_append_right before hb
      · intro b hb c hc hTie
        rcases List.mem_cons.mp hc with rfl | hc
        · have hLess := hBefore b hb
          rw [hTie] at hLess
          exact absurd hLess (by decide)
        · exact hPairs.2.2 b hb c hc hTie

namespace TextEdit

/-- Edits in the order of their starts that cut no character and do not overlap. An insertion at the
start of a replacement may come in front of it or right behind it. -/
inductive Laid (cs : List Char) : Nat → List TextEdit → Prop where
  | nil {offset : Nat} (boundary : IsBoundary cs offset) : Laid cs offset []
  | cons {offset : Nat} {e : TextEdit} {es : List TextEdit} (boundary : IsBoundary cs offset)
      (behind : offset ≤ e.span.start.toNat) (start : IsBoundary cs e.span.start.toNat)
      (forward : e.span.start ≤ e.span.stop) (rest : Laid cs e.span.stop.toNat es) :
      Laid cs offset (e :: es)
  | swapped {offset : Nat} {e insertion : TextEdit} {es : List TextEdit}
      (boundary : IsBoundary cs offset) (behind : offset ≤ e.span.start.toNat)
      (start : IsBoundary cs e.span.start.toNat) (forward : e.span.start ≤ e.span.stop)
      (insertion_start : insertion.span.start = e.span.start)
      (insertion_stop : insertion.span.stop = e.span.start)
      (rest : Laid cs e.span.stop.toNat es) : Laid cs offset (e :: insertion :: es)

/-- A replacement that is made behind an insertion at its start keeps what is on both sides. -/
theorem exists_kept_of_edited? {e : TextEdit} {left inserted removed right result : List Char}
    (hStart : byteLength left = e.span.start.toNat)
    (hStop : byteLength (left ++ removed) = e.span.stop.toNat)
    (h : e.edited? (left ++ (inserted ++ removed) ++ right) = some result) :
    ∃ kept, result = left ++ (e.text.toList ++ kept) ++ right := by
  have hInside : e.span.start.toNat ≤ e.span.stop.toNat ∧
      e.span.stop.toNat ≤ byteLength (left ++ (inserted ++ removed)) := by
    rw [← hStart, ← hStop]
    simp only [Text.byteLength_append]
    omega
  have hLeft : Text.cut? e.span.start.toNat (left ++ (inserted ++ removed) ++ right) =
      some (left, inserted ++ removed ++ right) := by
    rw [← hStart, List.append_assoc]
    exact Text.cut?_byteLength ..
  have hTotal : e.span.stop.toNat ≤ byteLength (left ++ (inserted ++ removed) ++ right) := by
    rw [Text.byteLength_append _ right]
    omega
  rw [edited?, if_pos ⟨hInside.1, hTotal⟩, hLeft, Option.bind_eq_bind, Option.bind_some] at h
  obtain ⟨⟨gone, rest⟩, hCut, hResult⟩ := Option.bind_eq_some_iff.mp h
  -- the cut is in front of the right side, so all of this is kept
  have hBoundary := Text.isSome_cut?_iff.mp (Option.isSome_of_eq_some hCut)
  obtain ⟨front, kept, hFront, hLength⟩ := hBoundary.of_le hInside.2
  rw [hFront, ← hLength, List.append_assoc, Text.cut?_byteLength, Option.some.injEq,
    Prod.mk.injEq] at hCut
  refine ⟨kept, ?_⟩
  rw [← Option.some.inj hResult, ← hCut.2]
  simp only [List.append_assoc]

/-- What edits make of a text that do not overlap, is what edits of the same spans make of it that
come one behind the other. -/
theorem Laid.exists_placed {cs : List Char} {offset : Nat} {es : List TextEdit} {result : List Char}
    (h : Laid cs offset es)
    (hResult : es.foldrM (fun e cs => e.edited? cs) cs = some result) :
    ∃ settled, Placed cs offset settled ∧
      settled.foldrM (fun e cs => e.edited? cs) cs = some result ∧
      (settled.map (·.span)).Perm (es.map (·.span)) := by
  induction h generalizing result with
  | nil boundary => exact ⟨[], .nil boundary, hResult, List.Perm.refl _⟩
  | @cons offset e es boundary behind start forward rest ih =>
      rw [List.foldrM_cons] at hResult
      obtain ⟨inner, hInner, hEdit⟩ := Option.bind_eq_some_iff.mp hResult
      obtain ⟨settled, hPlaced, hSettled, hSpans⟩ := ih hInner
      refine ⟨e :: settled, .cons boundary behind start forward hPlaced, ?_, hSpans.cons _⟩
      rw [List.foldrM_cons, hSettled]
      exact hEdit
  | @swapped offset e insertion es boundary behind start forward hAt hEnd rest ih =>
      rw [List.foldrM_cons, List.foldrM_cons] at hResult
      obtain ⟨grown, hGrown, hReplaced⟩ := Option.bind_eq_some_iff.mp hResult
      obtain ⟨inner, hInner, hInserted⟩ := Option.bind_eq_some_iff.mp hGrown
      obtain ⟨settled, hPlaced, hSettled, hSpans⟩ := ih hInner
      obtain ⟨front, right, tail, rfl, hStop, hTail, -⟩ := hPlaced.foldrM_edited?
      obtain rfl := Option.some.inj (hSettled.symm.trans hTail)
      have hForward : e.span.start.toNat ≤ byteLength front :=
        hStop ▸ UInt32.le_iff_toNat_le.mp forward
      obtain ⟨left, removed, rfl, hStart⟩ := start.of_le hForward
      have hInsertionStop : byteLength (left ++ []) = insertion.span.stop.toNat := by
        rw [List.append_nil, hEnd, hStart]
      have hInsert : insertion.edited? (left ++ [] ++ (removed ++ tail)) =
          some (left ++ insertion.text.toList ++ (removed ++ tail)) :=
        edited?_append (hAt ▸ hStart) hInsertionStop
      rw [List.append_nil, ← List.append_assoc, hInserted, Option.some.injEq] at hInsert
      subst hInsert
      rw [List.append_assoc left, ← List.append_assoc insertion.text.toList,
        ← List.append_assoc left] at hReplaced
      obtain ⟨kept, rfl⟩ := exists_kept_of_edited? hStart hStop hReplaced
      -- the insertion has no text then, and the replacement all that was left of the two
      refine ⟨⟨insertion.span, ""⟩ :: ⟨e.span, e.text ++ String.ofList kept⟩ :: settled, ?_, ?_, ?_⟩
      · have hPlace : insertion.span.start ≤ insertion.span.stop := by
          rw [hAt, hEnd]
          exact UInt32.le_refl _
        refine .cons boundary (hAt ▸ behind) (hAt ▸ start) hPlace ?_
        exact .cons (hEnd ▸ start) (by rw [hEnd]) start forward hPlaced
      · have hReplace : edited? ⟨e.span, e.text ++ String.ofList kept⟩ (left ++ removed ++ tail) =
            some (left ++ (e.text ++ String.ofList kept).toList ++ tail) :=
          edited?_append hStart hStop
        have hInsertNone :
            edited? ⟨insertion.span, ""⟩ (left ++ [] ++ (e.text.toList ++ kept ++ tail)) =
              some (left ++ [] ++ (e.text.toList ++ kept ++ tail)) :=
          edited?_append (hAt ▸ hStart) hInsertionStop
        rw [String.toList_append, String.toList_ofList] at hReplace
        rw [List.append_nil, ← List.append_assoc] at hInsertNone
        rw [List.foldrM_cons, List.foldrM_cons, hSettled, Option.bind_eq_bind, Option.bind_some,
          hReplace]
        exact hInsertNone
      · exact (List.Perm.swap _ _ _).trans ((hSpans.cons _).cons _)

/-- No edit starts before the offset from which the edits are placed. -/
theorem Placed.le_start {cs : List Char} {offset : Nat} {es : List TextEdit}
    (h : Placed cs offset es) : ∀ e ∈ es, offset ≤ e.span.start.toNat := by
  induction h with
  | nil boundary => exact fun e he => absurd he List.not_mem_nil
  | @cons offset e es boundary behind start forward rest ih =>
      rw [List.forall_mem_cons]
      refine ⟨behind, fun other hOther => ?_⟩
      exact (behind.trans (UInt32.le_iff_toNat_le.mp forward)).trans (ih other hOther)

/-- Edits that are placed run forward. -/
theorem Placed.forward {cs : List Char} {offset : Nat} {es : List TextEdit}
    (h : Placed cs offset es) : ∀ e ∈ es, e.span.start ≤ e.span.stop := by
  induction h with
  | nil boundary => exact fun e he => absurd he List.not_mem_nil
  | cons boundary behind start forward rest ih => exact List.forall_mem_cons.mpr ⟨forward, ih⟩

/-- Edits that are placed are in the order of their places. -/
theorem Placed.pairwise_place {cs : List Char} {offset : Nat} {es : List TextEdit}
    (h : Placed cs offset es) : (es.map (·.span)).Pairwise fun s t => s.place ≤ t.place := by
  induction h with
  | nil boundary => exact List.Pairwise.nil
  | @cons offset e es boundary behind start forward rest ih =>
      rw [List.map_cons, List.pairwise_cons, List.forall_mem_map]
      refine ⟨fun other hOther => Span.place_le_iff.mpr ?_, ih⟩
      have hForward := UInt32.le_iff_toNat_le.mp forward
      have hOtherForward := UInt32.le_iff_toNat_le.mp (rest.forward other hOther)
      have hBehind := rest.le_start other hOther
      omega

/-- Whether an edit removes nothing. -/
def IsInsertion (e : TextEdit) : Prop := e.span.start = e.span.stop

instance (e : TextEdit) : Decidable e.IsInsertion := inferInstanceAs (Decidable (_ = _))

/-- Edits that do not overlap: each of them runs forward from one boundary of the text to another
one, of any two one ends before the other one starts, and no two insert at one place. An insertion
and a replacement may start at one place. -/
structure AreApart (cs : List Char) (es : List TextEdit) : Prop where
  forward : ∀ e ∈ es, e.span.start ≤ e.span.stop
  boundaries : ∀ e ∈ es, IsBoundary cs e.span.start.toNat ∧ IsBoundary cs e.span.stop.toNat
  apart : es.Pairwise fun a b => a.span.stop ≤ b.span.start ∨ b.span.stop ≤ a.span.start
  single : es.Pairwise fun a b => a.IsInsertion → b.IsInsertion → a.span.start ≠ b.span.start

namespace AreApart

variable {cs : List Char} {es : List TextEdit}

/-- Whether edits are apart does not depend on how they are listed. -/
theorem of_perm {others : List TextEdit} (h : AreApart cs es) (hPerm : others.Perm es) :
    AreApart cs others where
  forward e he := h.forward e (hPerm.mem_iff.mp he)
  boundaries e he := h.boundaries e (hPerm.mem_iff.mp he)
  apart := (hPerm.pairwise_iff fun hApart => hApart.symm).mpr h.apart
  single := (hPerm.pairwise_iff fun hSingle hb ha => (hSingle ha hb).symm).mpr h.single

theorem tail {e : TextEdit} (h : AreApart cs (e :: es)) : AreApart cs es where
  forward := (List.forall_mem_cons.mp h.forward).2
  boundaries := (List.forall_mem_cons.mp h.boundaries).2
  apart := (List.pairwise_cons.mp h.apart).2
  single := (List.pairwise_cons.mp h.single).2

/-- No two of the edits have one span. -/
theorem nodup_spans (h : AreApart cs es) : (es.map (·.span)).Nodup := by
  rw [List.Nodup, List.pairwise_map]
  refine (h.apart.and h.single).imp_of_mem ?_
  rintro a b ha hb ⟨hApart, hSingle⟩ hSpan
  rw [← hSpan, or_self] at hApart
  have hInsertion : a.IsInsertion := UInt32.le_antisymm (h.forward a ha) hApart
  have hOther : b.IsInsertion := by
    rw [IsInsertion, ← hSpan]
    exact hInsertion
  exact hSingle hInsertion hOther (by rw [hSpan])

/-- An edit that starts no earlier than another one and ends no later than this one starts is an
insertion at this place. -/
theorem insertion_of_le {e other : TextEdit} (h : AreApart cs (e :: es)) (hOther : other ∈ es)
    (hStart : e.span.start ≤ other.span.start) (hStop : other.span.stop ≤ e.span.start) :
    other.span.start = e.span.start ∧ other.span.stop = e.span.start := by
  have hForward := h.forward other (List.mem_cons_of_mem e hOther)
  exact ⟨UInt32.le_antisymm (UInt32.le_trans hForward hStop) hStart,
    UInt32.le_antisymm hStop (UInt32.le_trans hStart hForward)⟩

/-- In the order of their starts, the edits are laid out: of two of them the later one is behind the
earlier one, or it is an insertion at its start. -/
theorem laid {offset : Nat} (h : AreApart cs es)
    (hStarts : es.Pairwise fun a b => a.span.start ≤ b.span.start)
    (hOffset : IsBoundary cs offset) (hBehind : ∀ e ∈ es, offset ≤ e.span.start.toNat) :
    Laid cs offset es := by
  induction es using List.twoStepInduction generalizing offset with
  | nil => exact .nil hOffset
  | singleton e =>
      obtain ⟨hStart, hStop⟩ := h.boundaries e (List.mem_singleton_self e)
      have hForward := h.forward e (List.mem_singleton_self e)
      exact .cons hOffset (hBehind e (List.mem_singleton_self e)) hStart hForward (.nil hStop)
  | cons_cons e next es ihRest ihTail =>
      obtain ⟨hStart, hStop⟩ := h.boundaries e List.mem_cons_self
      have hForward := h.forward e List.mem_cons_self
      have hFirst := hBehind e List.mem_cons_self
      obtain ⟨hEarlier, hLater⟩ := List.pairwise_cons.mp hStarts
      obtain ⟨hNextEarlier, hRest⟩ := List.pairwise_cons.mp hLater
      by_cases hEnds : e.span.stop ≤ next.span.start
      · refine .cons hOffset hFirst hStart hForward (ihTail next h.tail hLater hStop ?_)
        rw [List.forall_mem_cons]
        refine ⟨UInt32.le_iff_toNat_le.mp hEnds, fun other hOther => ?_⟩
        exact UInt32.le_iff_toNat_le.mp (UInt32.le_trans hEnds (hNextEarlier other hOther))
      · have hNextEnds : next.span.stop ≤ e.span.start :=
          ((List.pairwise_cons.mp h.apart).1 next List.mem_cons_self).resolve_left hEnds
        obtain ⟨hNextStart, hNextStop⟩ :=
          h.insertion_of_le List.mem_cons_self (hEarlier next List.mem_cons_self) hNextEnds
        refine .swapped hOffset hFirst hStart hForward hNextStart hNextStop
          (ihRest h.tail.tail hRest hStop fun other hOther => ?_)
        rcases (List.pairwise_cons.mp h.apart).1 other (List.mem_cons_of_mem _ hOther) with
          hBehindStop | hOtherEnds
        · exact UInt32.le_iff_toNat_le.mp hBehindStop
        · -- there would be two insertions at the start
          obtain ⟨hOtherStart, hOtherStop⟩ := h.insertion_of_le
            (List.mem_cons_of_mem _ hOther) (hEarlier other (List.mem_cons_of_mem _ hOther))
            hOtherEnds
          have hSingle := (List.pairwise_cons.mp h.tail.single).1 other hOther
          exact absurd (hNextStart.trans hOtherStart.symm)
            (hSingle (hNextStart.trans hNextStop.symm) (hOtherStart.trans hOtherStop.symm))

end AreApart
end TextEdit

namespace Fix

/-- An insertion is listed behind the replacement that starts where it does. -/
def InsertsLast (f : Fix) : Prop :=
  f.edits.Pairwise fun a b => a.IsInsertion → a.span.start ≠ b.span.start

instance (f : Fix) : Decidable f.InsertsLast := inferInstanceAs (Decidable (List.Pairwise _ _))

/-- The edits of a fix in the order of their places, an insertion in front of the replacement that
starts where it does. -/
def inPlaces (f : Fix) : List TextEdit :=
  f.edits.mergeSort fun a b => decide (a.span.place ≤ b.span.place)

variable {f : Fix} {cs : List Char}

theorem inPlaces_perm (f : Fix) : f.inPlaces.Perm f.edits := List.mergeSort_perm ..

theorem pairwise_inPlaces (f : Fix) :
    f.inPlaces.Pairwise fun a b => a.span.place ≤ b.span.place := by
  refine (List.pairwise_mergeSort (fun a b c hab hbc => ?_) (fun a b => ?_) f.edits).imp
    of_decide_eq_true
  · exact decide_eq_true ((of_decide_eq_true hab).trans (of_decide_eq_true hbc))
  · simpa using le_total a.span.place b.span.place

/-- Edits that do not overlap come one behind the other in the order of their places. -/
theorem placed_inPlaces (h : TextEdit.AreApart cs f.edits) :
    TextEdit.Placed cs 0 f.inPlaces := by
  obtain ⟨hForward, hBoundaries, hApart, -⟩ := h.of_perm f.inPlaces_perm
  refine TextEdit.placed_of_pairwise (Text.isBoundary_zero cs) (fun _ _ => Nat.zero_le _)
    hForward hBoundaries ?_
  refine (f.pairwise_inPlaces.and hApart).imp_of_mem ?_
  rintro a b ha hb ⟨hPlace, hEnds | hEnds⟩
  · exact hEnds
  · -- then the first one inserts where the second one starts
    have hForwardNat := UInt32.le_iff_toNat_le.mp (hForward b hb)
    have hPlaces := Span.place_le_iff.mp hPlace
    rw [UInt32.le_iff_toNat_le] at hEnds ⊢
    omega

/-- Edits that start at one place are made in the order in which they are listed. -/
theorem pairwise_ordered_of_ties {r : TextEdit → TextEdit → Prop}
    (h : f.edits.Pairwise fun a b => a.span.start ≤ b.span.start → r a b) :
    f.ordered.Pairwise fun a b => a.span.start ≤ b.span.start → r a b := by
  have hTied : f.ordered.Pairwise fun a b =>
      decide (a.span.start ≤ b.span.start) = true → r a b := by
    refine pairwise_mergeSort_of_ties (fun a b c hab hbc => ?_) (fun a b => ?_)
      (h.imp fun hab hTie => hab (of_decide_eq_true hTie))
    · exact decide_eq_true (UInt32.le_trans (of_decide_eq_true hbc) (of_decide_eq_true hab))
    · simpa using UInt32.le_total b.span.start a.span.start
  exact hTied.imp fun hab hTie => hab (decide_eq_true hTie)

/-- If insertions are listed last, the edits are made from the last place to the first. -/
theorem ordered_eq (h : TextEdit.AreApart cs f.edits) (hLast : f.InsertsLast) :
    f.ordered = f.inPlaces.reverse := by
  have hTies : f.edits.Pairwise fun a b =>
      a.span.start ≤ b.span.start → a.span.start = b.span.start → b.span.stop ≤ a.span.stop := by
    refine (h.apart.and hLast).imp_of_mem ?_
    rintro a b ha hb ⟨hEnds | hEnds, hNotLast⟩ - hStart
    · -- an insertion is not listed in front of the other edit
      have hInsertion : a.IsInsertion :=
        UInt32.le_antisymm (h.forward a ha) (hStart ▸ hEnds)
      exact absurd hStart (hNotLast hInsertion)
    · exact UInt32.le_trans hEnds (h.forward a ha)
  have hPlaces : f.ordered.Pairwise fun a b => b.span.place ≤ a.span.place := by
    refine (f.pairwise_ordered.and (pairwise_ordered_of_ties hTies)).imp ?_
    rintro a b ⟨hStart, hTie⟩
    rw [Span.place_le_iff]
    rcases UInt32.lt_or_eq_of_le hStart with hLt | hEq
    · exact Or.inl (UInt32.lt_iff_toNat_lt.mp hLt)
    · have hStop := hTie (hEq ▸ UInt32.le_refl _) hEq.symm
      exact Or.inr ⟨congrArg _ hEq, UInt32.le_iff_toNat_le.mp hStop⟩
  have hPerm : f.inPlaces.reverse.Perm f.edits := (List.reverse_perm _).trans f.inPlaces_perm
  refine ((List.mergeSort_perm ..).trans hPerm.symm).eq_of_pairwise ?_ hPlaces
    (List.pairwise_reverse.mpr f.pairwise_inPlaces)
  intro a b ha hb hba hab
  exact List.inj_on_of_nodup_map h.nodup_spans (List.mem_mergeSort.mp ha) (hPerm.mem_iff.mp hb)
    (Span.place_injective (le_antisymm hab hba))

/-- Edits that are apart have one order of places, however they are listed. -/
theorem inPlaces_eq_of_perm {g : Fix} (h : TextEdit.AreApart cs f.edits)
    (hPerm : g.edits.Perm f.edits) : g.inPlaces = f.inPlaces := by
  have hBoth := (g.inPlaces_perm.trans hPerm).trans f.inPlaces_perm.symm
  refine hBoth.eq_of_pairwise ?_ g.pairwise_inPlaces f.pairwise_inPlaces
  intro a b ha hb hab hba
  exact List.inj_on_of_nodup_map h.nodup_spans (hPerm.mem_iff.mp (g.inPlaces_perm.mem_iff.mp ha))
    (f.inPlaces_perm.mem_iff.mp hb) (Span.place_injective (le_antisymm hab hba))

/-- Edits that do not overlap keep all bytes outside of their spans, in whatever order they are
listed. -/
theorem exists_spliced_of_edited? {source result : String}
    (h : TextEdit.AreApart source.toList f.edits) (hResult : f.edited? source = some result) :
    ∃ edits, edits.map (·.span) = f.inPlaces.map (·.span) ∧
      utf8 result.toList = TextEdit.spliced (utf8 source.toList) 0 edits := by
  obtain ⟨chars, hChars, rfl⟩ := Option.map_eq_some_iff.mp hResult
  rw [← List.reverse_reverse f.ordered, List.foldlM_reverse] at hChars
  have hPerm : f.ordered.reverse.Perm f.edits :=
    (List.reverse_perm _).trans (List.mergeSort_perm ..)
  have hLaid := (h.of_perm hPerm).laid (List.pairwise_reverse.mpr f.pairwise_ordered)
    (Text.isBoundary_zero _) (fun _ _ => Nat.zero_le _)
  obtain ⟨settled, hPlaced, hSettled, hSpans⟩ := hLaid.exists_placed hChars
  obtain ⟨left, right, tail, -, hLeft, hEdited, hTail⟩ := hPlaced.foldrM_edited?
  obtain rfl := Text.eq_nil_of_byteLength_eq_zero hLeft
  obtain rfl := Option.some.inj (hSettled.symm.trans hEdited)
  refine ⟨settled, ?_, by rw [String.toList_ofList, hTail]⟩
  have hPlaces := hSpans.trans ((hPerm.trans f.inPlaces_perm.symm).map _)
  exact hPlaces.eq_of_pairwise
    (fun s t _ _ hst hts => Span.place_injective (le_antisymm hst hts)) hPlaced.pairwise_place
    (List.pairwise_map.mpr f.pairwise_inPlaces)

/-- All fixes with the same edits give one text as long as they list each insertion behind the
replacement at its place: the source with each of the spans replaced where it stands, and insertions
in front of replacements. Any other order keeps the same bytes of the source, those outside of the
spans. -/
theorem edited?_of_perm (f : Fix) (source : String)
    (h : TextEdit.AreApart source.toList f.edits) :
    ∃ result, utf8 result.toList = TextEdit.spliced (utf8 source.toList) 0 f.inPlaces ∧
      ∀ g : Fix, g.edits.Perm f.edits →
        (g.InsertsLast → g.edited? source = some result) ∧
        ∀ other, g.edited? source = some other →
          ∃ edits, edits.map (·.span) = f.inPlaces.map (·.span) ∧
            utf8 other.toList = TextEdit.spliced (utf8 source.toList) 0 edits := by
  obtain ⟨left, right, tail, -, hLeft, hEdited, hTail⟩ := (placed_inPlaces h).foldrM_edited?
  obtain rfl := Text.eq_nil_of_byteLength_eq_zero hLeft
  refine ⟨String.ofList tail, by rw [String.toList_ofList, hTail], fun g hPerm => ⟨?_, ?_⟩⟩
  · intro hLast
    rw [edited?, ordered_eq (h.of_perm hPerm) hLast, inPlaces_eq_of_perm h hPerm,
      List.foldlM_reverse, hEdited]
    rfl
  · intro other hOther
    rw [← inPlaces_eq_of_perm h hPerm]
    exact exists_spliced_of_edited? (h.of_perm hPerm) hOther

/-- Edits of `var é;`, of which an insertion and a replacement start at one place and two others
touch each other. -/
def lateFix : Fix where
  message := "Make the variable late and final"
  edits := [⟨⟨0, 3⟩, "final"⟩, .insert 6 " = 1", .insert 0 "late ", ⟨⟨4, 6⟩, "e"⟩]

theorem edited?_lateFix :
    let relisted : Fix := { lateFix with
      edits := [⟨⟨4, 6⟩, "e"⟩, ⟨⟨0, 3⟩, "final"⟩, .insert 0 "late ", .insert 6 " = 1"] }
    TextEdit.AreApart "var é;".toList lateFix.edits ∧ relisted.edits.Perm lateFix.edits ∧
      lateFix.InsertsLast ∧ relisted.InsertsLast ∧
      ∃ result, utf8 result.toList = utf8 "late final e = 1;".toList ∧
        lateFix.edited? "var é;" = some result ∧ relisted.edited? "var é;" = some result := by
  intro relisted
  have hApart : TextEdit.AreApart "var é;".toList lateFix.edits :=
    ⟨by decide +kernel, by decide +kernel, by decide +kernel, by decide +kernel⟩
  have hPerm : relisted.edits.Perm lateFix.edits := by decide +kernel
  have hLast : lateFix.InsertsLast := by decide +kernel
  have hRelistedLast : relisted.InsertsLast := by decide +kernel
  have hPlaces : lateFix.inPlaces =
      [.insert 0 "late ", ⟨⟨0, 3⟩, "final"⟩, ⟨⟨4, 6⟩, "e"⟩, .insert 6 " = 1"] := by
    simp [inPlaces, lateFix, List.mergeSort, TextEdit.insert, Span.place_le_iff]
  obtain ⟨result, hBytes, hListings⟩ := lateFix.edited?_of_perm "var é;" hApart
  rw [hPlaces] at hBytes
  exact ⟨hApart, hPerm, hLast, hRelistedLast, result, hBytes.trans (by decide +kernel),
    (hListings lateFix (List.Perm.refl _)).1 hLast, (hListings relisted hPerm).1 hRelistedLast⟩

/-- If the insertion is listed first, the replacement removes the beginning of the inserted text,
and its own span stays. -/
theorem edited?_insertion_first :
    let listed : Fix :=
      ⟨"Make the variable late and final", [.insert 0 "late ", ⟨⟨0, 3⟩, "final"⟩]⟩
    let relisted : Fix := { listed with edits := listed.edits.reverse }
    TextEdit.AreApart "var x;".toList listed.edits ∧ relisted.edits.Perm listed.edits ∧
      listed.edited? "var x;" = some "finale var x;" ∧
      relisted.edited? "var x;" = some "late final x;" := by
  intro listed relisted
  have hOrdered : listed.ordered = listed.edits := List.mergeSort_of_pairwise (by decide)
  have hReordered : relisted.ordered = relisted.edits := List.mergeSort_of_pairwise (by decide)
  refine ⟨⟨by decide +kernel, by decide +kernel, by decide +kernel, by decide +kernel⟩,
    List.reverse_perm _, ?_, ?_⟩
  · rw [edited?, hOrdered]
    decide +kernel
  · rw [edited?, hReordered]
    decide +kernel

end Fix
end SetupLint
