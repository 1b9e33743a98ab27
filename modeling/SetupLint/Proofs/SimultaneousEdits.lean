import Mathlib.Data.List.Nodup
import SetupLint.Diagnostic
import SetupLint.Proofs.Boundary

/-! The edits of a fix as a single replacement. A fix makes its edits one after the other, from the
last one in the text to the first, each in what the others have left. If they do not overlap, the
text before an edit is still that of the source when its turn comes. So offsets into the source stay
right, and the outcome is the source with each of the spans replaced where it stood. -/
namespace SetupLint

open Text (IsBoundary byteLength utf8)

namespace TextEdit

/-- The bytes of a text from an offset on after edits in the order of their places: what comes
before an edit, then the new text for the bytes of its span, and so on behind it. -/
def spliced (bytes : List UInt8) : Nat → List TextEdit → List UInt8
  | offset, [] => bytes.drop offset
  | offset, e :: es =>
    (bytes.take e.span.start.toNat).drop offset ++ utf8 e.text.toList ++
      spliced bytes e.span.stop.toNat es

/-- Edits that come one behind the other from an offset on, and that cut no character. -/
inductive Placed (cs : List Char) : Nat → List TextEdit → Prop where
  | nil {offset : Nat} (boundary : IsBoundary cs offset) : Placed cs offset []
  | cons {offset : Nat} {e : TextEdit} {es : List TextEdit} (boundary : IsBoundary cs offset)
      (behind : offset ≤ e.span.start.toNat) (start : IsBoundary cs e.span.start.toNat)
      (forward : e.span.start ≤ e.span.stop) (rest : Placed cs e.span.stop.toNat es) :
      Placed cs offset (e :: es)

/-- An edit puts its text in the place of the piece at its span. -/
theorem edited?_append {e : TextEdit} {left removed right : List Char}
    (hStart : byteLength left = e.span.start.toNat)
    (hStop : byteLength (left ++ removed) = e.span.stop.toNat) :
    e.edited? (left ++ removed ++ right) = some (left ++ e.text.toList ++ right) := by
  have hLeft : Text.cut? e.span.start.toNat (left ++ removed ++ right) =
      some (left, removed ++ right) := by
    rw [← hStart, List.append_assoc]
    exact Text.cut?_byteLength ..
  have hRight : Text.cut? e.span.stop.toNat (left ++ removed ++ right) =
      some (left ++ removed, right) := by
    rw [← hStop]
    exact Text.cut?_byteLength ..
  have hInside : e.span.start.toNat ≤ e.span.stop.toNat ∧
      e.span.stop.toNat ≤ byteLength (left ++ removed ++ right) := by
    rw [← hStart, ← hStop, Text.byteLength_append _ right, Text.byteLength_append]
    omega
  rw [edited?, if_pos hInside, hLeft, hRight]
  rfl

/-- The bytes between two boundaries of a text. -/
theorem drop_take_utf8 (left kept right : List Char) :
    ((utf8 (left ++ kept ++ right)).take (byteLength (left ++ kept))).drop (byteLength left) =
      utf8 kept := by
  rw [Text.utf8_append, List.take_left' (Text.length_utf8 _), Text.utf8_append,
    List.drop_left' (Text.length_utf8 _)]

/-- Edits that come one behind the other are made from the last one to the first. What stands before
them stays as it is, and behind it the outcome is the one of a single replacement. -/
theorem Placed.foldrM_edited? {cs : List Char} {offset : Nat} {es : List TextEdit}
    (h : Placed cs offset es) :
    ∃ left right tail, cs = left ++ right ∧ byteLength left = offset ∧
      es.foldrM (fun e cs => e.edited? cs) cs = some (left ++ tail) ∧
      utf8 tail = spliced (utf8 cs) offset es := by
  induction h with
  | nil boundary =>
      obtain ⟨left, right, rfl, rfl⟩ := boundary
      refine ⟨left, right, right, rfl, rfl, rfl, ?_⟩
      rw [spliced, Text.utf8_append, List.drop_left' (Text.length_utf8 left)]
  | @cons offset e es boundary behind start forward rest ih =>
      obtain ⟨front, right, tail, rfl, hStop, hEdited, hTail⟩ := ih
      have hForward : e.span.start.toNat ≤ byteLength front :=
        hStop ▸ UInt32.le_iff_toNat_le.mp forward
      -- the end of the edit, its start and the offset are boundaries one before the other
      obtain ⟨before, removed, rfl, hStart⟩ := start.of_le hForward
      rw [List.append_assoc] at boundary
      obtain ⟨left, kept, rfl, hOffset⟩ := boundary.of_le (hStart ▸ behind)
      refine ⟨left, kept ++ removed ++ right, kept ++ e.text.toList ++ tail, by simp, hOffset,
        ?_, ?_⟩
      · rw [List.foldrM_cons, hEdited]
        exact (edited?_append hStart hStop).trans (by simp)
      · have hKept := drop_take_utf8 left kept (removed ++ right)
        rw [hStart, hOffset, ← List.append_assoc] at hKept
        rw [spliced, hKept, ← hTail, Text.utf8_append, Text.utf8_append]

/-- Edits are placed if each of them ends before the next ones start. -/
theorem placed_of_pairwise {cs : List Char} {offset : Nat} {es : List TextEdit}
    (hOffset : IsBoundary cs offset) (hBehind : ∀ e ∈ es, offset ≤ e.span.start.toNat)
    (hForward : ∀ e ∈ es, e.span.start ≤ e.span.stop)
    (hBoundaries : ∀ e ∈ es,
      IsBoundary cs e.span.start.toNat ∧ IsBoundary cs e.span.stop.toNat)
    (hApart : es.Pairwise fun a b => a.span.stop ≤ b.span.start) : Placed cs offset es := by
  induction es generalizing offset with
  | nil => exact .nil hOffset
  | cons e es ih =>
      rw [List.forall_mem_cons] at hBehind hForward hBoundaries
      rw [List.pairwise_cons] at hApart
      refine .cons hOffset hBehind.1 hBoundaries.1.1 hForward.1 (ih hBoundaries.1.2 ?_ hForward.2
        hBoundaries.2 hApart.2)
      exact fun other hOther => UInt32.le_iff_toNat_le.mp (hApart.1 other hOther)

end TextEdit

namespace Fix

/-- The edits of a fix can be made at one time: each of them runs forward from one boundary of the
text to another one, no two start at one place, and of any two one ends before the other one
starts. -/
structure IsSimultaneous (f : Fix) (cs : List Char) : Prop where
  forward : ∀ e ∈ f.edits, e.span.start ≤ e.span.stop
  boundaries : ∀ e ∈ f.edits,
    IsBoundary cs e.span.start.toNat ∧ IsBoundary cs e.span.stop.toNat
  distinct : f.edits.Pairwise fun a b => a.span.start ≠ b.span.start
  apart : f.edits.Pairwise fun a b => a.span.stop ≤ b.span.start ∨ b.span.stop ≤ a.span.start

/-- The edits of a fix in the order of their places, whatever the order in which it lists them. -/
def byPlace (f : Fix) : List TextEdit :=
  f.edits.mergeSort fun a b => decide (a.span.start ≤ b.span.start)

variable {f : Fix} {cs : List Char}

/-- Edits that are sorted by a total order of their starts are in this order. -/
theorem pairwise_mergeSort_start {r : UInt32 → UInt32 → Prop} [DecidableRel r]
    (hTrans : ∀ {a b c}, r a b → r b c → r a c) (hTotal : ∀ a b, r a b ∨ r b a)
    (edits : List TextEdit) :
    (edits.mergeSort fun a b => decide (r a.span.start b.span.start)).Pairwise
      fun a b => r a.span.start b.span.start := by
  refine (List.pairwise_mergeSort (fun a b c hab hbc => ?_) (fun a b => ?_) edits).imp
    of_decide_eq_true
  · exact decide_eq_true (hTrans (of_decide_eq_true hab) (of_decide_eq_true hbc))
  · simpa using hTotal a.span.start b.span.start

theorem pairwise_byPlace (f : Fix) :
    f.byPlace.Pairwise fun a b => a.span.start ≤ b.span.start :=
  pairwise_mergeSort_start (r := fun a b => a ≤ b) UInt32.le_trans UInt32.le_total f.edits

/-- Edits are applied from the last start to the first. -/
theorem pairwise_ordered (f : Fix) :
    f.ordered.Pairwise fun a b => b.span.start ≤ a.span.start :=
  pairwise_mergeSort_start (r := fun a b => b ≤ a) (fun hba hcb => UInt32.le_trans hcb hba)
    (fun a b => UInt32.le_total b a) f.edits

/-- A fix makes its edits from the last one in the text to the first. -/
theorem IsSimultaneous.ordered_eq (h : f.IsSimultaneous cs) : f.ordered = f.byPlace.reverse := by
  have hPerm : f.byPlace.reverse.Perm f.edits :=
    (List.reverse_perm _).trans (List.mergeSort_perm ..)
  have hStarts : (f.edits.map fun e => e.span.start).Nodup := List.pairwise_map.mpr h.distinct
  refine ((List.mergeSort_perm ..).trans hPerm.symm).eq_of_pairwise ?_ f.pairwise_ordered
    (List.pairwise_reverse.mpr f.pairwise_byPlace)
  intro a b ha hb hba hab
  exact List.inj_on_of_nodup_map hStarts (List.mem_mergeSort.mp ha) (hPerm.mem_iff.mp hb)
    (UInt32.le_antisymm hab hba)

/-- Edits that can be made at one time are placed one behind another. -/
theorem IsSimultaneous.placed_byPlace (h : f.IsSimultaneous cs) :
    TextEdit.Placed cs 0 f.byPlace := by
  have hMem {e : TextEdit} (he : e ∈ f.byPlace) : e ∈ f.edits := List.mem_mergeSort.mp he
  have hPerm : f.edits.Perm f.byPlace := (List.mergeSort_perm ..).symm
  have hDistinct := (hPerm.pairwise_iff fun hne => hne.symm).mp h.distinct
  have hApart := (hPerm.pairwise_iff fun hApart => hApart.symm).mp h.apart
  refine TextEdit.placed_of_pairwise (Text.isBoundary_zero cs) (fun _ _ => Nat.zero_le _)
    (fun e he => h.forward e (hMem he)) (fun e he => h.boundaries e (hMem he)) ?_
  refine (f.pairwise_byPlace.and (hDistinct.and hApart)).imp_of_mem ?_
  rintro a b ha hb ⟨hLe, hNe, hEnds | hEnds⟩
  · exact hEnds
  · -- the second one would start and end where the first one starts
    exact absurd (UInt32.le_antisymm hLe (UInt32.le_trans (h.forward b (hMem hb)) hEnds)) hNe

/-- Edits that can be made at one time are: the bytes of the outcome are the pieces of the source
between the spans and the new texts, in the order of their places. -/
theorem edited?_eq_spliced (f : Fix) (source : String) (h : f.IsSimultaneous source.toList) :
    ∃ result, f.edited? source = some result ∧
      utf8 result.toList = TextEdit.spliced (utf8 source.toList) 0 f.byPlace := by
  obtain ⟨left, right, tail, -, hLeft, hEdited, hTail⟩ := h.placed_byPlace.foldrM_edited?
  obtain rfl := Text.eq_nil_of_byteLength_eq_zero hLeft
  refine ⟨String.ofList tail, ?_, by rw [String.toList_ofList, hTail]⟩
  rw [edited?, h.ordered_eq, List.foldlM_reverse, hEdited]
  rfl

/-- Edits of `café: var x;` that touch each other, are listed in no order and change its length. -/
def cafeFix : Fix where
  message := "Make the variable final"
  edits :=
    [⟨⟨7, 10⟩, "final"⟩, .insert 13 " // é", ⟨⟨3, 5⟩, "e"⟩, .insert 0 "the ", ⟨⟨5, 7⟩, "→"⟩]

theorem edited?_cafeFix :
    cafeFix.IsSimultaneous "café: var x;".toList ∧
      ∃ result, cafeFix.edited? "café: var x;" = some result ∧
        utf8 result.toList = utf8 "the cafe→final x; // é".toList := by
  have hSimultaneous : cafeFix.IsSimultaneous "café: var x;".toList :=
    ⟨by decide +kernel, by decide +kernel, by decide +kernel, by decide +kernel⟩
  have hPlaces : cafeFix.byPlace = [.insert 0 "the ", ⟨⟨3, 5⟩, "e"⟩, ⟨⟨5, 7⟩, "→"⟩,
      ⟨⟨7, 10⟩, "final"⟩, .insert 13 " // é"] := by
    simp [byPlace, cafeFix, List.mergeSort, TextEdit.insert]
  obtain ⟨result, hEdited, hBytes⟩ := cafeFix.edited?_eq_spliced _ hSimultaneous
  rw [hPlaces] at hBytes
  exact ⟨hSimultaneous, result, hEdited, hBytes.trans (by decide +kernel)⟩

end Fix
end SetupLint
