import Mathlib.Data.List.Nodup
import Mockup.Proofs.Box.Bounds
import Mockup.Proofs.Box.Rect
import Mockup.Proofs.List
import Mockup.Proofs.Number.Faults

namespace Mockup

open Result

namespace Rect

variable {axis : Axis} {rs rs' : List Rect}

theorem sortAlong_perm (axis : Axis) (rs : List Rect) : (sortAlong axis rs).Perm rs :=
  List.mergeSort_perm _ _

theorem pairwise_sortAlong (axis : Axis) (rs : List Rect) :
    (sortAlong axis rs).Pairwise fun a b => a.start axis ≤ b.start axis := by
  have htrans (a b c : Rect) (hab : decide (a.start axis ≤ b.start axis) = true)
      (hbc : decide (b.start axis ≤ c.start axis) = true) :
      decide (a.start axis ≤ c.start axis) = true :=
    decide_eq_true ((of_decide_eq_true hab).trans (of_decide_eq_true hbc))
  have htotal (a b : Rect) :
      (decide (a.start axis ≤ b.start axis) || decide (b.start axis ≤ a.start axis)) = true := by
    simpa using Int.le_total _ _
  exact (List.pairwise_mergeSort htrans htotal rs).imp of_decide_eq_true

/-- There is but one order in which boxes with distinct starts can follow one another. -/
theorem sortAlong_eq_of_perm (h : rs'.Perm rs) (hrs : (rs.map fun r => r.start axis).Nodup) :
    sortAlong axis rs' = sortAlong axis rs := by
  have hperm := (sortAlong_perm axis rs').trans (h.trans (sortAlong_perm axis rs).symm)
  refine hperm.eq_of_pairwise (fun a b ha hb hab hba => ?_) (pairwise_sortAlong axis rs')
    (pairwise_sortAlong axis rs)
  have ha := h.mem_iff.mp ((sortAlong_perm axis rs').mem_iff.mp ha)
  have hb := (sortAlong_perm axis rs).mem_iff.mp hb
  exact List.inj_on_of_nodup_map hrs ha hb (le_antisymm hab hba)

theorem least_eq_of_perm (axis : Axis) (h : rs'.Perm rs) : least axis rs' = least axis rs := by
  rw [least, least, min?_eq_of_perm (h.map _)]

theorem greatest_eq_of_perm (axis : Axis) (h : rs'.Perm rs) :
    greatest axis rs' = greatest axis rs := by
  rw [greatest, greatest, max?_eq_of_perm (h.map _)]

theorem flows_iff_of_perm (h : rs'.Perm rs) (hrs : (rs.map fun r => r.start axis).Nodup) :
    Flows axis rs' ↔ Flows axis rs := by
  rw [Flows, Flows, h.length_eq, spread, spread, max?_eq_of_perm (h.map _),
    least_eq_of_perm _ h, sortAlong_eq_of_perm h hrs]

end Rect

namespace Box

variable {bs : List Box}

/-- Boxes are no stack if every pair was looked at and none covers. -/
theorem isStack_eq_ok_false_iff :
    isStack bs = .ok false ↔ bs.Pairwise fun a b => covers a b = .ok false := by
  induction bs with
  | nil => exact ⟨fun _ => .nil, fun _ => rfl⟩
  | cons a rest ih =>
      rw [isStack_cons, bind_eq_ok_iff, List.pairwise_cons, ← anyM_eq_ok_false_iff, ← ih]
      constructor
      · rintro ⟨found, hfound, h⟩
        cases found with
        | false => exact ⟨hfound, h⟩
        | true => cases h
      · exact fun ⟨ha, hrest⟩ => ⟨false, ha, hrest⟩

theorem isStack_blames {F : NumberFault → Prop} (h : ∀ a ∈ bs, ∀ b ∈ bs, Blames F (covers a b)) :
    Blames F (isStack bs) := by
  induction bs with
  | nil => exact blames_ok _
  | cons a rest ih =>
      rw [isStack_cons]
      refine Blames.bind (.anyM fun b hb => ?_) fun _ => .unlessReturned (ih fun b hb c hc => ?_)
      · exact h a List.mem_cons_self b (List.mem_cons_of_mem a hb)
      · exact h b (List.mem_cons_of_mem a hb) c (List.mem_cons_of_mem a hc)

/-- The smaller of two areas is in the range of reals, in which it is halved. -/
def AreComparable (a b : Box) : Prop := ∃ m n, a.area = .ok m ∧ b.area = .ok n ∧ (m.min n).InRange

end Box

namespace Rect

variable {rs rs' : List Rect}

theorem covers_blames (a b : Rect) : Blames (· = .tooLarge) (Box.covers a.toBox b.toBox) := by
  rw [covers_toBox]
  exact (Number.mul_blames _ _).bind fun _ => blames_ok _

theorem isStack_blames (rs : List Rect) : Blames (· = .tooLarge) (Box.isStack (rs.map toBox)) :=
  Box.isStack_blames <| List.forall_mem_map.mpr fun a _ => List.forall_mem_map.mpr fun b _ =>
    covers_blames a b

theorem areComparable_toBox_iff {a b : Rect} :
    a.toBox.AreComparable b.toBox ↔ (Number.int (a.area ⊓ b.area)).InRange := by
  rw [← Number.min_int]
  constructor
  · rintro ⟨m, n, hm, hn, h⟩
    cases hm
    cases hn
    exact h
  · exact fun h => ⟨_, _, area_toBox a, area_toBox b, h⟩

theorem covers_succeeds_of_areComparable {a b : Rect} (h : a.toBox.AreComparable b.toBox) :
    Succeeds (Box.covers a.toBox b.toBox) := by
  obtain ⟨x, hx⟩ := areComparable_toBox_iff.mp h
  have hmul : (Number.int (a.area ⊓ b.area)).mul (.fraction 1 2) =
      Number.onReals .mul (.int (a.area ⊓ b.area)) (.fraction 1 2) := rfl
  rw [covers_toBox, hmul, Number.onReals, hx]
  exact ⟨_, rfl⟩

/-- Two orders of boxes do not lead to different answers. -/
theorem isStack_unique_of_perm (h : rs'.Perm rs) {p q : Bool}
    (hp : Box.isStack (rs'.map toBox) = .ok p) (hq : Box.isStack (rs.map toBox) = .ok q) :
    p = q := by
  have hfalse : Box.isStack (rs'.map toBox) = .ok false ↔
      Box.isStack (rs.map toBox) = .ok false := by
    rw [Box.isStack_eq_ok_false_iff, Box.isStack_eq_ok_false_iff, List.pairwise_map,
      List.pairwise_map]
    exact h.pairwise_iff fun hab => (covers_comm _ _).trans hab
  rw [hp, hq] at hfalse
  cases p <;> cases q <;> simp_all

/-- Where all pairs of boxes can be compared, it does not matter which pair comes first. -/
theorem isStack_eq_of_perm (h : rs'.Perm rs) (hrs : (rs.map toBox).Pairwise Box.AreComparable) :
    Box.isStack (rs'.map toBox) = Box.isStack (rs.map toBox) := by
  have hcovers : rs.Pairwise fun a b => Succeeds (Box.covers a.toBox b.toBox) :=
    (List.pairwise_map.mp hrs).imp covers_succeeds_of_areComparable
  have hcovers' := (h.pairwise_iff fun {a b} hab => by rwa [covers_comm]).mpr hcovers
  obtain ⟨q, hq⟩ := Box.isStack_succeeds_of_pairwise (List.pairwise_map.mpr hcovers)
  obtain ⟨p, hp⟩ := Box.isStack_succeeds_of_pairwise (List.pairwise_map.mpr hcovers')
  rw [hp, hq, isStack_unique_of_perm h hp hq]

/-- Boxes in another order are as much a stack as they were, unless areas are too large. -/
theorem isStack_eq_or_error (h : rs'.Perm rs) :
    Box.isStack (rs'.map toBox) = Box.isStack (rs.map toBox) ∨
      Box.isStack (rs'.map toBox) = .error .tooLarge ∨
      Box.isStack (rs.map toBox) = .error .tooLarge := by
  cases hp : Box.isStack (rs'.map toBox) with
  | error fault => exact .inr (.inl (by rw [isStack_blames rs' fault hp]))
  | ok p =>
      cases hq : Box.isStack (rs.map toBox) with
      | error fault => exact .inr (.inr (by rw [isStack_blames rs fault hq]))
      | ok q => exact .inl (by rw [isStack_unique_of_perm h hp hq])

end Rect

end Mockup
