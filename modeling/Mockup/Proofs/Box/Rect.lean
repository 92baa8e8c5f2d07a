import Mockup.Box.Flow
import Mockup.Proofs.Box.Motion
import Mockup.Proofs.Number.Exact

namespace Mockup

structure Rect where
  x : Int
  y : Int
  width : Int
  height : Int
  deriving DecidableEq

namespace Rect

def toBox (r : Rect) : Box :=
  ⟨some (.int r.x), some (.int r.y), some (.int r.width), some (.int r.height)⟩

def start (r : Rect) : Axis → Int
  | .horizontal => r.x
  | .vertical => r.y

def extent (r : Rect) : Axis → Int
  | .horizontal => r.width
  | .vertical => r.height

def finish (r : Rect) (axis : Axis) : Int := r.start axis + r.extent axis

def area (r : Rect) : Int := r.width * r.height

def shared (axis : Axis) (a b : Rect) : Int :=
  0 ⊔ (a.finish axis ⊓ b.finish axis - a.start axis ⊔ b.start axis)

def sortAlong (axis : Axis) (rs : List Rect) : List Rect :=
  rs.mergeSort fun a b => decide (a.start axis ≤ b.start axis)

def Follows (axis : Axis) (a b : Rect) : Prop := a.finish axis - 2 ≤ b.start axis

instance (axis : Axis) : DecidableRel (Follows axis) := fun _ _ =>
  inferInstanceAs (Decidable (_ ≤ _))

def distances (axis : Axis) : List Rect → List Int
  | a :: b :: rest => (b.start axis - a.finish axis) :: distances axis (b :: rest)
  | _ => []

def least (axis : Axis) (rs : List Rect) : Int := (rs.map fun r => r.start axis).min?.getD 0

def greatest (axis : Axis) (rs : List Rect) : Int := (rs.map fun r => r.finish axis).max?.getD 0

def spread (axis : Axis) (rs : List Rect) : Int :=
  (rs.map fun r => r.start axis).max?.getD 0 - least axis rs

def Flows (axis : Axis) (rs : List Rect) : Prop :=
  2 ≤ rs.length ∧ spread axis.other rs ≤ 22 ∧ (sortAlong axis rs).IsChain (Follows axis)

instance (axis : Axis) : DecidablePred (Flows axis) := fun _ => inferInstanceAs (Decidable (_ ∧ _))

variable {axis : Axis} {a b r : Rect} {rs : List Rect}

@[simp] theorem start_toBox (r : Rect) (axis : Axis) :
    r.toBox.start axis = .ok (.int (r.start axis)) := by
  cases axis <;> rfl

@[simp] theorem extent_toBox (r : Rect) (axis : Axis) :
    r.toBox.extent axis = .ok (.int (r.extent axis)) := by
  cases axis <;> rfl

@[simp] theorem finish_toBox (r : Rect) (axis : Axis) :
    r.toBox.finish axis = .ok (.int (r.finish axis)) := by
  cases axis <;> rfl

@[simp] theorem area_toBox (r : Rect) : r.toBox.area = .ok (.int r.area) := rfl

theorem isIntegral_toBox (r : Rect) : r.toBox.IsIntegral := ⟨_, _, _, _, rfl⟩

theorem exists_of_isIntegral {b : Box} (h : b.IsIntegral) : ∃ r : Rect, b = r.toBox := by
  obtain ⟨x, y, width, height, rfl⟩ := h
  exact ⟨⟨x, y, width, height⟩, rfl⟩

theorem toBox_injective : Function.Injective toBox := by
  rintro ⟨x, y, width, height⟩ ⟨x', y', width', height'⟩ h
  cases h
  rfl

theorem exists_map_toBox {bs : List Box} (h : ∀ b ∈ bs, b.IsIntegral) :
    ∃ rs : List Rect, bs = rs.map toBox := by
  induction bs with
  | nil => exact ⟨[], rfl⟩
  | cons b bs ih =>
      obtain ⟨hb, hbs⟩ := List.forall_mem_cons.mp h
      obtain ⟨r, rfl⟩ := exists_of_isIntegral hb
      obtain ⟨rs, rfl⟩ := ih hbs
      exact ⟨r :: rs, rfl⟩

/-- What is an integer of each box is one of all of them. -/
theorem mapM_toBox {f : Box → Number.Result Number} {g : Rect → Int}
    (h : ∀ r : Rect, f r.toBox = .ok (.int (g r))) (rs : List Rect) :
    (rs.map toBox).mapM f = .ok ((rs.map g).map Number.int) := by
  induction rs with
  | nil => rfl
  | cons r rs ih =>
      rw [List.map_cons, List.mapM_cons, h, ih]
      rfl

theorem startsBefore_toBox (axis : Axis) (a b : Rect) :
    Box.startsBefore axis a.toBox b.toBox = decide (a.start axis < b.start axis) := by
  simp [Box.startsBefore, Number.lt_int]

theorem sortAlong_toBox (axis : Axis) (rs : List Rect) :
    Box.sortAlong axis (rs.map toBox) = .ok ((sortAlong axis rs).map toBox) := by
  have hstarts : ((rs.map toBox).forM fun b => b.start axis >>= fun _ => pure ()) =
      (.ok () : Number.Result Unit) := by
    induction rs with
    | nil => rfl
    | cons r rs ih =>
        rw [List.map_cons, List.forM, start_toBox, ih]
        rfl
  have hsorted : (sortAlong axis rs).map toBox =
      (rs.map toBox).mergeSort fun a b => !Box.startsBefore axis b a :=
    List.map_mergeSort fun a _ b _ => by
      rw [startsBefore_toBox, ← decide_not, decide_eq_decide, not_lt]
  rw [Box.sortAlong, hsorted, hstarts]
  split <;> rfl

theorem inSequence_toBox (axis : Axis) (rs : List Rect) :
    Box.inSequence axis (rs.map toBox) = .ok (decide (rs.IsChain (Follows axis))) := by
  induction rs with
  | nil => rfl
  | cons a rs ih =>
      cases rs with
      | nil => rfl
      | cons b rest =>
          have hlt : (Number.int (b.start axis)).lt (.int (a.finish axis - 2)) =
              decide (¬Follows axis a b) := by
            rw [Number.lt_int, decide_eq_decide, Follows, not_le]
          rw [List.map_cons, List.map_cons, Box.inSequence, finish_toBox, start_toBox]
          rw [List.map_cons] at ih
          change (if (Number.int (b.start axis)).lt (.int (a.finish axis - 2)) then
            Except.ok false else Box.inSequence axis (b.toBox :: rest.map toBox)) = _
          rw [hlt, ih]
          by_cases h : Follows axis a b <;> simp [h]

theorem minimum_toBox (f : Rect → Int) (r : Rect) (rs : List Rect) :
    Number.minimum (.int (f r)) ((rs.map f).map Number.int) =
      .int (((r :: rs).map f).min?.getD 0) := by
  rw [Number.minimum_int, List.map_cons, List.min?_cons', Option.getD_some]

theorem maximum_toBox (f : Rect → Int) (r : Rect) (rs : List Rect) :
    Number.maximum (.int (f r)) ((rs.map f).map Number.int) =
      .int (((r :: rs).map f).max?.getD 0) := by
  rw [Number.maximum_int, List.map_cons, List.max?_cons', Option.getD_some]

theorem flowsAlong_toBox (axis : Axis) (rs : List Rect) :
    Box.flowsAlong axis (rs.map toBox) = .ok (decide (Flows axis rs)) := by
  match rs with
  | [] | [_] => exact congrArg Except.ok (decide_eq_false fun h => absurd h.1 (by simp)).symm
  | a :: b :: rest =>
      have hstarts := mapM_toBox (f := fun c => c.start axis.other)
        (g := fun r => r.start axis.other) (fun r => r.start_toBox axis.other) (b :: rest)
      have hspread : Box.spread (.int (a.start axis.other))
          (((b :: rest).map fun r => r.start axis.other).map Number.int) =
          .ok (.int (spread axis.other (a :: b :: rest))) := by
        rw [Box.spread, maximum_toBox fun r => r.start axis.other,
          minimum_toBox fun r => r.start axis.other]
        rfl
      rw [List.map_cons, List.map_cons, Box.flowsAlong, ← List.map_cons, ← List.map_cons, hstarts,
        start_toBox, sortAlong_toBox]
      change (Box.spread _ _ >>= fun n => if Box.alignmentSpread.lt n then Except.ok false
        else Box.inSequence axis _) = _
      rw [hspread, inSequence_toBox]
      change (if (Number.int 22).lt _ then Except.ok false else _) = _
      rw [Number.lt_int]
      by_cases h : 22 < spread axis.other (a :: b :: rest)
      · simp [h, Flows, not_le.mpr h]
      · simp [h, Flows, not_lt.mp h]

theorem gaps_toBox (axis : Axis) (rs : List Rect) :
    Box.gaps axis (rs.map toBox) = .ok ((distances axis rs).map Number.int) := by
  induction rs with
  | nil => rfl
  | cons a rs ih =>
      cases rs with
      | nil => rfl
      | cons b rest =>
          rw [List.map_cons, List.map_cons, Box.gaps, finish_toBox, start_toBox]
          rw [List.map_cons] at ih
          rw [ih]
          rfl

theorem sharedExtent_toBox (axis : Axis) (a b : Rect) :
    Box.sharedExtent axis a.toBox b.toBox = .ok (.int (shared axis a b)) := by
  rw [Box.sharedExtent, start_toBox, start_toBox, finish_toBox, finish_toBox]
  change (((Number.int (a.finish axis)).min (.int (b.finish axis))).sub
    ((Number.int (a.start axis)).max (.int (b.start axis))) >>= fun n => pure (Number.max 0 n)) = _
  rw [Number.min_int, Number.max_int]
  exact congrArg Except.ok (Number.max_int _ _)

/-- Only the smaller area is ever halved. -/
theorem covers_toBox (a b : Rect) : Box.covers a.toBox b.toBox =
    (Number.int (a.area ⊓ b.area)).mul (.fraction 1 2) >>= fun limit =>
      .ok (limit.lt (.int (shared .horizontal a b * shared .vertical a b))) := by
  rw [Box.covers, Box.overlapArea, sharedExtent_toBox, sharedExtent_toBox, area_toBox, area_toBox,
    ← Number.min_int]
  rfl

theorem shared_comm (axis : Axis) (a b : Rect) : shared axis a b = shared axis b a := by
  rw [shared, shared, min_comm, max_comm (a.start axis)]

theorem covers_comm (a b : Rect) : Box.covers a.toBox b.toBox = Box.covers b.toBox a.toBox := by
  rw [covers_toBox, covers_toBox, min_comm, shared_comm .horizontal, shared_comm .vertical]

theorem sortAlong_eq_self (h : rs.Pairwise fun a b => a.start axis ≤ b.start axis) :
    sortAlong axis rs = rs :=
  List.mergeSort_of_pairwise (h.imp fun hab => decide_eq_true hab)

theorem least_eq {i : Int} (hmem : ∃ r ∈ rs, r.start axis = i) (hle : ∀ r ∈ rs, i ≤ r.start axis) :
    least axis rs = i := by
  have hmin : (rs.map fun r => r.start axis).min? = some i :=
    List.min?_eq_some_iff.mpr ⟨List.mem_map.mpr hmem, List.forall_mem_map.mpr hle⟩
  rw [least, hmin, Option.getD_some]

theorem greatest_eq {i : Int} (hmem : ∃ r ∈ rs, r.finish axis = i)
    (hle : ∀ r ∈ rs, r.finish axis ≤ i) : greatest axis rs = i := by
  have hmax : (rs.map fun r => r.finish axis).max? = some i :=
    List.max?_eq_some_iff.mpr ⟨List.mem_map.mpr hmem, List.forall_mem_map.mpr hle⟩
  rw [greatest, hmax, Option.getD_some]

theorem spread_eq_zero {i : Int} (hne : rs ≠ []) (h : ∀ r ∈ rs, r.start axis = i) :
    spread axis rs = 0 := by
  obtain ⟨r, hr⟩ := List.exists_mem_of_ne_nil rs hne
  have hmax : (rs.map fun r => r.start axis).max? = some i :=
    List.max?_eq_some_iff.mpr ⟨List.mem_map.mpr ⟨r, hr, h r hr⟩,
      List.forall_mem_map.mpr fun r hr => (h r hr).le⟩
  have hleast := least_eq ⟨r, hr, h r hr⟩ fun r hr => (h r hr).ge
  rw [spread, hmax, hleast, Option.getD_some, Int.sub_self]

/-- Boxes that end before others start do not cover these. -/
theorem covers_eq_false (h : a.finish axis ≤ b.start axis) (ha : 0 ≤ a.area) (hb : 0 ≤ b.area)
    (hrange : (Number.int (a.area ⊓ b.area)).InRange) :
    Box.covers a.toBox b.toBox = .ok false := by
  -- what is shared is a product, and along the one axis nothing is
  have hzero : shared axis a b = 0 :=
    max_eq_left ((Int.sub_le_sub (min_le_left _ _) (le_max_right _ _)).trans (by omega))
  have hoverlap : shared .horizontal a b * shared .vertical a b = 0 := by
    cases axis with
    | horizontal => rw [hzero, Int.zero_mul]
    | vertical => rw [hzero, Int.mul_zero]
  obtain ⟨limit, hlimit, hnonneg⟩ := Number.half_not_neg (le_min ha hb) hrange
  rw [covers_toBox, hlimit, Result.ok_bind, hoverlap]
  exact congrArg Except.ok hnonneg

end Rect

end Mockup
