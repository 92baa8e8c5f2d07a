import Mockup.Box
import Mockup.Proofs.Agreement

namespace Mockup

structure Offset where
  x : Int
  y : Int

def Offset.along (v : Offset) : Axis → Int
  | .horizontal => v.x
  | .vertical => v.y

/-- A coordinate that is moved. A real one is moved as far as reals are exact. -/
def Number.moved (k : Int) : Number → Number
  | .int i => .int (i + k)
  | .real x => .real (x.add (.ofInt k))

namespace Box

def moved (v : Offset) (b : Box) : Box :=
  { b with x := b.x.map (Number.moved v.x), y := b.y.map (Number.moved v.y) }

def IsIntegral (b : Box) : Prop :=
  ∃ x y width height : Int, b = ⟨some (.int x), some (.int y), some (.int width), some (.int height)⟩

end Box

/-- In what two documents may differ: in the texts that they show, or in where all of it stands. -/
inductive Change where
  | texts
  | motion (offset : Offset)

namespace Change

def Shifts (c : Change) (axis : Axis) (a b : Number) : Prop :=
  match c with
  | texts => a = b
  | motion v => ∃ i, a = .int i ∧ b = .int (i + v.along axis)

def Moves (c : Change) (a b : Box) : Prop :=
  match c with
  | texts => a = b
  | motion v => a.IsIntegral ∧ b = a.moved v

variable {c : Change} {axis : Axis}

namespace Shifts

variable {a a' b b' : Number}

theorem sub_eq (ha : c.Shifts axis a a') (hb : c.Shifts axis b b') : a.sub b = a'.sub b' := by
  cases c with
  | texts => rw [show a = a' from ha, show b = b' from hb]
  | motion v =>
      obtain ⟨i, rfl, rfl⟩ := ha
      obtain ⟨j, rfl, rfl⟩ := hb
      simp only [Number.sub, Int.add_sub_add_right]

theorem sub_int (ha : c.Shifts axis a a') (n : Int) :
    Result.Agree (c.Shifts axis) (a.sub (.int n)) (a'.sub (.int n)) := by
  cases c with
  | texts => exact Result.agree_eq_iff.mpr (congrArg (Number.sub · _) ha)
  | motion v =>
      obtain ⟨i, rfl, rfl⟩ := ha
      exact .ok ⟨i - n, rfl, congrArg Number.int (by omega)⟩

theorem lt_eq (ha : c.Shifts axis a a') (hb : c.Shifts axis b b') : a.lt b = a'.lt b' := by
  cases c with
  | texts => rw [show a = a' from ha, show b = b' from hb]
  | motion v =>
      obtain ⟨i, rfl, rfl⟩ := ha
      obtain ⟨j, rfl, rfl⟩ := hb
      simp only [Number.lt, Number.place, Int.add_mul, Int.add_lt_add_iff_right]

theorem max (ha : c.Shifts axis a a') (hb : c.Shifts axis b b') :
    c.Shifts axis (a.max b) (a'.max b') := by
  rw [Number.max, Number.max, ha.lt_eq hb]
  split
  · exact hb
  · exact ha

theorem min (ha : c.Shifts axis a a') (hb : c.Shifts axis b b') :
    c.Shifts axis (a.min b) (a'.min b') := by
  rw [Number.min, Number.min, hb.lt_eq ha]
  split
  · exact hb
  · exact ha

variable {ns ns' : List Number}

theorem maximum (ha : c.Shifts axis a a') (h : List.Forall₂ (c.Shifts axis) ns ns') :
    c.Shifts axis (Number.maximum a ns) (Number.maximum a' ns') :=
  List.rel_foldl (fun _ _ ha _ _ hb => ha.max hb) ha h

theorem minimum (ha : c.Shifts axis a a') (h : List.Forall₂ (c.Shifts axis) ns ns') :
    c.Shifts axis (Number.minimum a ns) (Number.minimum a' ns') :=
  List.rel_foldl (fun _ _ ha _ _ hb => ha.min hb) ha h

end Shifts

/-- Of two coordinates along one axis the difference alone tells nothing about the place. -/
theorem difference_eq {α : Type} {x x' y y' : Number.Result Number}
    (hx : Result.Agree (c.Shifts axis) x x') (hy : Result.Agree (c.Shifts axis) y y')
    (f : Number → Number.Result α) :
    (x >>= fun a => y >>= fun b => a.sub b >>= f) =
      x' >>= fun a => y' >>= fun b => a.sub b >>= f :=
  hx.bind_eq fun a a' ha => hy.bind_eq fun b b' hb => by rw [ha.sub_eq hb]

namespace Moves

variable {a b : Box}

theorem extent_eq (h : c.Moves a b) (axis : Axis) : a.extent axis = b.extent axis := by
  cases c with
  | texts => exact congrArg (Box.extent · axis) h
  | motion v =>
      obtain ⟨-, rfl⟩ := h
      cases axis <;> rfl

theorem start (h : c.Moves a b) (axis : Axis) :
    Result.Agree (c.Shifts axis) (a.start axis) (b.start axis) := by
  cases c with
  | texts => exact Result.agree_eq_iff.mpr (congrArg (Box.start · axis) h)
  | motion v =>
      obtain ⟨⟨x, y, width, height, rfl⟩, rfl⟩ := h
      cases axis with
      | horizontal => exact .ok ⟨x, rfl, rfl⟩
      | vertical => exact .ok ⟨y, rfl, rfl⟩

theorem finish (h : c.Moves a b) (axis : Axis) :
    Result.Agree (c.Shifts axis) (a.finish axis) (b.finish axis) := by
  cases c with
  | texts => exact Result.agree_eq_iff.mpr (congrArg (Box.finish · axis) h)
  | motion v =>
      obtain ⟨⟨x, y, width, height, rfl⟩, rfl⟩ := h
      cases axis with
      | horizontal => exact .ok ⟨x + width, rfl, congrArg Number.int (Int.add_right_comm x _ _)⟩
      | vertical => exact .ok ⟨y + height, rfl, congrArg Number.int (Int.add_right_comm y _ _)⟩

theorem area_eq (h : c.Moves a b) : a.area = b.area := by
  simp only [Box.area, h.extent_eq]

end Moves

end Change

end Mockup
