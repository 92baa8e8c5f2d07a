import Mockup.Proofs.Box.Rect
import Mockup.Proofs.Layout.Blocks

namespace Mockup

open Result Number

namespace Rect

def IsOf (r : Rect) (b : Box) : Prop :=
  ∀ axis, Yields (IsInteger · (r.start axis)) (b.start axis) ∧
    Yields (IsInteger · (r.extent axis)) (b.extent axis)

def IsSmall (r : Rect) : Prop :=
  ∀ axis, (r.start axis).natAbs < 2 ^ 50 ∧ (r.extent axis).natAbs < 2 ^ 50

variable {r r' : Rect} {b : Box}

theorem isOf_toBox (r : Rect) : r.IsOf r.toBox := fun axis => by
  rw [start_toBox, extent_toBox]
  exact ⟨yields_ok (isInteger_int _), yields_ok (isInteger_int _)⟩

theorem IsOf.unique (h : r.IsOf b) (h' : r'.IsOf b) : r = r' := by
  have hsame {n : Number.Result Number} {i j : Int} (hi : Yields (IsInteger · i) n)
      (hj : Yields (IsInteger · j) n) : i = j := by
    obtain ⟨a, ha, hi⟩ := hi
    obtain ⟨b, hb, hj⟩ := hj
    cases ha.symm.trans hb
    exact hi.inj hj
  obtain ⟨x, y, width, height⟩ := r
  obtain ⟨x', y', width', height'⟩ := r'
  rw [mk.injEq]
  exact ⟨hsame (h .horizontal).1 (h' .horizontal).1, hsame (h .vertical).1 (h' .vertical).1,
    hsame (h .horizontal).2 (h' .horizontal).2, hsame (h .vertical).2 (h' .vertical).2⟩

def before (axis : Axis) (box parent : Rect) : Int := box.start axis - parent.start axis

def after (axis : Axis) (box parent : Rect) : Int := parent.finish axis - box.finish axis

variable {box parent : Rect}

theorem start_eq_add_before (axis : Axis) (box parent : Rect) :
    box.start axis = parent.start axis + box.before axis parent := by
  rw [before]
  omega

theorem finish_eq_sub_after (axis : Axis) (box parent : Rect) :
    box.finish axis = parent.finish axis - box.after axis parent := by
  rw [after]
  omega

theorem natAbs_before_lt (hbox : box.IsSmall) (hparent : parent.IsSmall) (axis : Axis) :
    (before axis box parent).natAbs < 2 ^ 52 := by
  have := hbox axis
  have := hparent axis
  rw [before]
  omega

theorem natAbs_after_lt (hbox : box.IsSmall) (hparent : parent.IsSmall) (axis : Axis) :
    (after axis box parent).natAbs < 2 ^ 52 := by
  have := hbox axis
  have := hparent axis
  rw [after, finish, finish]
  omega

end Rect

namespace Position

variable {box parent : Rect} {b p : Box}

/-- Of the names of constraints only one does not tie to edges. -/
theorem Tie.ofName_eq {name : Option String} (h : name ≠ some "SCALE") : Tie.ofName name =
    if name = some "RIGHT" ∨ name = some "BOTTOM" then .far
    else if name = some "LEFT_RIGHT" ∨ name = some "TOP_BOTTOM" then .both
    else .near := by
  rw [Tie.ofName.eq_def]
  split <;> simp_all

/-- The distances of a box from the edges to which it is tied. Shares of the parent are not among
them. -/
def distances (axis : Axis) (tie : Tie) (box parent : Rect) : Fields :=
  match tie with
  | .near => [(nearName axis, .ofInt (box.before axis parent))]
  | .far => [(farName axis, .ofInt (box.after axis parent))]
  | .both => [(nearName axis, .ofInt (box.before axis parent)),
      (farName axis, .ofInt (box.after axis parent)), (extentName axis, .text "auto")]
  | .scale => []

/-- Ties to edges lead to distances, which are found without rounding. -/
theorem along_eq_distances (axis : Axis) {tie : Tie} (htie : tie ≠ .scale) (hbox : box.IsOf b)
    (hparent : parent.IsOf p) (hsmall : box.IsSmall) (hparentSmall : parent.IsSmall) :
    along axis tie b p = .ok (distances axis tie box parent) := by
  obtain ⟨start, hstart, hs⟩ := (hbox axis).1
  obtain ⟨size, hsize, he⟩ := (hbox axis).2
  obtain ⟨start', hstart', hs'⟩ := (hparent axis).1
  obtain ⟨whole, hwhole, hw⟩ := (hparent axis).2
  have hb := hsmall axis
  have hp := hparentSmall axis
  -- each step adds no more than a bit, which leaves all of them within 53
  obtain ⟨offset, hoffset, ho⟩ := hs.sub hs' (by omega) (by omega) (by omega)
  obtain ⟨last, hlast, hl⟩ := ho.add he (by omega) (by omega) (by omega)
  obtain ⟨trailing, htrailing, ht⟩ := hw.sub hl (by omega) (by omega) (by omega)
  have hafter : box.after axis parent =
      parent.extent axis - (box.start axis - parent.start axis + box.extent axis) := by
    rw [Rect.after, Rect.finish, Rect.finish]
    omega
  rw [← hafter] at ht
  rw [along, hstart, ok_bind, hstart', ok_bind, hoffset, ok_bind, hsize, ok_bind, hwhole, ok_bind,
    hlast, ok_bind, htrailing, ok_bind, ho.normalize, ht.normalize]
  cases tie with
  | near | far | both => rfl
  | scale => exact absurd rfl htie

def tieOf (c : Constraints) : Axis → Tie
  | .horizontal => .ofName c.horizontal
  | .vertical => .ofName c.vertical

def corners (ties : Axis → Tie) (box parent : Rect) : Fields :=
  ("position", .text "absolute") :: (distances .horizontal (ties .horizontal) box parent ++
    distances .vertical (ties .vertical) box parent)

theorem of_eq_corners {b : Block} {p : Box} {flow : Flow} {c : Constraints} {fields : Fields}
    (hc : b.constraints = some c) (hties : ∀ axis, tieOf c axis ≠ .scale) (hbox : box.IsOf b.box)
    (hparent : parent.IsOf p) (hsmall : box.IsSmall) (hparentSmall : parent.IsSmall)
    (h : Position.of b (some flow) (some p) = .ok (some fields)) :
    fields = corners (tieOf c) box parent := by
  have hboth : ofConstraints c b.box p = .ok (corners (tieOf c) box parent) := by
    have halong (axis : Axis) :=
      along_eq_distances axis (hties axis) hbox hparent hsmall hparentSmall
    exact bind_eq_ok_iff.mpr
      ⟨_, halong .horizontal, bind_eq_ok_iff.mpr ⟨_, halong .vertical, rfl⟩⟩
  rw [of.eq_def, hc] at h
  dsimp only at h
  split at h
  · rw [hboth] at h
    cases h
    rfl
  · cases h

end Position

end Mockup
