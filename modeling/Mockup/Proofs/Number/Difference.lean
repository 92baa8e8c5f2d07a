import Mockup.Proofs.Number.Value

namespace Mockup.Number

namespace Binary64

variable {x y : Binary64} {u v w : Int} {d : Number}

end Binary64

open Mockup.Result

variable {a b d : Number} {p q r : ℚ}

def HasReal (a : Number) : Prop := ∃ u : Int, a.place = .point u ∧ Representable u.natAbs

theorem HasReal.inRange (h : a.HasReal) : a.InRange := by
  obtain ⟨u, hplace, hu⟩ := h
  exact (toReal_of_representable hplace hu).succeeds

theorem HasReal.value? (h : a.HasReal) : ∃ q, a.value? = some q := by
  obtain ⟨u, hplace, -⟩ := h
  refine ⟨u / unitsPerOne, value?_eq_some_iff.mpr ⟨u, hplace, ?_⟩⟩
  rw [div_mul_cancel₀ _ unitsPerOne_cast_pos.ne']

end Mockup.Number
