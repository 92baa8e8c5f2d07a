import Mathlib.Algebra.Group.Nat.Defs
import Mathlib.Data.Nat.Log
import Mockup.Number

namespace Mockup.Number

theorem div_le_roundQuotient (n d : Nat) : n / d ≤ roundQuotient n d := by
  simp only [roundQuotient]
  split_ifs <;> omega

theorem roundQuotient_le (n d : Nat) : roundQuotient n d ≤ n / d + 1 := by
  simp only [roundQuotient]
  split_ifs <;> omega

namespace Binary64

/-- Rounding keeps 53 bits, or gives the next power of two. -/
theorem roundQuotient_dropped_le (n d : Nat) :
    roundQuotient n (d * 2 ^ droppedBits n d) ≤ 2 ^ 53 := by
  have hlt : n / d < 2 ^ 53 * 2 ^ droppedBits n d := by
    calc n / d < 2 ^ ((n / d).log2 + 1) := Nat.lt_log2_self
      _ ≤ 2 ^ (53 + droppedBits n d) :=
        Nat.pow_le_pow_right (by decide) (by rw [droppedBits]; omega)
      _ = 2 ^ 53 * 2 ^ droppedBits n d := Nat.pow_add ..
  have hquotient : n / (d * 2 ^ droppedBits n d) < 2 ^ 53 := by
    rw [← Nat.div_div_eq_div_mul]
    exact Nat.div_lt_of_lt_mul (by rwa [Nat.mul_comm])
  exact (roundQuotient_le _ _).trans hquotient

theorem roundUnits_eq (n d : Nat) :
    roundUnits n d = roundQuotient n (d * 2 ^ droppedBits n d) * 2 ^ droppedBits n d := rfl

theorem mod_pow_eq_zero {r k : Nat} (hr : r ≤ 2 ^ 53) :
    (r * 2 ^ k) % 2 ^ ((r * 2 ^ k).log2 - 52) = 0 := by
  refine Nat.mod_eq_zero_of_dvd ?_
  rcases Nat.lt_or_eq_of_le hr with hlt | rfl
  · have hlog : (r * 2 ^ k).log2 - 52 ≤ k := by
      by_cases hzero : r * 2 ^ k = 0
      · rw [hzero, Nat.log2_zero]
        omega
      · have h : r * 2 ^ k < 2 ^ (53 + k) := by
          rw [Nat.pow_add]
          exact Nat.mul_lt_mul_of_pos_right hlt (Nat.two_pow_pos k)
        have := (Nat.log2_lt hzero).mpr h
        omega
    exact Nat.dvd_trans (Nat.pow_dvd_pow 2 hlog) (Nat.dvd_mul_left _ r)
  · rw [← Nat.pow_add, Nat.log2_two_pow]
    exact Nat.pow_dvd_pow 2 (by omega)

theorem representable_roundUnits {n d : Nat} (h : roundUnits n d < Nat.pow 2 2098) :
    Representable (roundUnits n d) :=
  ⟨h, by rw [roundUnits_eq]; exact mod_pow_eq_zero (roundQuotient_dropped_le n d)⟩

/-- A rounded quotient is at most the next power of two. -/
theorem roundUnits_le (n d : Nat) : roundUnits n d ≤ 2 ^ ((n / d).log2 + 1) := by
  have hle : droppedBits n d ≤ (n / d).log2 := by
    rw [droppedBits]
    omega
  have hlt : n / d < 2 ^ ((n / d).log2 + 1 - droppedBits n d) * 2 ^ droppedBits n d := by
    rw [← Nat.pow_add, Nat.sub_add_cancel (by omega)]
    exact Nat.lt_log2_self
  have hquotient :
      n / (d * 2 ^ droppedBits n d) < 2 ^ ((n / d).log2 + 1 - droppedBits n d) := by
    rw [← Nat.div_div_eq_div_mul]
    exact Nat.div_lt_of_lt_mul (by rwa [Nat.mul_comm])
  calc roundUnits n d
      ≤ 2 ^ ((n / d).log2 + 1 - droppedBits n d) * 2 ^ droppedBits n d :=
        Nat.mul_le_mul_right _ ((roundQuotient_le _ _).trans hquotient)
    _ = 2 ^ ((n / d).log2 + 1) := by rw [← Nat.pow_add, Nat.sub_add_cancel (by omega)]

theorem pow_log2_le_roundUnits {n : Nat} (hn : n ≠ 0) : 2 ^ n.log2 ≤ roundUnits n 1 := by
  have hle : droppedBits n 1 ≤ n.log2 := by
    rw [droppedBits, Nat.div_one]
    omega
  have hquotient : 2 ^ (n.log2 - droppedBits n 1) ≤ n / (1 * 2 ^ droppedBits n 1) := by
    rw [Nat.one_mul, Nat.le_div_iff_mul_le (Nat.two_pow_pos _), ← Nat.pow_add,
      Nat.sub_add_cancel hle]
    exact Nat.log2_self_le hn
  calc 2 ^ n.log2 = 2 ^ (n.log2 - droppedBits n 1) * 2 ^ droppedBits n 1 := by
        rw [← Nat.pow_add, Nat.sub_add_cancel hle]
    _ ≤ roundUnits n 1 :=
        Nat.mul_le_mul_right _ (hquotient.trans (div_le_roundQuotient _ _))

theorem roundUnits_zero {d : Nat} (hd : 0 < d) : roundUnits 0 d = 0 := by
  rw [roundUnits_eq, roundQuotient]
  simp [hd]

/-- Dividing by a natural does not round to more than not dividing. -/
theorem roundUnits_le_roundUnits_one (n : Nat) {d : Nat} (hd : 0 < d) :
    roundUnits n d ≤ roundUnits n 1 := by
  by_cases hone : d = 1
  · rw [hone]
  by_cases hn0 : n = 0
  · rw [hn0, roundUnits_zero hd]
    exact Nat.zero_le _
  by_cases hn : n / d = 0
  · calc roundUnits n d ≤ 1 := by
          rw [roundUnits_eq, droppedBits, hn]
          simpa [hn] using roundQuotient_le n d
      _ ≤ 2 ^ n.log2 := Nat.one_le_two_pow
      _ ≤ roundUnits n 1 := pow_log2_le_roundUnits hn0
  · have hlog : (n / d).log2 + 1 ≤ n.log2 := by
      have hhalf : n / d * 2 ≤ n :=
        (Nat.mul_le_mul_left _ (by omega)).trans (Nat.div_mul_le_self n d)
      rw [Nat.le_log2 hn0, Nat.pow_succ]
      exact (Nat.mul_le_mul_right 2 (Nat.log2_self_le hn)).trans hhalf
    exact (roundUnits_le n d).trans
      ((Nat.pow_le_pow_right (by decide) hlog).trans (pow_log2_le_roundUnits hn0))

theorem isFinite_ofRatio_iff (negative : Bool) (n d : Nat) :
    (ofRatio negative n d).isFinite = true ↔ Representable (roundUnits (n * unitsPerOne) d) := by
  rw [ofRatio, ofUnits]
  split <;> simp_all [isFinite]

/-- A quotient of a natural in the range of finite values is in that range. -/
theorem isFinite_ofRatio {negative : Bool} {n d : Nat} (hd : 0 < d)
    (h : (ofRatio negative n 1).isFinite = true) (negative' : Bool) :
    (ofRatio negative' n d).isFinite = true := by
  rw [isFinite_ofRatio_iff] at h ⊢
  exact representable_roundUnits (Nat.lt_of_le_of_lt (roundUnits_le_roundUnits_one _ hd) h.1)

end Binary64

/-- A number that can be taken as a real: all reals, and the integers within their range. -/
def InRange (a : Number) : Prop := ∃ x, a.toReal = .ok x

theorem onReals_eq_ok {a b : Number} (ha : a.InRange) (hb : b.InRange)
    (f : Binary64 → Binary64 → Binary64) : ∃ c, onReals f a b = .ok c := by
  obtain ⟨x, hx⟩ := ha
  obtain ⟨y, hy⟩ := hb
  exact ⟨.real (f x y), by rw [onReals, hx, hy]; rfl⟩

/-- Numbers in the range of reals have a quotient, unless the divisor is zero. -/
theorem div_eq_ok {a b : Number} (ha : a.InRange) (hb : b.InRange) (hzero : b.isZero = false) :
    ∃ c, a.div b = .ok c := by
  unfold div
  rw [hzero, if_neg Bool.false_ne_true]
  cases a with
  | real x => exact onReals_eq_ok ha hb .div
  | int i =>
      cases b with
      | real y => exact onReals_eq_ok ha hb .div
      | int j =>
          have hi : (Binary64.ofRatio (decide (i < 0)) i.natAbs 1).isFinite = true := by
            obtain ⟨x, hx⟩ := ha
            by_contra hinf
            simp [toReal, Binary64.ofInt, hinf] at hx
          have hj : 0 < j.natAbs := by
            have hj : j ≠ 0 := by simpa [isZero] using hzero
            omega
          have hfinite := Binary64.isFinite_ofRatio hj hi (decide (i < 0) != decide (j < 0))
          exact ⟨_, if_pos hfinite⟩

theorem place_of_isZero {a : Number} (h : a.isZero = true) : a.place = .point 0 := by
  cases a with
  | int i =>
      obtain rfl : i = 0 := by simpa [isZero] using h
      simp [place]
  | real x =>
      cases x with
      | nan => cases h
      | infinity s => cases h
      | finite s u _ =>
          obtain rfl : u = 0 := by simpa [isZero, Binary64.isZero] using h
          cases s <;> rfl

theorem unitsPerOne_pos : 0 < unitsPerOne := by decide +kernel

/-- A zero is less than any positive integer. -/
theorem lt_of_isZero {a : Number} (h : a.isZero = true) {i : Int} (hi : 0 < i) :
    a.lt (.int i) = true := by
  have hpos : 0 < i * (unitsPerOne : Int) := Int.mul_pos hi (by exact_mod_cast unitsPerOne_pos)
  rw [lt, place_of_isZero h]
  exact decide_eq_true hpos

theorem le_of_isZero {a : Number} (h : a.isZero = true) : a.le 0 = true := by
  have hzero : (0 : Number).place = .point 0 := place_of_isZero rfl
  rw [le, eq, place_of_isZero h, hzero]
  simp

end Mockup.Number
