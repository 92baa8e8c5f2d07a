import Mockup.Proofs.Number.Exact
import Mockup.Proofs.Number.Faults

namespace Mockup.Number

open Mockup.Result

theorem representable_two_pow_iff {m : Nat} : Representable (2 ^ m) ↔ m < 2098 := by
  constructor
  · rintro ⟨hlt, -⟩
    generalize 2098 = limit at hlt
    exact (Nat.pow_lt_pow_iff_right (by decide)).mp hlt
  · intro hm
    refine ⟨Binary64.two_pow_lt_limit hm, Nat.mod_eq_zero_of_dvd ?_⟩
    rw [Nat.log2_two_pow]
    exact Nat.pow_dvd_pow 2 (Nat.sub_le m 52)

theorem inRange_int_iff {i : Int} : (int i).InRange ↔ (Binary64.ofInt i).isFinite = true := by
  rw [InRange, toReal]
  by_cases h : (Binary64.ofInt i).isFinite = true <;> simp [h]

theorem inRange_two_pow_iff {n : Nat} : (int (2 ^ n : Nat)).InRange ↔ n < 1024 := by
  obtain ⟨bits, hbits⟩ : ∃ bits, 1074 = bits := ⟨_, rfl⟩
  have hunits : 2 ^ n * unitsPerOne = 2 ^ (n + bits) := by
    rw [Binary64.unitsPerOne_eq_pow hbits, Nat.pow_add]
  rw [inRange_int_iff, Binary64.ofInt, Int.natAbs_natCast, Binary64.isFinite_ofRatio_iff, hunits]
  constructor
  · rintro ⟨hlt, -⟩
    have hle := Binary64.pow_log2_le_roundUnits (n := 2 ^ (n + bits)) (Nat.two_pow_pos _).ne'
    rw [Nat.log2_two_pow] at hle
    -- as a number it would be computed with
    generalize hlimit : 2098 = limit at hlt
    have := (Nat.pow_lt_pow_iff_right (by decide)).mp (Nat.lt_of_le_of_lt hle hlt)
    omega
  · intro hn
    have h : Representable (2 ^ (n + bits)) := representable_two_pow_iff.mpr (by omega)
    rwa [Binary64.roundUnits_of_representable h]

/-- Only a real may have no product with a power of two, and only with a large one. -/
theorem mul_two_pow_eq_error_iff {a : Number} {n : Nat} {fault : NumberFault} :
    a.mul (int (2 ^ n : Nat)) = .error fault ↔ fault = .tooLarge ∧ a.IsReal ∧ 1024 ≤ n := by
  cases a with
  | int i =>
      refine ⟨nofun, fun ⟨_, ⟨x, hx⟩, _⟩ => nomatch hx⟩
  | real x =>
      constructor
      · intro h
        refine ⟨mul_blames _ _ fault h, ⟨x, rfl⟩, ?_⟩
        by_contra hn
        have hyields := IsReal.mul ⟨x, rfl⟩ (inRange_two_pow_iff.mpr (Nat.lt_of_not_le hn))
        exact hyields.succeeds.ne_error h
      · rintro ⟨rfl, -, hn⟩
        cases hmul : (real x).mul (int (2 ^ n : Nat)) with
        | error fault => rw [mul_blames _ _ fault hmul]
        | ok b =>
            obtain ⟨_, -, h⟩ := bind_eq_ok_iff.mp hmul
            obtain ⟨y, hy, -⟩ := bind_eq_ok_iff.mp h
            exact absurd (inRange_two_pow_iff.mp ⟨y, hy⟩) (Nat.not_lt.mpr hn)

end Mockup.Number
