import Mathlib.Tactic.Ring
import Mockup.Proofs.Number.Rounding

namespace Mockup.Number

theorem roundQuotient_mul (n d : Nat) {c : Nat} (hc : 0 < c) :
    roundQuotient (n * c) (d * c) = roundQuotient n d := by
  have hr : n * c % (d * c) = n % d * c := Nat.mul_mod_mul_right ..
  have hlt (a b : Nat) : a * c < b * c ↔ a < b := Nat.mul_lt_mul_right hc
  simp only [roundQuotient, Nat.mul_div_mul_right _ _ hc, hr, ← Nat.mul_assoc, hlt]

namespace Binary64

theorem roundUnits_mul (n d : Nat) {c : Nat} (hc : 0 < c) :
    roundUnits (n * c) (d * c) = roundUnits n d := by
  have hbits : droppedBits (n * c) (d * c) = droppedBits n d := by
    rw [droppedBits, droppedBits, Nat.mul_div_mul_right _ _ hc]
  rw [roundUnits_eq, roundUnits_eq, hbits, Nat.mul_right_comm, roundQuotient_mul _ _ hc]

/-- Equal fractions have one nearest value. -/
theorem ofRatio_congr {n d n' d' : Nat} (hd : 0 < d) (hd' : 0 < d') (h : n * d' = n' * d)
    (negative : Bool) : ofRatio negative n d = ofRatio negative n' d' := by
  have hunits : roundUnits (n * unitsPerOne) d = roundUnits (n' * unitsPerOne) d' := by
    calc roundUnits (n * unitsPerOne) d
        = roundUnits (n * unitsPerOne * d') (d * d') := (roundUnits_mul _ _ hd').symm
      _ = roundUnits (n' * unitsPerOne * d) (d' * d) := by
        rw [Nat.mul_right_comm, h, Nat.mul_right_comm, Nat.mul_comm d d']
      _ = roundUnits (n' * unitsPerOne) d' := roundUnits_mul _ _ hd
  simp only [ofRatio, ofUnits, hunits]

theorem roundUnits_of_representable {units : Nat} (h : Representable units) :
    roundUnits units 1 = units := by
  have hmod : units % 2 ^ droppedBits units 1 = 0 := by
    rw [droppedBits, Nat.div_one]
    exact h.2
  rw [roundUnits_eq, roundQuotient, Nat.one_mul, hmod]
  simpa using Nat.div_mul_cancel (Nat.dvd_of_mod_eq_zero hmod)

theorem ofUnits_of_representable {units : Nat} (h : Representable units) (negative : Bool) :
    ofUnits negative units 1 = .finite negative units h := by
  simp only [ofUnits, roundUnits_of_representable h, dif_pos h]

/-- A fraction that is a whole number of units, as many as a value can have. -/
theorem ofRatio_of_units {units c n d : Nat} (h : Representable units)
    (hcd : c * n * unitsPerOne = d) (hd : 0 < d) (negative : Bool) :
    ofRatio negative (units * c * n) d = .finite negative units h := by
  have hunits := roundUnits_mul units 1 hd
  rw [Nat.one_mul, roundUnits_of_representable h] at hunits
  have hproduct : units * c * n * unitsPerOne = units * d := by
    rw [← hcd]
    ring
  simp only [ofRatio, ofUnits, hproduct, hunits, dif_pos h]

theorem zero_eq (negative : Bool) : zero negative = .finite negative 0 (by decide +kernel) :=
  ofUnits_of_representable _ _

end Binary64

theorem numeral_mul_pow {n : Nat} (hn : 0 < n) (j : Nat) :
    numeral (n * 10 ^ j) = numeral n ++ zeros j := by
  induction j with
  | zero => simp [zeros]
  | succ j ih =>
      have hpos : 0 < n * 10 ^ j := Nat.mul_pos hn (Nat.pow_pos (by decide))
      calc numeral (n * 10 ^ (j + 1))
          = Nat.toDigits 10 (10 * (n * 10 ^ j) + 0) := by
            rw [numeral, Nat.pow_succ, Nat.add_zero, ← Nat.mul_assoc, Nat.mul_comm]
        _ = numeral (n * 10 ^ j) ++ ['0'] :=
            (Nat.toDigits_append_toDigits (by decide) hpos (by decide)).symm
        _ = numeral n ++ zeros (j + 1) := by
            rw [ih, List.append_assoc, zeros, zeros, List.replicate_succ']

theorem tenPower_pos (e : Int) : 0 < (tenPower e).1 ∧ 0 < (tenPower e).2 := by
  rw [tenPower]
  split <;> simp

theorem tenPower_sub (e : Int) (j : Nat) :
    10 ^ j * (tenPower (e - j)).1 * (tenPower e).2 = (tenPower e).1 * (tenPower (e - j)).2 := by
  simp only [tenPower]
  split_ifs with h h' h'
  · have hsum : e.toNat = j + (e - j).toNat := by omega
    rw [Nat.mul_one, Nat.mul_one, hsum]
    exact (Nat.pow_add ..).symm
  · omega
  · have hsum : j = e.toNat + (-(e - j)).toNat := by omega
    rw [Nat.mul_one, Nat.mul_one]
    conv_lhs => rw [hsum]
    exact Nat.pow_add ..
  · have hsum : (-(e - j)).toNat = j + (-e).toNat := by omega
    rw [Nat.mul_one, Nat.one_mul, hsum]
    exact (Nat.pow_add ..).symm

/-- Zeros at the end of a decimal do not count. -/
theorem ofDecimal_mul_pow (negative : Bool) (digits j : Nat) (e : Int) :
    Binary64.ofDecimal negative ⟨digits * 10 ^ j, e - j⟩ =
      Binary64.ofDecimal negative ⟨digits, e⟩ := by
  have hpow : 0 < 10 ^ j := Nat.pow_pos (by decide)
  by_cases hzero : digits = 0
  · simp [Binary64.ofDecimal, hzero]
  have hpos := Nat.pos_of_ne_zero hzero
  have hplaces : ((numeral (digits * 10 ^ j)).length : Int) + (e - j) =
      (numeral digits).length + e := by
    rw [numeral_mul_pow hpos, List.length_append, zeros, List.length_replicate]
    omega
  have hne : digits * 10 ^ j ≠ 0 := (Nat.mul_pos hpos hpow).ne'
  have hcross : digits * 10 ^ j * (tenPower (e - j)).1 * (tenPower e).2 =
      digits * (tenPower e).1 * (tenPower (e - j)).2 := by
    rw [Nat.mul_assoc digits, Nat.mul_assoc digits, tenPower_sub, Nat.mul_assoc]
  have hratio := Binary64.ofRatio_congr (tenPower_pos (e - j)).2 (tenPower_pos e).2 hcross negative
  simp only [Binary64.ofDecimal, hzero, hne, if_false, hplaces, hratio]

/-- The sign of a value does not depend on its magnitude. -/
theorem ofDecimal_eq_finite {d : Decimal} {units : Nat} {h : Representable units}
    (hd : Binary64.ofDecimal false d = .finite false units h) (negative : Bool) :
    Binary64.ofDecimal negative d = .finite negative units h := by
  simp only [Binary64.ofDecimal] at hd ⊢
  split_ifs at hd ⊢ with h1 h2 h3
  · rw [Binary64.zero_eq] at hd ⊢
    cases hd
    rfl
  · rw [Binary64.zero_eq] at hd ⊢
    cases hd
    rfl
  · simp only [Binary64.ofRatio, Binary64.ofUnits] at hd ⊢
    split_ifs at hd ⊢
    cases hd
    rfl

theorem ofDecimal_eq_ofRatio {d : Decimal} (hd : d.digits ≠ 0)
    (hlow : -330 < (numeral d.digits).length + d.exponent)
    (hhigh : (numeral d.digits).length + d.exponent < 311) (negative : Bool) :
    Binary64.ofDecimal negative d = Binary64.ofRatio negative
      (d.digits * (tenPower d.exponent).1) (tenPower d.exponent).2 := by
  rw [Binary64.ofDecimal, if_neg hd, if_neg (by omega), if_neg (by omega)]

theorem length_numeral_le_iff {n k : Nat} (hk : 0 < k) : (numeral n).length ≤ k ↔ n < 10 ^ k :=
  Nat.length_toDigits_le_iff (by decide) hk

/-- A magnitude in full: a unit is a power of one half, so it has finitely many places. -/
theorem ofDecimal_exact {units : Nat} (h : Representable units) (hpos : 0 < units)
    (negative : Bool) :
    Binary64.ofDecimal negative ⟨units * Nat.pow 5 1074, -1074⟩ = .finite negative units h := by
  have hplaces (k : Nat) (hlow : ¬ k ≤ 744) (hhigh : k ≤ 1384) :
      -330 < (k : Int) + -1074 ∧ (k : Int) + -1074 < 311 := by omega
  have hfive : 0 < Nat.pow 5 1074 := by decide +kernel
  have hhigh : units * Nat.pow 5 1074 < 10 ^ 1384 :=
    Nat.lt_of_lt_of_le (Nat.mul_lt_mul_of_pos_right h.1 hfive) (by decide +kernel)
  have hlow : ¬ units * Nat.pow 5 1074 < 10 ^ 744 := Nat.not_lt.mpr
    (Nat.le_trans (by decide +kernel : 10 ^ 744 ≤ Nat.pow 5 1074) (Nat.le_mul_of_pos_left _ hpos))
  rw [← length_numeral_le_iff (by decide)] at hhigh hlow
  have hne : units * Nat.pow 5 1074 ≠ 0 := (Nat.mul_pos hpos hfive).ne'
  have hten : Nat.pow 5 1074 * (tenPower (-1074)).1 * unitsPerOne = (tenPower (-1074)).2 := by
    decide +kernel
  obtain ⟨hlow, hhigh⟩ := hplaces _ hlow hhigh
  rw [ofDecimal_eq_ofRatio (d := ⟨units * Nat.pow 5 1074, -1074⟩) hne hlow hhigh]
  exact Binary64.ofRatio_of_units h hten (tenPower_pos _).2 negative

theorem ofDecimal_neighbour {units places : Nat} {d : Decimal} (h : Representable units)
    (hd : neighbour? units places = some d) :
    Binary64.ofDecimal false d = .finite false units h := by
  simp only [neighbour?] at hd
  have hfound := List.find?_some hd
  rw [decide_eq_true_eq] at hfound
  rw [hfound, Binary64.ofUnits_of_representable h]

/-- The decimal that is written for a magnitude reads back as that magnitude. -/
theorem ofDecimal_shortest {units : Nat} (h : Representable units) (hpos : 0 < units)
    (negative : Bool) :
    Binary64.ofDecimal negative (shortest units) = .finite negative units h := by
  rw [shortest]
  cases hfound : (List.range 17).findSome? fun i => neighbour? units (i + 1) with
  | none =>
      rw [Option.getD_none]
      exact ofDecimal_exact h hpos negative
  | some d =>
      obtain ⟨i, -, hi⟩ := List.exists_of_findSome?_eq_some hfound
      exact ofDecimal_eq_finite (ofDecimal_neighbour h hi) negative

end Mockup.Number
