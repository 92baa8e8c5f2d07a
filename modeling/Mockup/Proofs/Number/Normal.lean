import Mockup.Proofs.Number.Rounding

namespace Mockup.Number

theorem eq_eq_true_iff {m n : Number} :
    m.eq n = true ↔ m.place = n.place ∧ m.place ≠ .nowhere := by
  rw [eq]
  cases m.place <;> cases n.place <;> simp

theorem place_eq_nowhere_iff {n : Number} : n.place = .nowhere ↔ n = .real .nan := by
  cases n with
  | int i => simp [place]
  | real x =>
      cases x with
      | nan => simp [place]
      | infinity negative => cases negative <;> simp [place]
      | finite negative units h => simp [place]

theorem signedUnits_mul (negative : Bool) (n d : Nat) :
    Binary64.signedUnits negative (n * d) = Binary64.signedUnits negative n * d := by
  cases negative <;> simp only [Binary64.signedUnits, Bool.false_eq_true, if_false, if_true,
    Int.natCast_mul, Int.neg_mul]

theorem fdiv_signedUnits (negative : Bool) (n : Nat) {d : Nat} (hd : 0 < d) :
    Int.fdiv (Binary64.signedUnits negative (n * d)) d = Binary64.signedUnits negative n := by
  rw [signedUnits_mul]
  exact Int.mul_fdiv_cancel _ (by omega)

theorem place_int (i : Int) : (int i).place = .point (i * unitsPerOne) := rfl

theorem place_finite (negative : Bool) {units : Nat} (h : Representable units) :
    (real (.finite negative units h)).place = .point (Binary64.signedUnits negative units) := rfl

/-- A real is an integer if it is a whole number of ones. -/
theorem normalize_finite (negative : Bool) {units : Nat} (h : Representable units) :
    (∃ n, units = n * unitsPerOne ∧
      (real (.finite negative units h)).normalize = .int (Binary64.signedUnits negative n)) ∨
    (units % unitsPerOne ≠ 0 ∧
      (real (.finite negative units h)).normalize = .real (.finite negative units h)) := by
  by_cases hmod : units % unitsPerOne = 0
  · left
    have hunits : units / unitsPerOne * unitsPerOne = units :=
      Nat.div_mul_cancel (Nat.dvd_of_mod_eq_zero hmod)
    have hfloor := fdiv_signedUnits negative (units / unitsPerOne) unitsPerOne_pos
    rw [hunits] at hfloor
    have hinteger : (Binary64.finite negative units h).isInteger = true := by
      rw [Binary64.isInteger, hmod, beq_self_eq_true]
    refine ⟨units / unitsPerOne, hunits.symm, ?_⟩
    rw [normalize, if_pos hinteger, Binary64.floor?, hfloor, Option.map_some, Option.getD_some]
  · have hinteger : ¬ (Binary64.finite negative units h).isInteger = true := by
      rwa [Binary64.isInteger, beq_iff_eq]
    exact .inr ⟨hmod, by rw [normalize, if_neg hinteger]⟩

theorem place_normalize (n : Number) : n.normalize.place = n.place := by
  cases n with
  | int i => rfl
  | real x =>
      cases x with
      | nan => rfl
      | infinity negative => rfl
      | finite negative units h =>
          rcases normalize_finite negative h with ⟨n, hunits, hnormal⟩ | ⟨-, hnormal⟩
          · rw [hnormal, place_int, place_finite, hunits, signedUnits_mul]
          · rw [hnormal]

/-- An integer, or a real that is none. -/
def IsNormal : Number → Prop
  | .int _ => True
  | .real (.finite _ units _) => units % unitsPerOne ≠ 0
  | .real _ => True

theorem isNormal_normalize (n : Number) : n.normalize.IsNormal := by
  cases n with
  | int i => trivial
  | real x =>
      cases x with
      | nan => trivial
      | infinity negative => trivial
      | finite negative units h =>
          rcases normalize_finite negative h with ⟨n, -, hnormal⟩ | ⟨hmod, hnormal⟩
          · rw [hnormal]
            trivial
          · rw [hnormal]
            exact hmod

theorem mul_ne_signedUnits {units d : Nat} (h : units % d ≠ 0) (negative : Bool) (i : Int) :
    i * d ≠ Binary64.signedUnits negative units := by
  intro heq
  have hdvd : (d : Int) ∣ Binary64.signedUnits negative units := ⟨i, by rw [← heq, Int.mul_comm]⟩
  have hunits : (d : Int) ∣ units := by
    cases negative with
    | false => exact hdvd
    | true => exact (Int.dvd_neg).mp hdvd
  exact h (Nat.mod_eq_zero_of_dvd (Int.natCast_dvd_natCast.mp hunits))

theorem signedUnits_injective {s t : Bool} {m n : Nat} (hm : m ≠ 0)
    (h : Binary64.signedUnits s m = Binary64.signedUnits t n) : s = t ∧ m = n := by
  cases s <;> cases t <;>
    simp only [Binary64.signedUnits, Bool.false_eq_true, if_false, if_true] at h
  · exact ⟨rfl, by omega⟩
  · omega
  · omega
  · exact ⟨rfl, by omega⟩

/-- Two normal forms do not stand at one place on the line. -/
theorem eq_of_place_eq {m n : Number} (hm : m.IsNormal) (hn : n.IsNormal)
    (h : m.place = n.place) : m = n := by
  cases m with
  | int i =>
      cases n with
      | int j =>
          have hpos : (unitsPerOne : Int) ≠ 0 := by exact_mod_cast unitsPerOne_pos.ne'
          rw [place_int, place_int, Place.point.injEq] at h
          rw [Int.eq_of_mul_eq_mul_right hpos h]
      | real y =>
          cases y with
          | nan => cases h
          | infinity negative => cases negative <;> cases h
          | finite negative units hy =>
              rw [place_int, place_finite, Place.point.injEq] at h
              exact absurd h (mul_ne_signedUnits hn negative i)
  | real x =>
      cases x with
      | nan => rw [eq_comm, ← place_eq_nowhere_iff, ← h]; rfl
      | infinity s =>
          cases n with
          | int j => cases s <;> cases h
          | real y =>
              cases y with
              | nan => cases s <;> cases h
              | infinity t => cases s <;> cases t <;> first | rfl | cases h
              | finite t units hy => cases s <;> cases h
      | finite s units hx =>
          cases n with
          | int j =>
              rw [place_int, place_finite, Place.point.injEq] at h
              exact absurd h.symm (mul_ne_signedUnits hm s j)
          | real y =>
              cases y with
              | nan => cases h
              | infinity t => cases t <;> cases h
              | finite t units' hy =>
                  rw [place_finite, place_finite, Place.point.injEq] at h
                  have hne : units ≠ 0 := by
                    rintro rfl
                    exact hm (Nat.zero_mod _)
                  obtain ⟨rfl, rfl⟩ := signedUnits_injective hne h
                  rfl

theorem normalize_eq_iff {m n : Number} : m.normalize = n.normalize ↔ m.place = n.place := by
  constructor
  · intro h
    rw [← place_normalize m, h, place_normalize]
  · intro h
    exact eq_of_place_eq (isNormal_normalize m) (isNormal_normalize n)
      (by rw [place_normalize, place_normalize, h])

theorem normalize_of_isNormal {n : Number} (h : n.IsNormal) : n.normalize = n :=
  eq_of_place_eq (isNormal_normalize n) h (place_normalize n)

theorem normalize_ne_nan {n : Number} (h : n ≠ .real .nan) : n.normalize ≠ .real .nan := by
  rwa [ne_eq, ← place_eq_nowhere_iff, place_normalize, place_eq_nowhere_iff]

theorem lt_normalize (m n : Number) : m.normalize.lt n.normalize = m.lt n := by
  rw [lt, lt, place_normalize, place_normalize]

/-- Equality by magnitude is equality of normal forms, for numbers that are defined. -/
theorem eq_eq_true_iff_normalize_eq {m n : Number} (hm : m ≠ .real .nan) :
    m.eq n = true ↔ m.normalize = n.normalize := by
  rw [eq_eq_true_iff, normalize_eq_iff, ne_eq, place_eq_nowhere_iff]
  exact and_iff_left hm

theorem eq_swap (a b : Number) : a.eq b = b.eq a := by
  unfold Number.eq
  cases a.place <;> cases b.place <;> simp [eq_comm]

end Mockup.Number
