import Mockup.Proofs.Number.Decimal
import Mockup.Proofs.Number.Magnitude

namespace Mockup.Number

namespace Binary64

def HasUnits (x : Binary64) (k : Int) : Prop := ∃ s u h, x = .finite s u h ∧ signedUnits s u = k

variable {x y : Binary64} {i j k : Int}

theorem representable_mul_pow {r bits : Nat} (hr : r ≤ 2 ^ 53) (hbits : bits + 53 < 2098) :
    Representable (r * 2 ^ bits) := by
  refine ⟨Nat.lt_of_le_of_lt ?_ (two_pow_lt_limit hbits), mod_pow_eq_zero hr⟩
  rw [Nat.add_comm, Nat.pow_add]
  exact Nat.mul_le_mul_right _ hr

/-- One has twice as many units as a half. These are not to be computed either. -/
theorem exists_halfUnits : ∃ bits, bits = 1073 ∧ unitsPerOne = 2 * 2 ^ bits := by
  obtain ⟨bits, hbits⟩ : ∃ bits, bits = 1073 := ⟨_, rfl⟩
  refine ⟨bits, hbits, ?_⟩
  rw [← Nat.pow_succ']
  exact unitsPerOne_eq_pow (by omega)

theorem hasUnits_ofUnits (s : Bool) {u : Nat} (h : Representable u) :
    (ofUnits s u 1).HasUnits (signedUnits s u) :=
  ⟨s, u, h, ofUnits_of_representable h s, rfl⟩

theorem signedUnits_natAbs (i : Int) : signedUnits (decide (i < 0)) i.natAbs = i := by
  by_cases hi : i < 0
  · rw [decide_eq_true hi]
    change -(i.natAbs : Int) = i
    omega
  · rw [decide_eq_false hi]
    change (i.natAbs : Int) = i
    omega

theorem HasUnits.neg (h : x.HasUnits k) : x.neg.HasUnits (-k) := by
  obtain ⟨s, u, hu, rfl, rfl⟩ := h
  exact ⟨!s, u, hu, rfl, by cases s <;> simp [signedUnits]⟩

theorem HasUnits.add (hx : x.HasUnits j) (hy : y.HasUnits k) (h : Representable (j + k).natAbs) :
    (x.add y).HasUnits (j + k) := by
  obtain ⟨s, u, hu, rfl, rfl⟩ := hx
  obtain ⟨t, v, hv, rfl, rfl⟩ := hy
  rw [Binary64.add]
  split
  · next htotal =>
      rw [htotal, zero_eq]
      exact ⟨_, 0, _, rfl, by cases s && t <;> rfl⟩
  · have hunits := hasUnits_ofUnits (decide (signedUnits s u + signedUnits t v < 0)) h
    rwa [signedUnits_natAbs] at hunits

theorem HasUnits.floor? (h : x.HasUnits k) : x.floor? = some (k.fdiv unitsPerOne) := by
  obtain ⟨s, u, hu, rfl, rfl⟩ := h
  rfl

theorem hasUnits_ofRatio_one (s : Bool) {n : Nat} (hn : n ≤ 2 ^ 53) :
    (ofRatio s n 1).HasUnits (signedUnits s n * unitsPerOne) := by
  obtain ⟨bits, hbits, hunits⟩ := exists_halfUnits
  have h : Representable (n * unitsPerOne) := by
    rw [hunits, ← Nat.pow_succ']
    exact representable_mul_pow hn (by omega)
  rw [← signedUnits_mul]
  exact hasUnits_ofUnits s h

theorem hasUnits_ofInt (hi : i.natAbs ≤ 2 ^ 53) : (ofInt i).HasUnits (i * unitsPerOne) := by
  have h := hasUnits_ofRatio_one (decide (i < 0)) hi
  rwa [signedUnits_natAbs] at h

theorem HasUnits.floor?_add_half (h : x.HasUnits (i * unitsPerOne)) (hi : i.natAbs < 2 ^ 52) :
    (x.add (ofRatio false 1 2)).floor? = some i := by
  obtain ⟨bits, hbits, hunits⟩ := exists_halfUnits
  have hpos : (0 : Int) < 2 ^ bits := Int.pow_pos (by decide)
  have hhalf : (ofRatio false 1 2).HasUnits (2 ^ bits : Nat) := by
    have hone : Representable (2 ^ bits) := by
      rw [← Nat.one_mul (2 ^ bits)]
      exact representable_mul_pow (by decide) (by omega)
    have heq : ofRatio false 1 2 = ofUnits false (2 ^ bits) 1 := by
      have h := roundUnits_mul (2 ^ bits) 1 (c := 2) (by decide)
      simp only [ofRatio, ofUnits, hunits, Nat.one_mul, Nat.mul_comm 2 (2 ^ bits)] at h ⊢
      simp only [h]
    rw [heq]
    exact hasUnits_ofUnits false hone
  -- the sum is an odd number of halves, for which 53 bits are enough
  have htotal : i * unitsPerOne + (2 ^ bits : Nat) = (2 * i + 1) * (2 ^ bits : Nat) := by
    rw [hunits]
    push_cast
    ring
  have hsum := h.add hhalf (by
    rw [htotal, Int.natAbs_mul, Int.natAbs_natCast]
    exact representable_mul_pow (by omega) (by omega))
  rw [hsum.floor?, htotal, hunits]
  refine congrArg some ?_
  rw [Int.fdiv_eq_ediv_of_nonneg _ (Int.natCast_nonneg _)]
  push_cast
  rw [Int.mul_ediv_mul_of_pos_left _ _ hpos]
  omega

end Binary64

open Mockup.Result

variable {a b : Number} {i j : Int}

def IsInteger (a : Number) (i : Int) : Prop := a.place = .point (i * unitsPerOne)

theorem isInteger_int (i : Int) : (int i).IsInteger i := rfl

theorem IsInteger.normalize (h : a.IsInteger i) : a.normalize = .int i :=
  eq_of_place_eq (isNormal_normalize a) trivial ((place_normalize a).trans h)

theorem IsInteger.inj (hi : a.IsInteger i) (hj : a.IsInteger j) : i = j :=
  int.inj (hi.normalize.symm.trans hj.normalize)

theorem isInteger_real_iff {x : Binary64} :
    (real x).IsInteger i ↔ x.HasUnits (i * unitsPerOne) := by
  cases x with
  | nan => exact ⟨nofun, fun ⟨_, _, _, h, _⟩ => nomatch h⟩
  | infinity s => cases s <;> exact ⟨nofun, fun ⟨_, _, _, h, _⟩ => nomatch h⟩
  | finite s u hu =>
      rw [IsInteger, place_finite, Place.point.injEq]
      constructor
      · exact fun h => ⟨s, u, hu, rfl, h⟩
      · rintro ⟨s, u, hu, ⟨⟩, h⟩
        exact h

theorem IsInteger.toReal (h : a.IsInteger i) (hi : i.natAbs ≤ 2 ^ 53) :
    Yields (Binary64.HasUnits · (i * unitsPerOne)) a.toReal := by
  cases a with
  | real x => exact yields_ok (isInteger_real_iff.mp h)
  | int j =>
      obtain rfl := (isInteger_int j).inj h
      have hunits := Binary64.hasUnits_ofInt hi
      have hfinite : (Binary64.ofInt j).isFinite = true := by
        obtain ⟨s, u, hu, heq, -⟩ := hunits
        rw [heq]
        rfl
      rw [Number.toReal, if_pos hfinite]
      exact yields_ok hunits

theorem inRange_int (hi : i.natAbs ≤ 2 ^ 53) : (int i).InRange :=
  ((isInteger_int i).toReal hi).succeeds

theorem IsInteger.roundHalfUp (h : a.IsInteger i) (hi : i.natAbs < 2 ^ 52) :
    a.roundHalfUp = .ok i := by
  obtain ⟨x, hx, hunits⟩ := h.toReal (Nat.le_of_lt (hi.trans (by decide)))
  rw [Number.roundHalfUp, hx]
  change integral _ _ = _
  rw [hunits.floor?_add_half hi]
  rfl

theorem roundHalfUp_int (hi : i.natAbs < 2 ^ 52) : (int i).roundHalfUp = .ok i :=
  (isInteger_int i).roundHalfUp hi

theorem representable_natAbs_mul (hi : i.natAbs ≤ 2 ^ 53) :
    Representable (i * unitsPerOne).natAbs := by
  obtain ⟨bits, hbits, hunits⟩ := Binary64.exists_halfUnits
  rw [Int.natAbs_mul, Int.natAbs_natCast, hunits, ← Nat.pow_succ']
  exact Binary64.representable_mul_pow hi (by omega)

section Exact

variable (ha : a.IsInteger i) (hb : b.IsInteger j) (hi : i.natAbs ≤ 2 ^ 53) (hj : j.natAbs ≤ 2 ^ 53)

include ha hb hi hj

theorem IsInteger.add (hij : (i + j).natAbs ≤ 2 ^ 53) : Yields (IsInteger · (i + j)) (a.add b) := by
  have hreals : Yields (IsInteger · (i + j)) (onReals .add a b) :=
    (ha.toReal hi).bind fun x hx => (hb.toReal hj).bind fun y hy => yields_ok <| by
      have h := hx.add hy (by rw [← Int.add_mul]; exact representable_natAbs_mul hij)
      rwa [isInteger_real_iff, Int.add_mul]
  cases a with
  | real x => exact hreals
  | int i' =>
      cases b with
      | real y => exact hreals
      | int j' =>
          obtain rfl := (isInteger_int i').inj ha
          obtain rfl := (isInteger_int j').inj hb
          exact yields_ok (isInteger_int _)

theorem IsInteger.sub (hij : (i - j).natAbs ≤ 2 ^ 53) : Yields (IsInteger · (i - j)) (a.sub b) := by
  have hreals : Yields (IsInteger · (i - j)) (onReals .sub a b) :=
    (ha.toReal hi).bind fun x hx => (hb.toReal hj).bind fun y hy => yields_ok <| by
      have h := hx.add hy.neg
        (by rw [← Int.sub_eq_add_neg, ← Int.sub_mul]; exact representable_natAbs_mul hij)
      rwa [isInteger_real_iff, Int.sub_mul, Int.sub_eq_add_neg]
  cases a with
  | real x => exact hreals
  | int i' =>
      cases b with
      | real y => exact hreals
      | int j' =>
          obtain rfl := (isInteger_int i').inj ha
          obtain rfl := (isInteger_int j').inj hb
          exact yields_ok (isInteger_int _)

end Exact

theorem div_mul_count {n m : Nat} (hn : n ≤ 2 ^ 53) (hm : 0 < m) :
    Yields (IsInteger · n) ((int (m * n : Nat)).div (int m)) := by
  have hunits : (Binary64.ofRatio false (m * n) m).HasUnits (n * unitsPerOne) := by
    have hequal : Binary64.ofRatio false n 1 = Binary64.ofRatio false (m * n) m :=
      Binary64.ofRatio_congr Nat.one_pos hm (by ring) false
    rw [← hequal]
    exact Binary64.hasUnits_ofRatio_one false hn
  have hfinite : (Binary64.ofRatio false (m * n) m).isFinite = true := by
    obtain ⟨s, u, hu, heq, -⟩ := hunits
    rw [heq]
    rfl
  have hzero : (int m).isZero = false := by simp [isZero]; omega
  rw [div, hzero, if_neg Bool.false_ne_true]
  simp only [Int.natAbs_natCast, Int.natCast_nonneg, not_lt.mpr, decide_false, bne_self_eq_false]
  rw [if_pos hfinite]
  exact yields_ok (isInteger_real_iff.mpr hunits)

theorem exists_of_isFinite_ofUnits {n d : Nat} (h : (Binary64.ofUnits false n d).isFinite = true) :
    ∃ u hu, Binary64.ofUnits false n d = .finite false u hu := by
  rw [Binary64.ofUnits] at h ⊢
  split at h
  · next hunits => exact ⟨_, hunits, dif_pos hunits⟩
  · cases h

theorem lt_zero_ofUnits (n d : Nat) : (real (Binary64.ofUnits false n d)).lt 0 = false := by
  have hzero : place 0 = .point 0 := place_of_isZero rfl
  rw [Binary64.ofUnits]
  split
  · next hunits =>
      rw [lt, hzero, place_finite]
      exact decide_eq_false (not_lt.mpr (Int.natCast_nonneg _))
  · rw [lt, hzero]
    rfl

theorem half_not_neg (hi : 0 ≤ i) (hrange : (int i).InRange) :
    Yields (fun half => half.lt 0 = false) ((int i).mul (.fraction 1 2)) := by
  obtain ⟨u, hu, hx⟩ : ∃ u hu, (int i).toReal = .ok (.finite false u hu) := by
    obtain ⟨x, hx⟩ := hrange
    rw [toReal] at hx ⊢
    split at hx
    · next hfinite =>
        rw [if_pos hfinite]
        rw [Binary64.ofInt, decide_eq_false (not_lt.mpr hi)] at hfinite ⊢
        obtain ⟨u, hu, h⟩ := exists_of_isFinite_ofUnits hfinite
        exact ⟨u, hu, congrArg Except.ok h⟩
    · cases hx
  -- two finite reals without a sign: their product is such a real, or infinite and above
  obtain ⟨v, hv, hhalf⟩ := exists_of_isFinite_ofUnits Binary64.within_half.isFinite
  refine ⟨.real (Binary64.ofUnits false (u * v) unitsPerOne), ?_, lt_zero_ofUnits _ _⟩
  change onReals .mul (int i) (.real (Binary64.ofRatio false 1 2)) = _
  rw [onReals, hx, ok_bind]
  change Except.ok (real (Binary64.mul _ (Binary64.ofRatio false 1 2))) = _
  rw [Binary64.ofRatio, hhalf]
  rfl

theorem lt_int (i j : Int) : (int i).lt (int j) = decide (i < j) := by
  have hpos : (0 : Int) < unitsPerOne := by exact_mod_cast unitsPerOne_pos
  simp only [lt, place_int, Int.mul_lt_mul_right hpos]

theorem le_int (i j : Int) : (int i).le (int j) = decide (i ≤ j) := by
  have hpos : (unitsPerOne : Int) ≠ 0 := by exact_mod_cast unitsPerOne_pos.ne'
  have heq : (int i).eq (int j) = decide (i = j) := by
    simp only [eq, place_int, Int.mul_eq_mul_right_iff hpos]
  rw [le, lt_int, heq, ← Bool.decide_or, decide_eq_decide, le_iff_lt_or_eq]

theorem isShare_one : IsShare 1 := ⟨le_int 0 1, le_int 1 1⟩

theorem isShare_ofInt_one : IsShare (.real (.ofInt 1)) := by
  constructor <;> decide +kernel

theorem sub_int (i j : Int) : (int i).sub (int j) = .ok (int (i - j)) := rfl

theorem max_int (i j : Int) : (int i).max (int j) = int (i ⊔ j) := by
  rw [Number.max, lt_int]
  rcases lt_or_ge i j with h | h
  · rw [decide_eq_true h, if_pos rfl, max_eq_right h.le]
  · rw [decide_eq_false (not_lt.mpr h), if_neg Bool.false_ne_true, max_eq_left h]

theorem min_int (i j : Int) : (int i).min (int j) = int (i ⊓ j) := by
  rw [Number.min, lt_int]
  rcases lt_or_ge j i with h | h
  · rw [decide_eq_true h, if_pos rfl, min_eq_right h.le]
  · rw [decide_eq_false (not_lt.mpr h), if_neg Bool.false_ne_true, min_eq_left h]

theorem maximum_int (i : Int) (is : List Int) :
    maximum (int i) (is.map int) = int (is.foldl (· ⊔ ·) i) := by
  induction is generalizing i with
  | nil => rfl
  | cons j is ih =>
      change maximum ((int i).max (int j)) _ = _
      rw [max_int, ih, List.foldl_cons]

theorem minimum_int (i : Int) (is : List Int) :
    minimum (int i) (is.map int) = int (is.foldl (· ⊓ ·) i) := by
  induction is generalizing i with
  | nil => rfl
  | cons j is ih =>
      change minimum ((int i).min (int j)) _ = _
      rw [min_int, ih, List.foldl_cons]

theorem sum_int (is : List Int) : sum (is.map int) = .ok (int is.sum) := by
  have hfrom (is : List Int) (i : Int) :
      (is.map int).foldlM add (int i) = .ok (int (i + is.sum)) := by
    induction is generalizing i with
    | nil => simp [pure, Except.pure]
    | cons j is ih =>
        rw [List.map_cons, List.foldlM_cons, List.sum_cons, ← Int.add_assoc]
        exact ih (i + j)
  exact (hfrom is 0).trans (by rw [Int.zero_add])

/-- A zero is all that has a sign in vain. -/
theorem signedUnits_nonneg_cases (s : Bool) (m : Nat) :
    decide (Binary64.signedUnits s m < 0) = s ∨ s = true ∧ m = 0 := by
  cases s with
  | false => exact .inl (decide_eq_false (not_lt.mpr (Int.natCast_nonneg m)))
  | true =>
      rcases Nat.eq_zero_or_pos m with h | h
      · exact .inr ⟨rfl, h⟩
      · refine .inl (decide_eq_true ?_)
        rw [Binary64.signedUnits, if_pos rfl]
        omega

end Mockup.Number
