import Mathlib.Data.List.Forall2
import Mathlib.Data.Rat.Cast.Order
import Mathlib.Tactic.FieldSimp
import Mathlib.Tactic.Linarith
import Mockup.Proofs.Number.Exact

namespace Mockup.Number

open Mockup.Result

def Binary64.value? : Binary64 → Option ℚ
  | .finite s u _ => some (signedUnits s u / unitsPerOne)
  | _ => none

def value? : Number → Option ℚ
  | .int i => some i
  | .real x => x.value?

variable {a b : Number} {x : Binary64} {p q : ℚ}

theorem unitsPerOne_cast_pos : (0 : ℚ) < unitsPerOne := by exact_mod_cast unitsPerOne_pos

theorem value?_int (i : Int) : (int i).value? = some (i : ℚ) := rfl

theorem value?_finite (s : Bool) {u : Nat} (h : Representable u) :
    (real (.finite s u h)).value? = some (Binary64.signedUnits s u / unitsPerOne : ℚ) := rfl

/-- The value of a number is its place on the line, in ones. -/
theorem value?_eq_some_iff :
    a.value? = some q ↔ ∃ u : Int, a.place = .point u ∧ (u : ℚ) = q * unitsPerOne := by
  have hpos := unitsPerOne_cast_pos
  cases a with
  | int i =>
      rw [value?_int, Option.some.injEq, place_int]
      constructor
      · rintro rfl
        exact ⟨_, rfl, by push_cast; rfl⟩
      · rintro ⟨u, ⟨⟩, hu⟩
        push_cast at hu
        exact mul_right_cancel₀ hpos.ne' hu
  | real x =>
      cases x with
      | nan => exact ⟨nofun, fun ⟨u, h, _⟩ => nomatch h⟩
      | infinity s => exact ⟨nofun, fun ⟨u, h, _⟩ => by cases s <;> cases h⟩
      | finite s u hu =>
          rw [value?_finite, Option.some.injEq, place_finite, div_eq_iff hpos.ne']
          constructor
          · exact fun h => ⟨_, rfl, h⟩
          · rintro ⟨_, ⟨⟩, h⟩
            exact h

theorem lt_eq_true_iff (ha : a.value? = some p) (hb : b.value? = some q) :
    a.lt b = true ↔ p < q := by
  obtain ⟨u, hu, hp⟩ := value?_eq_some_iff.mp ha
  obtain ⟨v, hv, hq⟩ := value?_eq_some_iff.mp hb
  rw [lt, hu, hv, ← mul_lt_mul_iff_of_pos_right unitsPerOne_cast_pos, ← hp, ← hq, Int.cast_lt]
  exact decide_eq_true_iff

theorem value?_max (ha : a.value? = some p) (hb : b.value? = some q) :
    (a.max b).value? = some (p ⊔ q) := by
  have hlt := lt_eq_true_iff ha hb
  rw [Number.max]
  split
  · next h => rw [hb, sup_of_le_right (hlt.mp h).le]
  · next h => rw [ha, sup_of_le_left (not_lt.mp (mt hlt.mpr h))]

theorem value?_min (ha : a.value? = some p) (hb : b.value? = some q) :
    (a.min b).value? = some (p ⊓ q) := by
  have hlt := lt_eq_true_iff hb ha
  rw [Number.min]
  split
  · next h => rw [hb, inf_of_le_right (hlt.mp h).le]
  · next h => rw [ha, inf_of_le_left (not_lt.mp (mt hlt.mpr h))]

section Lists

variable {ns : List Number} {qs : List ℚ} (h : List.Forall₂ (fun n q => n.value? = some q) ns qs)

include h

theorem value?_maximum (ha : a.value? = some p) :
    (maximum a ns).value? = (p :: qs).max? := by
  rw [List.max?_cons', maximum]
  induction h generalizing a p with
  | nil => exact ha
  | cons hn _ ih => exact ih (value?_max ha hn)

theorem value?_minimum (ha : a.value? = some p) :
    (minimum a ns).value? = (p :: qs).min? := by
  rw [List.min?_cons', minimum]
  induction h generalizing a p with
  | nil => exact ha
  | cons hn _ ih => exact ih (value?_min ha hn)

end Lists

def Computes (r : Number.Result Number) (q : ℚ) : Prop := Yields (fun a => a.value? = some q) r

section Exact

variable {u v : Int}

theorem hasUnits_of_place (h : (real x).place = .point u) : x.HasUnits u := by
  cases x with
  | nan => cases h
  | infinity s => cases s <;> cases h
  | finite s n hn =>
      rw [place_finite, Place.point.injEq] at h
      exact ⟨s, n, hn, rfl, h⟩

theorem place_of_hasUnits (h : x.HasUnits u) : (real x).place = .point u := by
  obtain ⟨s, n, hn, rfl, rfl⟩ := h
  rfl

/-- A number that some real can stand for is taken as that real. -/
theorem toReal_of_representable (ha : a.place = .point u) (hu : Representable u.natAbs) :
    Yields (Binary64.HasUnits · u) a.toReal := by
  cases a with
  | real x => exact yields_ok (hasUnits_of_place ha)
  | int i =>
      rw [place_int, Place.point.injEq] at ha
      subst ha
      have hunits : (Binary64.ofInt i).HasUnits (i * unitsPerOne) := by
        rw [Int.natAbs_mul, Int.natAbs_natCast] at hu
        have h := Binary64.hasUnits_ofUnits (decide (i < 0)) hu
        rwa [signedUnits_mul, Binary64.signedUnits_natAbs] at h
      have hfinite : (Binary64.ofInt i).isFinite = true := by
        obtain ⟨s, n, hn, heq, -⟩ := hunits
        rw [heq]
        rfl
      rw [toReal, if_pos hfinite]
      exact yields_ok hunits

/-- What an operation does to the reals of two places it does to all numbers there. -/
theorem onReals_of_representable {f : Binary64 → Binary64 → Binary64} {P : Number → Prop}
    (hf : ∀ x y, Binary64.HasUnits x u → Binary64.HasUnits y v → P (.real (f x y)))
    (ha : a.place = .point u) (hb : b.place = .point v) (hu : Representable u.natAbs)
    (hv : Representable v.natAbs) : Yields P (onReals f a b) :=
  (toReal_of_representable ha hu).bind fun x hx =>
    (toReal_of_representable hb hv).bind fun y hy => yields_ok (hf x y hx hy)

theorem add_of_representable (ha : a.place = .point u) (hb : b.place = .point v)
    (hu : Representable u.natAbs) (hv : Representable v.natAbs)
    (huv : Representable (u + v).natAbs) :
    Yields (fun c => c.place = .point (u + v)) (a.add b) := by
  have hreals : Yields (fun c => c.place = .point (u + v)) (onReals .add a b) :=
    onReals_of_representable (fun _ _ hx hy => place_of_hasUnits (hx.add hy huv)) ha hb hu hv
  cases a with
  | real x => exact hreals
  | int i =>
      cases b with
      | real y => exact hreals
      | int j =>
          rw [place_int, Place.point.injEq] at ha hb
          subst ha hb
          exact yields_ok (by rw [place_int, Int.add_mul])

theorem sub_of_representable (ha : a.place = .point u) (hb : b.place = .point v)
    (hu : Representable u.natAbs) (hv : Representable v.natAbs)
    (huv : Representable (u - v).natAbs) :
    Yields (fun c => c.place = .point (u - v)) (a.sub b) := by
  have hreals : Yields (fun c => c.place = .point (u - v)) (onReals .sub a b) :=
    onReals_of_representable (fun _ _ hx hy => place_of_hasUnits (hx.add hy.neg huv)) ha hb hu hv
  cases a with
  | real x => exact hreals
  | int i =>
      cases b with
      | real y => exact hreals
      | int j =>
          rw [place_int, Place.point.injEq] at ha hb
          subst ha hb
          exact yields_ok (by rw [place_int, Int.sub_mul])

end Exact

section Grid

variable {bits : Nat} {i j : Int}

theorem value?_eq_grid_iff {rest : Nat} (hbits : 1074 = bits + rest) :
    a.value? = some (i / 2 ^ bits : ℚ) ↔ a.place = .point (i * (2 ^ rest : Nat)) := by
  have hpow : (unitsPerOne : ℚ) = 2 ^ bits * 2 ^ rest := by
    rw [Binary64.unitsPerOne_eq_pow hbits, Nat.pow_add]
    push_cast
    rfl
  have hunits (u : Int) : (u : ℚ) = i / 2 ^ bits * unitsPerOne ↔ u = i * (2 ^ rest : Nat) := by
    rw [hpow, ← mul_assoc, div_mul_cancel₀ _ (by positivity)]
    exact_mod_cast Iff.rfl
  simp only [value?_eq_some_iff, hunits, exists_eq_right]

theorem representable_grid {rest : Nat} (hbits : 1074 = bits + rest) (hi : i.natAbs ≤ 2 ^ 53) :
    Representable (i * (2 ^ rest : Nat)).natAbs := by
  rw [Int.natAbs_mul, Int.natAbs_natCast]
  exact Binary64.representable_mul_pow hi (by omega)

variable (hbits : bits ≤ 1074) (ha : a.value? = some (i / 2 ^ bits : ℚ))
  (hb : b.value? = some (j / 2 ^ bits : ℚ)) (hi : i.natAbs ≤ 2 ^ 53) (hj : j.natAbs ≤ 2 ^ 53)

include hbits ha hb hi hj

theorem add_of_grid (hij : (i + j).natAbs ≤ 2 ^ 53) :
    Computes (a.add b) ((i + j : Int) / 2 ^ bits) := by
  obtain ⟨rest, hrest⟩ := Nat.exists_eq_add_of_le hbits
  have ha := (value?_eq_grid_iff hrest).mp ha
  have hb := (value?_eq_grid_iff hrest).mp hb
  have hsum := representable_grid hrest hij
  rw [Int.add_mul] at hsum
  refine (add_of_representable ha hb (representable_grid hrest hi) (representable_grid hrest hj)
    hsum).mono fun c hc => (value?_eq_grid_iff hrest).mpr ?_
  rw [hc, Int.add_mul]

theorem sub_of_grid (hij : (i - j).natAbs ≤ 2 ^ 53) :
    Computes (a.sub b) ((i - j : Int) / 2 ^ bits) := by
  obtain ⟨rest, hrest⟩ := Nat.exists_eq_add_of_le hbits
  have ha := (value?_eq_grid_iff hrest).mp ha
  have hb := (value?_eq_grid_iff hrest).mp hb
  have hdifference := representable_grid hrest hij
  rw [Int.sub_mul] at hdifference
  refine (sub_of_representable ha hb (representable_grid hrest hi) (representable_grid hrest hj)
    hdifference).mono fun c hc => (value?_eq_grid_iff hrest).mpr ?_
  rw [hc, Int.sub_mul]

end Grid

/-- The integer next to a rational, the even one of two. -/
def IsNearest (q : ℚ) (k : ℤ) : Prop := |q - k| ≤ 1 / 2 ∧ (|q - k| = 1 / 2 → Even k)

theorem IsNearest.unique {k m : ℤ} (hk : IsNearest q k) (hm : IsNearest q m) : k = m := by
  obtain ⟨hkle, hkeven⟩ := hk
  obtain ⟨hmle, hmeven⟩ := hm
  have hdiff : |(k - m : ℚ)| ≤ 1 := by
    have htriangle := abs_sub_le (k : ℚ) q m
    rw [abs_sub_comm (k : ℚ) q] at htriangle
    linarith
  have hle : |k - m| ≤ 1 := by exact_mod_cast hdiff
  by_contra hne
  -- the two are neighbours, with the rational halfway between them
  have hone : |k - m| = 1 := le_antisymm hle (Int.one_le_abs (sub_ne_zero.mpr hne))
  have hone' : |(k - m : ℚ)| = 1 := by exact_mod_cast hone
  have htriangle := abs_sub_le (k : ℚ) q m
  rw [abs_sub_comm (k : ℚ) q, hone'] at htriangle
  obtain ⟨i, hi⟩ := hkeven (by linarith)
  obtain ⟨j, hj⟩ := hmeven (by linarith)
  rcases abs_eq (by decide) |>.mp hone with h | h <;> omega

theorem IsNearest.neg {k : ℤ} (h : IsNearest q k) : IsNearest (-q) (-k) := by
  have habs : |-q - ((-k : ℤ) : ℚ)| = |q - k| := by
    rw [Int.cast_neg, ← abs_neg (q - k)]
    ring_nf
  rw [IsNearest, habs]
  exact ⟨h.1, fun htie => (h.2 htie).neg⟩

/-- A whole number with a rest is rounded by the rest, and halfway by the whole number. -/
theorem isNearest_add_rest (whole : Nat) {rest : ℚ} (h0 : 0 ≤ rest) (h1 : rest < 1) :
    IsNearest (whole + rest) ((if rest < 1 / 2 then whole
      else if 1 / 2 < rest then whole + 1
      else if whole % 2 = 0 then whole else whole + 1 : Nat) : Int) := by
  have hdown : |(whole : ℚ) + rest - (whole : ℤ)| = rest := by
    rw [Int.cast_natCast, add_sub_cancel_left, abs_of_nonneg h0]
  have hup : |(whole : ℚ) + rest - (whole + 1 : Nat)| = 1 - rest := by
    rw [Nat.cast_succ, add_sub_add_left_eq_sub, abs_sub_comm, abs_of_pos (by linarith)]
  rw [IsNearest]
  split_ifs with hlow hhigh heven
  · rw [hdown]
    exact ⟨hlow.le, fun htie => absurd htie hlow.ne⟩
  · rw [Int.cast_natCast, hup]
    exact ⟨by linarith, fun htie => by linarith⟩
  · rw [hdown]
    exact ⟨not_lt.mp hhigh, fun _ => by exact_mod_cast Nat.even_iff.mpr heven⟩
  · rw [Int.cast_natCast, hup]
    refine ⟨by linarith, fun _ => ?_⟩
    exact_mod_cast Nat.even_add_one.mpr fun h => heven (Nat.even_iff.mp h)

theorem isNearest_roundQuotient (n : Nat) {d : Nat} (hd : 0 < d) :
    IsNearest (n / d) (roundQuotient n d) := by
  have hpos : (0 : ℚ) < d := by exact_mod_cast hd
  have hsplit : (n : ℚ) = d * (n / d : Nat) + (n % d : Nat) := by
    exact_mod_cast (Nat.div_add_mod n d).symm
  have hvalue : (n : ℚ) / d = (n / d : Nat) + (n % d : Nat) / d := by
    rw [div_eq_iff hpos.ne', hsplit, add_mul, div_mul_cancel₀ _ hpos.ne', Rat.mul_comm]
  have hrest : ((n % d : Nat) : ℚ) / d < 1 := by
    rw [div_lt_iff₀ hpos, one_mul]
    exact_mod_cast Nat.mod_lt n hd
  have hnonneg : (0 : ℚ) ≤ (n % d : Nat) / d := div_nonneg (Nat.cast_nonneg _) hpos.le
  have hbelow : 2 * (n % d) < d ↔ ((n % d : Nat) : ℚ) / d < 1 / 2 := by
    rw [div_lt_div_iff₀ hpos two_pos, one_mul, Rat.mul_comm]
    exact_mod_cast Iff.rfl
  have habove : d < 2 * (n % d) ↔ (1 : ℚ) / 2 < (n % d : Nat) / d := by
    rw [div_lt_div_iff₀ two_pos hpos, one_mul, Rat.mul_comm _ (2 : ℚ)]
    exact_mod_cast Iff.rfl
  rw [hvalue]
  simp only [roundQuotient, hbelow, habove]
  exact isNearest_add_rest (n / d) hnonneg hrest

theorem isNearest_signed (s : Bool) (n : Nat) {d : Nat} (hd : 0 < d) :
    IsNearest (Binary64.signedUnits s n / d) (Binary64.signedUnits s (roundQuotient n d)) := by
  have h := isNearest_roundQuotient n hd
  cases s with
  | false => exact h
  | true =>
      have hneg : ((Binary64.signedUnits true n : Int) : ℚ) / d = -(n / d) := by
        rw [Binary64.signedUnits, if_pos rfl, Int.cast_neg, neg_div, Int.cast_natCast]
      rw [hneg]
      exact h.neg

end Mockup.Number
