import Mockup.Proofs.Number.Normal
import Mockup.Proofs.Result

namespace Mockup.Number

namespace Binary64

inductive Within (k : Nat) : Binary64 → Prop
  | finite (s : Bool) (u : Nat) (h : Representable u) (hu : u ≤ 2 ^ k * unitsPerOne) :
      Within k (.finite s u h)

theorem Within.mono {j k : Nat} (hjk : j ≤ k) {x : Binary64} (h : x.Within j) : x.Within k := by
  obtain ⟨s, u, hu, hum⟩ := h
  refine .finite s u hu (hum.trans (Nat.mul_le_mul_right _ ?_))
  exact Nat.pow_le_pow_right (by decide) hjk

theorem Within.isFinite {x : Binary64} {k : Nat} (h : x.Within k) : x.isFinite = true := by
  obtain ⟨s, u, hu, -⟩ := h
  rfl

theorem Within.floor? {x : Binary64} {k : Nat} (h : x.Within k) : ∃ i, x.floor? = some i := by
  obtain ⟨s, u, hu, -⟩ := h
  exact ⟨_, rfl⟩

theorem roundUnits_le_pow {n d m : Nat} (h : n / d ≤ 2 ^ m) : roundUnits n d ≤ 2 ^ (m + 1) := by
  refine (roundUnits_le n d).trans (Nat.pow_le_pow_right (by decide) (Nat.succ_le_succ ?_))
  by_cases hzero : n / d = 0
  · rw [hzero, Nat.log2_zero]
    exact Nat.zero_le m
  · have hlt : n / d < 2 ^ (m + 1) :=
      Nat.lt_of_le_of_lt h (Nat.pow_lt_pow_right (by decide) (Nat.lt_succ_self m))
    exact Nat.le_of_lt_succ ((Nat.log2_lt hzero).mpr hlt)

theorem unitsPerOne_eq_pow {bits : Nat} (h : 1074 = bits) : unitsPerOne = 2 ^ bits := by
  unfold unitsPerOne
  generalize 1074 = exponent at h ⊢
  exact congrArg _ h

theorem two_pow_lt_limit {bits : Nat} (h : bits < 2098) : 2 ^ bits < Nat.pow 2 2098 := by
  generalize 2098 = exponent at h ⊢
  exact Nat.pow_lt_pow_right (by decide) h

/-- Rounding goes no further than to the next power of two. -/
theorem within_ofUnits (s : Bool) {n d m : Nat} (h : n / d ≤ 2 ^ m * unitsPerOne)
    (hm : m + 1 < 1024) : (ofUnits s n d).Within (m + 1) := by
  obtain ⟨bits, hbits⟩ : ∃ bits, 1074 = bits := ⟨_, rfl⟩
  have hpow (m : Nat) : 2 ^ m * unitsPerOne = 2 ^ (m + bits) := by
    rw [unitsPerOne_eq_pow hbits, Nat.pow_add]
  rw [hpow] at h
  have hunits := roundUnits_le_pow h
  have hrange : roundUnits n d < Nat.pow 2 2098 :=
    Nat.lt_of_le_of_lt hunits (two_pow_lt_limit (by omega))
  rw [ofUnits, dif_pos (representable_roundUnits hrange)]
  refine .finite s _ _ ?_
  rwa [hpow, Nat.add_right_comm]

theorem natAbs_signedUnits (s : Bool) (u : Nat) : (signedUnits s u).natAbs = u := by
  cases s <;> simp [signedUnits]

theorem within_add {x y : Binary64} {m : Nat} (hx : x.Within m) (hy : y.Within m)
    (hm : m + 2 < 1024) : (x.add y).Within (m + 2) := by
  obtain ⟨s, u, hu, hum⟩ := hx
  obtain ⟨t, v, hv, hvm⟩ := hy
  rw [add]
  split
  · rw [zero]
    exact within_ofUnits _ (by simp) hm
  · refine within_ofUnits _ ?_ hm
    have hadd := Int.natAbs_add_le (signedUnits s u) (signedUnits t v)
    rw [natAbs_signedUnits, natAbs_signedUnits] at hadd
    rw [Nat.div_one, Nat.pow_succ, Nat.mul_right_comm]
    exact hadd.trans (by omega)

theorem within_neg {x : Binary64} {m : Nat} (hx : x.Within m) : x.neg.Within m := by
  obtain ⟨s, u, hu, hum⟩ := hx
  exact .finite _ u hu hum

theorem within_mul {x y : Binary64} {j k : Nat} (hx : x.Within j) (hy : y.Within k)
    (hjk : j + k + 1 < 1024) : (x.mul y).Within (j + k + 1) := by
  obtain ⟨s, u, hu, hum⟩ := hx
  obtain ⟨t, v, hv, hvm⟩ := hy
  rw [mul]
  refine within_ofUnits _ (Nat.div_le_of_le_mul ?_) hjk
  calc u * v ≤ 2 ^ j * unitsPerOne * (2 ^ k * unitsPerOne) := Nat.mul_le_mul hum hvm
    _ = unitsPerOne * (2 ^ (j + k) * unitsPerOne) := by
        rw [Nat.pow_add, Nat.mul_mul_mul_comm, Nat.mul_left_comm]

theorem within_ofRatio (s : Bool) {n d k : Nat} (hn : n ≤ d * 2 ^ k) (hk : k < 1023) :
    (ofRatio s n d).Within (k + 1) := by
  rw [ofRatio]
  refine within_ofUnits s (Nat.div_le_of_le_mul ?_) (by omega)
  rw [← Nat.mul_assoc]
  exact Nat.mul_le_mul_right _ hn

theorem within_ofInt {i : Int} {k : Nat} (hi : i.natAbs ≤ 2 ^ k) (hk : k < 1023) :
    (ofInt i).Within (k + 1) := by
  rw [ofInt]
  exact within_ofRatio _ (by rwa [Nat.one_mul]) hk

theorem within_half : (ofRatio false 1 2).Within 1 :=
  within_ofRatio (n := 1) (d := 2) (k := 0) false (by omega) (by omega)

end Binary64

open Mockup.Result

variable {a b : Number} {j k : Nat}

inductive Whole (k : Nat) : Number → Prop
  | int (i : Int) (hi : i.natAbs ≤ 2 ^ k) : Whole k (.int i)

inductive Within (k : Nat) : Number → Prop
  | int (i : Int) (hi : i.natAbs ≤ 2 ^ k) : Within k (.int i)
  | real (x : Binary64) (hx : x.Within k) : Within k (.real x)

theorem Whole.mono (hjk : j ≤ k) (h : a.Whole j) : a.Whole k := by
  obtain ⟨i, hi⟩ := h
  exact .int i (hi.trans (Nat.pow_le_pow_right (by decide) hjk))

theorem Whole.within (h : a.Whole k) : a.Within k := by
  obtain ⟨i, hi⟩ := h
  exact .int i hi

theorem Within.mono (hjk : j ≤ k) (h : a.Within j) : a.Within k := by
  cases h with
  | int i hi => exact .int i (hi.trans (Nat.pow_le_pow_right (by decide) hjk))
  | real x hx => exact .real x (hx.mono hjk)

def IsShare (a : Number) : Prop := Number.le 0 a = true ∧ a.le 1 = true

theorem le_of_point {u v : Int} (ha : a.place = .point u) (hb : b.place = .point v)
    (h : a.le b = true) : u ≤ v := by
  rw [le, lt, eq, ha, hb] at h
  simp only [Bool.or_eq_true, decide_eq_true_eq] at h
  omega

theorem IsShare.within (h : a.IsShare) : a.Within 0 := by
  have hone : place 1 = .point unitsPerOne := (place_int 1).trans (by rw [Int.one_mul])
  have hzero : place 0 = .point 0 := place_of_isZero rfl
  have hunits : 0 < (unitsPerOne : Int) := Int.natCast_pos.mpr unitsPerOne_pos
  obtain ⟨hnonneg, hle⟩ := h
  cases a with
  | int i =>
      have hnonneg := Int.le_of_mul_le_mul_right
        ((Int.zero_mul _).trans_le (le_of_point hzero (place_int i) hnonneg)) hunits
      have hle := Int.le_of_mul_le_mul_right
        ((le_of_point (place_int i) hone hle).trans_eq (Int.one_mul _).symm) hunits
      exact .int i (by omega)
  | real x =>
      cases x with
      | nan => cases hle
      | infinity s =>
          cases s with
          | true => cases hnonneg
          | false => cases hle
      | finite s u hu =>
          have hle := le_of_point (place_finite s hu) hone hle
          have hnonneg := le_of_point hzero (place_finite s hu) hnonneg
          refine .real _ (.finite s u hu ?_)
          have habs := Binary64.natAbs_signedUnits s u
          omega

theorem known_yields {P : Number → Prop} {n : Option Number} (h : ∃ a, n = some a ∧ P a) :
    Yields P (known n) := by
  obtain ⟨a, rfl, ha⟩ := h
  exact yields_ok ha

theorem Whole.sub (ha : a.Whole k) (hb : b.Whole k) : Yields (Whole (k + 1)) (a.sub b) := by
  obtain ⟨i, hi⟩ := ha
  obtain ⟨l, hl⟩ := hb
  refine yields_ok (.int _ ?_)
  rw [Nat.pow_succ]
  omega

theorem Whole.add (ha : a.Whole k) (hb : b.Whole k) : Yields (Whole (k + 1)) (a.add b) := by
  obtain ⟨i, hi⟩ := ha
  obtain ⟨l, hl⟩ := hb
  refine yields_ok (.int _ ?_)
  rw [Nat.pow_succ]
  omega

theorem Whole.mul (ha : a.Whole j) (hb : b.Whole k) : Yields (Whole (j + k)) (a.mul b) := by
  obtain ⟨i, hi⟩ := ha
  obtain ⟨l, hl⟩ := hb
  refine yields_ok (.int _ ?_)
  rw [Int.natAbs_mul, Nat.pow_add]
  exact Nat.mul_le_mul hi hl

theorem max_cases (P : Number → Prop) (ha : P a) (hb : P b) : P (a.max b) := by
  rw [Number.max]
  split
  · exact hb
  · exact ha

theorem min_cases (P : Number → Prop) (ha : P a) (hb : P b) : P (a.min b) := by
  rw [Number.min]
  split
  · exact hb
  · exact ha

theorem maximum_cases (P : Number → Prop) {ns : List Number} (ha : P a) (hns : ∀ n ∈ ns, P n) :
    P (maximum a ns) := by
  induction ns generalizing a with
  | nil => exact ha
  | cons n ns ih =>
      obtain ⟨hn, hns⟩ := List.forall_mem_cons.mp hns
      exact ih (max_cases P ha hn) hns

theorem minimum_cases (P : Number → Prop) {ns : List Number} (ha : P a) (hns : ∀ n ∈ ns, P n) :
    P (minimum a ns) := by
  induction ns generalizing a with
  | nil => exact ha
  | cons n ns ih =>
      obtain ⟨hn, hns⟩ := List.forall_mem_cons.mp hns
      exact ih (min_cases P ha hn) hns

/-- What is within its bound is a real within twice that bound. -/
theorem Within.toReal (h : a.Within k) (hk : k < 1023) :
    Yields (Binary64.Within (k + 1)) a.toReal := by
  cases h with
  | real x hx => exact yields_ok (hx.mono (by omega))
  | int i hi =>
      have hx := Binary64.within_ofInt hi hk
      rw [Number.toReal, if_pos hx.isFinite]
      exact yields_ok hx

theorem Within.inRange (h : a.Within k) (hk : k < 1023) : a.InRange := (h.toReal hk).succeeds

/-- An operation that is exact on integers and is carried out on reals otherwise. -/
theorem Within.combine {l : Nat} {op : Number → Number → Number.Result Number}
    {f : Binary64 → Binary64 → Binary64}
    (hop : ∀ a b, (∃ i l, a = .int i ∧ b = .int l) ∨ op a b = onReals f a b)
    (ha : a.Within j) (hj : j < 1023) (hb : b.Within k) (hk : k < 1023)
    (hwhole : a.Whole j → b.Whole k → Yields (Within l) (op a b))
    (hreals : ∀ x y : Binary64, x.Within (j + 1) → y.Within (k + 1) → (f x y).Within l) :
    Yields (Within l) (op a b) := by
  rcases hop a b with ⟨i, l, rfl, rfl⟩ | h
  · cases ha
    cases hb
    exact hwhole (.int i ‹_›) (.int l ‹_›)
  · rw [h]
    exact (ha.toReal hj).bind fun x hx => (hb.toReal hk).bind fun y hy =>
      yields_ok (.real (f x y) (hreals x y hx hy))

theorem Within.mul (ha : a.Within j) (hb : b.Within k) (hjk : j + k + 3 < 1023) :
    Yields (Within (j + k + 3)) (a.mul b) := by
  refine ha.combine (f := .mul) ?_ (by omega) hb (by omega) ?_ ?_
  · rintro (i | x) (l | y)
    exacts [.inl ⟨i, l, rfl, rfl⟩, .inr rfl, .inr rfl, .inr rfl]
  · exact fun ha hb => (ha.mul hb).mono fun c hc => (hc.mono (by omega)).within
  · exact fun x y hx hy => (Binary64.within_mul hx hy (by omega)).mono (by omega)

theorem Within.add (ha : a.Within k) (hb : b.Within k) (hk : k + 3 < 1023) :
    Yields (Within (k + 3)) (a.add b) := by
  refine ha.combine (f := .add) ?_ (by omega) hb (by omega) ?_ ?_
  · rintro (i | x) (l | y)
    exacts [.inl ⟨i, l, rfl, rfl⟩, .inr rfl, .inr rfl, .inr rfl]
  · exact fun ha hb => (ha.add hb).mono fun c hc => (hc.mono (by omega)).within
  · exact fun x y hx hy => Binary64.within_add hx hy (by omega)

theorem Within.sub (ha : a.Within k) (hb : b.Within k) (hk : k + 3 < 1023) :
    Yields (Within (k + 3)) (a.sub b) := by
  refine ha.combine (f := .sub) ?_ (by omega) hb (by omega) ?_ ?_
  · rintro (i | x) (l | y)
    exacts [.inl ⟨i, l, rfl, rfl⟩, .inr rfl, .inr rfl, .inr rfl]
  · exact fun ha hb => (ha.sub hb).mono fun c hc => (hc.mono (by omega)).within
  · exact fun x y hx hy => Binary64.within_add hx (Binary64.within_neg hy) (by omega)

def IsReal (a : Number) : Prop := ∃ x, a = .real x

theorem IsReal.inRange (h : a.IsReal) : a.InRange := by
  obtain ⟨x, rfl⟩ := h
  exact ⟨x, rfl⟩

theorem onReals_yields (ha : a.InRange) (hb : b.InRange) (f : Binary64 → Binary64 → Binary64) :
    Yields IsReal (onReals f a b) :=
  (Succeeds.yields ha).bind fun x _ => (Succeeds.yields hb).bind fun y _ =>
    yields_ok ⟨f x y, rfl⟩

theorem IsReal.mul (ha : a.IsReal) (hb : b.InRange) : Yields IsReal (a.mul b) := by
  have h := onReals_yields ha.inRange hb .mul
  obtain ⟨x, rfl⟩ := ha
  exact h

theorem isReal_of_div {c : Number} (h : a.div b = .ok c) : c.IsReal := by
  unfold div at h
  split at h
  · cases h
  · split at h
    · dsimp only at h
      split at h
      · cases h
        exact ⟨_, rfl⟩
      · cases h
    · obtain ⟨x, -, h⟩ := bind_eq_ok_iff.mp h
      obtain ⟨y, -, h⟩ := bind_eq_ok_iff.mp h
      cases h
      exact ⟨_, rfl⟩

theorem div_yields (ha : a.InRange) (hb : b.InRange) (hzero : b.isZero = false) :
    Yields IsReal (a.div b) := by
  obtain ⟨c, hc⟩ := div_eq_ok ha hb hzero
  exact ⟨c, hc, isReal_of_div hc⟩

theorem Within.abs (h : a.Within k) : a.abs.Within k := by
  cases h with
  | int i hi => exact .int _ (by rwa [Int.natAbs_natCast])
  | real x hx =>
      obtain ⟨s, u, hu, hum⟩ := hx
      exact .real _ (.finite false u hu hum)

/-- What is no less than a positive number is no zero. -/
theorem isZero_max (a : Number) (hb : Number.lt 0 b = true) : (a.max b).isZero = false := by
  have hzero {a : Number} (h : a.isZero = true) : a.lt b = true := by
    rw [lt, place_of_isZero rfl] at hb
    rwa [lt, place_of_isZero h]
  rw [Number.max]
  split
  · by_contra h
    have hself := hzero (Bool.not_eq_false _ ▸ h)
    rw [lt] at hself
    split at hself <;> simp_all
  · next hlt => exact Bool.eq_false_iff.mpr fun h => hlt (hzero h)

theorem within_fraction_half : (fraction 1 2).Within 1 := .real _ Binary64.within_half

theorem Within.roundHalfUp (h : a.Within k) (hk : k + 4 < 1023) : Succeeds a.roundHalfUp := by
  refine (h.toReal (by omega)).andThen fun x hx => ?_
  have hsum := Binary64.within_add hx (Binary64.within_half.mono (by omega)) (by omega)
  obtain ⟨i, hi⟩ := hsum.floor?
  change Succeeds (integral _ _)
  rw [hi]
  exact succeeds_ok i

theorem Within.truncate (h : a.Within k) : Succeeds a.truncate := by
  cases h with
  | int i hi => exact succeeds_ok i
  | real x hx =>
      obtain ⟨s, u, hu, -⟩ := hx
      exact succeeds_ok _

theorem sum_yields {ns : List Number} (h : ∀ n ∈ ns, n.Whole k) :
    Yields (fun s => ∃ i : Int, s = .int i ∧ i.natAbs ≤ ns.length * 2 ^ k) (sum ns) := by
  have hfrom (ns : List Number) (h : ∀ n ∈ ns, n.Whole k) (acc : Int) :
      Yields (fun s => ∃ i : Int, s = .int i ∧ i.natAbs ≤ acc.natAbs + ns.length * 2 ^ k)
        (ns.foldlM add (.int acc)) := by
    induction ns generalizing acc with
    | nil => exact yields_ok ⟨acc, rfl, Nat.le_add_right _ _⟩
    | cons n ns ih =>
        obtain ⟨⟨l, hl⟩, hns⟩ := List.forall_mem_cons.mp h
        refine (ih hns (acc + l)).mono ?_
        rintro _ ⟨i, rfl, hle⟩
        refine ⟨i, rfl, hle.trans ?_⟩
        have hadd := Int.natAbs_add_le acc l
        rw [List.length_cons, Nat.succ_mul]
        omega
  refine (hfrom ns h 0).mono ?_
  rintro _ ⟨i, rfl, hle⟩
  exact ⟨i, rfl, by simpa using hle⟩

theorem div_count_yields {i : Int} {n : Nat} (hn : 0 < n) (hi : i.natAbs ≤ n * 2 ^ k)
    (hk : k + 1 < 1023) : Yields (Within (k + 1)) ((Number.int i).div (.int n)) := by
  have hmean (s : Bool) := Binary64.within_ofRatio s hi (Nat.lt_of_succ_lt hk)
  have hzero : (Number.int n).isZero = false := by
    rw [isZero, beq_eq_false_iff_ne]
    omega
  rw [div, hzero, if_neg Bool.false_ne_true]
  simp only [Int.natAbs_natCast]
  rw [if_pos (hmean _).isFinite]
  exact yields_ok (.real _ (hmean _))

theorem mean_yields {ns : List Number} {n : Nat} (hn : 0 < n) (hlength : ns.length = n)
    (h : ∀ a ∈ ns, a.Whole k) (hk : k + 1 < 1023) :
    Yields (Within (k + 1)) (do (← sum ns).div (.int n)) := by
  refine (sum_yields h).bind ?_
  rintro _ ⟨i, rfl, hi⟩
  exact div_count_yields hn (hlength ▸ hi) hk

end Mockup.Number
