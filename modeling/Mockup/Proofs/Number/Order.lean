import Mathlib
import Mockup.Proofs.Number.Exact
import Mockup.Proofs.Number.Magnitude

namespace Mockup.Number

namespace Place

def rank : Place → WithBot (WithTop Int)
  | nowhere | below => ⊥
  | point u => ((u : WithTop Int) : WithBot (WithTop Int))
  | above => ((⊤ : WithTop Int) : WithBot (WithTop Int))

/-- The difference of two places, with those at the ends of the line taken as reals take them. -/
def sub : Place → Place → Place
  | nowhere, _ | _, nowhere | below, below | above, above => nowhere
  | point u, point v => point (u - v)
  | below, _ | _, above => below
  | above, _ | _, below => above

variable {p q r : Place}

theorem rank_point_le_iff {u v : Int} : (point u).rank ≤ (point v).rank ↔ u ≤ v := by
  rw [rank, rank, WithBot.coe_le_coe, WithTop.coe_le_coe]

theorem rank_sub_le_left (h : p.rank ≤ q.rank) (r : Place) : (p.sub r).rank ≤ (q.sub r).rank := by
  cases p <;> cases q <;> cases r
  case point.point.point u v w =>
    have huv := rank_point_le_iff.mp h
    exact rank_point_le_iff.mpr (by omega)
  all_goals simp_all [sub, rank]

theorem rank_sub_le_right (hq : q ≠ nowhere) (h : q.rank ≤ r.rank) (p : Place) :
    (p.sub r).rank ≤ (p.sub q).rank := by
  cases p <;> cases q <;> cases r
  case point.point.point u v w =>
    have hvw := rank_point_le_iff.mp h
    exact rank_point_le_iff.mpr (by omega)
  all_goals simp_all [sub, rank]

@[simp] theorem rank_point (u : Int) :
    (point u).rank = ((u : WithTop Int) : WithBot (WithTop Int)) := rfl

theorem rank_injective {p q : Place} (hp : p ≠ nowhere) (hq : q ≠ nowhere)
    (h : p.rank = q.rank) : p = q := by
  cases p <;> cases q <;> simp_all [rank]

end Place

def rank (a : Number) : WithBot (WithTop Int) := a.place.rank

variable {a b c : Number}

theorem place_ne_nowhere (ha : a ≠ .real .nan) : a.place ≠ .nowhere :=
  fun h => ha (place_eq_nowhere_iff.mp h)

theorem lt_iff_rank_lt (ha : a ≠ .real .nan) : a.lt b = true ↔ a.rank < b.rank := by
  have hplace := place_ne_nowhere ha
  rw [lt, rank, rank]
  generalize a.place = p, b.place = q at hplace
  have htop (u : Int) : (Place.point u).rank < Place.above.rank :=
    WithBot.coe_lt_coe.mpr (WithTop.coe_lt_top u)
  cases p with
  | nowhere => exact absurd rfl hplace
  | below => cases q <;> simp [Place.rank]
  | above => cases q <;> simp [Place.rank]
  | point u =>
      cases q with
      | above => exact iff_of_true rfl (htop u)
      | _ => simp [Place.rank]

theorem eq_iff_rank_eq (ha : a ≠ .real .nan) (hb : b ≠ .real .nan) :
    a.eq b = true ↔ a.rank = b.rank := by
  rw [eq_eq_true_iff, and_iff_left (place_ne_nowhere ha)]
  exact ⟨congrArg Place.rank, Place.rank_injective (place_ne_nowhere ha) (place_ne_nowhere hb)⟩

theorem le_iff_rank_le (ha : a ≠ .real .nan) (hb : b ≠ .real .nan) :
    a.le b = true ↔ a.rank ≤ b.rank := by
  rw [le, Bool.or_eq_true, lt_iff_rank_lt ha, eq_iff_rank_eq ha hb, le_iff_lt_or_eq]

theorem not_isReal_int (i : Int) : ¬(int i).IsReal := by
  rintro ⟨x, h⟩
  cases h

theorem isReal_of_onReals {f : Binary64 → Binary64 → Binary64} (h : onReals f a b = .ok c) :
    c.IsReal := by
  obtain ⟨x, -, h⟩ := Result.bind_eq_ok_iff.mp h
  obtain ⟨y, -, h⟩ := Result.bind_eq_ok_iff.mp h
  cases h
  exact ⟨_, rfl⟩

theorem isReal_sub_int_iff {k : Int} (h : a.sub (int k) = .ok c) : c.IsReal ↔ a.IsReal := by
  cases a with
  | int i =>
      cases h
      exact iff_of_false (not_isReal_int _) (not_isReal_int i)
  | real x => exact iff_of_true (isReal_of_onReals h) ⟨x, rfl⟩

theorem isReal_int_sub_iff {k : Int} (h : (int k).sub a = .ok c) : c.IsReal ↔ a.IsReal := by
  cases a with
  | int i =>
      cases h
      exact iff_of_false (not_isReal_int _) (not_isReal_int i)
  | real x => exact iff_of_true (isReal_of_onReals h) ⟨x, rfl⟩

/-- Of two numbers at one place that is not zero, both integers or both reals, there is but one. -/
theorem eq_of_rank_eq (hform : a.IsReal ↔ b.IsReal) (hpos : (int 0).rank < a.rank)
    (h : a.rank = b.rank) : a = b := by
  have hne {n : Number} (hn : (int 0).rank < n.rank) : n ≠ .real .nan := by
    rintro rfl
    exact not_lt_bot hn
  have hplace := Place.rank_injective (place_ne_nowhere (hne hpos))
    (place_ne_nowhere (hne (hpos.trans_eq h))) h
  cases a with
  | int i =>
      cases b with
      | int j => exact eq_of_place_eq trivial trivial hplace
      | real y => exact (not_isReal_int i (hform.mpr ⟨y, rfl⟩)).elim
  | real x =>
      cases b with
      | int j => exact (not_isReal_int j (hform.mp ⟨x, rfl⟩)).elim
      | real y =>
          cases x with
          | nan => exact absurd rfl (hne hpos)
          | infinity s =>
              cases y with
              | nan => exact absurd rfl (hne (hpos.trans_eq h))
              | infinity t => cases s <;> cases t <;> first | rfl | cases hplace
              | finite t v hv => cases s <;> cases hplace
          | finite s u hu =>
              cases y with
              | nan => exact absurd rfl (hne (hpos.trans_eq h))
              | infinity t => cases t <;> cases hplace
              | finite t v hv =>
                  have hunits : u ≠ 0 := by
                    rintro rfl
                    have hzero : (real (.finite s 0 hu)).place = (int 0).place :=
                      (place_of_isZero rfl).trans (place_of_isZero rfl).symm
                    exact hpos.ne (congrArg Place.rank hzero.symm)
                  rw [place_finite, place_finite, Place.point.injEq] at hplace
                  obtain ⟨rfl, rfl⟩ := signedUnits_injective hunits hplace
                  rfl

theorem int_ne_nan (i : Int) : int i ≠ .real .nan := nofun

theorem zero_ne_nan : (0 : Number) ≠ .real .nan := int_ne_nan 0

theorem ne_nan_of_lt (h : a.lt b = true) : a ≠ .real .nan ∧ b ≠ .real .nan := by
  constructor
  · rintro rfl
    cases h
  · rintro rfl
    rw [lt, place_eq_nowhere_iff.mpr rfl] at h
    generalize a.place = p at h
    cases p <;> cases h

theorem ne_nan_of_le (h : a.le b = true) : a ≠ .real .nan ∧ b ≠ .real .nan := by
  rcases Bool.or_eq_true _ _ ▸ h with h | h
  · exact ne_nan_of_lt h
  · obtain ⟨hplace, ha⟩ := eq_eq_true_iff.mp h
    exact ⟨fun h => ha (place_eq_nowhere_iff.mpr h),
      fun h => ha (hplace.trans (place_eq_nowhere_iff.mpr h))⟩

theorem rank_le_of_le (h : a.le b = true) : a.rank ≤ b.rank := by
  obtain ⟨ha, hb⟩ := ne_nan_of_le h
  exact (le_iff_rank_le ha hb).mp h

theorem lt_of_lt_of_le (hab : a.lt b = true) (hbc : b.le c = true) : a.lt c = true := by
  have ha := (ne_nan_of_lt hab).1
  exact (lt_iff_rank_lt ha).mpr (((lt_iff_rank_lt ha).mp hab).trans_le (rank_le_of_le hbc))

section Maximum

variable {ns ms : List Number}

theorem max_ne_nan (ha : a ≠ .real .nan) : a.max b ≠ .real .nan := by
  rw [Number.max]
  split
  · next h => exact (ne_nan_of_lt h).2
  · exact ha

theorem rank_max (ha : a ≠ .real .nan) : (a.max b).rank = a.rank ⊔ b.rank := by
  rw [Number.max]
  split
  · next h => exact (max_eq_right ((lt_iff_rank_lt ha).mp h).le).symm
  · next h => exact (max_eq_left (not_lt.mp fun hlt => h ((lt_iff_rank_lt ha).mpr hlt))).symm

theorem maximum_cons (a n : Number) (ns : List Number) :
    maximum a (n :: ns) = maximum (a.max n) ns := rfl

theorem maximum_append (a : Number) (ns ms : List Number) :
    maximum a (ns ++ ms) = maximum (maximum a ns) ms :=
  List.foldl_append

theorem maximum_ne_nan (ha : a ≠ .real .nan) : maximum a ns ≠ .real .nan := by
  induction ns generalizing a with
  | nil => exact ha
  | cons n ns ih => exact ih (max_ne_nan ha)

theorem rank_maximum_le_iff (ha : a ≠ .real .nan) {r : WithBot (WithTop Int)} :
    (maximum a ns).rank ≤ r ↔ a.rank ≤ r ∧ ∀ n ∈ ns, n.rank ≤ r := by
  induction ns generalizing a with
  | nil => simp [maximum]
  | cons n ns ih =>
      rw [maximum_cons, ih (max_ne_nan ha), rank_max ha, sup_le_iff, List.forall_mem_cons,
        and_assoc]

theorem rank_le_maximum (ha : a ≠ .real .nan) (ns : List Number) :
    a.rank ≤ (maximum a ns).rank ∧ ∀ n ∈ ns, n.rank ≤ (maximum a ns).rank :=
  (rank_maximum_le_iff ha).mp le_rfl

/-- What a search for the greatest number starts with stays unless something is greater. -/
theorem maximum_eq_or (ha : a ≠ .real .nan) (ns : List Number) :
    maximum a ns = a ∨ maximum a ns ∈ ns ∧ a.rank < (maximum a ns).rank := by
  induction ns generalizing a with
  | nil => exact .inl rfl
  | cons n ns ih =>
      rw [maximum_cons]
      by_cases hlt : a.lt n = true
      · have hmax : a.max n = n := if_pos hlt
        have hrank := (lt_iff_rank_lt ha).mp hlt
        rw [hmax]
        rcases ih (ne_nan_of_lt hlt).2 with h | ⟨hmem, hn⟩
        · rw [h]
          exact .inr ⟨List.mem_cons_self, hrank⟩
        · exact .inr ⟨List.mem_cons_of_mem n hmem, hrank.trans hn⟩
      · have hmax : a.max n = a := if_neg hlt
        rw [hmax]
        exact (ih ha).imp_right fun ⟨hmem, hrank⟩ => ⟨List.mem_cons_of_mem n hmem, hrank⟩

theorem rank_maximum_mono (ha : a ≠ .real .nan) (h : ns ⊆ ms) :
    (maximum a ns).rank ≤ (maximum a ms).rank := by
  obtain ⟨hle, hms⟩ := rank_le_maximum ha ms
  exact (rank_maximum_le_iff ha).mpr ⟨hle, fun n hn => hms n (h hn)⟩

/-- Numbers that differ stand at different places, as far as they are above some number. -/
theorem maximum_eq_of_mem_iff (ha : a ≠ .real .nan) (h : ∀ n, n ∈ ns ↔ n ∈ ms)
    (hdiffer : ∀ m ∈ ns, ∀ n ∈ ns, a.rank < m.rank → m.rank = n.rank → m = n) :
    maximum a ns = maximum a ms := by
  have hrank : (maximum a ns).rank = (maximum a ms).rank :=
    (rank_maximum_mono ha fun n => (h n).mp).antisymm (rank_maximum_mono ha fun n => (h n).mpr)
  rcases maximum_eq_or ha ns with hns | ⟨hns, hlt⟩
  · rcases maximum_eq_or ha ms with hms | ⟨-, hlt⟩
    · rw [hns, hms]
    · rw [← hrank, hns] at hlt
      exact (lt_irrefl _ hlt).elim
  · rcases maximum_eq_or ha ms with hms | ⟨hms, -⟩
    · rw [hrank, hms] at hlt
      exact (lt_irrefl _ hlt).elim
    · exact hdiffer _ hns _ ((h _).mpr hms) hlt hrank

end Maximum

theorem zero_le_ne_nan (h : rank 0 ≤ a.rank) : a ≠ .real .nan := by
  rintro rfl
  exact absurd h (by decide)

/-- An integer that is the greater of some number and a positive one is positive. -/
theorem pos_of_max_eq_int {i : Int} (hb : Number.lt 0 b = true) (h : a.max b = .int i) : 0 < i := by
  have hrank : (0 : Number).rank < (int i).rank := by
    have hpos := (lt_iff_rank_lt zero_ne_nan).mp hb
    by_cases ha : a = .real .nan
    · subst ha
      have hnan : (real .nan).max b = .real .nan := rfl
      rw [hnan] at h
      cases h
    · rw [← h, rank_max ha]
      exact hpos.trans_le le_sup_right
  have hlt := (lt_iff_rank_lt zero_ne_nan).mpr hrank
  exact of_decide_eq_true ((lt_int 0 i).symm.trans hlt)

/-- A fraction of a positive integer that is not above it is in the range of reals. -/
theorem div_int_succeeds {n m : Int} (hm : 0 < m) (hnm : n.natAbs ≤ m.natAbs) :
    Result.Succeeds ((int n).div (int m)) := by
  have hzero : (int m).isZero = false := by
    rw [isZero, beq_eq_false_iff_ne]
    exact hm.ne'
  rw [div, hzero, if_neg Bool.false_ne_true]
  have hwithin := Binary64.within_ofRatio (k := 0) (decide (n < 0) != decide (m < 0))
    (show n.natAbs ≤ m.natAbs * 2 ^ 0 by simpa using hnm) (by decide)
  dsimp only
  rw [if_pos hwithin.isFinite]
  exact Result.succeeds_ok _

theorem pairwise_lt_mergeSort {α : Type} {key : α → Number} {items : List α}
    (hdefined : ∀ a ∈ items, key a ≠ .real .nan)
    (hnodup : (items.map fun a => (key a).normalize).Nodup) :
    (items.mergeSort fun a b => !(key b).lt (key a)).Pairwise
      fun a b => (key a).lt (key b) = true := by
  have hperm := List.mergeSort_perm items fun a b => !(key b).lt (key a)
  -- sorting the ranks instead, which are ordered also where numbers are not
  have hranks : ((items.mergeSort fun a b => !(key b).lt (key a)).map fun a => (key a).rank) =
      (items.map fun a => (key a).rank).mergeSort fun a b => decide (a ≤ b) := by
    refine List.map_mergeSort fun a ha b hb => ?_
    rw [Bool.eq_iff_iff, Bool.not_eq_true', ← Bool.not_eq_true, lt_iff_rank_lt (hdefined b hb),
      not_lt, decide_eq_true_iff]
  have hsorted := @List.pairwise_mergeSort _ (fun a b : WithBot (WithTop Int) => decide (a ≤ b))
    (fun a b c hab hbc => decide_eq_true (le_trans (of_decide_eq_true hab) (of_decide_eq_true hbc)))
    (fun a b => by simpa using le_total a b) (items.map fun a => (key a).rank)
  rw [← hranks, List.pairwise_map] at hsorted
  have hdistinct := (hperm.map fun a => (key a).normalize).nodup_iff.mpr hnodup
  rw [List.Nodup, List.pairwise_map] at hdistinct
  refine (hsorted.and hdistinct).imp_of_mem fun {a b} ha hb ⟨hle, hne⟩ => ?_
  have ha := hdefined a (hperm.mem_iff.mp ha)
  have hb := hdefined b (hperm.mem_iff.mp hb)
  refine (lt_iff_rank_lt ha).mpr (lt_of_le_of_ne (of_decide_eq_true hle) fun heq => hne ?_)
  exact (eq_eq_true_iff_normalize_eq ha).mp ((eq_iff_rank_eq ha hb).mpr heq)

end Mockup.Number
