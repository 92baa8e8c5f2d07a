import Mockup.Pattern.Listing
import Mockup.Proofs.Number.Exact
import Mockup.Proofs.Number.Faults
import Mockup.Proofs.Number.Order
import Mockup.Proofs.Pattern.Shape

namespace Mockup

namespace Listing

open Element Mockup.Result

/-- An element that looks like another one: of its variant and about its size, and a group also with
children of the same variants in order. -/
structure Resembles (first e : Element) : Prop where
  variant : e.variant = first.variant
  parts : first.isGroup = true → e.parts.map Element.variant = first.parts.map Element.variant
  size : similarSize e.box first.box = .ok true

instance (first e : Element) : Decidable (Resembles first e) :=
  decidable_of_iff (e.variant = first.variant ∧
      (first.isGroup = true → e.parts.map Element.variant = first.parts.map Element.variant) ∧
      similarSize e.box first.box = .ok true)
    ⟨fun ⟨hvariant, hparts, hsize⟩ => ⟨hvariant, hparts, hsize⟩,
      fun h => ⟨h.variant, h.parts, h.size⟩⟩

variable {e a b first : Element}

/-- Of elements of the closed set the variant tells whether children are compared. -/
theorem sameStructure_iff (ha : a.isForeign = false) (hb : b.isForeign = false) :
    sameStructure a b = true ↔ a.variant = b.variant ∧
      (b.isGroup = true → a.parts.map Element.variant = b.parts.map Element.variant) := by
  cases a with
  | foreign i v => cases ha
  | leaf i c =>
      cases b with
      | foreign j v => cases hb
      | leaf j d => simp [sameStructure, isGroup]
      | branch j s l fs => simp [sameStructure, variant, leaf_variant_ne]
  | branch i r l es =>
      cases b with
      | foreign j v => cases hb
      | leaf j d => simp [sameStructure, variant, (leaf_variant_ne d r).symm]
      | branch j s l' fs =>
          have hgroup (h : r.variant = s.variant) : r.isGroup = s.isGroup := by
            cases r <;> cases s <;> simp_all [Branch.variant, Branch.isGroup]
          rw [sameStructure, Bool.and_eq_true, beq_iff_eq]
          refine and_congr_right fun h => ?_
          rw [hgroup h, Bool.and_self, isGroup, parts, parts]
          cases s.isGroup <;> simp

theorem isLike_eq_ok_true_iff (he : e.isForeign = false) (hfirst : first.isForeign = false) :
    isLike first e = .ok true ↔ Resembles first e := by
  have hstructure := sameStructure_iff he hfirst
  rw [isLike]
  by_cases h : sameStructure e first = true
  · rw [if_pos h, lift_eq_ok_iff]
    obtain ⟨hvariant, hparts⟩ := hstructure.mp h
    exact ⟨fun hsize => ⟨hvariant, hparts, hsize⟩, fun h => h.size⟩
  · rw [if_neg h]
    exact ⟨nofun, fun halike => absurd (hstructure.mpr ⟨halike.variant, halike.parts⟩) h⟩

theorem exists_of_isLike_eq_error {fault : Mockup.Fault} (h : isLike first e = .error fault) :
    ∃ f, similarSize e.box first.box = .error f ∧ fault = .number f := by
  rw [isLike] at h
  split at h
  · cases hsize : similarSize e.box first.box with
    | ok similar =>
        rw [hsize] at h
        cases h
    | error f =>
        rw [hsize] at h
        exact ⟨f, rfl, (Except.error.inj h).symm⟩
  · cases h

variable {x y : Number}

theorem zero_lt_leastExtent : Number.lt 0 leastExtent = true := by decide +kernel

theorem isZero_extents (x y : Number) :
    ((x.max leastExtent).max (y.max leastExtent)).isZero = false :=
  Number.max_cases (fun n => n.isZero = false) (Number.isZero_max x zero_lt_leastExtent)
    (Number.isZero_max y zero_lt_leastExtent)

theorem similarExtent_blames (x y : Number) : Blames (· = .tooLarge) (similarExtent x y) :=
  (Number.sub_blames _ _).bind fun _ =>
    (Number.div_blames (isZero_extents x y)).bind fun _ => blames_ok _

/-- Positive numbers can be compared if both can be taken as reals. -/
theorem compare_succeeds {a b : Number} (ha : a.InRange) (hb : b.InRange)
    (hzero : (a.max b).isZero = false) (hposa : ∀ i, a = .int i → 0 < i)
    (hposb : ∀ i, b = .int i → 0 < i) :
    Succeeds (do return (← (← a.sub b).abs.div (a.max b)).le sizeTolerance :
      Number.Result Bool) := by
  have hreals (h : a.sub b = Number.onReals .sub a b) :
      Succeeds (do return (← (← a.sub b).abs.div (a.max b)).le sizeTolerance :
        Number.Result Bool) := by
    rw [h]
    refine (Number.onReals_yields ha hb .sub).andThen fun d hd => ?_
    have hd : d.abs.InRange := by
      obtain ⟨x, rfl⟩ := hd
      exact ⟨_, rfl⟩
    have hgreater := Number.max_cases Number.InRange ha hb
    exact (Number.div_yields hd hgreater hzero).andThen fun _ _ => succeeds_ok _
  cases a with
  | real x => exact hreals rfl
  | int i =>
      cases b with
      | real y => exact hreals rfl
      | int j =>
          have hi := hposa i rfl
          have hj := hposb j rfl
          have hquotient : Succeeds ((Number.int (i - j).natAbs).div (.int (i ⊔ j))) :=
            Number.div_int_succeeds (by omega) (by omega)
          rw [Number.max_int, Number.sub_int, ok_bind]
          exact hquotient.bind fun _ _ => succeeds_ok _

theorem similarExtent_succeeds_of_inRange (hx : x.InRange) (hy : y.InRange) :
    Succeeds (similarExtent x y) :=
  compare_succeeds (Number.max_cases Number.InRange hx ⟨_, rfl⟩)
    (Number.max_cases Number.InRange hy ⟨_, rfl⟩) (isZero_extents x y)
    (fun _ h => Number.pos_of_max_eq_int zero_lt_leastExtent h)
    fun _ h => Number.pos_of_max_eq_int zero_lt_leastExtent h

/-- Sizes that are given can be compared, unless an extent is an integer that is too large for a
real. -/
theorem tooLarge_of_similarSize_eq_error {x y : Box} {f : NumberFault}
    (hx : ∀ axis, Succeeds (x.extent axis)) (hy : ∀ axis, Succeeds (y.extent axis))
    (h : similarSize x y = .error f) :
    f = .tooLarge ∧ ∃ b ∈ [x, y], ∃ axis n, b.extent axis = .ok n ∧ ¬n.InRange := by
  obtain ⟨w, hw⟩ := hx .horizontal
  obtain ⟨w', hw'⟩ := hy .horizontal
  obtain ⟨k, hk⟩ := hx .vertical
  obtain ⟨k', hk'⟩ := hy .vertical
  have hrun : similarSize x y = (do
      if ← similarExtent w w' then similarExtent k k' else return false) := by
    rw [similarSize, hw, hw', hk, hk']
    rfl
  rw [hrun] at h
  have hextent {a b : Number} (h : similarExtent a b = .error f) :
      f = .tooLarge ∧ (¬a.InRange ∨ ¬b.InRange) := by
    refine ⟨similarExtent_blames a b f h, ?_⟩
    by_contra hrange
    obtain ⟨ha, hb⟩ := not_or.mp hrange
    exact (similarExtent_succeeds_of_inRange (not_not.mp ha) (not_not.mp hb)).ne_error h
  rcases bind_eq_error_iff.mp h with h | ⟨similar, -, h⟩
  · obtain ⟨hf, hrange | hrange⟩ := hextent h
    · exact ⟨hf, x, by simp, .horizontal, w, hw, hrange⟩
    · exact ⟨hf, y, by simp, .horizontal, w', hw', hrange⟩
  · cases similar with
    | false => cases h
    | true =>
        obtain ⟨hf, hrange | hrange⟩ := hextent h
        · exact ⟨hf, x, by simp, .vertical, k, hk, hrange⟩
        · exact ⟨hf, y, by simp, .vertical, k', hk', hrange⟩

end Listing

end Mockup
