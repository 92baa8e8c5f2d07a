import Mathlib.Data.List.Nodup
import Mathlib.Data.List.Perm.Subperm
import Mockup.Naming.Fresh
import Mockup.Number.Decimal

namespace Mockup.Naming

variable {candidate : Nat → String} {bound : Nat}

/-- Of more candidates than names some candidate is not among the names. -/
theorem exists_candidate_not_mem (hc : Function.Injective candidate) (names : List String)
    (hlen : names.length ≤ bound) : ∃ i ≤ bound, candidate i ∉ names := by
  by_contra hall
  push Not at hall
  have hsub : (List.range (bound + 1)).map candidate ⊆ names := by
    intro name hname
    obtain ⟨i, hi, rfl⟩ := List.mem_map.mp hname
    exact hall i (by have := List.mem_range.mp hi; omega)
  have hnodup : ((List.range (bound + 1)).map candidate).Nodup := List.nodup_range.map hc
  have hle := (List.subperm_of_subset hnodup hsub).length_le
  rw [List.length_map, List.length_range] at hle
  omega

theorem firstFree_eq (candidate : Nat → String) (isFree : String → Bool)
    (h : ∃ i ≤ bound, isFree (candidate i) = true) :
    ∃ i ≤ bound, firstFree candidate isFree bound = candidate i ∧ isFree (candidate i) = true ∧
      ∀ j < i, isFree (candidate j) = false := by
  obtain ⟨i, hi, hfree⟩ := h
  rw [firstFree, List.find?_map]
  cases hf : (List.range (bound + 1)).find? (isFree ∘ candidate) with
  | none =>
      have hn := List.find?_eq_none.mp hf i (List.mem_range.mpr (by omega))
      exact absurd hfree hn
  | some k =>
      obtain ⟨hk, hmem, hleast⟩ := List.find?_range_eq_some.mp hf
      refine ⟨k, by have := List.mem_range.mp hmem; omega, rfl, hk, fun j hj => ?_⟩
      simpa using hleast j hj

theorem numeral_injective : Function.Injective fun n => String.ofList (Number.numeral n) := by
  intro m n h
  have hl : Number.numeral m = Number.numeral n := by simpa using congrArg String.toList h
  rw [← Number.ofNumeral_numeral m, hl, Number.ofNumeral_numeral]

end Mockup.Naming
