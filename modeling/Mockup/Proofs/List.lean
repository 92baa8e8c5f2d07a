import Mathlib.Data.List.Forall2
import Mathlib.Data.List.Induction
import Mathlib.Data.List.Nodup
import Mathlib.Data.List.Perm.Subperm
import Mathlib.Order.Lattice

namespace Mockup

variable {α β κ μ : Type}

theorem any_congr_of_mem {l : List α} {p q : α → Bool} (h : ∀ a ∈ l, p a = q a) :
    l.any p = l.any q := by
  rw [Bool.eq_iff_iff, List.any_eq_true, List.any_eq_true]
  exact exists_congr fun a => and_congr_right fun ha => by rw [h a ha]

theorem nodup_map_concat {f : α → β} {xs : List α} {a : α} (hx : (xs.map f).Nodup)
    (ha : ∀ x ∈ xs, f x ≠ f a) : ((xs ++ [a]).map f).Nodup := by
  rw [List.map_append, List.map_singleton, ← List.concat_eq_append]
  refine hx.concat fun hmem => ?_
  obtain ⟨x, hxs, he⟩ := List.mem_map.mp hmem
  exact ha x hxs he

theorem filterMap_forall₂ {f : α → Option β} {xs : List α} (h : ∀ x ∈ xs, (f x).isSome = true) :
    List.Forall₂ (fun x y => f x = some y) xs (xs.filterMap f) := by
  induction xs with
  | nil => exact .nil
  | cons x xs ih =>
      obtain ⟨y, hy⟩ := Option.isSome_iff_exists.mp (h x List.mem_cons_self)
      rw [List.filterMap_cons_some hy]
      exact .cons hy (ih fun x hx => h x (List.mem_cons_of_mem _ hx))

/-- The first part of a list is known if it is of one kind and the rest starts with another kind. -/
theorem append_inj_of_head {p : α → Bool} {xs ys rest rest' : List α}
    (hxs : ∀ c ∈ xs, p c = true) (hys : ∀ c ∈ ys, p c = true)
    (hrest : ∀ c ∈ rest.head?, p c = false) (hrest' : ∀ c ∈ rest'.head?, p c = false)
    (h : xs ++ rest = ys ++ rest') : xs = ys ∧ rest = rest' := by
  have htake {cs after : List α} (hcs : ∀ c ∈ cs, p c = true)
      (hafter : ∀ c ∈ after.head?, p c = false) : (cs ++ after).takeWhile p = cs := by
    rw [List.takeWhile_append_of_pos hcs]
    cases after with
    | nil => simp
    | cons c after => simp [hafter c rfl]
  have hfirst := congrArg (List.takeWhile p) h
  rw [htake hxs hrest, htake hys hrest'] at hfirst
  rw [hfirst] at h
  exact ⟨hfirst, List.append_cancel_left h⟩

theorem min?_eq_of_perm {is is' : List Int} (h : is'.Perm is) : is'.min? = is.min? := by
  ext i
  simp only [List.min?_eq_some_iff, h.mem_iff]

theorem max?_eq_of_perm {is is' : List Int} (h : is'.Perm is) : is'.max? = is.max? := by
  ext i
  simp only [List.max?_eq_some_iff, h.mem_iff]

section EraseDups

variable [BEq κ] [LawfulBEq κ]

theorem eraseDups_concat (xs : List κ) (x : κ) :
    (xs ++ [x]).eraseDups = if x ∈ xs then xs.eraseDups else xs.eraseDups ++ [x] := by
  rw [List.eraseDups_append]
  by_cases hx : x ∈ xs <;> simp [List.removeAll, hx, List.eraseDups_cons]

theorem nodup_eraseDups (xs : List κ) : xs.eraseDups.Nodup := by
  induction xs using List.reverseRecOn with
  | nil => simp
  | append_singleton xs x ih =>
      rw [eraseDups_concat]
      split
      · exact ih
      · next hx =>
          refine List.nodup_append.mpr ⟨ih, List.nodup_singleton x, ?_⟩
          intro a ha b hb heq
          exact hx (List.mem_singleton.mp hb ▸ heq ▸ List.mem_eraseDups.mp ha)

theorem length_eraseDups_le (xs : List κ) : xs.eraseDups.length ≤ xs.length :=
  (List.subperm_of_subset (nodup_eraseDups xs) fun _ h => List.mem_eraseDups.mp h).length_le

theorem eraseDups_ne_nil {xs : List κ} (h : xs ≠ []) : xs.eraseDups ≠ [] := by
  obtain ⟨x, hx⟩ := List.exists_mem_of_ne_nil xs h
  exact List.ne_nil_of_mem (List.mem_eraseDups.mpr hx)

/-- Distinct keys may be replaced by others that are distinct too. -/
theorem map_eraseDups [BEq μ] [LawfulBEq μ] {f : α → κ} {g : κ → μ} {xs : List α}
    (h : ∀ a ∈ xs, ∀ b ∈ xs, g (f a) = g (f b) → f a = f b) :
    (xs.map fun a => g (f a)).eraseDups = (xs.map f).eraseDups.map g := by
  induction xs using List.reverseRecOn with
  | nil => rfl
  | append_singleton xs x ih =>
      have ih := ih fun a ha b hb => h a (by simp [ha]) b (by simp [hb])
      have hmem : g (f x) ∈ xs.map (fun a => g (f a)) ↔ f x ∈ xs.map f := by
        simp only [List.mem_map]
        constructor
        · rintro ⟨a, ha, heq⟩
          exact ⟨a, ha, h a (by simp [ha]) x (by simp) heq⟩
        · rintro ⟨a, ha, heq⟩
          exact ⟨a, ha, by rw [heq]⟩
      simp only [List.map_append, List.map_cons, List.map_nil, eraseDups_concat, hmem, ih]
      split <;> simp

theorem pairwise_lt_sorted {α : Type} [LinearOrder α] [BEq α] [LawfulBEq α] (xs : List α) :
    (xs.eraseDups.mergeSort fun a b => decide (a ≤ b)).Pairwise (· < ·) := by
  have htrans (a b c : α) (hab : decide (a ≤ b) = true) (hbc : decide (b ≤ c) = true) :
      decide (a ≤ c) = true :=
    decide_eq_true (le_trans (of_decide_eq_true hab) (of_decide_eq_true hbc))
  have htotal (a b : α) : (decide (a ≤ b) || decide (b ≤ a)) = true := by
    simpa using le_total a b
  have hordered := List.pairwise_mergeSort htrans htotal xs.eraseDups
  have hdistinct : (xs.eraseDups.mergeSort fun a b => decide (a ≤ b)).Nodup :=
    (List.mergeSort_perm _ _).nodup_iff.mpr (nodup_eraseDups xs)
  exact (hordered.and hdistinct).imp fun ⟨hle, hne⟩ => lt_of_le_of_ne (of_decide_eq_true hle) hne

end EraseDups

end Mockup
