import Mockup.Proofs.Number.Order
import Mockup.Style.Tokens

namespace Mockup

namespace Tokens

section Firsts

variable {α β κ : Type} {key : α → κ} {items picked : List α} {a : α}

def IsFirst (key : α → κ) (items : List α) (a : α) : Prop :=
  ∃ before after, items = before ++ a :: after ∧ key a ∉ before.map key

/-- An item that stands before all items with the key of another one. -/
def Leads (key : α → κ) (items : List α) (a b : α) : Prop :=
  ∃ before after, items = before ++ a :: after ∧ key b ∉ (before ++ [a]).map key

/-- For each key the first item that has it, in the order in which these items come. -/
structure Firsts (key : α → κ) (items picked : List α) : Prop where
  complete : ∀ a ∈ items, key a ∈ picked.map key
  first : ∀ a ∈ picked, IsFirst key items a
  ordered : picked.Pairwise (Leads key items)

theorem IsFirst.append (h : IsFirst key items a) (more : List α) :
    IsFirst key (items ++ more) a := by
  obtain ⟨before, after, rfl, hnew⟩ := h
  exact ⟨before, after ++ more, by simp, hnew⟩

theorem Leads.append {b : α} (h : Leads key items a b) (more : List α) :
    Leads key (items ++ more) a b := by
  obtain ⟨before, after, rfl, hnew⟩ := h
  exact ⟨before, after ++ more, by simp, hnew⟩

namespace Firsts

theorem subset (h : Firsts key items picked) : picked ⊆ items := by
  intro a ha
  obtain ⟨before, after, rfl, -⟩ := h.first a ha
  simp

theorem mem_map_iff (h : Firsts key items picked) {k : κ} :
    k ∈ picked.map key ↔ k ∈ items.map key := by
  constructor
  · exact fun hk => List.map_subset key h.subset hk
  · intro hk
    obtain ⟨a, ha, rfl⟩ := List.mem_map.mp hk
    exact h.complete a ha

theorem nodup (h : Firsts key items picked) : (picked.map key).Nodup := by
  refine List.pairwise_map.mpr (h.ordered.imp ?_)
  rintro a b ⟨before, after, -, hnew⟩ heq
  exact hnew (by simp [heq])

theorem concat_of_mem (h : Firsts key items picked) (ha : key a ∈ picked.map key) :
    Firsts key (items ++ [a]) picked where
  complete := List.forall_mem_append.mpr ⟨h.complete, List.forall_mem_singleton.mpr ha⟩
  first := fun b hb => (h.first b hb).append [a]
  ordered := h.ordered.imp fun hab => hab.append [a]

theorem concat_of_not_mem (h : Firsts key items picked) (ha : key a ∉ picked.map key) :
    Firsts key (items ++ [a]) (picked ++ [a]) where
  complete := by
    rw [List.map_append]
    refine List.forall_mem_append.mpr ⟨fun b hb => ?_, List.forall_mem_singleton.mpr (by simp)⟩
    exact List.mem_append_left _ (h.complete b hb)
  first := by
    refine List.forall_mem_append.mpr ⟨fun b hb => (h.first b hb).append [a], ?_⟩
    exact List.forall_mem_singleton.mpr ⟨items, [], rfl, fun hmem => ha (h.mem_map_iff.mpr hmem)⟩
  ordered := by
    refine List.pairwise_append.mpr ⟨h.ordered.imp fun hab => hab.append [a],
      List.pairwise_singleton _ _, fun b hb c hc => ?_⟩
    rw [List.mem_singleton.mp hc]
    obtain ⟨before, after, hitems⟩ := List.append_of_mem (h.subset hb)
    refine ⟨before, after ++ [a], by simp [hitems], fun hmem => ha (h.mem_map_iff.mpr ?_)⟩
    rw [hitems, List.append_cons]
    exact List.map_subset key (List.subset_append_left _ _) hmem

end Firsts

theorem distinctBy_concat (same : α → α → Bool) (items : List α) (a : α) :
    distinctBy same (items ++ [a]) = if (distinctBy same items).any (fun b => same b a)
      then distinctBy same items else distinctBy same items ++ [a] := by
  rw [distinctBy, List.foldl_append]
  rfl

/-- What is kept of some items are the first ones, whatever tells the items apart. -/
theorem firsts_distinctBy {same : α → α → Bool}
    (h : ∀ a ∈ items, ∀ b ∈ items, same a b = true ↔ key a = key b) :
    Firsts key items (distinctBy same items) := by
  -- on the items from the last one: what comes later does not change what is kept of those before
  induction items using List.reverseRecOn with
  | nil => exact ⟨List.forall_mem_nil _, List.forall_mem_nil _, List.Pairwise.nil⟩
  | append_singleton items a ih =>
      have ih := ih fun b hb c hc => h b (List.mem_append_left _ hb) c (List.mem_append_left _ hc)
      have hany : (distinctBy same items).any (fun b => same b a) = true ↔
          key a ∈ (distinctBy same items).map key := by
        rw [List.any_eq_true, List.mem_map]
        exact exists_congr fun b => and_congr_right fun hb =>
          h b (List.mem_append_left _ (ih.subset hb)) a (by simp)
      rw [distinctBy_concat]
      split
      · next hmem => exact ih.concat_of_mem (hany.mp hmem)
      · next hmem => exact ih.concat_of_not_mem (mt hany.mpr hmem)

theorem distinctBy_map (same : β → β → Bool) (f : α → β) (items : List α) :
    distinctBy same (items.map f) = (distinctBy (fun a b => same (f a) (f b)) items).map f := by
  induction items using List.reverseRecOn with
  | nil => rfl
  | append_singleton items a ih =>
      rw [List.map_append, List.map_singleton, distinctBy_concat, distinctBy_concat, ih,
        List.any_map]
      simp only [Function.comp_def]
      split
      · rfl
      · rw [List.map_append, List.map_singleton]

end Firsts

def numbered (name : String) (values : List Value) : Fields :=
  values.mapIdx fun i v => (name ++ "_" ++ toString i, v)

theorem enumerate_eq (name : String) (values : List Value) :
    enumerate name values = numbered name values := by
  rw [numbered, List.mapIdx_eq_zipIdx_map]
  rfl

theorem map_snd_numbered (name : String) (values : List Value) :
    (numbered name values).map Prod.snd = values := by
  rw [← enumerate_eq, enumerate, List.map_map]
  exact List.zipIdx_map_fst 0 values

def Ascends (name : String) (P : Number → Prop) (table : Fields) : Prop :=
  ∃ ns : List Number, table = numbered name (ns.map Value.number) ∧
    ns.Pairwise (fun a b => a.lt b = true) ∧ ∀ n, n ∈ ns ↔ P n

section Sorting

open Number

theorem ascends_mergeSort {α : Type} {key : α → Number} {items : List α}
    (hdefined : ∀ a ∈ items, key a ≠ .real .nan)
    (hnodup : (items.map fun a => (key a).normalize).Nodup) (name : String) {f : α → Value}
    (hf : ∀ a ∈ items, f a = .number (key a).normalize) {P : Number → Prop}
    (hP : ∀ n, (∃ a ∈ items, (key a).normalize = n) ↔ P n) :
    Ascends name P
      (enumerate name ((items.mergeSort fun a b => !(key b).lt (key a)).map f)) := by
  refine ⟨(items.mergeSort fun a b => !(key b).lt (key a)).map fun a => (key a).normalize,
    ?_, ?_, fun n => ?_⟩
  · rw [enumerate_eq, List.map_map]
    exact congrArg _ (List.map_congr_left fun a ha => hf a (List.mem_mergeSort.mp ha))
  · refine List.pairwise_map.mpr ((pairwise_lt_mergeSort hdefined hnodup).imp fun {a b} h => ?_)
    exact (lt_normalize _ _).trans h
  · rw [List.mem_map, ← hP]
    exact exists_congr fun a => and_congr_left fun _ => List.mem_mergeSort

end Sorting

end Tokens

end Mockup
