import Mathlib.Data.List.Forall2
import Mockup.Element.Recognition

namespace Mockup.Recognition

variable {α β : Type} {alike : α → α → Bool}

/-- A list cut into runs, none of which could take the item after it. -/
inductive Segmented (alike : α → α → Bool) : List α → List (List α) → Prop
  | nil : Segmented alike [] []
  | run {first : α} {run rest : List α} {segments : List (List α)}
      (halike : ∀ a ∈ run, alike first a = true)
      (hstop : ∀ a, rest.head? = some a → alike first a = false)
      (hrest : Segmented alike rest segments) :
      Segmented alike (first :: run ++ rest) ((first :: run) :: segments)

theorem runsFrom_eq (alike : α → α → Bool) (first : α) (run xs : List α) :
    runsFrom alike first run xs = (first :: run.reverse ++ xs.takeWhile (alike first)) ::
      runs alike (xs.dropWhile (alike first)) := by
  induction xs generalizing run with
  | nil => simp [runsFrom, runs]
  | cons a xs ih =>
      cases h : alike first a with
      | true => simp [runsFrom, h, ih]
      | false => simp [runsFrom, h, runs]

theorem segmented_runs (alike : α → α → Bool) : ∀ xs, Segmented alike xs (runs alike xs)
  | [] => .nil
  | a :: xs => by
      have hrest := segmented_runs alike (xs.dropWhile (alike a))
      rw [runs, runsFrom_eq]
      have hrun : ∀ b ∈ xs.takeWhile (alike a), alike a b = true :=
        fun b hb => List.all_eq_true.mp List.all_takeWhile b hb
      have hstop : ∀ b, (xs.dropWhile (alike a)).head? = some b → alike a b = false := by
        intro b hb
        have h := List.head?_dropWhile_not (alike a) xs
        rw [hb] at h
        exact h
      have h := Segmented.run hrun hstop hrest
      rwa [List.cons_append, List.takeWhile_append_dropWhile] at h
termination_by xs => xs.length
decreasing_by
  have h := (List.dropWhile_suffix (l := xs) (alike a)).length_le
  simp only [List.length_cons]
  omega

theorem Segmented.flatten {xs : List α} {segments : List (List α)}
    (h : Segmented alike xs segments) : segments.flatten = xs := by
  induction h with
  | nil => rfl
  | run _ _ _ ih => rw [List.flatten_cons, ih]

theorem Segmented.exists_of_mem {xs : List α} {segments : List (List α)}
    (h : Segmented alike xs segments) {segment : List α} (hs : segment ∈ segments) :
    ∃ before first run after, segment = first :: run ∧ xs = before ++ segment ++ after ∧
      (∀ a ∈ run, alike first a = true) ∧
      ∀ a, after.head? = some a → alike first a = false := by
  induction h with
  | nil => cases hs
  | @run first run rest segments halike hstop hrest ih =>
      rcases List.mem_cons.mp hs with rfl | hs
      · exact ⟨[], first, run, rest, rfl, rfl, halike, hstop⟩
      · obtain ⟨before, first', run', after, hseg, hrest', h⟩ := ih hs
        refine ⟨first :: run ++ before, first', run', after, hseg, ?_, h⟩
        rw [hrest']
        simp

/-- Putting runs under repeaters keeps what is read off the single elements in order. -/
theorem flatMap_foldRuns (n : Naming) (g : Element → List β)
    (hg : ∀ p es, g (repeater n p es) = es.flatMap g) {ts : List (Tree Placed)}
    {es : List Element} (hlen : ts.length = es.length) :
    (foldRuns n ts es).flatMap g = es.flatMap g := by
  have hrun (run : List (Tree Placed × Element)) :
      (foldRun n run).flatMap g = (run.map Prod.snd).flatMap g := by
    match run with
    | [] => rfl
    | [(t, e)] => rfl
    | (t, e) :: second :: rest =>
        rw [foldRun, List.flatMap_singleton, hg]
        · rfl
        · intro h
          cases h
  have hflat := (segmented_runs (fun a b => Recognition.alike a.1 b.1) (ts.zip es)).flatten
  calc (foldRuns n ts es).flatMap g
      = (runs (fun a b => Recognition.alike a.1 b.1) (ts.zip es)).flatMap
          fun run => (run.map Prod.snd).flatMap g := by
        rw [foldRuns, List.flatMap_assoc]
        exact List.flatMap_congr fun run _ => hrun run
    _ = ((runs (fun a b => Recognition.alike a.1 b.1) (ts.zip es)).flatten.map Prod.snd).flatMap
          g := by
        rw [List.map_flatten, List.flatMap_def, List.flatMap_def, List.map_flatten,
          List.flatten_flatten, List.map_map, List.map_map]
        rfl
    _ = es.flatMap g := by rw [hflat, List.map_snd_zip (Nat.le_of_eq hlen.symm)]

/-- An element under a group stands for one child or, a repeater, for a run of two or more. -/
theorem mem_foldRuns {n : Naming} {R : Tree Placed → Element → Prop} {ts : List (Tree Placed)}
    {es : List Element} (h : List.Forall₂ R ts es) {y : Element} (hy : y ∈ foldRuns n ts es) :
    y ∈ es ∨ ∃ before first run after items, ts = before ++ first :: run ++ after ∧ run ≠ [] ∧
      (∀ t ∈ run, Recognition.alike first t = true) ∧
      (∀ t, after.head? = some t → Recognition.alike first t = false) ∧
      List.Forall₂ R (first :: run) items ∧ items ⊆ es ∧ y = repeater n first.item items := by
  obtain ⟨hlen, hzip⟩ := List.forall₂_iff_zip.mp h
  obtain ⟨run, hrun, hy⟩ := List.mem_flatMap.mp hy
  obtain ⟨before, first, rest, after, rfl, hsplit, halike, hstop⟩ :=
    (segmented_runs _ (ts.zip es)).exists_of_mem hrun
  have hmem : ∀ a ∈ first :: rest, a ∈ ts.zip es := by
    intro a ha
    rw [hsplit]
    exact List.mem_append_left _ (List.mem_append_right _ ha)
  match rest with
  | [] =>
      left
      rw [List.mem_singleton.mp hy]
      exact (List.of_mem_zip (hmem first List.mem_cons_self)).2
  | second :: rest =>
      right
      refine ⟨before.map Prod.fst, first.1, (second :: rest).map Prod.fst, after.map Prod.fst,
        (first :: second :: rest).map Prod.snd, ?_, by simp, ?_, ?_, ?_, ?_,
        List.mem_singleton.mp hy⟩
      · rw [← List.map_fst_zip (Nat.le_of_eq hlen), hsplit]
        simp
      · intro t ht
        obtain ⟨a, ha, rfl⟩ := List.mem_map.mp ht
        exact halike a ha
      · intro t ht
        rw [List.head?_map] at ht
        obtain ⟨a, ha, rfl⟩ := Option.map_eq_some_iff.mp ht
        exact hstop a ha
      · rw [← List.map_cons, List.forall₂_map_left_iff, List.forall₂_map_right_iff,
          List.forall₂_same]
        exact fun a ha => hzip (hmem a ha)
      · intro e he
        obtain ⟨a, ha, rfl⟩ := List.mem_map.mp he
        exact (List.of_mem_zip (hmem a ha)).2

end Mockup.Recognition
