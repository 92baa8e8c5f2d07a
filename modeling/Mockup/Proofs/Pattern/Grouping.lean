import Mathlib.Data.List.Induction
import Mathlib.Data.List.Nodup
import Mockup.Proofs.List
import Mockup.Proofs.Pattern.Shape

namespace Mockup

namespace Repetition

open Element

variable {e : Element} {xs : List Element}

/-- The elements of a list, those of one key together, in the order of their first members. -/
def grouped (key : Element → List Char) (xs : List Element) : Groups :=
  (xs.map key).eraseDups.map fun s => (s, xs.filter fun x => key x = s)

theorem add_map {shapes : List (List Char)} (hs : shapes.Nodup) (f : List Char → List Element)
    (shape : List Char) (e : Element) :
    Groups.add (shapes.map fun s => (s, f s)) shape e =
      if shape ∈ shapes then shapes.map fun s => (s, if s = shape then f s ++ [e] else f s)
      else shapes.map (fun s => (s, f s)) ++ [(shape, [e])] := by
  induction shapes with
  | nil => rfl
  | cons s shapes ih =>
      obtain ⟨hmem, hs⟩ := List.nodup_cons.mp hs
      rw [List.map_cons, Groups.add]
      by_cases h : s = shape
      · subst h
        have hne : ∀ s' ∈ shapes, s' ≠ s := fun s' hs' h => hmem (h ▸ hs')
        rw [if_pos rfl, if_pos List.mem_cons_self, List.map_cons, if_pos rfl]
        congr 1
        exact List.map_congr_left fun s' hs' => by rw [if_neg (hne s' hs')]
      · rw [if_neg h, ih hs]
        by_cases hshape : shape ∈ shapes
        · simp [hshape, h]
        · simp [hshape, Ne.symm h]

theorem add_grouped (key : Element → List Char) (xs : List Element) (x : Element) :
    (grouped key xs).add (key x) x = grouped key (xs ++ [x]) := by
  have hfilter (s : List Char) : (xs ++ [x]).filter (fun y => key y = s) =
      xs.filter (fun y => key y = s) ++ if key x = s then [x] else [] := by
    by_cases h : key x = s <;> simp [h]
  rw [grouped, add_map (nodup_eraseDups _), grouped, List.map_append, List.map_cons, List.map_nil,
    eraseDups_concat]
  simp only [hfilter, List.mem_eraseDups]
  split
  · apply List.map_congr_left
    intro s _
    by_cases h : s = key x
    · simp [h]
    · simp [h, Ne.symm h]
  · next hx =>
      rw [List.map_append]
      congr 1
      · apply List.map_congr_left
        intro s hs
        have hne : key x ≠ s := fun h => hx (h ▸ List.mem_eraseDups.mp hs)
        simp [hne]
      · have hnone : xs.filter (fun y => key y = key x) = [] := by
          rw [List.filter_eq_nil_iff]
          intro y hy hkey
          exact hx (List.mem_map.mpr ⟨y, hy, of_decide_eq_true hkey⟩)
        simp [hnone]

/-- Adding elements one by one groups them. -/
theorem foldl_add (key : Element → List Char) (xs ys : List Element) :
    ys.foldl (fun groups x => groups.add (key x) x) (grouped key xs) = grouped key (xs ++ ys) := by
  induction ys generalizing xs with
  | nil => simp
  | cons y ys ih => rw [List.foldl_cons, add_grouped, ih, List.append_assoc]; rfl

/-- Collecting goes through the candidates of a tree in order. -/
theorem collect_eq (h : ∀ x ∈ e.nodes, x.isForeign = false) (groups : Groups) :
    collect groups e = .ok ((e.nodes.filter fun x => isCandidate x).foldl
      (fun groups x => groups.add (shapeText x.shape) x) groups) := by
  have hcandidate {e : Element} (h : ∀ x ∈ e.nodes, x.isForeign = false) (groups : Groups) :
      addCandidate groups e = .ok (if isCandidate e then groups.add (shapeText e.shape) e
        else groups) := by
    rw [addCandidate, fingerprintChars_eq_shapeText h]
    cases isCandidate e <;> rfl
  induction e generalizing groups with
  | leaf i c =>
      rw [collect, hcandidate h, nodes_leaf]
      cases hc : isCandidate (leaf i c) <;> simp [hc]
  | foreign i v => exact absurd (h _ (mem_nodes_self _)) (by simp [isForeign])
  | branch i r l es ih =>
      have hall : ∀ es' ⊆ es, ∀ groups, collectAll groups es' =
          .ok (((es'.flatMap nodes).filter fun x => isCandidate x).foldl
            (fun groups x => groups.add (shapeText x.shape) x) groups) := by
        intro es' hsub
        induction es' with
        | nil => exact fun _ => rfl
        | cons e es' ihl =>
            intro groups
            obtain ⟨he, hes⟩ := List.cons_subset.mp hsub
            rw [collectAll, ih e he fun x hx => h x (nodes_subset_of_child he hx)]
            change collectAll _ es' = _
            rw [ihl hes, List.flatMap_cons, List.filter_append, List.foldl_append]
      rw [collect, hcandidate h]
      change collectAll _ es = _
      rw [hall es (List.Subset.refl es), nodes_branch]
      cases hc : isCandidate (branch i r l es) <;> simp [hc]

theorem variableTexts_succeeds (h : ∀ x ∈ e.nodes, x.isForeign = false) :
    Result.Succeeds (variableTexts e) := by
  induction e with
  | leaf i c => cases c <;> exact Result.succeeds_ok _
  | foreign i v => exact absurd (h _ (mem_nodes_self _)) (by simp [isForeign])
  | branch i r l es ih =>
      have hall : ∀ es' ⊆ es, ∀ index, Result.Succeeds (variableTextsFrom index es') := by
        intro es' hsub
        induction es' with
        | nil => exact fun _ => Result.succeeds_ok _
        | cons e es' ihl =>
            intro index
            obtain ⟨he, hes⟩ := List.cons_subset.mp hsub
            rw [variableTextsFrom]
            apply (ih e he fun x hx => h x (nodes_subset_of_child he hx)).bind
            intro texts _
            exact (ihl hes (index + 1)).bind fun _ _ => Result.succeeds_ok _
      exact hall es (List.Subset.refl es) 0

theorem merge_succeeds {es : List Element}
    (h : ∀ e ∈ es, ∀ x ∈ e.nodes, x.isForeign = false) : Result.Succeeds (merge es) := by
  refine Result.succeeds_foldlM (fun variations e he => ?_) []
  exact (variableTexts_succeeds (h e he)).bind fun _ _ => Result.succeeds_ok _

/-- A group of two or more is a repetition of all its members. -/
theorem ofGroup_eq_ok {es : List Element} (h : ∀ e ∈ es, ∀ x ∈ e.nodes, x.isForeign = false) :
    ∃ found, ofGroup? es = .ok found ∧
      found.map instanceIds = if 2 ≤ es.length then some (es.map Element.id) else none := by
  match es with
  | [] | [_] => exact ⟨none, rfl, rfl⟩
  | first :: second :: rest =>
      obtain ⟨variations, hmerge⟩ := merge_succeeds h
      refine ⟨some ⟨nameFor first, (first :: second :: rest).map Element.id, variations⟩, ?_,
        by simp⟩
      rw [ofGroup?, hmerge]
      rfl

theorem mapM_ofGroup {groups : List (List Element)}
    (h : ∀ es ∈ groups, ∀ e ∈ es, ∀ x ∈ e.nodes, x.isForeign = false) :
    ∃ found, groups.mapM ofGroup? = .ok found ∧
      (found.filterMap fun r => r).map instanceIds =
        (groups.filter fun es => 2 ≤ es.length).map (·.map Element.id) := by
  induction groups with
  | nil => exact ⟨[], rfl, rfl⟩
  | cons es groups ih =>
      obtain ⟨r, hr, hids⟩ := ofGroup_eq_ok (h es List.mem_cons_self)
      obtain ⟨found, hfound, hall⟩ := ih fun es hes => h es (List.mem_cons_of_mem _ hes)
      refine ⟨r :: found, ?_, ?_⟩
      · rw [List.mapM_cons, hr]
        change groups.mapM ofGroup? >>= _ = _
        rw [hfound]
        rfl
      · by_cases htwo : 2 ≤ es.length
        · rw [if_pos htwo, Option.map_eq_some_iff] at hids
          obtain ⟨r, rfl, hinstances⟩ := hids
          simp [htwo, hinstances, hall]
        · rw [if_neg htwo, Option.map_eq_none_iff] at hids
          simp [htwo, hids, hall]

def candidates (e : Element) : List Element := e.nodes.filter fun x => isCandidate x

def classes (xs : List Element) : List (List Element) :=
  (xs.map shape).eraseDups.map fun s => xs.filter fun x => x.shape = s

theorem map_snd_grouped (h : ∀ x ∈ xs, ∀ y ∈ x.nodes, y.isForeign = false) :
    (grouped (fun x => shapeText x.shape) xs).map Prod.snd = classes xs := by
  have hkeys : (xs.map fun x => shapeText x.shape).eraseDups =
      (xs.map shape).eraseDups.map shapeText :=
    map_eraseDups fun a ha b hb => (shapeText_eq_iff (h a ha) (h b hb)).mp
  rw [grouped, hkeys, classes, List.map_map, List.map_map]
  apply List.map_congr_left
  intro s hs
  obtain ⟨a, ha, rfl⟩ := List.mem_map.mp (List.mem_eraseDups.mp hs)
  apply List.filter_congr
  intro x hx
  exact decide_eq_decide.mpr (shapeText_eq_iff (h x hx) (h a ha))

theorem mem_classes_iff {es : List Element} :
    es ∈ classes xs ↔ ∃ a ∈ xs, es = xs.filter fun x => x.shape = a.shape := by
  simp [classes, List.mem_eraseDups, eq_comm]

theorem pairwise_classes (xs : List Element) :
    (classes xs).Pairwise fun es fs => ∀ a ∈ es, ∀ b ∈ fs, a.shape ≠ b.shape := by
  rw [classes, List.pairwise_map]
  apply (nodup_eraseDups _).imp
  intro s s' hne a ha b hb heq
  have ha := of_decide_eq_true (List.mem_filter.mp ha).2
  have hb := of_decide_eq_true (List.mem_filter.mp hb).2
  exact hne (ha.symm.trans (heq.trans hb))

theorem isForeign_of_mem_nodes (h : ∀ x ∈ e.nodes, x.isForeign = false) {x : Element}
    (hx : x ∈ e.nodes) : ∀ y ∈ x.nodes, y.isForeign = false :=
  fun y hy => h y ((nodes_sublist hx).subset hy)

theorem detect_eq_ok (h : ∀ x ∈ e.nodes, x.isForeign = false) :
    ∃ found, detect e = .ok found ∧ found.map instanceIds =
      ((classes (candidates e)).filter fun es => 2 ≤ es.length).map (·.map Element.id) := by
  have hclosed : ∀ x ∈ candidates e, ∀ y ∈ x.nodes, y.isForeign = false := fun x hx =>
    isForeign_of_mem_nodes h (List.mem_filter.mp hx).1
  have hgroups : ∀ es ∈ classes (candidates e), ∀ x ∈ es, ∀ y ∈ x.nodes, y.isForeign = false := by
    intro es hes x hx
    obtain ⟨a, -, rfl⟩ := mem_classes_iff.mp hes
    exact hclosed x (List.mem_filter.mp hx).1
  obtain ⟨found, hfound, hids⟩ := mapM_ofGroup hgroups
  refine ⟨_, ?_, hids⟩
  have hcollect : collect [] e = .ok (grouped (fun x => shapeText x.shape) (candidates e)) :=
    (collect_eq h []).trans (congrArg _ (foldl_add _ [] _))
  have hmapM (groups : Groups) :
      groups.mapM (fun g => ofGroup? g.2) = (groups.map Prod.snd).mapM ofGroup? := by
    rw [List.mapM_map]
    rfl
  rw [detect, hcollect]
  change List.mapM (fun g : List Char × List Element => ofGroup? g.2) _ >>= _ = _
  rw [hmapM, map_snd_grouped hclosed, hfound]
  rfl

theorem fingerprint_eq_ok (h : ∀ x ∈ e.nodes, x.isForeign = false) :
    fingerprint e = .ok (String.ofList (shapeText e.shape)) := by
  rw [fingerprint, fingerprintChars_eq_shapeText h]
  rfl

/-- Of elements of the closed set of variants a fingerprint tells the shape and nothing else. So the
repetitions in a tree are the classes of candidates with one shape that have at least two members:
each class once and with all its members in order, no candidate in two of them, and no member of a
class below another one. -/
theorem detect_gives_classes :
    (∀ a b : Element, (∀ x ∈ a.nodes, x.isForeign = false) →
      (∀ x ∈ b.nodes, x.isForeign = false) →
      ∃ s t, fingerprint a = .ok s ∧ fingerprint b = .ok t ∧ (s = t ↔ a.shape = b.shape)) ∧
    ∀ e : Element, (∀ x ∈ e.nodes, x.isForeign = false) →
      (∃ found, detect e = .ok found ∧ found.map instanceIds =
        ((classes (candidates e)).filter fun es => 2 ≤ es.length).map (·.map Element.id)) ∧
      (∀ a ∈ candidates e, ∃ es ∈ classes (candidates e), a ∈ es ∧
        es = (candidates e).filter fun x => x.shape = a.shape) ∧
      ((classes (candidates e)).Pairwise fun es fs => ∀ a ∈ es, ∀ b ∈ fs, a.shape ≠ b.shape) ∧
      ∀ es ∈ classes (candidates e), ∀ a ∈ es, ∀ b ∈ a.parts.flatMap nodes, b ∉ es := by
  constructor
  · intro a b ha hb
    refine ⟨_, _, fingerprint_eq_ok ha, fingerprint_eq_ok hb, ?_⟩
    rw [String.ofList_inj, shapeText_eq_iff ha hb]
  · intro e h
    refine ⟨detect_eq_ok h, ?_, pairwise_classes _, ?_⟩
    · intro a ha
      exact ⟨_, mem_classes_iff.mpr ⟨a, ha, rfl⟩, by simpa using ha, rfl⟩
    · intro es hes a ha b hb hbes
      obtain ⟨c, -, rfl⟩ := mem_classes_iff.mp hes
      have ha := of_decide_eq_true (List.mem_filter.mp ha).2
      have hb' := of_decide_eq_true (List.mem_filter.mp hbes).2
      exact shape_ne_of_below hb (hb'.trans ha.symm)

def buttonRows : Element :=
  let button (id : String) : Element := .leaf { id := some id } (.button {})
  let row (id : String) (es : List Element) : Element :=
    .branch { id := some id } .container {} es
  row "1" [row "2" [button "3"], row "4" [button "5"],
    row "6" [button "7", .branch { id := some "8" } .card {} []]]

theorem detect_gives_classes_buttonRows : ∃ found, detect buttonRows = .ok found ∧
    found.map instanceIds = [[some "2", some "4"], [some "3", some "5", some "7"]] := by
  have hclosed : ∀ x ∈ buttonRows.nodes, x.isForeign = false := by
    simp [buttonRows, nodes, nodesAll, isForeign]
  obtain ⟨found, hfound, hids⟩ := (detect_gives_classes.2 buttonRows hclosed).1
  refine ⟨found, hfound, hids.trans ?_⟩
  decide

end Repetition

end Mockup
