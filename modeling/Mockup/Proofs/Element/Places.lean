import Mockup.Proofs.Element.Tree

namespace Mockup.Element

mutual

def placesIn (around : List Element) : Element → List (List Element × Element)
  | leaf i c => [(around, leaf i c)]
  | branch i r l es => (around, branch i r l es) :: placesInAll (branch i r l es :: around) es
  | foreign i v => [(around, foreign i v)]

def placesInAll (around : List Element) : List Element → List (List Element × Element)
  | [] => []
  | e :: es => placesIn around e ++ placesInAll around es

end

def places (e : Element) : List (List Element × Element) := placesIn [] e

def isOutside (closed : Element → Bool) (place : List Element × Element) : Bool :=
  place.1.all fun a => !closed a

/-- The elements of a tree that stand in no element of some kind. -/
def reached (closed : Element → Bool) (e : Element) : List Element :=
  (e.places.filter (isOutside closed)).map Prod.snd

variable {closed : Element → Bool}

theorem mem_reached_iff {e x : Element} :
    x ∈ e.reached closed ↔ ∃ p ∈ e.places, isOutside closed p = true ∧ p.2 = x := by
  simp only [reached, List.mem_map, List.mem_filter, and_assoc]

theorem placesInAll_eq (around : List Element) (es : List Element) :
    placesInAll around es = es.flatMap (placesIn around) := by
  induction es with
  | nil => rfl
  | cons e es ih => rw [placesInAll, ih, List.flatMap_cons]

theorem placesIn_eq (around : List Element) (e : Element) :
    placesIn around e = e.places.map fun p => (p.1 ++ around, p.2) := by
  have hlist {around : List Element} {es : List Element}
      (ih : ∀ e ∈ es, ∀ around, placesIn around e = e.places.map fun p => (p.1 ++ around, p.2)) :
      es.flatMap (placesIn around) =
        es.flatMap fun e => e.places.map fun p => (p.1 ++ around, p.2) :=
    List.flatMap_congr fun e he => ih e he around
  induction e generalizing around with
  | leaf i c => rfl
  | foreign i v => rfl
  | branch i r l es ih =>
      rw [places, placesIn, placesIn, placesInAll_eq, placesInAll_eq, hlist ih, hlist ih,
        List.map_cons, List.map_flatMap]
      simp [List.map_map, Function.comp_def]

theorem places_branch (i : Identity) (r : Branch) (l : Layout) (es : List Element) :
    (branch i r l es).places = ([], branch i r l es) ::
      es.flatMap fun e => e.places.map fun p => (p.1 ++ [branch i r l es], p.2) := by
  rw [places, placesIn, placesInAll_eq]
  congr 1
  exact List.flatMap_congr fun e _ => placesIn_eq _ e

theorem map_snd_places (e : Element) : e.places.map Prod.snd = e.nodes := by
  induction e with
  | leaf i c => rfl
  | foreign i v => rfl
  | branch i r l es ih =>
      rw [places_branch, nodes_branch, List.map_cons, List.map_flatMap]
      congr 1
      refine List.flatMap_congr fun e he => ?_
      rw [List.map_map, ← ih e he]
      rfl

/-- Nothing below an element of the kind is reached. -/
theorem reached_branch_of_closed {i : Identity} {r : Branch} {l : Layout} {es : List Element}
    (h : closed (branch i r l es) = true) :
    (branch i r l es).reached closed = [branch i r l es] := by
  rw [reached, places_branch, List.filter_cons_of_pos (by rfl), List.filter_eq_nil_iff.mpr]
  · rfl
  · intro p hp
    obtain ⟨e, -, hp⟩ := List.mem_flatMap.mp hp
    obtain ⟨q, -, rfl⟩ := List.mem_map.mp hp
    simp [isOutside, h]

theorem reached_branch_of_open {i : Identity} {r : Branch} {l : Layout} {es : List Element}
    (h : closed (branch i r l es) = false) :
    (branch i r l es).reached closed = branch i r l es :: es.flatMap (reached closed) := by
  have houtside (p : List Element × Element) :
      isOutside closed (p.1 ++ [branch i r l es], p.2) = isOutside closed p := by
    simp [isOutside, h]
  rw [reached, places_branch, List.filter_cons_of_pos (by rfl), List.map_cons, List.filter_flatMap,
    List.map_flatMap]
  congr 1
  refine List.flatMap_congr fun e _ => ?_
  rw [List.filter_map, List.map_map, reached]
  congr 1
  exact List.filter_congr fun p _ => houtside p

end Mockup.Element
