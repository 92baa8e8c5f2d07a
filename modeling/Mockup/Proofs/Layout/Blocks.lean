import Mockup.Layout.Placement
import Mockup.Proofs.Agreement
import Mockup.Proofs.Tree.Occurrence

namespace Mockup

namespace Layout

variable {flow : Option Flow} {box : Option Box}

theorem toBlock_placeBlock {b : Block} {ts : List (Tree Block)} {p : Placed}
    (h : placeBlock b ts flow box = .ok p) : p.toBlock = b := by
  obtain ⟨layout, -, h⟩ := Result.bind_eq_ok_iff.mp h
  obtain ⟨position, -, h⟩ := Result.bind_eq_ok_iff.mp h
  cases h
  rfl

theorem position_of_placeBlock {b : Block} {ts : List (Tree Block)} {p : Placed}
    (h : placeBlock b ts flow box = .ok p) : Position.of p.toBlock flow box = .ok p.position := by
  obtain ⟨layout, -, h⟩ := Result.bind_eq_ok_iff.mp h
  obtain ⟨position, hposition, h⟩ := Result.bind_eq_ok_iff.mp h
  cases h
  exact hposition

theorem placeAll_eq_ok_iff {ts : List (Tree Block)} {ps : List (Tree Placed)} :
    placeAll flow box ts = .ok ps ↔ List.Forall₂ (fun t p => place flow box t = .ok p) ts ps := by
  induction ts generalizing ps with
  | nil =>
      rw [List.forall₂_nil_left_iff]
      exact ⟨fun h => by cases h; rfl, fun h => by rw [h]; rfl⟩
  | cons t ts ih =>
      rw [placeAll, Result.bind_eq_ok_iff, List.forall₂_cons_left_iff]
      constructor
      · rintro ⟨p, hp, h⟩
        obtain ⟨ps, hps, h⟩ := Result.bind_eq_ok_iff.mp h
        cases h
        exact ⟨p, ps, hp, ih.mp hps, rfl⟩
      · rintro ⟨p, ps, hp, hps, rfl⟩
        exact ⟨p, hp, Result.bind_eq_ok_iff.mpr ⟨ps, ih.mpr hps, rfl⟩⟩

/-- Placing adds layouts and positions to blocks and leaves all else as it is. -/
theorem map_toBlock_place {t : Tree Block} {p : Tree Placed} (h : place flow box t = .ok p) :
    p.preorder.map Placed.toBlock = t.preorder := by
  induction t generalizing flow box p with
  | node b ts ih =>
      rw [place] at h
      obtain ⟨placed, hb, h⟩ := Result.bind_eq_ok_iff.mp h
      obtain ⟨ps, hps, h⟩ := Result.bind_eq_ok_iff.mp h
      cases h
      rw [Tree.preorder_node, Tree.preorder_node, List.map_cons, toBlock_placeBlock hb,
        List.map_flatMap]
      congr 1
      exact (Related.flatMap_eq (placeAll_eq_ok_iff.mp hps) fun t ht p hp => (ih t ht hp).symm).symm

/-- What holds of every block that is placed holds throughout a placed tree. -/
theorem forall_preorder_place {P : Placed → Prop}
    (hblock : ∀ b ts flow box p, placeBlock b ts flow box = .ok p → P p) {t : Tree Block}
    {placed : Tree Placed} (h : place flow box t = .ok placed) : ∀ p ∈ placed.preorder, P p := by
  induction t generalizing flow box placed with
  | node b ts ih =>
      rw [place] at h
      obtain ⟨root, hroot, h⟩ := Result.bind_eq_ok_iff.mp h
      obtain ⟨ps, hps, h⟩ := Result.bind_eq_ok_iff.mp h
      cases h
      rw [Tree.preorder_node]
      refine List.forall_mem_cons.mpr ⟨hblock _ _ _ _ _ hroot, fun p hp => ?_⟩
      obtain ⟨u, hu, hp⟩ := List.mem_flatMap.mp hp
      obtain ⟨t, ht, htu⟩ := Related.exists_of_mem (placeAll_eq_ok_iff.mp hps) hu
      exact ih t ht htu p hp

/-- The position of a block comes from the flow and the box of its parent. -/
theorem position_of_place {t : Tree Block} {placed u c : Tree Placed}
    (h : place flow box t = .ok placed) (hu : u ∈ placed.subtrees) (hc : c ∈ u.children) :
    Position.of c.item.toBlock (some u.item.layout.flow) (some u.item.box) =
      .ok c.item.position := by
  induction t generalizing flow box placed with
  | node b ts ih =>
      rw [place] at h
      obtain ⟨root, hroot, h⟩ := Result.bind_eq_ok_iff.mp h
      obtain ⟨ps, hps, h⟩ := Result.bind_eq_ok_iff.mp h
      cases h
      have hall := placeAll_eq_ok_iff.mp hps
      rw [Tree.subtrees_node, List.mem_cons] at hu
      rcases hu with rfl | hu
      -- the children of the root are given its flow and its box; to all others the induction applies
      · obtain ⟨⟨b', ts'⟩, -, ht⟩ := Related.exists_of_mem hall hc
        rw [← toBlock_placeBlock hroot, place] at ht
        obtain ⟨p, hp, ht⟩ := Result.bind_eq_ok_iff.mp ht
        obtain ⟨ps', -, ht⟩ := Result.bind_eq_ok_iff.mp ht
        cases ht
        exact position_of_placeBlock hp
      · obtain ⟨p, hp, hu⟩ := List.mem_flatMap.mp hu
        obtain ⟨t, ht, htp⟩ := Related.exists_of_mem hall hp
        exact ih t ht htp hu

end Layout

end Mockup
