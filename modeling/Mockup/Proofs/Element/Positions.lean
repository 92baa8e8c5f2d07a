import Mathlib.Data.List.Nodup
import Mockup.Proofs.Element.Tree

namespace Mockup.Element

mutual

def positions : Element → List (List Nat × Element)
  | leaf i c => [([], leaf i c)]
  | branch i r l es => ([], branch i r l es) :: positionsFrom 0 es
  | foreign i v => [([], foreign i v)]

def positionsFrom (index : Nat) : List Element → List (List Nat × Element)
  | [] => []
  | e :: es => (positions e).map (fun p => (index :: p.1, p.2)) ++ positionsFrom (index + 1) es

end

def at? (e : Element) : List Nat → Option Element
  | [] => some e
  | index :: path => e.parts[index]?.bind fun part => part.at? path

theorem positionsFrom_eq (index : Nat) (es : List Element) :
    positionsFrom index es = (es.zipIdx index).flatMap fun part =>
      part.1.positions.map fun p => (part.2 :: p.1, p.2) := by
  induction es generalizing index with
  | nil => rfl
  | cons e es ih => rw [positionsFrom, ih, List.zipIdx_cons, List.flatMap_cons]

theorem positions_eq (e : Element) :
    e.positions = ([], e) :: e.parts.zipIdx.flatMap fun part =>
      part.1.positions.map fun p => (part.2 :: p.1, p.2) := by
  cases e with
  | leaf i c => rfl
  | branch i r l es => rw [positions, positionsFrom_eq, parts]
  | foreign i v => rfl

/-- There is one position for each element. -/
theorem map_snd_positions (e : Element) : e.positions.map Prod.snd = e.nodes := by
  have hfrom (es : List Element) (ih : ∀ e ∈ es, e.positions.map Prod.snd = e.nodes) (index : Nat) :
      (positionsFrom index es).map Prod.snd = es.flatMap nodes := by
    induction es generalizing index with
    | nil => rfl
    | cons e es ihl =>
        rw [positionsFrom, List.map_append, List.flatMap_cons,
          ihl (fun e he => ih e (List.mem_cons_of_mem _ he)), ← ih e List.mem_cons_self,
          List.map_map]
        rfl
  induction e with
  | leaf i c => rfl
  | foreign i v => rfl
  | branch i r l es ih => rw [positions, nodes_branch, List.map_cons, hfrom es ih]

theorem mem_positions_iff {e x : Element} {path : List Nat} :
    (path, x) ∈ e.positions ↔ e.at? path = some x := by
  induction path generalizing e with
  | nil =>
      rw [positions_eq, at?]
      simp [eq_comm]
  | cons index path ih =>
      rw [positions_eq, at?]
      simp only [List.mem_cons, Prod.mk.injEq, List.cons.injEq, reduceCtorEq, false_and, false_or,
        List.mem_flatMap, List.mem_map, Option.bind_eq_some_iff]
      constructor
      · rintro ⟨⟨part, i⟩, hpart, ⟨below, y⟩, hy, ⟨rfl, rfl⟩, rfl⟩
        exact ⟨part, List.mem_zipIdx_iff_getElem?.mp hpart, ih.mp hy⟩
      · rintro ⟨part, hpart, hx⟩
        exact ⟨(part, index), List.mem_zipIdx_iff_getElem?.mpr hpart, (path, x), ih.mpr hx,
          ⟨rfl, rfl⟩, rfl⟩

/-- No two elements have one position. -/
theorem pairwise_positions (e : Element) : e.positions.Pairwise fun p q => p.1 ≠ q.1 := by
  have hfrom (es : List Element)
      (ih : ∀ e ∈ es, e.positions.Pairwise fun p q => p.1 ≠ q.1) (index : Nat) :
      (positionsFrom index es).Pairwise fun p q => p.1 ≠ q.1 := by
    induction es generalizing index with
    | nil => exact .nil
    | cons e es ihl =>
        rw [positionsFrom, List.pairwise_append, List.pairwise_map]
        refine ⟨(ih e List.mem_cons_self).imp fun hne heq => hne (List.cons.inj heq).2,
          ihl (fun e he => ih e (List.mem_cons_of_mem _ he)) _, fun p hp q hq heq => ?_⟩
        -- the later children have greater numbers
        rw [positionsFrom_eq] at hq
        obtain ⟨p, -, rfl⟩ := List.mem_map.mp hp
        obtain ⟨part, hpart, hq⟩ := List.mem_flatMap.mp hq
        obtain ⟨q, -, rfl⟩ := List.mem_map.mp hq
        have hle := List.le_snd_of_mem_zipIdx hpart
        have hindex := (List.cons.inj heq).1
        omega
  induction e with
  | leaf i c => exact List.pairwise_singleton ..
  | foreign i v => exact List.pairwise_singleton ..
  | branch i r l es ih =>
      rw [positions, List.pairwise_cons]
      refine ⟨fun p hp heq => ?_, hfrom es ih 0⟩
      rw [positionsFrom_eq] at hp
      obtain ⟨part, -, hp⟩ := List.mem_flatMap.mp hp
      obtain ⟨q, -, rfl⟩ := List.mem_map.mp hp
      cases heq

end Mockup.Element
