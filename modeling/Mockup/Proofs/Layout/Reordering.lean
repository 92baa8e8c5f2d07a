import Mathlib.Algebra.BigOperators.Group.List.Basic
import Mockup.Proofs.Box.Reordering
import Mockup.Proofs.Layout.Integral

namespace Mockup.Layout

open Result Rect

variable {rs rs' : List Rect}

theorem inferFlow_eq_of_perm (h : rs'.Perm rs)
    (hstarts : ∀ axis, (rs.map fun r => r.start axis).Nodup)
    (hstack : Box.isStack (rs'.map toBox) = Box.isStack (rs.map toBox)) :
    inferFlow (rs'.map toBox) = inferFlow (rs.map toBox) := by
  match rs with
  | [] => rw [h.eq_nil]
  | [r] => rw [h.eq_singleton]
  | a :: b :: rest =>
      have hlength : 2 ≤ ((a :: b :: rest).map toBox).length := by simp
      have hlength' : 2 ≤ (rs'.map toBox).length := by simp [h.length_eq]
      rw [inferFlow_eq_of_two_le hlength, inferFlow_eq_of_two_le hlength', hstack]
      simp only [flowsAlong_toBox, flows_iff_of_perm h (hstarts _)]

theorem inferPadding_eq_of_perm (box : Rect) (h : rs'.Perm rs) :
    inferPadding box.toBox (rs'.map toBox) = inferPadding box.toBox (rs.map toBox) := by
  by_cases hrs : rs = []
  · subst hrs
    rw [h.eq_nil]
  · have hrs' : rs' ≠ [] := fun h' => hrs (h' ▸ h).symm.eq_nil
    rw [inferPadding_toBox box hrs, inferPadding_toBox box hrs']
    simp only [least_eq_of_perm _ h, greatest_eq_of_perm _ h]

theorem inferCrossAlign_eq_of_perm (box : Rect) (axis : Axis) (h : rs'.Perm rs) :
    inferCrossAlign box.toBox (rs'.map toBox) axis =
      inferCrossAlign box.toBox (rs.map toBox) axis := by
  rw [inferCrossAlign_toBox, inferCrossAlign_toBox, h.isEmpty_eq, h.length_eq, (h.map _).sum_eq,
    (h.map _).sum_eq]

/-- The order could only change whether the boxes are a stack. -/
theorem infer_eq_of_isStack_eq {b : Block} {box : Rect} (hbox : b.box = box.toBox) (h : rs'.Perm rs)
    (hstarts : ∀ axis, (rs.map fun r => r.start axis).Nodup) (parent : Option Flow)
    (hstack : Box.isStack (rs'.map toBox) = Box.isStack (rs.map toBox)) :
    infer b (rs'.map toBox) parent = infer b (rs.map toBox) parent := by
  have hflow : flowOf b.toTraits (rs'.map toBox) = flowOf b.toTraits (rs.map toBox) := by
    rw [flowOf, flowOf, inferFlow_eq_of_perm h hstarts hstack]
  have hsorted (axis : Axis) :
      Box.sortAlong axis (rs'.map toBox) = Box.sortAlong axis (rs.map toBox) := by
    rw [sortAlong_toBox, sortAlong_toBox, sortAlong_eq_of_perm h (hstarts axis)]
  simp only [infer, hflow, hbox, Box.meanGap, inferMainAlign, hsorted,
    inferPadding_eq_of_perm box h, inferCrossAlign_eq_of_perm box _ h]

/-- A fault met while looking for a stack is the fault of the layout. -/
theorem infer_eq_error {b : Block} {boxes : List Box} {fault : NumberFault}
    (hauto : b.autoLayout = none) (h : Box.isStack boxes = .error fault) (parent : Option Flow) :
    infer b boxes parent = .error fault := by
  match boxes with
  | [] | [_] => cases h
  | a :: c :: rest =>
      have hflow : inferFlow (a :: c :: rest) = .error fault := by
        rw [inferFlow_eq_of_two_le (by simp), h]
        rfl
      rw [infer, flowOf, hauto]
      dsimp only
      rw [hflow]
      rfl

/-- A block that declares its layout does not look at its children. -/
theorem infer_eq_of_autoLayout {b : Block} {a : AutoLayout} (hauto : b.autoLayout = some a)
    (boxes boxes' : List Box) (parent : Option Flow) :
    infer b boxes parent = infer b boxes' parent := by
  simp only [infer, flowOf, hauto]

theorem infer_eq_or_error {b : Block} {box : Rect} (hbox : b.box = box.toBox) (h : rs'.Perm rs)
    (hstarts : ∀ axis, (rs.map fun r => r.start axis).Nodup) (parent : Option Flow) :
    infer b (rs'.map toBox) parent = infer b (rs.map toBox) parent ∨
      infer b (rs'.map toBox) parent = .error .tooLarge ∨
      infer b (rs.map toBox) parent = .error .tooLarge := by
  cases hauto : b.autoLayout with
  | some a => exact .inl (infer_eq_of_autoLayout hauto _ _ parent)
  | none =>
      rcases isStack_eq_or_error h with hstack | hstack | hstack
      · exact .inl (infer_eq_of_isStack_eq hbox h hstarts parent hstack)
      · exact .inr (.inl (infer_eq_error hauto hstack parent))
      · exact .inr (.inr (infer_eq_error hauto hstack parent))

def boxesOf (ts : List (Tree Block)) : List Box := ts.map fun t => t.item.box

/-- Children in another order lead to the same layout if of no two of them the smaller area is too
large to be halved. Otherwise too the layouts are the same, unless one of them is the fault that
such an area leads to. -/
theorem infer_reordered {b : Block} {ts us : List (Tree Block)} (hperm : us.Perm ts)
    (parent : Option Flow) (hbox : b.box.IsIntegral) (hboxes : ∀ c ∈ boxesOf ts, c.IsIntegral)
    (hx : ((boxesOf ts).map fun c => c.x).Nodup) (hy : ((boxesOf ts).map fun c => c.y).Nodup) :
    ((b.autoLayout = none → (boxesOf ts).Pairwise Box.AreComparable) →
      infer b (boxesOf us) parent = infer b (boxesOf ts) parent) ∧
    (infer b (boxesOf us) parent = infer b (boxesOf ts) parent ∨
      infer b (boxesOf us) parent = .error .tooLarge ∨
      infer b (boxesOf ts) parent = .error .tooLarge) := by
  have hperm : (boxesOf us).Perm (boxesOf ts) := hperm.map _
  obtain ⟨box, hbox⟩ := exists_of_isIntegral hbox
  obtain ⟨rs, hrs⟩ := exists_map_toBox hboxes
  obtain ⟨rs', hrs'⟩ := exists_map_toBox fun c hc => hboxes c (hperm.mem_iff.mp hc)
  rw [hrs, hrs'] at hperm
  rw [hrs, List.map_map] at hx hy
  have hperm := (List.map_perm_map_iff toBox_injective).mp hperm
  have hstarts (axis : Axis) : (rs.map fun r => r.start axis).Nodup := by
    -- distinct coordinates are those of distinct integers
    cases axis with
    | horizontal => exact List.Nodup.of_map (fun i => some (Number.int i)) (by rwa [List.map_map])
    | vertical => exact List.Nodup.of_map (fun i => some (Number.int i)) (by rwa [List.map_map])
  rw [hrs, hrs']
  refine ⟨fun hareas => ?_, infer_eq_or_error hbox hperm hstarts parent⟩
  cases hauto : b.autoLayout with
  | some a => exact infer_eq_of_autoLayout hauto _ _ parent
  | none =>
      have hstack := isStack_eq_of_perm hperm (hareas hauto)
      exact infer_eq_of_isStack_eq hbox hperm hstarts parent hstack

def plainBlock (r : Rect) : Block :=
  { id := some "1", name := some "Tile", kind := some "FRAME", box := r.toBox }

def tilesAt (rs : List Rect) : List (Tree Block) := rs.map fun r => .node (plainBlock r) []

theorem boxesOf_tilesAt (rs : List Rect) : boxesOf (tilesAt rs) = rs.map toBox := List.map_map

theorem isIntegral_of_tilesAt {rs : List Rect} : ∀ c ∈ boxesOf (tilesAt rs), c.IsIntegral := by
  rw [boxesOf_tilesAt]
  exact List.forall_mem_map.mpr fun r _ => isIntegral_toBox r

def tileRow : List Rect := [⟨0, 0, 20, 20⟩, ⟨30, 1, 20, 20⟩, ⟨60, 2, 20, 20⟩]

theorem infer_reordered_tileRow :
    ((boxesOf (tilesAt tileRow)).map fun c => c.x).Nodup ∧
    ((boxesOf (tilesAt tileRow)).map fun c => c.y).Nodup ∧
    (boxesOf (tilesAt tileRow)).Pairwise Box.AreComparable ∧
    infer (plainBlock ⟨0, 0, 80, 22⟩) (boxesOf (tilesAt tileRow.reverse)) none =
      infer (plainBlock ⟨0, 0, 80, 22⟩) (boxesOf (tilesAt tileRow)) none := by
  have hx : ((boxesOf (tilesAt tileRow)).map fun c => c.x).Nodup := by decide
  have hy : ((boxesOf (tilesAt tileRow)).map fun c => c.y).Nodup := by decide
  have hareas : (boxesOf (tilesAt tileRow)).Pairwise Box.AreComparable := by
    rw [boxesOf_tilesAt, List.pairwise_map]
    simp only [areComparable_toBox_iff]
    have hsmall : tileRow.Pairwise fun a b => (a.area ⊓ b.area).natAbs ≤ 2 ^ 53 := by decide
    exact hsmall.imp Number.inRange_int
  exact ⟨hx, hy, hareas, (infer_reordered ((List.reverse_perm tileRow).map _) none
    (isIntegral_toBox _) isIntegral_of_tilesAt hx hy).1 fun _ => hareas⟩

def farTiles : List Rect :=
  [⟨0, 0, 40, 40⟩, ⟨10, 10, 40, 40⟩, ⟨20, 20, 10 ^ 155, 10 ^ 155⟩, ⟨30, 30, 10 ^ 155, 10 ^ 155⟩]

/-- Tiles that are too large are not compared where a stack is found before. -/
theorem not_reordered_farTiles :
    (tilesAt farTiles.reverse).Perm (tilesAt farTiles) ∧
    (plainBlock ⟨0, 0, 100, 100⟩).box.IsIntegral ∧
    (∀ c ∈ boxesOf (tilesAt farTiles), c.IsIntegral) ∧
    ((boxesOf (tilesAt farTiles)).map fun c => c.x).Nodup ∧
    ((boxesOf (tilesAt farTiles)).map fun c => c.y).Nodup ∧
    infer (plainBlock ⟨0, 0, 100, 100⟩) (boxesOf (tilesAt farTiles.reverse)) none ≠
      infer (plainBlock ⟨0, 0, 100, 100⟩) (boxesOf (tilesAt farTiles)) none := by
  have hstack : (infer (plainBlock ⟨0, 0, 100, 100⟩) (boxesOf (tilesAt farTiles))
      none).toOption.isSome = true := by decide +kernel
  have hfault : (infer (plainBlock ⟨0, 0, 100, 100⟩) (boxesOf (tilesAt farTiles.reverse))
      none).toOption.isSome = false := by decide +kernel
  refine ⟨(List.reverse_perm farTiles).map _, isIntegral_toBox _, isIntegral_of_tilesAt,
    by decide, by decide, fun h => ?_⟩
  rw [h, hstack] at hfault
  cases hfault

end Mockup.Layout
