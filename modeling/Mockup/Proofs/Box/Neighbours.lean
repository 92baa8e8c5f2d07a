import Mockup.Proofs.Agreement
import Mockup.Proofs.Box.Bounds
import Mockup.Proofs.Box.Frame
import Mockup.Proofs.Box.Rect
import Mockup.Proofs.Number.Value

namespace Mockup

open Number Result

namespace Box

def coordinate (n : Option Number) : ℚ := (n.bind Number.value?).getD 0

def frame (b : Box) : Frame :=
  ⟨coordinate b.x, coordinate b.y, coordinate b.width, coordinate b.height⟩

/-- Nothing is rounded when these boxes are compared: the edges and their differences are computed
as they are. -/
structure AreExact (boxes : List Box) : Prop where
  start : ∀ b ∈ boxes, ∀ axis, Computes (b.start axis) (b.frame.start axis)
  limit : ∀ b ∈ boxes, ∀ axis, Computes (b.finish axis >>= fun n => n.sub overlapAllowance)
    (b.frame.finish axis - 2)
  difference : ∀ a ∈ boxes, ∀ b ∈ boxes, ∀ axis,
    Computes (a.start axis >>= fun s => b.start axis >>= fun t => s.sub t)
      (a.frame.start axis - b.frame.start axis)

/-- All coordinates are small multiples of a power of two. -/
def IsOnGrid (bits : Nat) (b : Box) : Prop :=
  ∀ n ∈ [b.x, b.y, b.width, b.height],
    ∃ a m, n = some a ∧ a.value? = some ((m : Int) / 2 ^ bits : ℚ) ∧ m.natAbs ≤ 2 ^ 50

variable {axis : Axis} {a b : Box} {boxes : List Box}

theorem areExact_of_isIntegral (h : ∀ b ∈ boxes, b.IsIntegral) : AreExact boxes := by
  have hframe (r : Rect) (axis : Axis) : r.toBox.frame.start axis = r.start axis ∧
      r.toBox.frame.finish axis = r.finish axis := by
    cases axis <;> exact ⟨rfl, (Int.cast_add _ _).symm⟩
  obtain ⟨rs, rfl⟩ := Rect.exists_map_toBox h
  constructor
  all_goals simp only [List.forall_mem_map]
  · intro r _ axis
    rw [r.start_toBox, (hframe r axis).1]
    exact yields_ok rfl
  · intro r _ axis
    rw [r.finish_toBox, (hframe r axis).2]
    exact yields_ok (congrArg some (by push_cast; rfl))
  · intro r _ s _ axis
    rw [r.start_toBox, s.start_toBox, (hframe r axis).1, (hframe s axis).1]
    exact yields_ok (congrArg some (Int.cast_sub _ _))

theorem IsOnGrid.coordinates {bits : Nat} (h : b.IsOnGrid bits) (axis : Axis) :
    ∃ s e : Number, ∃ i j : Int, b.start axis = .ok s ∧ b.extent axis = .ok e ∧
      s.value? = some (i / 2 ^ bits : ℚ) ∧ e.value? = some (j / 2 ^ bits : ℚ) ∧
      b.frame.start axis = i / 2 ^ bits ∧ b.frame.extent axis = j / 2 ^ bits ∧
      i.natAbs ≤ 2 ^ 50 ∧ j.natAbs ≤ 2 ^ 50 := by
  have hknown {n : Option Number} (hn : n ∈ [b.x, b.y, b.width, b.height]) :
      ∃ a m, Number.known n = .ok a ∧ a.value? = some ((m : Int) / 2 ^ bits : ℚ) ∧
        coordinate n = m / 2 ^ bits ∧ m.natAbs ≤ 2 ^ 50 := by
    obtain ⟨a, m, rfl, hvalue, hm⟩ := h n hn
    exact ⟨a, m, rfl, hvalue, by rw [coordinate, Option.bind_some, hvalue, Option.getD_some], hm⟩
  cases axis with
  | horizontal =>
      obtain ⟨s, i, hs, hsv, hsf, hi⟩ := hknown (n := b.x) (by simp)
      obtain ⟨e, j, he, hev, hef, hj⟩ := hknown (n := b.width) (by simp)
      exact ⟨s, e, i, j, hs, he, hsv, hev, hsf, hef, hi, hj⟩
  | vertical =>
      obtain ⟨s, i, hs, hsv, hsf, hi⟩ := hknown (n := b.y) (by simp)
      obtain ⟨e, j, he, hev, hef, hj⟩ := hknown (n := b.height) (by simp)
      exact ⟨s, e, i, j, hs, he, hsv, hev, hsf, hef, hi, hj⟩

theorem areExact_of_isOnGrid {bits : Nat} (hbits : bits ≤ 50)
    (h : ∀ b ∈ boxes, b.IsOnGrid bits) : AreExact boxes where
  start b hb axis := by
    obtain ⟨s, e, i, j, hs, he, hsv, hev, hsf, hef, hi, hj⟩ := (h b hb).coordinates axis
    rw [hs, hsf]
    exact yields_ok hsv
  limit b hb axis := by
    obtain ⟨s, e, i, j, hs, he, hsv, hev, hsf, hef, hi, hj⟩ := (h b hb).coordinates axis
    have hpow : 2 ^ bits ≤ 2 ^ 50 := Nat.pow_le_pow_right (by decide) hbits
    have htwo : overlapAllowance.value? = some ((2 * 2 ^ bits : Int) / 2 ^ bits : ℚ) := by
      have hpos : (2 : ℚ) ^ bits ≠ 0 := by positivity
      change some ((2 : Int) : ℚ) = _
      push_cast
      rw [mul_div_cancel_right₀ _ hpos]
    have hfinish := add_of_grid (by omega) hsv hev (by omega) (by omega) (by omega)
    rw [finish, hs, he, Frame.finish, hsf, hef]
    have hsize : (2 * 2 ^ bits : Int).natAbs ≤ 2 ^ 51 := by
      rw [Int.natAbs_mul, Int.natAbs_pow]
      exact (Nat.mul_le_mul_left 2 hpow)
    refine hfinish.bind fun n hn => (sub_of_grid (by omega) hn htwo (by omega) (by omega)
      (by omega)).mono fun c hc => ?_
    rw [hc]
    congr 1
    push_cast
    field_simp
  difference a ha b hb axis := by
    obtain ⟨s, e, i, j, hs, -, hsv, -, hsf, -, hi, -⟩ := (h a ha).coordinates axis
    obtain ⟨t, e', k, l, ht, -, htv, -, htf, -, hk, -⟩ := (h b hb).coordinates axis
    rw [hs, ht, hsf, htf, ← sub_div, ← Int.cast_sub]
    exact sub_of_grid (by omega) hsv htv (by omega) (by omega) (by omega)

theorem AreExact.startsBefore_eq (h : AreExact boxes) (ha : a ∈ boxes) (hb : b ∈ boxes) :
    startsBefore axis a b = decide (a.frame.start axis < b.frame.start axis) := by
  obtain ⟨s, hs, hsv⟩ := h.start a ha axis
  obtain ⟨t, ht, htv⟩ := h.start b hb axis
  rw [startsBefore, hs, ht, Bool.eq_iff_iff, decide_eq_true_iff]
  exact lt_eq_true_iff hsv htv

theorem AreExact.sortAlong (h : AreExact boxes) (axis : Axis) :
    Yields (fun sorted => sorted.Perm boxes ∧
      sorted.map frame = Frame.sortAlong axis (boxes.map frame)) (sortAlong axis boxes) := by
  rw [sortAlong_eq fun b hb => (h.start b hb axis).succeeds]
  refine yields_ok ⟨List.mergeSort_perm _ _, List.map_mergeSort fun a ha b hb => ?_⟩
  rw [h.startsBefore_eq hb ha, ← decide_not, decide_eq_decide, not_lt]

theorem inSequence_eq_of_exact
    (hstart : ∀ b ∈ boxes, Computes (b.start axis) (b.frame.start axis))
    (hlimit : ∀ b ∈ boxes, Computes (b.finish axis >>= fun n => n.sub overlapAllowance)
      (b.frame.finish axis - 2)) :
    inSequence axis boxes = .ok (decide ((boxes.map frame).IsChain (Frame.Follows axis))) := by
  induction boxes with
  | nil => rfl
  | cons a rest ih =>
      cases rest with
      | nil => rfl
      | cons b rest =>
          obtain ⟨limit, hlimitOk, hlimitValue⟩ := hlimit a List.mem_cons_self
          obtain ⟨finish, hfinish, hlimitOk⟩ := bind_eq_ok_iff.mp hlimitOk
          obtain ⟨start, hstartOk, hstartValue⟩ :=
            hstart b (List.mem_cons_of_mem _ List.mem_cons_self)
          have ih := ih (fun c hc => hstart c (List.mem_cons_of_mem _ hc))
            fun c hc => hlimit c (List.mem_cons_of_mem _ hc)
          have hlt : start.lt limit = decide ¬Frame.Follows axis a.frame b.frame := by
            rw [Bool.eq_iff_iff, decide_eq_true_iff, lt_eq_true_iff hstartValue hlimitValue,
              Frame.Follows, not_le]
          rw [inSequence, hfinish, ok_bind, hlimitOk, ok_bind, hstartOk, ok_bind, hlt, ih]
          by_cases hfollows : Frame.Follows axis a.frame b.frame <;>
            simp [hfollows, pure, Except.pure]

theorem starts_yields (h : ∀ b ∈ boxes, Computes (b.start axis) (b.frame.start axis)) :
    Yields (List.Forall₂ (fun b n => b.start axis = .ok n ∧ n.value? = some (b.frame.start axis))
      boxes) (boxes.mapM fun b => b.start axis) := by
  induction boxes with
  | nil => exact yields_ok .nil
  | cons b boxes ih =>
      obtain ⟨⟨n, hn, hvalue⟩, hboxes⟩ := List.forall_mem_cons.mp h
      rw [List.mapM_cons, hn, ok_bind]
      exact (ih hboxes).bind fun ns hns => yields_ok (.cons ⟨hn, hvalue⟩ hns)

/-- The boxes that start first and last are two of the boxes, so their difference is exact. -/
theorem AreExact.spread (h : AreExact (a :: boxes)) (axis : Axis) :
    Computes (do
      let starts ← boxes.mapM fun b => b.start axis
      spread (← a.start axis) starts) (Frame.spread axis ((a :: boxes).map frame)) := by
  obtain ⟨s, hs, hvalue⟩ := h.start a List.mem_cons_self axis
  obtain ⟨ns, hns, hstarts⟩ := starts_yields fun b hb => h.start b (List.mem_cons_of_mem a hb) axis
  have hvalues : List.Forall₂ (fun n q => n.value? = some q) ns
      ((boxes.map frame).map fun f => f.start axis) := by
    rw [List.map_map, List.forall₂_map_right_iff]
    exact (hstarts.imp fun b n hn => hn.2).flip
  have hmax := value?_maximum hvalues hvalue
  have hmin := value?_minimum hvalues hvalue
  have hsome (n : Number) (hn : n ∈ ns) : ∃ b ∈ a :: boxes, b.start axis = .ok n := by
    obtain ⟨b, hb, hstart, -⟩ := Related.exists_of_mem hstarts hn
    exact ⟨b, List.mem_cons_of_mem a hb, hstart⟩
  have hfirst : ∃ b ∈ a :: boxes, b.start axis = .ok s := ⟨a, List.mem_cons_self, hs⟩
  obtain ⟨last, hlast, hlastStart⟩ := maximum_cases
    (fun n => ∃ b ∈ a :: boxes, b.start axis = .ok n) hfirst hsome
  obtain ⟨first, hfirst, hfirstStart⟩ := minimum_cases
    (fun n => ∃ b ∈ a :: boxes, b.start axis = .ok n) hfirst hsome
  obtain ⟨d, hd, hdifference⟩ := h.difference last hlast first hfirst axis
  rw [hlastStart, hfirstStart, ok_bind, ok_bind] at hd
  have hlastValue := (h.start last hlast axis).of_eq_ok hlastStart
  have hfirstValue := (h.start first hfirst axis).of_eq_ok hfirstStart
  rw [hns, hs, ok_bind, ok_bind, Box.spread]
  refine ⟨d, hd, ?_⟩
  rw [Frame.spread, List.map_cons, List.map_cons, ← hmax, ← hmin, hlastValue, hfirstValue,
    Option.getD_some, Option.getD_some]
  exact hdifference

theorem AreExact.flowsAlong_eq (h : AreExact boxes) (axis : Axis) :
    flowsAlong axis boxes = .ok (decide (Frame.Flows axis (boxes.map frame))) := by
  match boxes with
  | [] | [_] => exact congrArg Except.ok (decide_eq_false fun h => absurd h.1 (by simp)).symm
  | a :: b :: rest =>
      obtain ⟨width, hwidth, hwidthValue⟩ := h.spread axis.other
      obtain ⟨sorted, hsorted, hperm, hframes⟩ := h.sortAlong axis
      have hchain := inSequence_eq_of_exact
        (fun c hc => h.start c (hperm.mem_iff.mp hc) axis)
        (fun c hc => h.limit c (hperm.mem_iff.mp hc) axis)
      obtain ⟨starts, hstarts, hwidth⟩ := bind_eq_ok_iff.mp hwidth
      obtain ⟨start, hstart, hwidth⟩ := bind_eq_ok_iff.mp hwidth
      have hlt : alignmentSpread.lt width =
          decide ¬Frame.spread axis.other ((a :: b :: rest).map frame) ≤ 22 := by
        rw [Bool.eq_iff_iff, decide_eq_true_iff, not_le]
        exact lt_eq_true_iff (Number.value?_int 22) hwidthValue
      have hseveral : 2 ≤ ((a :: b :: rest).map frame).length := by simp
      rw [flowsAlong, hstarts, ok_bind, hstart, ok_bind, hwidth, ok_bind, hlt, hsorted, ok_bind,
        hchain, hframes]
      generalize (a :: b :: rest).map frame = frames at hseveral
      have hflows : decide (Frame.Flows axis frames) =
          (decide (Frame.spread axis.other frames ≤ 22) &&
            decide ((Frame.sortAlong axis frames).IsChain (Frame.Follows axis))) := by
        simp [Frame.Flows, hseveral]
      rw [hflows]
      by_cases hspread : Frame.spread axis.other frames ≤ 22 <;>
        simp [hspread, pure, Except.pure]

/-- Only neighbours are compared, and still a flow is what it is for all pairs of boxes: any two are
aligned across, each follows all that come before it in the stable order of their starts, and no two
share more than the allowance. -/
theorem flowsAlong_iff_allFollow :
    (∀ axis frames, (Frame.Flows axis frames ↔ Frame.AllFollow axis frames) ∧
      (Frame.Flows axis frames → frames.Pairwise fun f g => Frame.shared axis f g ≤ 2)) ∧
    (∀ boxes, AreExact boxes → ∀ axis, ∃ flows, flowsAlong axis boxes = .ok flows ∧
      (flows = true ↔ Frame.AllFollow axis (boxes.map frame)) ∧
      (flows = true → (boxes.map frame).Pairwise fun f g => Frame.shared axis f g ≤ 2)) ∧
    (∀ boxes, (∀ b ∈ boxes, b.IsIntegral) → AreExact boxes) ∧
    ∀ bits ≤ 50, ∀ boxes, (∀ b ∈ boxes, b.IsOnGrid bits) → AreExact boxes := by
  refine ⟨fun axis frames => ⟨Frame.flows_iff_allFollow, Frame.Flows.pairwise_shared_le⟩,
    fun boxes h axis => ⟨_, h.flowsAlong_eq axis, ?_, fun hflows => ?_⟩,
    fun boxes => areExact_of_isIntegral, fun bits hbits boxes => areExact_of_isOnGrid hbits⟩
  · rw [decide_eq_true_iff]
    exact Frame.flows_iff_allFollow
  · exact (of_decide_eq_true hflows).pairwise_shared_le

/-- A row of a box without width, a wide one, one of negative width and a narrow one. They start at
halves of ones, and end in another order. -/
theorem flowsAlong_iff_allFollow_halves :
    let boxes : List Box := [⟨some (.fraction 196 2), some 1, some 0, some 20⟩,
      ⟨some 0, some (.fraction 1 2), some 100, some 20⟩,
      ⟨some (.fraction 197 2), some 1, some (.int (-50)), some 20⟩,
      ⟨some (.fraction 197 2), some 22, some (.fraction 3 2), some 20⟩]
    (∀ b ∈ boxes, b.IsOnGrid 1) ∧ AreExact boxes ∧
      boxes.map frame = [⟨98, 1, 0, 20⟩, ⟨0, 1 / 2, 100, 20⟩, ⟨197 / 2, 1, -50, 20⟩,
        ⟨197 / 2, 22, 3 / 2, 20⟩] ∧
      flowsAlong .horizontal boxes = .ok true ∧
      (boxes.map frame).Pairwise fun f g => Frame.shared .horizontal f g ≤ 2 := by
  intro boxes
  have hint (i : Int) (hi : i.natAbs ≤ 2 ^ 49) : ∃ a m, some (Number.int i) = some a ∧
      a.value? = some ((m : Int) / 2 ^ 1 : ℚ) ∧ m.natAbs ≤ 2 ^ 50 := by
    refine ⟨.int i, i * 2, rfl, congrArg some ?_, by omega⟩
    push_cast
    rw [pow_one, mul_div_cancel_right₀ _ two_ne_zero]
  have hhalf (n : Nat) (hvalue : (Number.fraction n 2).value? = some ((n : Int) / 2 ^ 1 : ℚ))
      (hn : n ≤ 2 ^ 49) : ∃ a m, some (Number.fraction n 2) = some a ∧
        a.value? = some ((m : Int) / 2 ^ 1 : ℚ) ∧ m.natAbs ≤ 2 ^ 50 :=
    ⟨_, n, rfl, hvalue, by omega⟩
  have h1 := hhalf 1 (by decide +kernel) (by decide)
  have h3 := hhalf 3 (by decide +kernel) (by decide)
  have h196 := hhalf 196 (by decide +kernel) (by decide)
  have h197 := hhalf 197 (by decide +kernel) (by decide)
  have hgrid : ∀ b ∈ boxes, b.IsOnGrid 1 := by
    simp only [boxes, IsOnGrid, List.forall_mem_cons, List.not_mem_nil, false_implies,
      implies_true, and_true]
    exact ⟨⟨h196, hint 1 (by decide), hint 0 (by decide), hint 20 (by decide)⟩,
      ⟨hint 0 (by decide), h1, hint 100 (by decide), hint 20 (by decide)⟩,
      ⟨h197, hint 1 (by decide), hint (-50) (by decide), hint 20 (by decide)⟩,
      h197, hint 22 (by decide), h3, hint 20 (by decide)⟩
  have hexact := flowsAlong_iff_allFollow.2.2.2 1 (by decide) boxes hgrid
  have hframes : boxes.map frame = [⟨98, 1, 0, 20⟩, ⟨0, 1 / 2, 100, 20⟩, ⟨197 / 2, 1, -50, 20⟩,
      ⟨197 / 2, 22, 3 / 2, 20⟩] := by decide +kernel
  have hall : Frame.AllFollow .horizontal (boxes.map frame) := by
    rw [hframes]
    exact ⟨by decide, by decide +kernel, Frame.pairwise_ordered_iff.mp (by decide +kernel)⟩
  obtain ⟨flows, hok, hiff, hshared⟩ := flowsAlong_iff_allFollow.2.1 boxes hexact .horizontal
  have hflows := hiff.mpr hall
  exact ⟨hgrid, hexact, hframes, hok.trans (congrArg Except.ok hflows), hshared hflows⟩

end Box

end Mockup
