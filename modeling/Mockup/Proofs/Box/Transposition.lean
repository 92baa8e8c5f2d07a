import Mockup.Proofs.Agreement
import Mockup.Proofs.Box.Bounds
import Mockup.Proofs.Number.Faults

namespace Mockup

open Result

def Number.isFinite : Number → Bool
  | .int _ => true
  | .real x => x.isFinite

namespace Box

def transpose (b : Box) : Box := ⟨b.y, b.x, b.height, b.width⟩

variable {a b : Box} {bs : List Box}

@[simp] theorem start_transpose (b : Box) (axis : Axis) :
    b.transpose.start axis = b.start axis.other := by
  cases axis <;> rfl

@[simp] theorem extent_transpose (b : Box) (axis : Axis) :
    b.transpose.extent axis = b.extent axis.other := by
  cases axis <;> rfl

@[simp] theorem finish_transpose (b : Box) (axis : Axis) :
    b.transpose.finish axis = b.finish axis.other := by
  cases axis <;> rfl

theorem startsBefore_transpose (axis : Axis) (a b : Box) :
    startsBefore axis a.transpose b.transpose = startsBefore axis.other a b := by
  rw [startsBefore, startsBefore, start_transpose, start_transpose]

theorem mapM_transpose {f g : Box → Number.Result Number} (h : ∀ b, f b.transpose = g b)
    (bs : List Box) : (bs.map transpose).mapM f = bs.mapM g := by
  rw [List.mapM_map]
  exact congrArg (bs.mapM ·) (funext h)

theorem sortAlong_transpose (axis : Axis) (bs : List Box) :
    sortAlong axis (bs.map transpose) = List.map transpose <$> sortAlong axis.other bs := by
  have hstarts : ((bs.map transpose).forM fun b => b.start axis >>= fun _ => pure ()) =
      bs.forM fun b => b.start axis.other >>= fun _ => pure () := by
    induction bs with
    | nil => rfl
    | cons b bs ih => rw [List.map_cons, List.forM, List.forM, ih, start_transpose]
  have hsorted : (bs.map transpose).mergeSort (fun a b => !startsBefore axis b a) =
      (bs.mergeSort fun a b => !startsBefore axis.other b a).map transpose :=
    (List.map_mergeSort fun a _ b _ => by rw [startsBefore_transpose]).symm
  rw [sortAlong, sortAlong, List.length_map, hsorted, hstarts]
  split
  · cases bs.forM fun b => b.start axis.other >>= fun _ => pure () <;> rfl
  · rfl

theorem inSequence_transpose (axis : Axis) (bs : List Box) :
    inSequence axis (bs.map transpose) = inSequence axis.other bs := by
  induction bs with
  | nil => rfl
  | cons a bs ih =>
      cases bs with
      | nil => rfl
      | cons b rest =>
          rw [List.map_cons, List.map_cons] at *
          rw [inSequence, inSequence, ih, finish_transpose, start_transpose]

theorem gaps_transpose (axis : Axis) (bs : List Box) :
    gaps axis (bs.map transpose) = gaps axis.other bs := by
  induction bs with
  | nil => rfl
  | cons a bs ih =>
      cases bs with
      | nil => rfl
      | cons b rest =>
          rw [List.map_cons, List.map_cons] at *
          rw [gaps, gaps, ih, finish_transpose, start_transpose]

/-- A test of boxes in their order that does not mind their axes being exchanged. -/
theorem sortAlong_transpose_bind {α : Type} {f g : List Box → Number.Result α}
    (hfg : ∀ bs, f (bs.map transpose) = g bs) (axis : Axis) (bs : List Box) :
    (sortAlong axis (bs.map transpose) >>= f) = sortAlong axis.other bs >>= g := by
  rw [sortAlong_transpose]
  cases sortAlong axis.other bs with
  | ok sorted => exact hfg sorted
  | error fault => rfl

theorem flowsAlong_transpose (axis : Axis) (bs : List Box) :
    flowsAlong axis (bs.map transpose) = flowsAlong axis.other bs := by
  match bs with
  | [] | [_] => rfl
  | a :: b :: rest =>
      have hstarts := mapM_transpose (f := fun c => c.start axis.other)
        (g := fun c => c.start axis.other.other) (fun c => start_transpose c axis.other) (b :: rest)
      have hsequence := sortAlong_transpose_bind (inSequence_transpose axis) axis (a :: b :: rest)
      rw [List.map_cons, List.map_cons] at *
      rw [flowsAlong, flowsAlong, hstarts, hsequence, start_transpose]

theorem meanGap_transpose (axis : Axis) (bs : List Box) :
    meanGap axis (bs.map transpose) = meanGap axis.other bs :=
  sortAlong_transpose_bind (fun sorted => by rw [gaps_transpose]) axis bs

theorem sharedExtent_transpose (axis : Axis) (a b : Box) :
    sharedExtent axis a.transpose b.transpose = sharedExtent axis.other a b := by
  simp only [sharedExtent, start_transpose, finish_transpose]

def IsFinite (b : Box) : Prop :=
  ∀ n ∈ [b.x, b.y, b.width, b.height], n.any Number.isFinite = true

theorem known_succeeds {n : Option Number} (h : n.any Number.isFinite = true) :
    Succeeds (Number.known n) := by
  cases n with
  | none => cases h
  | some a => exact succeeds_ok a

theorem IsFinite.start (h : b.IsFinite) (axis : Axis) : Succeeds (b.start axis) := by
  cases axis <;> exact known_succeeds (h _ (by simp))

theorem IsFinite.extent (h : b.IsFinite) (axis : Axis) : Succeeds (b.extent axis) := by
  cases axis <;> exact known_succeeds (h _ (by simp))

theorem IsFinite.finish_blames (h : b.IsFinite) (axis : Axis) :
    Blames (· = .tooLarge) (b.finish axis) :=
  (h.start axis).blames.bind fun _ => (h.extent axis).blames.bind fun _ => Number.add_blames _ _

theorem sortAlong_yields_of_isFinite (h : ∀ b ∈ bs, b.IsFinite) (axis : Axis) :
    Yields (fun sorted => ∀ b ∈ sorted, b.IsFinite) (sortAlong axis bs) :=
  (sortAlong_yields fun b hb => IsFinite.start (h b hb) axis).mono
    fun _ hsorted b hb => h b (hsorted.mem_iff.mp hb)

theorem sortAlong_eq_self {axis : Axis} (h : ∀ b ∈ bs, b.IsFinite)
    (hsorted : bs.Pairwise fun a b => startsBefore axis b a = false) :
    sortAlong axis bs = .ok bs := by
  have hself : bs.mergeSort (fun a b => !startsBefore axis b a) = bs :=
    List.mergeSort_of_pairwise (hsorted.imp fun hab => by rw [hab]; rfl)
  rw [sortAlong_eq fun b hb => IsFinite.start (h b hb) axis, hself]

/-- Of two boxes in order it remains to look at how far apart they start and at their sequence. -/
theorem flowsAlong_pair {axis : Axis} (h : ∀ c ∈ [a, b], c.IsFinite)
    (hsorted : startsBefore axis b a = false) : flowsAlong axis [a, b] = (do
      let starts ← [b].mapM fun c => c.start axis.other
      if alignmentSpread.lt (← spread (← a.start axis.other) starts) then return false
      inSequence axis [a, b]) := by
  rw [flowsAlong, sortAlong_eq_self h (by simpa using hsorted)]
  rfl

theorem inSequence_blames (h : ∀ b ∈ bs, b.IsFinite) (axis : Axis) :
    Blames (· = .tooLarge) (inSequence axis bs) := by
  induction bs with
  | nil => exact blames_ok _
  | cons a bs ih =>
      obtain ⟨ha, hbs⟩ := List.forall_mem_cons.mp h
      cases bs with
      | nil => exact blames_ok _
      | cons b rest =>
          refine (ha.finish_blames axis).bind fun _ => (Number.sub_blames _ _).bind fun _ => ?_
          refine ((hbs b List.mem_cons_self).start axis).blames.bind fun _ => ?_
          exact .unlessReturned (ih hbs)

theorem flowsAlong_blames (h : ∀ b ∈ bs, b.IsFinite) (axis : Axis) :
    Blames (· = .tooLarge) (flowsAlong axis bs) := by
  match bs, h with
  | [], _ | [_], _ => exact blames_ok _
  | a :: b :: rest, h =>
      obtain ⟨ha, hrest⟩ := List.forall_mem_cons.mp h
      have hstarts := succeeds_mapM fun c hc => IsFinite.start (hrest c hc) axis.other
      refine hstarts.blames.bind fun _ => (ha.start _).blames.bind fun _ => ?_
      refine (Number.sub_blames _ _).bind fun _ => .unlessReturned ?_
      obtain ⟨sorted, hsorted, hfinite⟩ := sortAlong_yields_of_isFinite h axis
      rw [hsorted]
      exact inSequence_blames hfinite axis

section Pairs

variable (ha : a.IsFinite) (hb : b.IsFinite)

include ha hb

theorem sharedExtent_blames (axis : Axis) : Blames (· = .tooLarge) (sharedExtent axis a b) :=
  (ha.finish_blames axis).bind fun _ => (hb.finish_blames axis).bind fun _ =>
    (ha.start axis).blames.bind fun _ => (hb.start axis).blames.bind fun _ =>
      (Number.sub_blames _ _).bind fun _ => blames_ok _

theorem overlapArea_transpose : overlapArea a.transpose b.transpose = overlapArea a b := by
  rw [overlapArea, overlapArea, sharedExtent_transpose, sharedExtent_transpose]
  exact Number.bind_mul_comm (sharedExtent_blames ha hb _) (sharedExtent_blames ha hb _)

end Pairs

theorem area_transpose (h : b.IsFinite) : b.transpose.area = b.area := by
  rw [area, area, extent_transpose, extent_transpose]
  exact Number.bind_mul_comm (h.extent _).blames (h.extent _).blames

theorem covers_transpose (ha : a.IsFinite) (hb : b.IsFinite) :
    covers a.transpose b.transpose = covers a b := by
  rw [covers, covers, overlapArea_transpose ha hb, area_transpose ha, area_transpose hb]

theorem isStack_transpose (h : ∀ b ∈ bs, b.IsFinite) : isStack (bs.map transpose) = isStack bs := by
  induction bs with
  | nil => rfl
  | cons a rest ih =>
      obtain ⟨ha, hrest⟩ := List.forall_mem_cons.mp h
      have hrelated : List.Forall₂ (fun c' c => c' = c.transpose ∧ c.IsFinite)
          (rest.map transpose) rest := by
        rw [List.forall₂_map_left_iff, List.forall₂_same]
        exact fun c hc => ⟨rfl, hrest c hc⟩
      have hcovers : (rest.map transpose).anyM (covers a.transpose) = rest.anyM (covers a) :=
        anyM_eq hrelated fun _ c ⟨hc, hfinite⟩ => hc ▸ covers_transpose ha hfinite
      rw [List.map_cons, isStack, isStack, hcovers, ih hrest]

end Box

end Mockup
