import Mathlib.Algebra.Order.Field.Rat
import Mathlib.Data.List.Pairwise
import Mathlib.Data.List.Chain
import Mathlib.Data.List.Sort
import Mathlib.Tactic.Linarith
import Mockup.Box

namespace Mockup

structure Frame where
  x : ℚ
  y : ℚ
  width : ℚ
  height : ℚ
  deriving DecidableEq

namespace Frame

def start (f : Frame) : Axis → ℚ
  | .horizontal => f.x
  | .vertical => f.y

def extent (f : Frame) : Axis → ℚ
  | .horizontal => f.width
  | .vertical => f.height

def finish (f : Frame) (axis : Axis) : ℚ := f.start axis + f.extent axis

def shared (axis : Axis) (f g : Frame) : ℚ :=
  f.finish axis ⊓ g.finish axis - f.start axis ⊔ g.start axis

def sortAlong (axis : Axis) (fs : List Frame) : List Frame :=
  fs.mergeSort fun f g => decide (f.start axis ≤ g.start axis)

def Follows (axis : Axis) (f g : Frame) : Prop := f.finish axis - 2 ≤ g.start axis

instance (axis : Axis) : DecidableRel (Follows axis) := fun _ _ =>
  inferInstanceAs (Decidable (_ ≤ _))

def spread (axis : Axis) (fs : List Frame) : ℚ :=
  (fs.map fun f => f.start axis).max?.getD 0 - (fs.map fun f => f.start axis).min?.getD 0

def Flows (axis : Axis) (fs : List Frame) : Prop :=
  2 ≤ fs.length ∧ spread axis.other fs ≤ 22 ∧ (sortAlong axis fs).IsChain (Follows axis)

instance (axis : Axis) : DecidablePred (Flows axis) := fun _ => inferInstanceAs (Decidable (_ ∧ _))

/-- At least two frames, any two of them aligned across, each of which follows all that start before
it or start with it and were given before it. -/
structure AllFollow (axis : Axis) (fs : List Frame) : Prop where
  several : 2 ≤ fs.length
  aligned : ∀ f ∈ fs, ∀ g ∈ fs, |f.start axis.other - g.start axis.other| ≤ 22
  follows : ∀ (i j : Nat) (hi : i < fs.length) (hj : j < fs.length),
    fs[i].start axis < fs[j].start axis ∨ fs[i].start axis = fs[j].start axis ∧ i < j →
      Follows axis fs[i] fs[j]

variable {axis : Axis} {f g h : Frame} {fs : List Frame}

theorem shared_comm (axis : Axis) (f g : Frame) : shared axis f g = shared axis g f := by
  rw [shared, shared, inf_comm, sup_comm]

theorem Follows.shared_le (hfg : Follows axis f g) : shared axis f g ≤ 2 := by
  have hfinish : f.finish axis ⊓ g.finish axis ≤ f.finish axis := inf_le_left
  have hstart : g.start axis ≤ f.start axis ⊔ g.start axis := le_sup_right
  rw [Follows] at hfg
  rw [shared]
  linarith

theorem startsFirst_trans (axis : Axis) (f g h : Frame)
    (hfg : decide (f.start axis ≤ g.start axis) = true)
    (hgh : decide (g.start axis ≤ h.start axis) = true) :
    decide (f.start axis ≤ h.start axis) = true :=
  decide_eq_true ((of_decide_eq_true hfg).trans (of_decide_eq_true hgh))

theorem startsFirst_total (axis : Axis) (f g : Frame) :
    (decide (f.start axis ≤ g.start axis) || decide (g.start axis ≤ f.start axis)) = true := by
  simpa using le_total _ _

theorem pairwise_sortAlong (axis : Axis) (fs : List Frame) :
    (sortAlong axis fs).Pairwise fun f g => f.start axis ≤ g.start axis :=
  (List.pairwise_mergeSort (startsFirst_trans axis) (startsFirst_total axis) fs).imp
    of_decide_eq_true

/-- What holds of any two sorted frames holds of any two given ones, in the order of their
starts. -/
theorem pairwise_sortAlong_iff {R : Frame → Frame → Prop} :
    (sortAlong axis fs).Pairwise R ↔
      fs.Pairwise fun f g => if f.start axis ≤ g.start axis then R f g else R g f := by
  induction fs with
  | nil => simp [sortAlong]
  | cons f fs ih =>
      -- the first frame is put between those that start before it and the others
      obtain ⟨before, after, hcons, hsort, hbefore⟩ :=
        List.mergeSort_cons (startsFirst_trans axis) (startsFirst_total axis) f fs
      have hsorted := pairwise_sortAlong axis (f :: fs)
      rw [sortAlong, hcons, List.pairwise_append] at hsorted
      have hafter (g : Frame) (hg : g ∈ after) : f.start axis ≤ g.start axis :=
        List.rel_of_pairwise_cons hsorted.2.1 hg
      have hmem (g : Frame) : g ∈ fs ↔ g ∈ before ∨ g ∈ after := by
        rw [← List.mem_append, ← hsort, List.mem_mergeSort]
      have hplaced : (∀ g ∈ fs, if f.start axis ≤ g.start axis then R f g else R g f) ↔
          (∀ g ∈ before, R g f) ∧ ∀ g ∈ after, R f g := by
        simp only [hmem, or_imp, forall_and]
        refine and_congr (forall₂_congr fun g hg => ?_) (forall₂_congr fun g hg => ?_)
        · rw [if_neg (by simpa using hbefore g hg)]
        · rw [if_pos (hafter g hg)]
      rw [List.pairwise_cons, ← ih, hplaced, sortAlong, sortAlong, hcons, hsort,
        List.pairwise_append, List.pairwise_append, List.pairwise_cons]
      simp only [List.mem_cons, forall_eq_or_imp, forall_and]
      tauto

/-- Frames that follow their neighbours follow all frames before them. -/
theorem isChain_iff_pairwise_follows
    (hsorted : fs.Pairwise fun f g => f.start axis ≤ g.start axis) :
    fs.IsChain (Follows axis) ↔ fs.Pairwise (Follows axis) := by
  refine ⟨fun hchain => ?_, List.Pairwise.isChain⟩
  induction fs with
  | nil => exact .nil
  | cons f fs ih =>
      obtain ⟨hfirst, hsorted⟩ := List.pairwise_cons.mp hsorted
      refine List.pairwise_cons.mpr ⟨?_, ih hsorted hchain.tail⟩
      cases fs with
      | nil => exact nofun
      | cons g rest =>
          have hfg : Follows axis f g := List.rel_of_isChain_cons_cons hchain
          -- the others start after the second one does
          rintro h (_ | ⟨_, hh⟩)
          · exact hfg
          · exact hfg.trans (List.rel_of_pairwise_cons hsorted hh)

theorem pairwise_ordered_iff {R : Frame → Frame → Prop} :
    (fs.Pairwise fun f g => if f.start axis ≤ g.start axis then R f g else R g f) ↔
      ∀ (i j : Nat) (hi : i < fs.length) (hj : j < fs.length),
        fs[i].start axis < fs[j].start axis ∨ fs[i].start axis = fs[j].start axis ∧ i < j →
          R fs[i] fs[j] := by
  rw [List.pairwise_iff_getElem]
  constructor
  · intro h i j hi hj hprecedes
    rcases hprecedes with hlt | ⟨heq, hij⟩
    · rcases lt_trichotomy i j with hij | rfl | hji
      · have hR := h i j hi hj hij
        rwa [if_pos hlt.le] at hR
      · exact absurd hlt (lt_irrefl _)
      · have hR := h j i hj hi hji
        rwa [if_neg hlt.not_ge] at hR
    · have hR := h i j hi hj hij
      rwa [if_pos heq.le] at hR
  · intro h i j hi hj hij
    split
    · next hle => exact h i j hi hj (hle.lt_or_eq.imp_right fun heq => ⟨heq, hij⟩)
    · next hgt => exact h j i hj hi (.inl (not_le.mp hgt))

theorem spread_le_iff (hne : fs ≠ []) {d : ℚ} :
    spread axis fs ≤ d ↔ ∀ f ∈ fs, ∀ g ∈ fs, |f.start axis - g.start axis| ≤ d := by
  have hstarts : fs.map (fun f => f.start axis) ≠ [] := by simpa using hne
  obtain ⟨last, hlast⟩ := Option.isSome_iff_exists.mp (List.isSome_max?_iff.mpr hstarts)
  obtain ⟨first, hfirst⟩ := Option.isSome_iff_exists.mp (List.isSome_min?_iff.mpr hstarts)
  obtain ⟨hlastMem, hle⟩ := List.max?_eq_some_iff.mp hlast
  obtain ⟨hfirstMem, hge⟩ := List.min?_eq_some_iff.mp hfirst
  rw [List.forall_mem_map] at hle hge
  rw [spread, hlast, hfirst, Option.getD_some, Option.getD_some]
  constructor
  · intro h f hf g hg
    refine abs_sub_le_iff.mpr ⟨?_, ?_⟩
    · linarith [hle f hf, hge g hg]
    · linarith [hle g hg, hge f hf]
  · intro h
    obtain ⟨f, hf, rfl⟩ := List.mem_map.mp hlastMem
    obtain ⟨g, hg, rfl⟩ := List.mem_map.mp hfirstMem
    exact (le_abs_self _).trans (h f hf g hg)

theorem flows_iff_allFollow : Flows axis fs ↔ AllFollow axis fs := by
  have hfollow : (sortAlong axis fs).IsChain (Follows axis) ↔ _ :=
    (isChain_iff_pairwise_follows (pairwise_sortAlong axis fs)).trans
      (pairwise_sortAlong_iff.trans pairwise_ordered_iff)
  have hspread (h : 2 ≤ fs.length) : spread axis.other fs ≤ 22 ↔ _ :=
    spread_le_iff (List.ne_nil_of_length_pos (by omega))
  rw [Flows, hfollow]
  constructor
  · rintro ⟨hseveral, haligned, hfollows⟩
    exact ⟨hseveral, (hspread hseveral).mp haligned, hfollows⟩
  · rintro ⟨hseveral, haligned, hfollows⟩
    exact ⟨hseveral, (hspread hseveral).mpr haligned, hfollows⟩

theorem Flows.pairwise_shared_le (h : Flows axis fs) :
    fs.Pairwise fun f g => shared axis f g ≤ 2 := by
  have hfollow := (isChain_iff_pairwise_follows (pairwise_sortAlong axis fs)).mp h.2.2
  refine (pairwise_sortAlong_iff.mp hfollow).imp fun {f g} hfg => ?_
  split at hfg
  · exact hfg.shared_le
  · rw [shared_comm]
    exact hfg.shared_le

end Frame

end Mockup
