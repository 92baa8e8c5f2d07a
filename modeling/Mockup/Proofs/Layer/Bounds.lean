import Mockup.Layer.Selection
import Mockup.Proofs.Box.Bounds

namespace Mockup

def Color.Bounded (c : Color) : Prop := ∃ a, c.alpha = some a ∧ a.IsShare

def Paint.colors : Paint → List Color
  | .solid c => [c]
  | .gradient g => g.stops.map GradientStop.color
  | .image .. => []

structure Fill.Bounded (f : Fill) : Prop where
  opacity : ∃ a, f.opacity = some a ∧ a.IsShare
  colors : ∀ c ∈ f.paint.colors, c.Bounded

theorem Fill.Bounded.solid {f : Fill} (hf : f.Bounded) {c : Color} (hc : f.solid? = some c) :
    c.Bounded := by
  rw [Fill.solid?] at hc
  split at hc
  · next color hpaint =>
      cases hc
      exact hf.colors c (by rw [hpaint]; exact List.mem_singleton_self c)
  · cases hc

structure Stroke.Bounded (s : Stroke) : Prop where
  opacity : ∃ a, s.opacity = some a ∧ a.IsShare
  color : s.color.Bounded

def Effect.shadow? : Effect → Option Shadow
  | .dropShadow s | .innerShadow s => some s
  | _ => none

/-- Paint with opacities and channels from zero to one, and radii and spacing that are given. -/
structure Traits.Bounded (t : Traits) : Prop where
  id : t.id ≠ none
  fills : ∀ f ∈ t.fills, f.Bounded
  strokes : ∀ s ∈ t.strokes, s.Bounded
  effects : ∀ e ∈ t.effects, ∀ s, e.shadow? = some s → s.color.Bounded
  corners : ∀ c, t.cornerRadius = some (.each c) → ∀ r ∈ c.toList, r ≠ none
  spacing : ∀ a, t.autoLayout = some a → ∀ n ∈ a.gap :: a.padding.toList, n ≠ none

def Traits.isBare (t : Traits) : Bool :=
  t.id.isSome && t.fills.isEmpty && t.strokes.isEmpty && t.effects.isEmpty &&
    t.cornerRadius.isNone && t.autoLayout.isNone

theorem Traits.bounded_of_isBare {t : Traits} (h : t.isBare = true) : t.Bounded := by
  simp only [isBare, Bool.and_eq_true, List.isEmpty_iff, Option.isNone_iff_eq_none] at h
  obtain ⟨⟨⟨⟨⟨hid, hfills⟩, hstrokes⟩, heffects⟩, hcorners⟩, hlayout⟩ := h
  exact ⟨Option.isSome_iff_ne_none.mp hid, by simp [hfills], by simp [hstrokes],
    by simp [heffects], by simp [hcorners], by simp [hlayout]⟩

/-- A layer may have no box, but the coordinates of a box are bounded integers. -/
structure Layer.Bounded (l : Layer) : Prop where
  traits : l.toTraits.Bounded
  box : ∀ b, l.box = some b → b.Bounded

def Document.Bounded (d : Document) : Prop := ∀ l ∈ d.preorder, l.Bounded

structure Block.Bounded (b : Block) : Prop where
  traits : b.toTraits.Bounded
  box : b.box.Bounded

end Mockup
