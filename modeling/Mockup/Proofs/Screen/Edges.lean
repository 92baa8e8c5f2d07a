import Mockup.Proofs.Box.Rect
import Mockup.Proofs.Screen.Overlays

namespace Mockup

namespace SheetKind

def edge? (kind : SheetKind) (b : Box) : Number.Result Number :=
  match kind with
  | bottom => b.bottom
  | top => b.top

def edge (kind : SheetKind) (r : Rect) : Int :=
  match kind with
  | bottom => r.finish .vertical
  | top => r.start .vertical

theorem edge?_toBox (kind : SheetKind) (r : Rect) :
    kind.edge? r.toBox = .ok (.int (kind.edge r)) := by
  cases kind with
  | bottom => exact r.finish_toBox .vertical
  | top => exact r.start_toBox .vertical

end SheetKind

namespace Modal

open Result

/-- What the search makes sure of: the overlay is as large as the screen, and the content is at the
edge of the layer that it lies in. -/
structure Stands (kind : SheetKind) (screen overlay parent content : Rect) : Prop where
  alike : ∀ axis, (overlay.extent axis - screen.extent axis).natAbs ≤ 2
  pinned : (kind.edge content - kind.edge parent).natAbs ≤ 5

/-- A sheet that is where it is said to be: the overlay covers the screen, and the content is at
the edge of the overlay. -/
structure IsInPlace (kind : SheetKind) (screen overlay content : Rect) : Prop where
  start : ∀ axis, (overlay.start axis - screen.start axis).natAbs ≤ 2
  finish : ∀ axis, (overlay.finish axis - screen.finish axis).natAbs ≤ 2
  pinned : (kind.edge content - kind.edge overlay).natAbs ≤ 5

theorem Stands.isInPlace {kind : SheetKind} {screen overlay parent content : Rect}
    (h : Stands kind screen overlay parent content)
    (hstart : ∀ axis, overlay.start axis = screen.start axis)
    (hedge : kind.edge parent = kind.edge overlay) : IsInPlace kind screen overlay content where
  start axis := by simp [hstart axis]
  finish axis := by
    have halike := h.alike axis
    rw [Rect.finish, Rect.finish, hstart axis]
    omega
  pinned := hedge ▸ h.pinned

theorem close_int {tolerance : Nat} {i j : Int}
    (h : Close (.int tolerance) (.ok (.int i)) (.ok (.int j))) : (i - j).natAbs ≤ tolerance := by
  obtain ⟨x, y, d, hx, hy, hd, hle⟩ := h
  cases hx
  cases hy
  cases hd
  rw [Number.abs, Number.le_int, decide_eq_true_eq] at hle
  exact_mod_cast hle

theorem PassesAs.pinned {layer parent : Layer} {kind : SheetKind} (h : PassesAs layer parent kind) :
    OnBoxes (fun a b => Close edgeTolerance (kind.edge? a) (kind.edge? b)) layer parent := by
  cases h with
  | bottomCorners _ hedge => exact hedge
  | topCorners _ hedge => exact hedge
  | bottomName _ hedge => exact hedge
  | topName _ hedge => exact hedge

/-- A test of two layers with integral boxes is one of these integers. -/
theorem OnBoxes.exists_rects {P : Box → Box → Prop} {layer parent : Layer}
    (h : OnBoxes P layer parent) (hlayer : ∀ b, layer.box = some b → b.IsIntegral)
    (hparent : ∀ b, parent.box = some b → b.IsIntegral) :
    ∃ a b : Rect, layer.box = some a.toBox ∧ parent.box = some b.toBox ∧ P a.toBox b.toBox := by
  obtain ⟨a, ha, b, hb, hab⟩ := h
  obtain ⟨r, rfl⟩ := Rect.exists_of_isIntegral (hlayer a ha)
  obtain ⟨s, rfl⟩ := Rect.exists_of_isIntegral (hparent b hb)
  exact ⟨r, s, ha, hb, hab⟩

theorem exists_shows {d : Document} {m : Modal} (hd : (idsOf d).Nodup)
    (h : detect? d = .ok (some m)) : ∃ overlay content, Shows d m overlay content := by
  obtain ⟨before, overlay, after, hchildren, hbefore, htold⟩ := (among?_findsFirst h).exists_split
  exact ⟨overlay, shows_of_isTold hd hchildren hbefore htold⟩

namespace Shows

variable {d overlay : Document} {m : Modal} {content : Occurrence Layer}
  (h : Shows d m overlay content)

include h

theorem overlay_mem : overlay ∈ d.subtrees := by
  obtain ⟨before, after, hchildren, -⟩ := h.overlay_first
  exact Tree.mem_subtrees_child (hchildren ▸ List.mem_append_cons_self)

theorem content_mem : content ∈ overlay.occurrences := by
  obtain ⟨before, after, hsplit, -⟩ := h.content_first
  exact hsplit ▸ List.mem_append_cons_self

theorem around_subset : content.tree :: content.around ⊆ d.subtrees := by
  have hsub := Tree.subtrees_subset h.overlay_mem
  refine List.cons_subset.mpr ⟨hsub (Tree.tree_mem_subtrees h.content_mem), fun u hu => ?_⟩
  have hu := Tree.around_subset h.content_mem hu
  rw [List.append_nil] at hu
  exact hsub hu

end Shows

/-- Where a modal sheet is found on a document with distinct ids and integral boxes, the overlay is
as large as the screen and the content at the edge of the layer that it lies in. It is where it is
said to be if the overlay starts where the screen does and the layer has the edge of the overlay. -/
theorem stands_of_detect (d : Document) (m : Modal) (hids : (d.preorder.map fun l => l.id).Nodup)
    (hboxes : ∀ l ∈ d.preorder, ∀ b, l.box = some b → b.IsIntegral)
    (h : detect? d = .ok (some m)) :
    ∃ overlay content parent rest, Shows d m overlay content ∧ content.around = parent :: rest ∧
      ∃ s o p c : Rect, d.item.box = some s.toBox ∧ overlay.item.box = some o.toBox ∧
        parent.item.box = some p.toBox ∧ content.tree.item.box = some c.toBox ∧
        Stands m.kind s o p c ∧
        ((∀ axis, o.start axis = s.start axis) → m.kind.edge p = m.kind.edge o →
          IsInPlace m.kind s o c) := by
  obtain ⟨overlay, content, hshows⟩ := exists_shows hids h
  obtain ⟨parent, rest, haround, hpasses, -⟩ := hshows.sheet
  have hbox {u : Document} (hu : u ∈ d.subtrees) : ∀ b, u.item.box = some b → b.IsIntegral :=
    hboxes _ (Tree.item_mem_preorder hu)
  obtain ⟨hcontent, haround'⟩ := List.cons_subset.mp hshows.around_subset
  have hparent : parent ∈ d.subtrees := haround' (haround ▸ List.mem_cons_self)
  obtain ⟨o, s, ho, hs, halike⟩ :=
    hshows.scrim.covers.exists_rects (hbox hshows.overlay_mem) (hbox d.mem_subtrees_self)
  obtain ⟨c, p, hc, hp, hpinned⟩ := hpasses.pinned.exists_rects (hbox hcontent) (hbox hparent)
  have hstands : Stands m.kind s o p c := by
    constructor
    · intro axis
      have hclose := halike axis
      rw [Rect.extent_toBox, Rect.extent_toBox] at hclose
      exact close_int hclose
    · rw [SheetKind.edge?_toBox, SheetKind.edge?_toBox] at hpinned
      exact close_int hpinned
  exact ⟨overlay, content, parent, rest, hshows, haround, s, o, p, c, hs, ho, hp, hc, hstands,
    hstands.isInPlace⟩

def layerAt (id name kind : String) (r : Rect) : Layer :=
  { id := some id, name := some name, kind := some kind, box := some r.toBox }

def panelAt (x y : Int) : Document :=
  .node { layerAt "4" "Panel" "FRAME" ⟨x, y, 375, 300⟩ with
      cornerRadius := some (.each { topLeft := some 16, topRight := some 16 }) } []

def panelScrim (x height : Int) : Document :=
  .node { layerAt "2" "Scrim" "FRAME" ⟨x, 0, 375, 812⟩ with
      fills := [⟨.solid {}, some (.fraction 1 2)⟩] }
    [.node (layerAt "3" "Group" "GROUP" ⟨x, 0, 375, height⟩) [panelAt x (height - 300)]]

def panelScreen (x height : Int) : Document :=
  .node (layerAt "1" "Home" "FRAME" ⟨0, 0, 375, 812⟩) [panelScrim x height]

theorem nodup_panelScreen (x height : Int) :
    ((panelScreen x height).preorder.map fun l => l.id).Nodup := by
  change [some "1", some "2", some "3", some "4"].Nodup
  decide

theorem isIntegral_panelScreen (x height : Int) :
    ∀ l ∈ (panelScreen x height).preorder, ∀ b, l.box = some b → b.IsIntegral := by
  simp only [panelScreen, panelScrim, panelAt, Tree.preorder_node, List.flatMap_cons,
    List.flatMap_nil, List.append_nil, List.forall_mem_cons, List.not_mem_nil, false_imp_iff,
    implies_true, and_true]
  refine ⟨?_, ?_, ?_, ?_⟩ <;> rintro _ ⟨⟩ <;> exact Rect.isIntegral_toBox _

theorem stands_of_detect_panelScreen : ∃ m overlay content parent rest s o p c,
    detect? (panelScreen 0 812) = .ok (some m) ∧ Shows (panelScreen 0 812) m overlay content ∧
      content.around = parent :: rest ∧ Stands m.kind s o p c := by
  have hsome : (detect? (panelScreen 0 812)).toOption.join.isSome = true := by decide +kernel
  obtain ⟨m, hm⟩ := Option.isSome_iff_exists.mp hsome
  have hdetect := toOption_eq_some_iff.mp (Option.join_eq_some_iff.mp hm)
  obtain ⟨overlay, content, parent, rest, hshows, haround, s, o, p, c, -, -, -, -, hstands, -⟩ :=
    stands_of_detect _ m (nodup_panelScreen 0 812) (isIntegral_panelScreen 0 812) hdetect
  exact ⟨m, overlay, content, parent, rest, s, o, p, c, hdetect, hshows, haround, hstands⟩

def Reports (d : Document) (kind : SheetKind) (overlay content : Rect) : Prop :=
  ∃ m t u, detect? d = .ok (some m) ∧ m.kind = kind ∧
    contentWith? d m.overlayId = some t ∧ t.item.box = some overlay.toBox ∧
    contentWith? d m.contentId = some u ∧ u.item.box = some content.toBox

theorem reports_panelScreen {x height : Int}
    (h : (detect? (panelScreen x height)).toOption.join.map
      (fun m => (m.kind, m.overlayId, m.contentId)) = some (.bottom, some "2", some "4")) :
    Reports (panelScreen x height) .bottom ⟨x, 0, 375, 812⟩ ⟨x, height - 300, 375, 300⟩ := by
  obtain ⟨m, hm, hids⟩ := Option.map_eq_some_iff.mp h
  simp only [Prod.mk.injEq] at hids
  obtain ⟨hkind, hoverlay, hcontent⟩ := hids
  have hscrim : panelScrim x height ∈ (panelScreen x height).subtrees :=
    Tree.mem_subtrees_child (List.mem_singleton_self _)
  have hpanel : panelAt x (height - 300) ∈ (panelScreen x height).subtrees :=
    Tree.subtrees_subset hscrim (List.mem_cons_of_mem _ (List.mem_cons_of_mem _ List.mem_cons_self))
  have hfinds {id : LayerId} {t : Document} (hid : id = t.item.id)
      (ht : t ∈ (panelScreen x height).subtrees) :
      contentWith? (panelScreen x height) id = some t :=
    hid ▸ contentWith?_of_mem (nodup_panelScreen x height) ht
  exact ⟨m, panelScrim x height, panelAt x (height - 300),
    toOption_eq_some_iff.mp (Option.join_eq_some_iff.mp hm), hkind,
    hfinds hoverlay hscrim, rfl,
    hfinds hcontent hpanel, rfl⟩

/-- A scrim beside the screen, and one in which the sheet is at the bottom of a short group. -/
theorem not_isInPlace_panelScreen :
    (Reports (panelScreen 400 812) .bottom ⟨400, 0, 375, 812⟩ ⟨400, 512, 375, 300⟩ ∧
      ¬IsInPlace .bottom ⟨0, 0, 375, 812⟩ ⟨400, 0, 375, 812⟩ ⟨400, 512, 375, 300⟩) ∧
    Reports (panelScreen 0 400) .bottom ⟨0, 0, 375, 812⟩ ⟨0, 100, 375, 300⟩ ∧
      ¬IsInPlace .bottom ⟨0, 0, 375, 812⟩ ⟨0, 0, 375, 812⟩ ⟨0, 100, 375, 300⟩ := by
  refine ⟨⟨reports_panelScreen (by decide +kernel), fun h => ?_⟩,
    reports_panelScreen (by decide +kernel), fun h => ?_⟩
  · exact absurd (h.start .horizontal) (by decide)
  · exact absurd h.pinned (by decide)

end Modal

end Mockup
