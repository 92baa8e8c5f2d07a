import Mockup.Proofs.Layer.Selection
import Mockup.Proofs.Screen.Stages
import Mockup.Proofs.Style.Resolution

namespace Mockup

def Options.Shows (o : Options) (l : Layer) : Prop := l.visible = true ∧ l.id ∉ o.excludedIds

namespace Screen

variable {o : Options} {d : Document} {s : Screen}

/-- Every element of a screen but its repeaters stands for a layer of a tree, and this one and all
layers around it are shown. -/
def IsShownIn (o : Options) (d : Document) (s : Screen) : Prop :=
  ∃ xs, s.root.preorder = .ok xs ∧ ∀ x ∈ xs, x.isRepeater = false →
    (∃ l ∈ d.preorder, l.id = x.id) ∧
    ∀ oc ∈ d.occurrences, oc.tree.item.id = x.id → ∀ u ∈ oc.tree :: oc.around, o.Shows u.item

theorem shows_of_admits {safeArea : Option SafeArea} {u : Document}
    (h : (selectionOf o safeArea).admits u = true) : o.Shows u.item := by
  simp only [Selection.admits, Selection.omission?, selectionOf, List.contains_eq_mem,
    List.mem_append] at h
  split at h
  · cases h
  · next hid =>
      split at h
      · cases h
      · next hvisible =>
          exact ⟨by simpa using hvisible, fun hmem => hid (by simp [hmem])⟩

/-- The elements of a lowered tree that are no repeaters have ids of its blocks. -/
theorem exists_block_of_lowerTree {n : Naming} {t : Tree Block} {e : Element} {b : StyleBundle}
    {found : Detection} (h : lowerTree n t = .ok (e, b, found)) {x : Element} (hx : x ∈ e.nodes)
    (hplain : x.isRepeater = false) : ∃ p ∈ t.preorder, p.id = x.id := by
  obtain ⟨placed, e', registry, hplaced, he, ha, -⟩ := lowerTree_eq_ok h
  obtain ⟨y, hy, hxy⟩ := Element.exists_mem_nodes_of_relabel_eq (Style.bare_assign ha) hx
  have hid : x.id = y.id := by
    have hid := congrArg Identity.id (Element.identity_of_relabel_eq hxy)
    exact hid
  have hown : y.id ∈ e'.ownIds := by
    refine List.mem_map_of_mem (List.mem_filter.mpr ⟨hy, ?_⟩)
    rw [← Element.isRepeater_of_relabel_eq hxy, hplain]
    rfl
  have hsub := Recognition.ownIds_sublist (Recognition.recognize_covers he)
  obtain ⟨p, hp, hpid⟩ := List.mem_map.mp (hsub.subset hown)
  refine ⟨p.toBlock, ?_, hpid.trans hid.symm⟩
  rw [← Layout.map_toBlock_place hplaced]
  exact List.mem_map_of_mem hp

/-- When the ids of a document are distinct, a screen that is not the placeholder shows nothing of
its effective root that is hidden or excluded, or inside of something that is. -/
theorem isShownIn_effectiveRoot (hids : (d.preorder.map fun l => l.id).Nodup)
    (h : ofDocument o d = .ok s) (hne : (s.root, s.bundle) ≠ placeholder d.item) :
    effectiveRoot d s.detection.modal ∈ d.subtrees ∧
      s.IsShownIn o (effectiveRoot d s.detection.modal) := by
  have hroot := effectiveRoot_mem_subtrees d s.detection.modal
  refine ⟨hroot, ?_⟩
  obtain ⟨t, found, ht, hlower⟩ := (ofDocument_eq_ok h).resolve_right hne
  obtain ⟨placed, e, registry, -, he, ha, -⟩ := lowerTree_eq_ok hlower
  generalize effectiveRoot d s.detection.modal = root at hroot ht ⊢
  refine ⟨s.root.nodes, Style.preorder_of_assign he ha, fun x hx hplain => ?_⟩
  obtain ⟨p, hp, hpid⟩ := exists_block_of_lowerTree hlower hx hplain
  rw [Selection.preorder_apply ht] at hp
  obtain ⟨oc, hoc, rfl⟩ := List.mem_map.mp hp
  obtain ⟨hoc, hsurvives⟩ := List.mem_filter.mp hoc
  refine ⟨⟨oc.tree.item, ?_, hpid⟩, fun oc' hoc' hid u hu => ?_⟩
  · rw [← Tree.map_item_occurrences]
    exact List.mem_map_of_mem hoc
  · -- there is but one occurrence with the id of the element, and it survives the selection only
    -- if all around it do
    have hnodup : (root.occurrences.map fun oc => oc.tree.item.id).Nodup := by
      have hsub := (Tree.preorder_sublist hroot).map fun l => l.id
      rw [← Tree.map_item_occurrences, List.map_map] at hsub
      exact hids.sublist hsub
    obtain rfl := List.inj_on_of_nodup_map hnodup hoc' hoc (hid.trans hpid.symm)
    have hkeeps := (Bool.and_eq_true_iff.mp hsurvives).1
    exact shows_of_admits (List.all_eq_true.mp hkeeps u hu)

def framed (id name : String) (visible : Bool) (box : Box) (fills : List Fill) : Layer :=
  { id := some id, name := some name, kind := some "FRAME", fills, box := some box, visible }

def phone : Box := { width := some 375, height := some 812 }

def hiddenNote : Document :=
  .node (framed "1" "Home" true phone [])
    [.node (framed "2" "Note" false { width := some 300, height := some 100 } []) []]

theorem isShownIn_effectiveRoot_hiddenNote : ∃ s, ofDocument {} hiddenNote = .ok s ∧
    (s.root, s.bundle) ≠ placeholder hiddenNote.item ∧ s.IsShownIn {} hiddenNote := by
  have hrun : ((ofDocument {} hiddenNote).toOption.map fun s =>
      (Fields.names s.bundle.styles, s.detection.modal.map Option.isSome)) =
      some (["home"], some false) := by decide +kernel
  cases h : ofDocument {} hiddenNote with
  | error f =>
      rw [h] at hrun
      cases hrun
  | ok s =>
      rw [h] at hrun
      obtain ⟨hnames, hmodal⟩ := Prod.mk.inj (Option.some.inj hrun)
      have hne := ne_placeholder_of_names (by rw [hnames]; decide) hiddenNote.item
      have hroot : effectiveRoot hiddenNote s.detection.modal = hiddenNote := by
        rcases hfound : s.detection.modal with _ | _ | m
        · rfl
        · rfl
        · rw [hfound] at hmodal
          cases hmodal
      have hshown := (isShownIn_effectiveRoot (by decide) h hne).2
      rw [hroot] at hshown
      exact ⟨s, rfl, hne, hshown⟩

def hiddenScrim : Document :=
  .node (framed "1" "Home" true phone [])
    [.node (framed "2" "Scrim" false phone [⟨.solid {}, some (.fraction 9 20)⟩])
      [.node (framed "3" "Sheet" true
        { y := some 412, width := some 375, height := some 400 } []) []]]

/-- The sheet is what the screen shows, although the scrim around it is hidden. -/
theorem not_isShownIn_hiddenScrim : ∃ s, ofDocument {} hiddenScrim = .ok s ∧
    (hiddenScrim.preorder.map fun l => l.id).Nodup ∧
    (s.root, s.bundle) ≠ placeholder hiddenScrim.item ∧ ¬s.IsShownIn {} hiddenScrim := by
  have hrun : (ofDocument {} hiddenScrim >>= fun s => s.root.preorder >>= fun xs =>
      .ok (xs.map fun x => (x.id, x.isRepeater), Fields.names s.bundle.styles)) =
      .ok ([(some "3", false)], ["sheet"]) := by decide +kernel
  obtain ⟨s, hs, hrun⟩ := Result.bind_eq_ok_iff.mp hrun
  obtain ⟨xs, hxs, hrun⟩ := Result.bind_eq_ok_iff.mp hrun
  obtain ⟨hids, hnames⟩ := Prod.mk.inj (Except.ok.inj hrun)
  refine ⟨s, hs, by decide, ?_, fun ⟨ys, hys, hall⟩ => ?_⟩
  · exact ne_placeholder_of_names (by rw [hnames]; decide) hiddenScrim.item
  · cases hys.symm.trans hxs
    obtain ⟨x, rfl, hx⟩ := List.map_eq_singleton_iff.mp hids
    obtain ⟨hid, hplain⟩ := Prod.mk.inj hx
    obtain ⟨scrim, hscrim⟩ : ∃ scrim, hiddenScrim.children = [scrim] := ⟨_, rfl⟩
    obtain ⟨sheet, hsheet⟩ : ∃ sheet, scrim.children = [sheet] := by
      cases hscrim
      exact ⟨_, rfl⟩
    have hmem : ⟨sheet, [scrim, hiddenScrim]⟩ ∈ hiddenScrim.occurrences := by
      cases hscrim
      cases hsheet
      exact List.mem_cons_of_mem _ (List.mem_cons_of_mem _ List.mem_cons_self)
    have hshown := (hall x List.mem_cons_self hplain).2 _ hmem
      (by cases hscrim; cases hsheet; exact hid.symm) scrim
      (List.mem_cons_of_mem _ List.mem_cons_self)
    cases hscrim
    cases hshown.1

end Screen

end Mockup
