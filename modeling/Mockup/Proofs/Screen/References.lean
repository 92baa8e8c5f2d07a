import Mockup.Proofs.Screen.Stages
import Mockup.Proofs.Style.Resolution

namespace Mockup.Screen

open Style

variable {o : Options} {d : Document} {s : Screen}

/-- Every reference of every element of a screen is the name of one of its styles. -/
def IsResolved (s : Screen) : Prop :=
  ∃ xs, s.root.preorder = .ok xs ∧ ∀ x ∈ xs, ∀ ref ∈ references x,
    ref.name ∈ Fields.names s.bundle.styles

/-- Only the parts of buttons can have references that are no names: those without an id. Whatever
the document and the options, all other references of a screen, the placeholder included, are names
of its styles. -/
theorem references_named (h : ofDocument o d = .ok s) :
    ∃ xs, s.root.preorder = .ok xs ∧ ∀ x ∈ xs,
      x.identity.styleRef ∈ Fields.names s.bundle.styles ∧
      ∀ ref ∈ references x, (x.isButton = true → ref.source.Identified) →
        ref.name ∈ Fields.names s.bundle.styles := by
  rcases ofDocument_eq_ok h with ⟨t, found, -, hlower⟩ | hempty
  · obtain ⟨placed, e, registry, -, he, ha, hb⟩ := lowerTree_eq_ok hlower
    refine ⟨s.root.nodes, preorder_of_assign he ha, fun x hx => ?_⟩
    have hres := assign_resolves (fun i b => referring_of_recognize he) Registry.sound_empty ha x hx
    rw [styles_of_bundle hb]
    exact ⟨hres.own, hres.all⟩
  · obtain ⟨hroot, hbundle⟩ := Prod.mk.inj hempty
    rw [hroot, hbundle]
    refine ⟨_, rfl, fun x hx => ?_⟩
    rw [List.mem_singleton.mp hx]
    refine ⟨List.mem_singleton_self _, fun ref href _ => ?_⟩
    rw [List.mem_singleton.mp href]
    exact List.mem_singleton_self _

def unidentifiedLabel : Document :=
  .node { id := some "1", name := some "Button", kind := some "FRAME",
          box := some { width := some 120, height := some 40 } }
    [.node { id := some "", name := some "Label", kind := some "TEXT", text := some "OK",
             box := some { width := some 40, height := some 16 } } []]

theorem ofDocument_unidentifiedLabel : ∃ s xs, ofDocument {} unidentifiedLabel = .ok s ∧
    s.root.preorder = .ok xs ∧
    (xs.flatMap references).map Reference.name = ["button", "label"] ∧
    Fields.names s.bundle.styles = ["button"] := by
  have hrun : (ofDocument {} unidentifiedLabel >>= fun s => s.root.preorder >>= fun xs =>
      .ok ((xs.flatMap references).map Reference.name, Fields.names s.bundle.styles)) =
      .ok (["button", "label"], ["button"]) := by decide +kernel
  obtain ⟨s, hs, hrun⟩ := Result.bind_eq_ok_iff.mp hrun
  obtain ⟨xs, hxs, hrun⟩ := Result.bind_eq_ok_iff.mp hrun
  exact ⟨s, xs, hs, hxs, Prod.mk.inj (Except.ok.inj hrun)⟩

theorem references_named_unidentifiedLabel : ∃ s xs, ofDocument {} unidentifiedLabel = .ok s ∧
    s.root.preorder = .ok xs ∧ ∀ x ∈ xs, x.identity.styleRef ∈ Fields.names s.bundle.styles := by
  obtain ⟨s, -, hs, -⟩ := ofDocument_unidentifiedLabel
  obtain ⟨xs, hxs, hall⟩ := references_named hs
  exact ⟨s, xs, hs, hxs, fun x hx => (hall x hx).1⟩

/-- The label of a button is left with a reference to nothing. -/
theorem not_isResolved_unidentifiedLabel :
    ∃ s, ofDocument {} unidentifiedLabel = .ok s ∧ ¬s.IsResolved := by
  obtain ⟨s, xs, hs, hxs, hrefs, hnames⟩ := ofDocument_unidentifiedLabel
  refine ⟨s, hs, fun ⟨ys, hys, hall⟩ => ?_⟩
  cases hys.symm.trans hxs
  have hlabel : "label" ∈ (xs.flatMap references).map Reference.name := by
    rw [hrefs]
    decide
  obtain ⟨ref, href, hname⟩ := List.mem_map.mp hlabel
  obtain ⟨x, hx, href⟩ := List.mem_flatMap.mp href
  have hmem := hall x hx ref href
  rw [hname, hnames] at hmem
  revert hmem
  decide

end Mockup.Screen
