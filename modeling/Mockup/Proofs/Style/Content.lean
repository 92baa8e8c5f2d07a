import Mockup.Proofs.Style.Parts
import Mockup.Proofs.Style.Resolution

namespace Mockup.Style

theorem mem_names_ofLayout {l : Layout} (h : isFlowing l.flow = true) :
    "flexDirection" ∈ Fields.names (ofLayout l) := by
  rw [ofLayout, if_pos h]
  exact List.mem_cons_self

theorem mem_names_eraseIf {style : Style} {name other : String} (h : name ∈ Fields.names style)
    (hne : name ≠ other) (c : Prop) [Decidable c] :
    name ∈ Fields.names (if c then Fields.erase style other else style) := by
  split
  · exact Fields.mem_names_erase h hne
  · exact h

/-- Only the extents of a layer are dropped from its style, and only where its children flow. -/
theorem mem_names_dropHugged {l : Layout} {style : Style} {name : String}
    (h : name ∈ Fields.names style)
    (hname : isFlowing l.flow = false ∨ name ≠ "width" ∧ name ≠ "height") :
    name ∈ Fields.names (dropHugged l style) := by
  rw [dropHugged]
  rcases hname with hflow | ⟨hwidth, hheight⟩
  · rwa [if_neg (by rw [hflow]; exact Bool.false_ne_true)]
  · cases isFlowing l.flow with
    | true => exact mem_names_eraseIf (mem_names_eraseIf h hwidth _) hheight _
    | false => exact h

theorem of_ne_nil {p : Placed} {s : Style} (h : Style.of p = .ok s) : s ≠ [] := by
  obtain ⟨back, edge, cast, type, width, height, position, -, -, -, -, -, -, -, rfl⟩ := of_eq_ok h
  intro hnil
  have hnames := Fields.names_normalizeFields (dropHugged p.layout (Fields.putAll []
    (back ++ edge ++ radius p.cornerRadius ++ cast ++ type ++
      [("width", .ofInt width), ("height", .ofInt height)] ++ position ++ opacity p.toTraits ++
      ofLayout p.layout)))
  rw [hnil] at hnames
  -- hugging drops an extent only where children flow, and there the flow is told
  refine List.ne_nil_of_mem (a := if isFlowing p.layout.flow then "flexDirection" else "width") ?_
    hnames.symm
  cases hflow : isFlowing p.layout.flow with
  | true =>
      refine mem_names_dropHugged (Fields.mem_names_putAll (.inr ?_)) (.inr (by decide))
      rw [Fields.names, List.map_append]
      exact List.mem_append_right _ (mem_names_ofLayout hflow)
  | false =>
      refine mem_names_dropHugged (Fields.mem_names_putAll (.inr ?_)) (.inl hflow)
      simp [Fields.names]

theorem ofId_ne_nil {t : Tree Placed} {s : Style} (h : ofId t t.item.id = .ok s) : s ≠ [] := by
  obtain ⟨p, hp⟩ : ∃ p, layerWith? t t.item.id = some p := by
    refine Option.isSome_iff_exists.mp (List.find?_isSome.mpr ⟨t.item, ?_, beq_self_eq_true _⟩)
    exact t.postorder_perm_preorder.mem_iff.mpr (Tree.item_mem_preorder t.mem_subtrees_self)
  rw [ofId, hp] at h
  exact of_ne_nil (registrable_eq_ok_iff.mp h).1

/-- The style of the root is registered before any other. -/
theorem exists_first_style {n : Naming} {t : Tree Placed} {e e' : Element} {r' : Registry}
    (he : Recognition.recognize n t = .ok e) (ha : assign t {} e = .ok (e', r')) :
    ∃ name s, s ≠ [] ∧ [(name, s)] <+: r'.styles := by
  have hdepicts := Recognition.recognize_depicts he
  have hsound := Registry.sound_empty
  cases e with
  | foreign i v =>
      rw [assign] at ha
      cases ha
  | leaf i c =>
      obtain ⟨s, c', hs, hc, -⟩ := assign_leaf_eq_ok ha
      have hid : i.id = t.item.id := hdepicts.id
      rw [hid] at hs
      exact ⟨_, s, ofId_ne_nil hs,
        (assignLeaf_leadsTo hc).kept (hsound.register i.styleRef s)⟩
  | branch i b l es =>
      obtain ⟨s, es', hs, hes, -⟩ := assign_branch_eq_ok ha
      have hid : i.id = t.item.id := hdepicts.id
      have hsource : branchSource i b l = .layer t.item.id := by
        have hplain := hdepicts.isRepeater_eq_false
        cases b with
        | repeater b => cases hplain
        | container | card | component b => exact congrArg Source.layer hid
      rw [hsource] at hs
      exact ⟨_, s, ofId_ne_nil hs, (assignAll_leadsTo hes).kept (hsound.register i.styleRef s)⟩

end Mockup.Style
