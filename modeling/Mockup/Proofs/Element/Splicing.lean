import Mathlib.Data.List.Nodup
import Mockup.Proofs.Element.Tree

namespace Mockup.Element

mutual

/-- An element without the repeaters in it: the children of each stand in its place. -/
def spliced : Element → List Element
  | branch _ (.repeater _) _ es => splicedAll es
  | branch i r l es => [branch i r l (splicedAll es)]
  | leaf i c => [leaf i c]
  | foreign i v => [foreign i v]

def splicedAll : List Element → List Element
  | [] => []
  | e :: es => spliced e ++ splicedAll es

end

theorem splicedAll_eq (es : List Element) : splicedAll es = es.flatMap spliced := by
  induction es with
  | nil => rfl
  | cons e es ih => rw [splicedAll, ih, List.flatMap_cons]

theorem spliced_leaf (i : Identity) (c : Leaf) : spliced (leaf i c) = [leaf i c] := by
  rw [spliced]

theorem spliced_repeater (i : Identity) (r : RepeaterElement) (l : Layout) (es : List Element) :
    spliced (branch i (.repeater r) l es) = es.flatMap spliced := by
  rw [spliced, splicedAll_eq]

theorem spliced_branch {r : Branch} (hr : ∀ s, r ≠ .repeater s) (i : Identity) (l : Layout)
    (es : List Element) : spliced (branch i r l es) = [branch i r l (es.flatMap spliced)] := by
  rw [spliced, splicedAll_eq]
  exact fun s h => hr s h

theorem isRepeater_branch_eq_false_iff {i : Identity} {r : Branch} {l : Layout}
    {es : List Element} : (branch i r l es).isRepeater = false ↔ ∀ s, r ≠ .repeater s := by
  cases r <;> simp [isRepeater]

theorem spliced_relabel (f : Identity → Identity) (g : Leaf → Leaf) (e : Element) :
    (e.relabel f g).spliced = e.spliced.map (relabel f g) := by
  induction e with
  | leaf i c => rfl
  | foreign i v => rfl
  | branch i r l es ih =>
      have hes : (es.map (relabel f g)).flatMap spliced =
          (es.flatMap spliced).map (relabel f g) := by
        rw [List.flatMap_map, List.map_flatMap]
        exact List.flatMap_congr ih
      rw [relabel_branch]
      by_cases hr : ∀ s, r ≠ .repeater s
      · rw [spliced_branch hr, spliced_branch hr, hes, List.map_singleton, relabel_branch]
      · push Not at hr
        obtain ⟨s, rfl⟩ := hr
        rw [spliced_repeater, spliced_repeater, hes]

theorem spliced_of_relabel_eq {f : Identity → Identity} {g : Leaf → Leaf} {e e' : Element}
    (h : e'.relabel f g = e.relabel f g) :
    e'.spliced.map (relabel f g) = e.spliced.map (relabel f g) := by
  rw [← spliced_relabel, h, spliced_relabel]

/-- Splicing takes away the repeaters and nothing else: what is read off the single elements, and
not off those below them, stays. -/
theorem map_nodes_spliced {α : Type} {g : Element → α}
    (hg : ∀ i r l es es', g (branch i r l es) = g (branch i r l es')) (e : Element) :
    (e.spliced.flatMap nodes).map g = (e.nodes.filter fun x => !x.isRepeater).map g := by
  induction e with
  | leaf i c => rfl
  | foreign i v => rfl
  | branch i r l es ih =>
      have hes : ((es.flatMap spliced).flatMap nodes).map g =
          ((es.flatMap nodes).filter fun x => !x.isRepeater).map g := by
        rw [List.flatMap_assoc, List.map_flatMap, List.filter_flatMap, List.map_flatMap]
        exact List.flatMap_congr ih
      rw [nodes_branch, List.filter_cons]
      by_cases hr : ∀ s, r ≠ .repeater s
      · rw [spliced_branch hr, isRepeater_branch_eq_false_iff.mpr hr, List.flatMap_singleton,
          nodes_branch, List.map_cons, hes, hg i r l _ es]
        rfl
      · push Not at hr
        obtain ⟨s, rfl⟩ := hr
        rw [spliced_repeater, hes]
        rfl

def ownIds (e : Element) : List LayerId :=
  (e.nodes.filter fun x => !x.isRepeater).map Element.id

def leadId (e : Element) : LayerId := e.parts.head?.bind Element.id

def leadIds (e : Element) : List LayerId := (e.nodes.filter isRepeater).map leadId

theorem ownIds_eq (e : Element) :
    e.ownIds = (if e.isRepeater then [] else [e.id]) ++ e.parts.flatMap ownIds := by
  rw [ownIds, nodes_eq, List.filter_cons, List.filter_flatMap]
  cases h : e.isRepeater with
  | true => simp [List.map_flatMap]; rfl
  | false => simp [List.map_flatMap]; rfl

theorem leadIds_eq (e : Element) :
    e.leadIds = (if e.isRepeater then [e.leadId] else []) ++ e.parts.flatMap leadIds := by
  rw [leadIds, nodes_eq, List.filter_cons, List.filter_flatMap]
  cases h : e.isRepeater with
  | true => simp [List.map_flatMap]; rfl
  | false => simp [List.map_flatMap]; rfl

/-- The repeaters in a tree have different first children, and these are no repeaters. A tree that
is no repeater is not itself such a child. -/
theorem leadIds_sublist {e : Element}
    (h : ∀ x ∈ e.nodes, x.isRepeater = true →
      ∃ first rest, x.parts = first :: rest ∧ first.isRepeater = false) :
    ((if e.isRepeater then [] else [e.id]) ++ e.leadIds).Sublist e.ownIds := by
  -- the id in front makes room for the one that a repeater above takes from its first child
  induction e with
  | leaf i c => exact List.Sublist.refl _
  | foreign i v => exact List.Sublist.refl _
  | branch i r l es ih =>
      have hbelow : ∀ e ∈ es, ((if e.isRepeater then [] else [e.id]) ++ e.leadIds).Sublist
          e.ownIds := by
        intro e he
        exact ih e he fun x hx => h x (nodes_subset_of_child he hx)
      have hleads : ∀ es' ⊆ es, (es'.flatMap leadIds).Sublist (es'.flatMap ownIds) := by
        intro es' hsub
        induction es' with
        | nil => exact List.Sublist.refl _
        | cons e es' ihl =>
            obtain ⟨he, hes⟩ := List.cons_subset.mp hsub
            exact ((List.sublist_append_right _ _).trans (hbelow e he)).append (ihl hes)
      rw [ownIds_eq, leadIds_eq]
      cases hr : (branch i r l es).isRepeater with
      | false => exact (hleads es (List.Subset.refl es)).append_left _
      | true =>
          obtain ⟨first, rest, hparts, hfirst⟩ := h _ (mem_nodes_self _) hr
          obtain rfl : es = first :: rest := hparts
          have hlead := hbelow first List.mem_cons_self
          rw [hfirst] at hlead
          exact hlead.append (hleads rest (List.subset_cons_self first rest))

/-- Ids are distinct in a tree whose repeaters are named for their first children, if they are
distinct without the repeaters and none could be the name of one. -/
theorem nodup_ids {e : Element} (name : LayerId → LayerId)
    (hname : ∀ a b, name a = name b → a.shown = b.shown)
    (h : ∀ x ∈ e.nodes, x.isRepeater = true →
      ∃ first rest, x.parts = first :: rest ∧ first.isRepeater = false ∧ x.id = name first.id)
    (hown : (e.ownIds.map LayerId.shown).Nodup) (hfree : ∀ a ∈ e.ownIds, ∀ b, a ≠ name b) :
    (e.nodes.map Element.id).Nodup := by
  have hleads : e.leadIds.Sublist e.ownIds := by
    refine (List.sublist_append_right _ _).trans (leadIds_sublist fun x hx hr => ?_)
    obtain ⟨first, rest, hparts, hfirst, -⟩ := h x hx hr
    exact ⟨first, rest, hparts, hfirst⟩
  have hids : (e.nodes.filter isRepeater).map Element.id = e.leadIds.map name := by
    rw [leadIds, List.map_map]
    refine List.map_congr_left fun x hx => ?_
    obtain ⟨hx, hr⟩ := List.mem_filter.mp hx
    obtain ⟨first, rest, hparts, -, hid⟩ := h x hx hr
    rw [hid, Function.comp_apply, leadId, hparts]
    rfl
  have hperm : (e.nodes.map Element.id).Perm (e.leadIds.map name ++ e.ownIds) := by
    rw [← hids, ownIds, ← List.map_append]
    exact ((List.filter_append_perm isRepeater e.nodes).map Element.id).symm
  refine hperm.nodup_iff.mpr (List.Nodup.append ?_ hown.of_map ?_)
  · have hnodup : (e.leadIds.map LayerId.shown).Nodup := hown.sublist (hleads.map _)
    exact hnodup.of_map.map_on fun a ha b hb hab =>
      List.inj_on_of_nodup_map hnodup ha hb (hname a b hab)
  · intro a ha ho
    obtain ⟨b, -, rfl⟩ := List.mem_map.mp ha
    exact hfree _ ho b rfl

end Mockup.Element
