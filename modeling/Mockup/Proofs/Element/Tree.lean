import Mathlib.Data.List.Forall2
import Mathlib.Data.List.Perm.Basic
import Mockup.Element.Properties
import Mockup.Proofs.Result

namespace Mockup

def Leaf.unlinked : Leaf → Leaf
  | .text t => .text { t with propName := none }
  | .image i => .image { i with propName := none }
  | c => c

namespace Element

@[elab_as_elim, induction_eliminator]
theorem induct {motive : Element → Prop} (leaf : ∀ i c, motive (leaf i c))
    (branch : ∀ i r l es, (∀ e ∈ es, motive e) → motive (branch i r l es))
    (foreign : ∀ i v, motive (foreign i v)) : ∀ e, motive e
  | .leaf i c => leaf i c
  | .branch i r l es => branch i r l es fun e _ => induct leaf branch foreign e
  | .foreign i v => foreign i v

def isRepeater : Element → Bool
  | branch _ (.repeater _) _ _ => true
  | _ => false

def isGroup : Element → Bool
  | branch _ r _ _ => r.isGroup
  | _ => false

def isForeign : Element → Bool
  | foreign .. => true
  | _ => false

def parts : Element → List Element
  | branch _ _ _ es => es
  | _ => []

mutual

def nodes : Element → List Element
  | leaf i c => [leaf i c]
  | branch i r l es => branch i r l es :: nodesAll es
  | foreign i v => [foreign i v]

def nodesAll : List Element → List Element
  | [] => []
  | e :: es => nodes e ++ nodesAll es

end

mutual

def relabel (f : Identity → Identity) (g : Leaf → Leaf) : Element → Element
  | leaf i c => leaf (f i) (g c)
  | branch i r l es => branch (f i) r l (relabelAll f g es)
  | foreign i v => foreign (f i) v

def relabelAll (f : Identity → Identity) (g : Leaf → Leaf) : List Element → List Element
  | [] => []
  | e :: es => relabel f g e :: relabelAll f g es

end

def unlinked (e : Element) : Element := e.relabel (fun i => i) Leaf.unlinked

theorem nodesAll_eq (es : List Element) : nodesAll es = es.flatMap nodes := by
  induction es with
  | nil => rfl
  | cons e es ih => rw [nodesAll, ih, List.flatMap_cons]

theorem relabelAll_eq (f : Identity → Identity) (g : Leaf → Leaf) (es : List Element) :
    relabelAll f g es = es.map (relabel f g) := by
  induction es with
  | nil => rfl
  | cons e es ih => rw [relabelAll, ih, List.map_cons]

theorem nodes_leaf (i : Identity) (c : Leaf) : nodes (leaf i c) = [leaf i c] := by
  rw [nodes]

theorem nodes_branch (i : Identity) (r : Branch) (l : Layout) (es : List Element) :
    nodes (branch i r l es) = branch i r l es :: es.flatMap nodes := by
  rw [nodes, nodesAll_eq]

theorem nodes_eq (e : Element) : e.nodes = e :: e.parts.flatMap nodes := by
  cases e with
  | leaf i c => rfl
  | branch i r l es => rw [nodes_branch, parts]
  | foreign i v => rfl

theorem mem_nodes_self (e : Element) : e ∈ e.nodes := by
  rw [nodes_eq]
  exact List.mem_cons_self

theorem nodes_subset_of_child {i : Identity} {r : Branch} {l : Layout} {es : List Element}
    {e : Element} (he : e ∈ es) : e.nodes ⊆ (branch i r l es).nodes := by
  intro x hx
  rw [nodes_branch]
  exact List.mem_cons_of_mem _ (List.mem_flatMap.mpr ⟨e, he, hx⟩)

theorem nodes_sublist {e x : Element} (hx : x ∈ e.nodes) : x.nodes.Sublist e.nodes := by
  induction e with
  | leaf i c => simp_all [nodes_leaf]
  | foreign i v => simp_all [nodes]
  | branch i r l es ih =>
      rw [nodes_branch] at hx
      rcases List.mem_cons.mp hx with rfl | hx
      · rw [nodes_branch]
      · obtain ⟨e, he, hx⟩ := List.mem_flatMap.mp hx
        rw [nodes_branch, List.flatMap_def]
        exact ((ih e he hx).trans (List.sublist_flatten_of_mem (List.mem_map_of_mem he))).cons _

/-- A tree has more nodes than any that is properly in it. -/
theorem length_nodes_lt {e x : Element} (hx : x ∈ e.parts.flatMap nodes) :
    x.nodes.length < e.nodes.length := by
  obtain ⟨part, hpart, hx⟩ := List.mem_flatMap.mp hx
  have hle := (nodes_sublist hx).length_le
  have hle' := (List.sublist_flatten_of_mem (List.mem_map_of_mem (f := nodes) hpart)).length_le
  rw [nodes_eq e, List.length_cons, List.flatMap_def]
  omega

/-- All nodes but the first are children of nodes. -/
theorem exists_parent_of_mem_nodes {e x : Element} (hx : x ∈ e.nodes) :
    x = e ∨ ∃ z ∈ e.nodes, x ∈ z.parts := by
  induction e with
  | leaf i c => exact .inl (List.mem_singleton.mp hx)
  | foreign i v => exact .inl (List.mem_singleton.mp hx)
  | branch i r l es ih =>
      rw [nodes_branch] at hx ⊢
      rcases List.mem_cons.mp hx with rfl | hx
      · exact .inl rfl
      · right
        obtain ⟨e, he, hx⟩ := List.mem_flatMap.mp hx
        rcases ih e he hx with rfl | ⟨z, hz, hxz⟩
        · exact ⟨_, List.mem_cons_self, he⟩
        · exact ⟨z, List.mem_cons_of_mem _ (List.mem_flatMap.mpr ⟨e, he, hz⟩), hxz⟩

theorem children_eq_ok_iff {e : Element} {es : List Element} :
    e.children = .ok es ↔ e.isForeign = false ∧ e.parts = es := by
  cases e <;> simp [children, isForeign, parts]

/-- The walk through a tree of the closed set of variants gives all its nodes. -/
theorem preorder_eq_ok {e : Element} (h : ∀ x ∈ e.nodes, x.isForeign = false) :
    e.preorder = .ok e.nodes := by
  induction e with
  | leaf i c => rw [preorder, nodes_leaf]
  | foreign i v => exact absurd (h _ (mem_nodes_self _)) (by simp [isForeign])
  | branch i r l es ih =>
      have hall : ∀ es' ⊆ es, preorderAll es' = .ok (es'.flatMap nodes) := by
        intro es' hsub
        induction es' with
        | nil => rfl
        | cons e es' ihl =>
            obtain ⟨he, hes⟩ := List.cons_subset.mp hsub
            have hclosed : ∀ x ∈ e.nodes, x.isForeign = false :=
              fun x hx => h x (nodes_subset_of_child he hx)
            rw [preorderAll, ih e he hclosed, ihl hes]
            rfl
      rw [preorder, hall es (List.Subset.refl es), nodes_branch]
      rfl

section Relabel

variable {f : Identity → Identity} {g : Leaf → Leaf} {e e' : Element}

theorem relabel_branch (f : Identity → Identity) (g : Leaf → Leaf) (i : Identity) (r : Branch)
    (l : Layout) (es : List Element) :
    relabel f g (branch i r l es) = branch (f i) r l (es.map (relabel f g)) := by
  rw [relabel, relabelAll_eq]

theorem nodes_relabel (f : Identity → Identity) (g : Leaf → Leaf) (e : Element) :
    (e.relabel f g).nodes = e.nodes.map (relabel f g) := by
  induction e with
  | leaf i c => rfl
  | foreign i v => rfl
  | branch i r l es ih =>
      rw [relabel_branch, nodes_branch, nodes_branch, List.map_cons, relabel_branch,
        List.flatMap_map, List.map_flatMap]
      congr 1
      exact List.flatMap_congr ih

theorem parts_relabel (f : Identity → Identity) (g : Leaf → Leaf) (e : Element) :
    (e.relabel f g).parts = e.parts.map (relabel f g) := by
  cases e with
  | branch i r l es => rw [relabel_branch, parts, parts]
  | leaf i c => rfl
  | foreign i v => rfl

theorem identity_relabel (f : Identity → Identity) (g : Leaf → Leaf) (e : Element) :
    (e.relabel f g).identity = f e.identity := by
  cases e <;> rfl

theorem isRepeater_relabel (f : Identity → Identity) (g : Leaf → Leaf) (e : Element) :
    (e.relabel f g).isRepeater = e.isRepeater := by
  cases e with
  | leaf i c => rfl
  | branch i r l es => cases r <;> rfl
  | foreign i v => rfl

theorem isGroup_relabel (f : Identity → Identity) (g : Leaf → Leaf) (e : Element) :
    (e.relabel f g).isGroup = e.isGroup := by
  cases e <;> rfl

theorem isForeign_relabel (f : Identity → Identity) (g : Leaf → Leaf) (e : Element) :
    (e.relabel f g).isForeign = e.isForeign := by
  cases e <;> rfl

theorem nodes_of_relabel_eq (h : e'.relabel f g = e.relabel f g) :
    e'.nodes.map (relabel f g) = e.nodes.map (relabel f g) := by
  rw [← nodes_relabel, h, nodes_relabel]

theorem exists_mem_nodes_of_relabel_eq (h : e'.relabel f g = e.relabel f g) {x' : Element}
    (hx : x' ∈ e'.nodes) : ∃ x ∈ e.nodes, x'.relabel f g = x.relabel f g := by
  have hmem := List.mem_map_of_mem (f := relabel f g) hx
  rw [nodes_of_relabel_eq h] at hmem
  obtain ⟨x, hx, heq⟩ := List.mem_map.mp hmem
  exact ⟨x, hx, heq.symm⟩

theorem parts_of_relabel_eq (h : e'.relabel f g = e.relabel f g) :
    e'.parts.map (relabel f g) = e.parts.map (relabel f g) := by
  rw [← parts_relabel, h, parts_relabel]

theorem identity_of_relabel_eq (h : e'.relabel f g = e.relabel f g) :
    f e'.identity = f e.identity := by
  rw [← identity_relabel f g e', h, identity_relabel]

theorem isRepeater_of_relabel_eq (h : e'.relabel f g = e.relabel f g) :
    e'.isRepeater = e.isRepeater := by
  rw [← isRepeater_relabel f g e', h, isRepeater_relabel]

theorem isGroup_of_relabel_eq (h : e'.relabel f g = e.relabel f g) : e'.isGroup = e.isGroup := by
  rw [← isGroup_relabel f g e', h, isGroup_relabel]

theorem isForeign_of_relabel_eq (h : e'.relabel f g = e.relabel f g) :
    e'.isForeign = e.isForeign := by
  rw [← isForeign_relabel f g e', h, isForeign_relabel]

end Relabel

theorem id_of_unlinked_eq {e e' : Element} (h : e'.unlinked = e.unlinked) : e'.id = e.id :=
  congrArg Identity.id (identity_of_relabel_eq h)

theorem variant_unlinked (e : Element) : e.unlinked.variant = e.variant := by
  cases e with
  | leaf i c => cases c <;> rfl
  | branch i r l es => rfl
  | foreign i v => rfl

theorem variant_of_unlinked_eq {e e' : Element} (h : e'.unlinked = e.unlinked) :
    e'.variant = e.variant := by
  rw [← variant_unlinked, h, variant_unlinked]

theorem unlinked_linkLeaf (n : Naming) (i : Identity) (t : PropertyTable) (c : Leaf) :
    (linkLeaf n i t c).1.unlinked = c.unlinked := by
  cases c with
  | text c =>
      rw [linkLeaf]
      split <;> rfl
  | image c => rfl
  | icon c => rfl
  | button c => rfl

theorem linkAll_cons_eq_ok {n : Naming} {t t' : PropertyTable} {e : Element}
    {es es' : List Element} (h : linkAll n t (e :: es) = .ok (es', t')) :
    ∃ e' s es'', link n t e = .ok (e', s) ∧ linkAll n s es = .ok (es'', t') ∧ es' = e' :: es'' := by
  rw [linkAll] at h
  obtain ⟨⟨e', s⟩, he, h⟩ := Result.bind_eq_ok_iff.mp h
  obtain ⟨⟨es'', u⟩, hes, h⟩ := Result.bind_eq_ok_iff.mp h
  cases h
  exact ⟨e', s, es'', he, hes, rfl⟩

/-- What linking makes of an element. Repeaters are not entered, and foreign elements fail. -/
inductive Relinked (n : Naming) (t : PropertyTable) : Element → Element → PropertyTable → Prop
  | leaf (i : Identity) (c : Leaf) :
      Relinked n t (leaf i c) (leaf i (linkLeaf n i t c).1) (linkLeaf n i t c).2
  | repeater (i : Identity) (b : RepeaterElement) (l : Layout) (es : List Element) :
      Relinked n t (branch i (.repeater b) l es) (branch i (.repeater b) l es) t
  | branch (i : Identity) {r : Branch} (hr : ∀ b, r ≠ .repeater b) (l : Layout)
      {es es' : List Element} {t' : PropertyTable} (hes : linkAll n t es = .ok (es', t')) :
      Relinked n t (branch i r l es) (branch i r l es') t'

theorem relinked_of_link {n : Naming} {t t' : PropertyTable} {e e' : Element}
    (h : link n t e = .ok (e', t')) : Relinked n t e e' t' := by
  cases e with
  | leaf i c =>
      change Except.ok (leaf i (linkLeaf n i t c).1, (linkLeaf n i t c).2) = .ok (e', t') at h
      obtain ⟨rfl, rfl⟩ := Prod.mk.inj (Except.ok.inj h)
      exact .leaf i c
  | foreign i v =>
      rw [link] at h
      cases h
  | branch i r l es =>
      by_cases hr : ∃ b, r = .repeater b
      · obtain ⟨b, rfl⟩ := hr
        rw [link] at h
        cases h
        exact .repeater i b l es
      · have hr : ∀ b, r ≠ .repeater b := not_exists.mp hr
        rw [link] at h
        · obtain ⟨⟨es', s⟩, hes, h⟩ := Result.bind_eq_ok_iff.mp h
          cases h
          exact .branch i hr l hes
        · exact hr

/-- Linking one by one changes nothing but names if each linking does. -/
theorem map_unlinked_linkAll {n : Naming} {es : List Element}
    (ih : ∀ e ∈ es, ∀ t e' t', link n t e = .ok (e', t') → e'.unlinked = e.unlinked)
    {t t' : PropertyTable} {es' : List Element} (h : linkAll n t es = .ok (es', t')) :
    es'.map unlinked = es.map unlinked := by
  induction es generalizing t es' with
  | nil =>
      cases h
      rfl
  | cons e es ihl =>
      obtain ⟨e', s, es'', he, hes, rfl⟩ := linkAll_cons_eq_ok h
      rw [List.map_cons, List.map_cons, ih e List.mem_cons_self t e' s he,
        ihl (fun e he => ih e (List.mem_cons_of_mem _ he)) hes]

/-- Linking changes nothing but the names of properties. -/
theorem unlinked_link {n : Naming} {e : Element} :
    ∀ t e' t', link n t e = .ok (e', t') → e'.unlinked = e.unlinked := by
  induction e with
  | leaf i c =>
      intro t e' t' h
      cases relinked_of_link h with
      | leaf => rw [unlinked, unlinked, relabel, relabel, unlinked_linkLeaf]
  | foreign i v =>
      intro t e' t' h
      cases relinked_of_link h
  | branch i r l es ih =>
      intro t e' t' h
      cases relinked_of_link h with
      | repeater => rfl
      | branch _ hr _ hes =>
          rw [unlinked, unlinked, relabel_branch, relabel_branch]
          exact congrArg _ (map_unlinked_linkAll ih hes)

theorem map_unlinked_of_linkAll {n : Naming} {t t' : PropertyTable} {es es' : List Element}
    (h : linkAll n t es = .ok (es', t')) : es'.map unlinked = es.map unlinked :=
  map_unlinked_linkAll (fun _ _ => unlinked_link) h

end Element

end Mockup
