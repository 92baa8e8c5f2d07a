import Mockup.Proofs.Agreement
import Mockup.Proofs.Pattern.Grouping
import Mockup.Proofs.Pattern.Outermost

namespace Mockup

namespace Element

variable {a b e : Element}

theorem shape_eq (e : Element) : e.shape = .node e.variant (e.parts.map shape) := by
  cases e with
  | leaf i c => rfl
  | foreign i v => rfl
  | branch i r l es => exact shape_branch i r l es

/-- Nothing is below the children of an element, and it has none unless it is a group. -/
structure IsShallow (e : Element) : Prop where
  childless : e.isGroup = false → e.parts = []
  grandchildless : ∀ c ∈ e.parts, c.parts = []

theorem IsShallow.shape_eq (h : e.IsShallow) :
    e.shape = .node e.variant ((e.parts.map variant).map fun v => .node v []) := by
  rw [Element.shape_eq, List.map_map]
  refine congrArg _ (List.map_congr_left fun c hc => ?_)
  rw [Element.shape_eq, h.grandchildless c hc]
  rfl

theorem parts_sublist_nodes (e : Element) : e.parts.Sublist e.nodes := by
  have hself (es : List Element) : es.Sublist (es.flatMap nodes) := by
    induction es with
    | nil => exact .slnil
    | cons e es ih =>
        rw [List.flatMap_cons, nodes_eq, List.cons_append]
        exact (ih.trans (List.sublist_append_right _ _)).cons_cons e
  rw [nodes_eq]
  exact (hself e.parts).cons e

end Element

namespace Repetition

open Element

variable {a b e : Element}

theorem fingerprint_eq_iff (ha : ∀ x ∈ a.nodes, x.isForeign = false)
    (hb : ∀ x ∈ b.nodes, x.isForeign = false) :
    fingerprint a = fingerprint b ↔ a.shape = b.shape := by
  rw [fingerprint_eq_ok ha, fingerprint_eq_ok hb, Except.ok.injEq, String.ofList_inj,
    shapeText_eq_iff ha hb]

theorem map_shape_eq_iff {es fs : List Element}
    (hes : ∀ e ∈ es, ∀ x ∈ e.nodes, x.isForeign = false)
    (hfs : ∀ f ∈ fs, ∀ x ∈ f.nodes, x.isForeign = false) :
    es.map shape = fs.map shape ↔
      List.Forall₂ (fun e f => fingerprint e = fingerprint f) es fs := by
  induction es generalizing fs with
  | nil => cases fs <;> simp
  | cons e es ih =>
      cases fs with
      | nil => simp
      | cons f fs =>
          obtain ⟨he, hes⟩ := List.forall_mem_cons.mp hes
          obtain ⟨hf, hfs⟩ := List.forall_mem_cons.mp hfs
          rw [List.map_cons, List.map_cons, List.cons.injEq, List.forall₂_cons, ih hes hfs,
            fingerprint_eq_iff he hf]

theorem isForeign_of_mem_parts (h : ∀ x ∈ e.nodes, x.isForeign = false) :
    ∀ c ∈ e.parts, ∀ x ∈ c.nodes, x.isForeign = false :=
  fun _ hc => isForeign_of_mem_nodes h (e.parts_sublist_nodes.subset hc)

/-- Elements of one variant have one fingerprint if their children have, one by one. -/
theorem fingerprint_eq_iff_forall₂ (ha : ∀ x ∈ a.nodes, x.isForeign = false)
    (hb : ∀ x ∈ b.nodes, x.isForeign = false) (h : a.variant = b.variant) :
    fingerprint a = fingerprint b ↔
      List.Forall₂ (fun c d => fingerprint c = fingerprint d) a.parts b.parts := by
  rw [fingerprint_eq_iff ha hb, shape_eq a, shape_eq b, h, Tree.node.injEq,
    map_shape_eq_iff (isForeign_of_mem_parts ha) (isForeign_of_mem_parts hb)]
  exact and_iff_right rfl

theorem isGroupVariant_variant (h : e.isForeign = false) :
    isGroupVariant e.variant = e.isGroup := by
  cases e with
  | leaf i c => cases c <;> rfl
  | foreign i v => cases h
  | branch i r l es => cases r <;> rfl

theorem isCandidate_iff (h : e.isForeign = false) :
    isCandidate e = true ↔
      e.variant = "Button" ∨ isGroupVariant e.variant = true ∧ e.parts ≠ [] := by
  cases e with
  | foreign i v => cases h
  | leaf i c => cases c <;> simp [isCandidate, variant, Leaf.variant, parts]
  | branch i r l es =>
      cases r <;> simp [isCandidate, variant, Branch.variant, Branch.isGroup, isGroupVariant, parts]

theorem isCandidate_of_shape_eq (ha : a.isForeign = false) (hb : b.isForeign = false)
    (h : a.shape = b.shape) (hcandidate : isCandidate b = true) : isCandidate a = true := by
  rw [shape_eq a, shape_eq b, Tree.node.injEq] at h
  obtain ⟨hvariant, hparts⟩ := h
  rw [isCandidate_iff hb] at hcandidate
  rw [isCandidate_iff ha, hvariant]
  refine hcandidate.imp_right fun ⟨hgroup, hne⟩ => ⟨hgroup, fun hnil => hne ?_⟩
  rw [hnil] at hparts
  exact List.map_eq_nil_iff.mp hparts.symm

/-- Two or more candidates of one shape are instances of one repetition, in their order. -/
theorem exists_repetition (hclosed : ∀ x ∈ e.nodes, x.isForeign = false) (ha : a ∈ e.nodes)
    (hcandidate : isCandidate a = true) {cs : List Element} (hcs : cs.Sublist e.nodes)
    (hshape : ∀ c ∈ cs, c.shape = a.shape) (hseveral : 2 ≤ cs.length) :
    ∃ found, detect e = .ok found ∧ ∃ r ∈ found, (cs.map Element.id).Sublist r.instanceIds := by
  obtain ⟨found, hfound, hids⟩ := detect_eq_ok hclosed
  refine ⟨found, hfound, ?_⟩
  have hmember : a ∈ candidates e := List.mem_filter.mpr ⟨ha, hcandidate⟩
  have hcandidates : ∀ c ∈ cs, isCandidate c = true := fun c hc => isCandidate_of_shape_eq
    (hclosed c (hcs.subset hc)) (hclosed a ha) (hshape c hc) hcandidate
  -- both filters keep all of them
  have hsublist : cs.Sublist ((candidates e).filter fun x => x.shape = a.shape) := by
    have h := (hcs.filter fun x => isCandidate x).filter fun x => x.shape = a.shape
    rwa [List.filter_eq_self.mpr hcandidates,
      List.filter_eq_self.mpr fun c hc => decide_eq_true (hshape c hc)] at h
  have hclass : (candidates e).filter (fun x => x.shape = a.shape) ∈
      (classes (candidates e)).filter fun es => 2 ≤ es.length :=
    List.mem_filter.mpr ⟨mem_classes_iff.mpr ⟨a, hmember, rfl⟩,
      decide_eq_true (hseveral.trans hsublist.length_le)⟩
  have hinstances := List.mem_map_of_mem (f := (·.map Element.id)) hclass
  rw [← hids] at hinstances
  obtain ⟨r, hr, heq⟩ := List.mem_map.mp hinstances
  exact ⟨r, hr, heq ▸ hsublist.map Element.id⟩

end Repetition

namespace Listing

open Element

variable {e : Element} {found : List Listing}

theorem Reports.itemIds {l : Listing} (h : Reports e l) : l.itemIds = e.parts.map Element.id := by
  cases e with
  | leaf i c => exact absurd h id
  | foreign i v => exact absurd h id
  | branch i r layout es => exact h.2.1

theorem exists_of_mem_detect (hclosed : ∀ x ∈ e.nodes, x.isForeign = false)
    (h : detect e = .ok found) {l : Listing} (hl : l ∈ found) :
    ∃ x ∈ e.nodes, IsUniform x ∧ Reports x l := by
  obtain ⟨x, hx, huniform, hreports⟩ := (selects_detect hclosed h).exists_of_mem hl
  obtain ⟨p, hp, -, rfl⟩ := mem_reached_iff.mp hx
  exact ⟨p.2, map_snd_places e ▸ List.mem_map_of_mem hp, huniform, hreports⟩

/-- Elements with one outline: of one variant and, if they are groups, with children of the same
variants in order. They have one fingerprint if and only if their children have, one by one, and so
they have if nothing is below these and elements that are no groups have none. -/
structure SharesOutline (first c : Element) : Prop where
  variant : c.variant = first.variant
  parts : first.isGroup = true → c.parts.map Element.variant = first.parts.map Element.variant
  fingerprint_iff : Repetition.fingerprint c = Repetition.fingerprint first ↔
    List.Forall₂ (fun a b => Repetition.fingerprint a = Repetition.fingerprint b)
      c.parts first.parts
  fingerprint : first.IsShallow → c.IsShallow →
    Repetition.fingerprint c = Repetition.fingerprint first

theorem Resembles.sharesOutline {first c : Element} (h : Resembles first c)
    (hfirst : ∀ x ∈ first.nodes, x.isForeign = false) (hc : ∀ x ∈ c.nodes, x.isForeign = false) :
    SharesOutline first c where
  variant := h.variant
  parts := h.parts
  fingerprint_iff := Repetition.fingerprint_eq_iff_forall₂ hc hfirst h.variant
  fingerprint hshallow hshallow' := by
    rw [Repetition.fingerprint_eq_iff hc hfirst, hshallow.shape_eq, hshallow'.shape_eq, h.variant]
    -- the children of other elements are not compared, but here there are none
    by_cases hgroup : first.isGroup = true
    · rw [h.parts hgroup]
    · have hleaf : first.isGroup = false := by simpa using hgroup
      have hleaf' : c.isGroup = false := by
        rw [← Repetition.isGroupVariant_variant (hc c (mem_nodes_self c)), h.variant,
          Repetition.isGroupVariant_variant (hfirst first (mem_nodes_self first)), hleaf]
      rw [hshallow.childless hleaf, hshallow'.childless hleaf']

/-- The items of a list that is found share the outline of the first one, and all those of its
fingerprint are instances of one repetition. -/
theorem items_share_outline (hclosed : ∀ x ∈ e.nodes, x.isForeign = false)
    (h : detect e = .ok found) : ∀ l ∈ found, ∃ x ∈ e.nodes, Reports x l ∧
      ∃ first rest, x.parts = first :: rest ∧
        (∀ c ∈ x.parts, SharesOutline first c) ∧
        (Repetition.isCandidate first = true → ∀ cs : List Element, cs.Sublist x.parts →
          2 ≤ cs.length →
          (∀ c ∈ cs, Repetition.fingerprint c = Repetition.fingerprint first) →
          ∃ repetitions, Repetition.detect e = .ok repetitions ∧
            ∃ r ∈ repetitions, (cs.map Element.id).Sublist r.instanceIds) := by
  intro l hl
  obtain ⟨x, hx, huniform, hreports⟩ := exists_of_mem_detect hclosed h hl
  refine ⟨x, hx, hreports, ?_⟩
  have hseveral := huniform.several
  have halike := huniform.alike
  have hparts := Repetition.isForeign_of_mem_parts (Repetition.isForeign_of_mem_nodes hclosed hx)
  have hsublist : x.parts.Sublist e.nodes := x.parts_sublist_nodes.trans (nodes_sublist hx)
  cases hx' : x.parts with
  | nil => simp [hx'] at hseveral
  | cons first rest =>
      rw [hx'] at halike hparts hsublist
      have hfirst := hparts first List.mem_cons_self
      refine ⟨first, rest, rfl,
        fun c hc => (halike first rfl c hc).sharesOutline hfirst (hparts c hc),
        fun hcandidate cs hcs htwo hsame => ?_⟩
      have hmember := hsublist.subset List.mem_cons_self
      exact Repetition.exists_repetition hclosed hmember hcandidate (hcs.trans hsublist)
        (fun c hc => (Repetition.fingerprint_eq_iff (hparts c (hcs.subset hc)) hfirst).mp
          (hsame c hc)) htwo

def nestedRows : Element :=
  let box : Box := ⟨some 0, some 0, some 40, some 20⟩
  let group (id : String) (es : List Element) : Element :=
    .branch { id := some id, box } .container {} es
  let text (id : String) : Element := .leaf { id := some id, box } (.text {})
  group "1" [group "2" [group "3" [text "4"]], group "5" [group "6" [text "7"]],
    group "8" [group "9" []]]

theorem items_share_outline_nestedRows : ∃ found, detect nestedRows = .ok found ∧
    found.map Listing.itemIds = [[some "2", some "5", some "8"]] ∧
    ∃ repetitions, Repetition.detect nestedRows = .ok repetitions ∧
      ∃ r ∈ repetitions, [some "2", some "5"].Sublist r.instanceIds := by
  have hclosed : ∀ x ∈ nestedRows.nodes, x.isForeign = false := by decide
  have hrun : (detect nestedRows).map (fun found => found.map Listing.itemIds) =
      .ok [[some "2", some "5", some "8"]] := by decide +kernel
  have hpair : ∀ x ∈ nestedRows.nodes, x.parts.map Element.id = [some "2", some "5", some "8"] →
      (x.parts.take 2).map Element.id = [some "2", some "5"] ∧
      ∀ first ∈ x.parts.head?, Repetition.isCandidate first = true ∧
        ∀ c ∈ x.parts.take 2, Repetition.fingerprint c = Repetition.fingerprint first := by
    decide
  obtain ⟨found, hfound, hitems⟩ := Result.map_eq_ok_iff.mp hrun
  refine ⟨found, hfound, hitems, ?_⟩
  obtain ⟨l, hl, hids⟩ := List.mem_map.mp (hitems ▸ List.mem_singleton_self _)
  obtain ⟨x, hx, hreports, first, rest, hparts, -, hrepeated⟩ :=
    items_share_outline hclosed hfound l hl
  obtain ⟨htake, hfirst⟩ := hpair x hx (hreports.itemIds.symm.trans hids)
  obtain ⟨hcandidate, hsame⟩ := hfirst first (by rw [hparts]; rfl)
  rw [← htake]
  have hlength := congrArg List.length htake
  rw [List.length_map] at hlength
  exact hrepeated hcandidate (x.parts.take 2) (List.take_sublist 2 x.parts) hlength.ge hsame

/-- The rows are one list, but the last one has a fingerprint of its own and is in no repetition
with the others. -/
theorem not_alike_nestedRows :
    (∀ x ∈ nestedRows.nodes, x.isForeign = false) ∧
    (∃ found, detect nestedRows = .ok found ∧ ∃ l ∈ found,
      l.itemIds = nestedRows.parts.map Element.id) ∧
    ¬(∀ c ∈ nestedRows.parts, ∀ first ∈ nestedRows.parts.head?,
      Repetition.fingerprint c = Repetition.fingerprint first) ∧
    (∀ c ∈ nestedRows.parts, c.isGroup = true ∧ c.parts ≠ []) ∧
    ∃ repetitions, Repetition.detect nestedRows = .ok repetitions ∧
      ∀ r ∈ repetitions, some "8" ∉ r.instanceIds := by
  have hrun : (detect nestedRows).map (fun found => found.map Listing.itemIds) =
      .ok [nestedRows.parts.map Element.id] := by decide +kernel
  have hrepeated : (Repetition.detect nestedRows).map
      (fun found => found.map Repetition.instanceIds) =
      .ok [[some "2", some "5"], [some "3", some "6"]] := by decide
  obtain ⟨found, hfound, hitems⟩ := Result.map_eq_ok_iff.mp hrun
  obtain ⟨repetitions, hrepetitions, hids⟩ := Result.map_eq_ok_iff.mp hrepeated
  refine ⟨by decide, ⟨found, hfound, ?_⟩, by decide, by decide,
    repetitions, hrepetitions, fun r hr => ?_⟩
  · exact List.mem_map.mp (hitems ▸ List.mem_singleton_self _)
  · have hmember := List.mem_map_of_mem (f := Repetition.instanceIds) hr
    rw [hids] at hmember
    rcases List.mem_pair.mp hmember with heq | heq <;> rw [heq] <;> decide

end Listing

end Mockup
