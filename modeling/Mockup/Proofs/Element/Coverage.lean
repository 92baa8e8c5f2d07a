import Mockup.Proofs.Element.Splicing
import Mockup.Proofs.Element.Totality

namespace Mockup

namespace Recognition

def isLeafLayer (t : Tree Placed) : Bool :=
  match Role.of t.item t.children with
  | .ok role => role.isLeaf
  | .error _ => false

def isVisible (o : Occurrence Placed) : Bool := o.around.all fun t => !isLeafLayer t

def visible (t : Tree Placed) : List (Tree Placed) :=
  (t.occurrences.filter isVisible).map Occurrence.tree

/-- Siblings of one kind, with as many children, that share a long enough name or a component. -/
structure LookAlike (a b : Tree Placed) : Prop where
  kind : a.item.kind = b.item.kind
  children : a.children.length = b.children.length
  shared : (2 < (baseName a.item).length ∧ baseName a.item = baseName b.item) ∨
    ∃ c, c ≠ "" ∧ a.item.componentId = some c ∧ b.item.componentId = some c

/-- A repeater under the element of a group: its items depict a run of like children of the layer
of that group, which ends where the next child is not like the first one. -/
structure StandsForRun (t : Tree Placed) (x y : Element) (items : List Element) : Prop where
  group : x.isGroup = true
  count : 2 ≤ items.length
  plain : ∀ z ∈ items, z.isRepeater = false
  run : ∃ layer ∈ t.subtrees, Depicts layer x ∧ ∃ before first rest after,
    layer.children = before ++ first :: rest ++ after ∧ List.Forall₂ Depicts (first :: rest) items ∧
    (∀ a ∈ rest, LookAlike first a) ∧ (∀ a, after.head? = some a → ¬LookAlike first a) ∧
    y.id = some ("repeater_" ++ first.item.id.shown)

theorem alike_eq_true_iff {a b : Tree Placed} : alike a b = true ↔ LookAlike a b := by
  have hcomponent : (!(a.item.componentId.getD "").isEmpty &&
      a.item.componentId == b.item.componentId) = true ↔
      ∃ c, c ≠ "" ∧ a.item.componentId = some c ∧ b.item.componentId = some c := by
    cases a.item.componentId with
    | none => simp
    | some c =>
        simp only [Option.getD_some, Bool.and_eq_true, Bool.not_eq_true', beq_iff_eq]
        constructor
        · rintro ⟨hc, hb⟩
          exact ⟨c, fun h => by simp [h] at hc, rfl, hb.symm⟩
        · rintro ⟨d, hd, hc, hb⟩
          cases hc
          exact ⟨by simpa using hd, hb.symm⟩
  rw [alike, Bool.and_eq_true, Bool.and_eq_true, Bool.or_eq_true, hcomponent, Bool.and_eq_true,
    decide_eq_true_iff, beq_iff_eq, beq_iff_eq, beq_iff_eq]
  exact ⟨fun ⟨⟨hshared, hkind⟩, hlength⟩ => ⟨hkind, hlength, hshared⟩,
    fun h => ⟨⟨h.shared, h.kind⟩, h.children⟩⟩

theorem isLeafLayer_node {p : Placed} {ts : List (Tree Placed)} {role : Role}
    (h : Role.of p ts = .ok role) : isLeafLayer (.node p ts) = role.isLeaf := by
  rw [isLeafLayer, Tree.item_node, Tree.children_node, h]

theorem isVisible_cons {t u : Tree Placed} {around : List (Tree Placed)}
    (h : isVisible ⟨t, around⟩ = true) (ht : isLeafLayer t = false) :
    isVisible ⟨u, t :: around⟩ = true := by
  rw [isVisible, List.all_cons, ht]
  exact h

theorem filter_isVisible_leaf {p : Placed} {ts : List (Tree Placed)} {around : List (Tree Placed)}
    (hleaf : isLeafLayer (.node p ts) = true)
    (haround : isVisible ⟨.node p ts, around⟩ = true) :
    ((Tree.node p ts).occurrencesIn around).filter isVisible = [⟨.node p ts, around⟩] := by
  rw [Tree.occurrencesIn_node, List.filter_cons_of_pos haround]
  congr 1
  refine List.filter_eq_nil_iff.mpr fun o ho hvis => ?_
  obtain ⟨t, -, ho⟩ := List.mem_flatMap.mp ho
  have hmem := (Tree.mem_of_mem_occurrencesIn ho).2 List.mem_cons_self
  have h := List.all_eq_true.mp hvis _ hmem
  rw [hleaf] at h
  cases h

/-- Without its repeaters an element depicts the visible layers of a tree, one by one. -/
def Covers (t : Tree Placed) (e : Element) : Prop :=
  ∀ around, isVisible ⟨t, around⟩ = true → ∃ x, e.spliced = [x] ∧
    List.Forall₂ Depicts (((t.occurrencesIn around).filter isVisible).map Occurrence.tree) x.nodes

theorem Covers.of_unlinked_eq {t : Tree Placed} {e e' : Element} (h : Covers t e)
    (he : e'.unlinked = e.unlinked) : Covers t e' := by
  intro around haround
  obtain ⟨x, hx, hall⟩ := h around haround
  have hmap := Element.spliced_of_relabel_eq he
  rw [hx, List.map_singleton] at hmap
  obtain ⟨x', hx', hunlinked⟩ := List.map_eq_singleton_iff.mp hmap
  exact ⟨x', hx', forall₂_of_unlinked_eq (fun t e e' he h => h.of_unlinked_eq he) hall
    (Element.nodes_of_relabel_eq hunlinked)⟩

theorem Covers.forall₂ {ts : List (Tree Placed)} {es : List Element}
    (h : List.Forall₂ (fun t e => Depicts t e ∧ Covers t e) ts es) {around : List (Tree Placed)}
    (haround : ∀ t, isVisible ⟨t, around⟩ = true) :
    List.Forall₂ Depicts
      (((ts.flatMap (Tree.occurrencesIn around)).filter isVisible).map Occurrence.tree)
      ((es.flatMap Element.spliced).flatMap Element.nodes) := by
  rw [List.filter_flatMap, List.map_flatMap, List.flatMap_assoc]
  refine List.rel_flatMap h fun t e ⟨_, hcovers⟩ => ?_
  obtain ⟨x, hx, hall⟩ := hcovers around (haround t)
  rw [hx, List.flatMap_singleton]
  exact hall

/-- A branch covers its layer if its children, but for repeaters, do. -/
theorem covers_branch {p : Placed} {ts : List (Tree Placed)} {role : Role} {i : Identity}
    {r : Branch} {l : Layout} {es es' : List Element} (hrole : Role.of p ts = .ok role)
    (hleaf : role.isLeaf = false) (hdepicts : Depicts (.node p ts) (.branch i r l es'))
    (hall : List.Forall₂ (fun t e => Depicts t e ∧ Covers t e) ts es)
    (hes : es'.flatMap Element.spliced = es.flatMap Element.spliced) :
    Covers (.node p ts) (.branch i r l es') := by
  intro around haround
  have hr := Element.isRepeater_branch_eq_false_iff.mp hdepicts.isRepeater_eq_false
  have hbelow : ∀ t, isVisible ⟨t, .node p ts :: around⟩ = true :=
    fun t => isVisible_cons haround ((isLeafLayer_node hrole).trans hleaf)
  refine ⟨_, Element.spliced_branch hr i l es', ?_⟩
  rw [Tree.occurrencesIn_node, List.filter_cons_of_pos haround, List.map_cons,
    Element.nodes_branch, hes]
  exact .cons ⟨hdepicts.id, hdepicts.role⟩ (Covers.forall₂ hall hbelow)

theorem recognize_covers {n : Naming} {t : Tree Placed} {e : Element}
    (h : recognize n t = .ok e) : Covers t e := by
  refine recognize_induct ?_ ?_ ?_ ?_ h
  · intro p ts role i c hrole hi hleaf hmade around haround
    refine ⟨_, Element.spliced_leaf i c, ?_⟩
    rw [filter_isVisible_leaf ((isLeafLayer_node hrole).trans hleaf) haround, List.map_singleton,
      Element.nodes_leaf]
    exact .cons (depicts_of_made hrole hi hmade) .nil
  · intro p ts i c es hrole hi hall
    exact covers_branch hrole rfl ⟨id_of_identityOf hi, _, hrole, rfl⟩ hall rfl
  · intro p ts role r i es hrole hi hr hall
    have hleaf : role.isLeaf = false := by cases role <;> cases hr <;> rfl
    refine covers_branch hrole hleaf (depicts_group hrole hi hr _ _) hall ?_
    exact flatMap_foldRuns n _ (fun p es => Element.spliced_repeater _ _ _ es) hall.length_eq
  · exact fun t e e' he h => h.of_unlinked_eq he

theorem StandsForRun.of_unlinked_eq {t : Tree Placed} {x x' y y' : Element}
    {items items' : List Element} (h : StandsForRun t x y items) (hx : x'.unlinked = x.unlinked)
    (hy : y'.unlinked = y.unlinked)
    (hitems : items'.map Element.unlinked = items.map Element.unlinked) :
    StandsForRun t x' y' items' where
  group := (Element.isGroup_of_relabel_eq hx).trans h.group
  count := by
    have hlength := congrArg List.length hitems
    rw [List.length_map, List.length_map] at hlength
    exact hlength ▸ h.count
  plain := by
    intro z' hz'
    obtain ⟨z, hz, heq⟩ := List.mem_map.mp (hitems ▸ List.mem_map_of_mem hz')
    exact (Element.isRepeater_of_relabel_eq heq.symm).trans (h.plain z hz)
  run := by
    obtain ⟨layer, hlayer, hdepicts, before, first, rest, after, hsplit, hall, h⟩ := h.run
    rw [← Element.id_of_unlinked_eq hy] at h
    exact ⟨layer, hlayer, hdepicts.of_unlinked_eq hx, before, first, rest, after, hsplit,
      forall₂_of_unlinked_eq (fun t e e' he h => h.of_unlinked_eq he) hall hitems, h⟩

theorem StandsForRun.mono {t u : Tree Placed} {x y : Element} {items : List Element}
    (h : StandsForRun t x y items) (ht : t ∈ u.subtrees) : StandsForRun u x y items where
  group := h.group
  count := h.count
  plain := h.plain
  run := by
    obtain ⟨layer, hlayer, h⟩ := h.run
    exact ⟨layer, Tree.subtrees_subset ht hlayer, h⟩

/-- Every repeater in a tree is a child that stands for a run. -/
def Repeats (t : Tree Placed) (e : Element) : Prop :=
  ∀ x ∈ e.nodes, ∀ y ∈ x.parts, y.isRepeater = true → StandsForRun t x y y.parts

/-- A child of a group is a repeater only if it stands for a run. -/
theorem standsForRun_of_mem_foldRuns {n : Naming} {p : Placed} {ts : List (Tree Placed)}
    {es : List Element} (h : List.Forall₂ Depicts ts es) {x y : Element} (hx : x.isGroup = true)
    (hdepicts : Depicts (.node p ts) x) (hy : y ∈ foldRuns n ts es)
    (hrepeater : y.isRepeater = true) : StandsForRun (.node p ts) x y y.parts := by
  rcases mem_foldRuns h hy with he | ⟨before, first, run, after, items, hsplit, hrun, halike, hstop,
    hitems, -, rfl⟩
  · rw [isRepeater_of_forall₂ h he] at hrepeater
    cases hrepeater
  · refine ⟨hx, ?_, ?_, .node p ts, Tree.mem_subtrees_self _, hdepicts, before, first, run, after,
      hsplit, hitems, ?_, ?_, rfl⟩
    · have hlength := hitems.length_eq
      have hpos := List.length_pos_iff.mpr hrun
      rw [List.length_cons] at hlength
      change 2 ≤ items.length
      omega
    · exact fun z hz => isRepeater_of_forall₂ hitems hz
    · exact fun a ha => alike_eq_true_iff.mp (halike a ha)
    · intro a ha hlike
      rw [← alike_eq_true_iff, hstop a ha] at hlike
      cases hlike

theorem recognize_repeats {n : Naming} {t : Tree Placed} {e : Element}
    (h : recognize n t = .ok e) : Repeats t e := by
  refine forall_nodes_of_recognize (P := fun t x => ∀ y ∈ x.parts, y.isRepeater = true →
    StandsForRun t x y y.parts) ?_ ?_ ?_ ?_ ?_ ?_ h
  · exact fun p ts role i c hrole hi hmade y hy => absurd hy List.not_mem_nil
  · intro p ts i c es hi hall y hy hrepeater
    rw [isRepeater_of_forall₂ hall hy] at hrepeater
    cases hrepeater
  · intro p ts role r i es hrole hi hr hall y hy hrepeater
    have hgroup : r.isGroup = true := by cases role <;> cases hr <;> rfl
    exact standsForRun_of_mem_foldRuns hall hgroup (depicts_group hrole hi hr _ _) hy hrepeater
  · intro t p item items hp hplain _ y hy hrepeater
    rw [hplain y hy] at hrepeater
    cases hrepeater
  · exact fun t u x ht h y hy hrepeater => (h y hy hrepeater).mono ht
  · intro t x x' hx h y' hy' hrepeater
    obtain ⟨y, hy, hyy⟩ :=
      List.mem_map.mp (Element.parts_of_relabel_eq hx ▸ List.mem_map_of_mem hy')
    have hrepeater' := (Element.isRepeater_of_relabel_eq hyy).trans hrepeater
    exact (h y hy hrepeater').of_unlinked_eq hx hyy.symm (Element.parts_of_relabel_eq hyy.symm)

theorem visible_sublist (t : Tree Placed) : (visible t).Sublist t.subtrees := by
  rw [← Tree.map_tree_occurrencesIn t []]
  exact List.filter_sublist.map _

theorem map_id_of_forall₂ {ts : List (Tree Placed)} {es : List Element}
    (h : List.Forall₂ Depicts ts es) : es.map Element.id = ts.map fun t => t.item.id := by
  induction h with
  | nil => rfl
  | cons h _ ih => rw [List.map_cons, List.map_cons, h.id, ih]

/-- The elements that are no repeaters have ids of layers, each layer's once. -/
theorem ownIds_sublist {t : Tree Placed} {e : Element} (h : Covers t e) :
    e.ownIds.Sublist (t.preorder.map fun p => p.id) := by
  obtain ⟨x, hx, hall⟩ := h [] rfl
  have hids : e.ownIds = (visible t).map fun u => u.item.id := by
    rw [Element.ownIds, ← Element.map_nodes_spliced (fun _ _ _ _ _ => rfl), hx,
      List.flatMap_singleton, map_id_of_forall₂ hall]
    rfl
  rw [hids, ← Tree.map_item_subtrees, List.map_map]
  exact (visible_sublist t).map _

def repeaterId (id : LayerId) : LayerId := some ("repeater_" ++ id.shown)

theorem toList_repeaterId (id : LayerId) :
    (repeaterId id).shown.toList = "repeater_".toList ++ id.shown.toList := by
  rw [repeaterId, LayerId.shown, Option.getD_some, String.toList_append]

theorem repeater_named {t : Tree Placed} {e : Element} (hroot : e.isRepeater = false)
    (h : Repeats t e) {x : Element} (hx : x ∈ e.nodes) (hrepeater : x.isRepeater = true) :
    ∃ first rest, x.parts = first :: rest ∧ first.isRepeater = false ∧
      x.id = repeaterId first.id := by
  rcases Element.exists_parent_of_mem_nodes hx with rfl | ⟨z, hz, hxz⟩
  · rw [hroot] at hrepeater
    cases hrepeater
  · have hrun := h z hz x hxz hrepeater
    obtain ⟨layer, -, -, before, first, rest, after, -, hitems, -, -, hid⟩ := hrun.run
    obtain ⟨y, ys, hy, -, hparts⟩ := List.forall₂_cons_left_iff.mp hitems
    exact ⟨y, ys, hparts, hrun.plain y (by rw [hparts]; exact List.mem_cons_self),
      by rw [hid, hy.id, repeaterId]⟩

theorem nodup_ids {t : Tree Placed} {e : Element} (hroot : e.isRepeater = false)
    (hcovers : Covers t e) (hrepeats : Repeats t e)
    (hids : (t.preorder.map fun p => p.id.shown).Nodup)
    (hfree : ∀ p ∈ t.preorder, ¬"repeater_".toList <+: p.id.shown.toList) :
    (e.nodes.map Element.id).Nodup := by
  have hown := ownIds_sublist hcovers
  apply Element.nodup_ids repeaterId
  · intro a b hab
    have hlist := congrArg (fun id => (LayerId.shown id).toList) hab
    simp only [toList_repeaterId, List.append_cancel_left_eq] at hlist
    exact String.toList_inj.mp hlist
  · exact fun x hx => repeater_named hroot hrepeats hx
  · have hshown := hown.map LayerId.shown
    rw [List.map_map] at hshown
    exact hids.sublist hshown
  · rintro a ha b rfl
    obtain ⟨p, hp, hpid⟩ := List.mem_map.mp (hown.subset ha)
    apply hfree p hp
    rw [hpid, toList_repeaterId]
    exact List.prefix_append _ _

/-- Complete layers are recognized. Without its repeaters a recognized tree has one element for each
visible layer, in order; each repeater is the child of a group and stands for a run; and ids are
distinct if those of layers are and none looks like that of a repeater. -/
theorem recognize_depicts_layers (n : Naming) (t : Tree Placed) :
    (n.Readable → (∀ p ∈ t.preorder, p.Complete) → ∃ e, recognize n t = .ok e) ∧
    ∀ e, recognize n t = .ok e → ∃ x ys xs, e.spliced = [x] ∧ x.preorder = .ok ys ∧
      List.Forall₂ Depicts (visible t) ys ∧ e.preorder = .ok xs ∧ e.isRepeater = false ∧
      (∀ z ∈ xs, ∀ es, z.children = .ok es → ∀ y ∈ es, y.isRepeater = true →
        ∃ items, y.children = .ok items ∧ StandsForRun t z y items) ∧
      ((t.preorder.map fun p => p.id.shown).Nodup →
        (∀ p ∈ t.preorder, ¬"repeater_".toList <+: p.id.shown.toList) →
        (xs.map Element.id).Nodup) := by
  refine ⟨fun hn => recognize_succeeds hn, fun e h => ?_⟩
  have hclosed := recognize_closed h
  have hroot := (recognize_depicts h).isRepeater_eq_false
  have hcovers := recognize_covers h
  have hrepeats := recognize_repeats h
  obtain ⟨x, hx, hall⟩ := hcovers [] rfl
  have hclosed' : ∀ y ∈ x.nodes, y.isForeign = false := by
    intro y hy
    have hmap := Element.map_nodes_spliced (g := Element.isForeign) (fun _ _ _ _ _ => rfl) e
    rw [hx, List.flatMap_singleton] at hmap
    obtain ⟨z, hz, hzy⟩ := List.mem_map.mp (hmap ▸ List.mem_map_of_mem hy)
    rw [← hzy]
    exact hclosed z (List.mem_filter.mp hz).1
  refine ⟨x, x.nodes, e.nodes, hx, Element.preorder_eq_ok hclosed', hall,
    Element.preorder_eq_ok hclosed, hroot, ?_, nodup_ids hroot hcovers hrepeats⟩
  intro z hz es hes y hy hrepeater
  obtain ⟨-, rfl⟩ := Element.children_eq_ok_iff.mp hes
  refine ⟨y.parts, Element.children_eq_ok_iff.mpr ⟨?_, rfl⟩, hrepeats z hz y hy hrepeater⟩
  cases y with
  | branch i r l es => rfl
  | leaf i c => cases hrepeater
  | foreign i v => cases hrepeater

def likeRows : Tree Placed :=
  let row (id text : String) : Tree Placed :=
    .node { id := some id, name := some "Row 1", kind := some "TEXT", text := some text,
            box := {} } []
  .node { id := some "1", name := some "List", kind := some "FRAME", box := {} }
    [row "2" "Tea", row "3" "Coffee"]

theorem recognize_depicts_layers_likeRows : ∃ e xs, recognize {} likeRows = .ok e ∧
    e.preorder = .ok xs ∧ (xs.map Element.id).Nodup ∧
    xs.map Element.id = [some "1", some "repeater_2", some "2", some "3"] := by
  have hzero : Number.InRange 0 := ⟨.ofInt 0, by decide +kernel⟩
  have hcomplete : ∀ p ∈ likeRows.preorder, p.Complete := by
    intro p hp
    have hp : p.id ≠ none ∧ p.box = {} ∧ p.fills = [] := by
      rcases List.mem_cons.mp hp with rfl | hp
      · exact ⟨Option.some_ne_none _, rfl, rfl⟩
      · rcases List.mem_pair.mp hp with rfl | rfl
        · exact ⟨Option.some_ne_none _, rfl, rfl⟩
        · exact ⟨Option.some_ne_none _, rfl, rfl⟩
    refine ⟨hp.1, fun axis => ⟨0, ?_, hzero⟩, ?_⟩
    · rw [hp.2.1]
      cases axis <;> rfl
    · rw [hp.2.2]
      exact fun f hf => absurd hf List.not_mem_nil
  obtain ⟨hsucceeds, h⟩ := recognize_depicts_layers {} likeRows
  obtain ⟨e, he⟩ := hsucceeds (.inl (by decide)) hcomplete
  obtain ⟨x, ys, xs, -, -, -, hxs, -, -, hnodup⟩ := h e he
  refine ⟨e, xs, he, hxs, hnodup (by decide) (by decide), ?_⟩
  have hids : ((recognize {} likeRows).bind fun e => e.preorder.map fun xs => xs.map Element.id) =
      .ok [some "1", some "repeater_2", some "2", some "3"] := by decide +kernel
  rw [he] at hids
  change e.preorder.map _ = _ at hids
  rw [hxs] at hids
  exact Except.ok.inj hids

end Recognition

end Mockup
