import Mockup.Layer.Selection
import Mockup.Proofs.Number.Normal
import Mockup.Proofs.Tree.Occurrence

namespace Mockup

def Layer.isBareGroup (l : Layer) : Bool :=
  l.kind == some "GROUP" && l.fills.isEmpty && l.strokes.isEmpty && l.effects.isEmpty &&
    l.cornerRadius.isNone && l.opacity.all (Number.eq 1)

/-- A block says what its layer says, but for a missing box and a full opacity. -/
structure Layer.Becomes (l : Layer) (b : Block) : Prop where
  traits : b.toTraits = { l.toTraits with opacity := b.opacity }
  opacity : b.opacity = if l.opacity.any (Number.eq 1) then none else l.opacity
  box : b.box = l.box.getD ⟨some 0, some 0, some 0, some 0⟩

def Block.isWrapper (t : Tree Block) : Bool :=
  t.item.isPlainGroup && t.children.length == 1

namespace Selection

def admits (s : Selection) (d : Document) : Bool := (s.omission? d.item).isNone

def keeps (s : Selection) (o : Occurrence Layer) : Bool := (o.tree :: o.around).all s.admits

def isWrapper (s : Selection) (d : Document) : Bool :=
  d.item.isBareGroup && d.children.countP s.admits == 1

def survives (s : Selection) (unwrapGroups : Bool) (o : Occurrence Layer) : Bool :=
  s.keeps o && !(unwrapGroups && s.isWrapper o.tree)

def survivors (s : Selection) (unwrapGroups : Bool) : List Document → List Block
  | [] => []
  | d :: around =>
    if s.survives unwrapGroups ⟨d, around⟩ then d.item.toBlock :: survivors s unwrapGroups around
    else survivors s unwrapGroups around

end Selection

theorem Layer.isPlainGroup_toBlock (l : Layer) : l.toBlock.isPlainGroup = l.isBareGroup := by
  have hk : l.toBlock.isKind ["GROUP"] = (l.kind == some "GROUP") := by
    cases hl : l.kind with
    | none => simp [Traits.isKind, Layer.toBlock, hl]
    | some k => simp [Traits.isKind, Layer.toBlock, hl, beq_eq_decide]
  have ho : (l.toBlock.opacity.any fun o => !o.eq 1) = !l.opacity.all (Number.eq 1) := by
    simp only [Layer.toBlock]
    cases hl : l.opacity with
    | none => simp
    | some o => cases h : Number.eq 1 o <;> simp [h, Number.eq_swap o]
  simp only [Block.isPlainGroup, Block.isDecorated, hk, ho, Layer.isBareGroup]
  simp [Layer.toBlock, Bool.and_assoc]

theorem Layer.becomes_toBlock (l : Layer) : l.Becomes l.toBlock where
  traits := rfl
  opacity := rfl
  box := rfl

namespace Block

theorem unwrapAll_eq (ts : List (Tree Block)) : unwrapAll ts = ts.map unwrap := by
  induction ts with
  | nil => rfl
  | cons t ts ih => rw [unwrapAll, ih, List.map_cons]

theorem unwrap_node (b : Block) (ts : List (Tree Block)) :
    unwrap (.node b ts) = b.wrap (ts.map unwrap) := by
  rw [unwrap, unwrapAll_eq]

theorem wrap_of_isWrapper {b : Block} {ts : List (Tree Block)} (h : isWrapper (.node b ts) = true) :
    ∃ t, ts = [t] ∧ b.wrap ts = t := by
  simp only [isWrapper, Tree.item_node, Tree.children_node, Bool.and_eq_true, beq_iff_eq,
    List.length_eq_one_iff] at h
  obtain ⟨hb, t, rfl⟩ := h
  exact ⟨t, rfl, by simp [wrap, hb]⟩

theorem wrap_of_not_isWrapper {b : Block} {ts : List (Tree Block)}
    (h : isWrapper (.node b ts) = false) : b.wrap ts = .node b ts := by
  match ts with
  | [] => rfl
  | [t] =>
      have hb : b.isPlainGroup = false := by simpa [isWrapper] using h
      simp [wrap, hb]
  | _ :: _ :: _ => rfl

theorem isWrapper_map_unwrap (b : Block) (ts : List (Tree Block)) :
    isWrapper (.node b (ts.map unwrap)) = isWrapper (.node b ts) := by
  simp [isWrapper]

theorem unwrap_eq_self {t : Tree Block} (h : ∀ u ∈ t.subtrees, isWrapper u = false) :
    unwrap t = t := by
  induction t with
  | node b ts ih =>
      have hts : ts.map unwrap = ts := by
        refine (List.map_congr_left fun t ht => ?_).trans (List.map_id ts)
        exact ih t ht fun u hu => h u (Tree.subtrees_subset (Tree.mem_subtrees_child ht) hu)
      rw [unwrap_node, hts]
      exact wrap_of_not_isWrapper (h _ (Tree.mem_subtrees_self _))

theorem not_isWrapper_of_mem_unwrap {t u : Tree Block} (h : u ∈ (unwrap t).subtrees) :
    isWrapper u = false := by
  induction t with
  | node b ts ih =>
      rw [unwrap_node] at h
      cases hw : isWrapper (.node b (ts.map unwrap)) with
      | true =>
          obtain ⟨t, ht, he⟩ := wrap_of_isWrapper hw
          rw [he] at h
          obtain ⟨t', ht', rfl⟩ := List.map_eq_singleton_iff.mp ht
          exact ih t' (by simp [ht']) h
      | false =>
          rw [wrap_of_not_isWrapper hw, Tree.subtrees_node, List.mem_cons] at h
          rcases h with rfl | h
          · exact hw
          · obtain ⟨t', ht', hu⟩ := List.mem_flatMap.mp h
            obtain ⟨t, ht, rfl⟩ := List.mem_map.mp ht'
            exact ih t ht hu

end Block

namespace Selection

variable {s : Selection} {u : Bool}

def finish (u : Bool) (t : Tree Block) : Tree Block := if u then Block.unwrap t else t

theorem keepAll_eq (s : Selection) (ts : List Document) : s.keepAll ts = ts.filterMap s.keep? := by
  induction ts with
  | nil => rfl
  | cons t ts ih =>
      rw [keepAll, List.filterMap_cons]
      cases s.keep? t <;> simp [ih]

theorem keep?_node (s : Selection) (l : Layer) (ts : List Document) :
    s.keep? (.node l ts) =
      if s.admits (.node l ts) then some (.node l.toBlock (ts.filterMap s.keep?)) else none := by
  rw [Selection.keep?, keepAll_eq]
  cases h : s.omission? l <;> simp [admits, h]

theorem isSome_keep? (s : Selection) (d : Document) : (s.keep? d).isSome = s.admits d := by
  cases d with
  | node l ts => rw [keep?_node]; cases s.admits (.node l ts) <;> rfl

theorem length_filterMap_keep? (s : Selection) (ts : List Document) :
    (ts.filterMap s.keep?).length = ts.countP s.admits := by
  rw [List.length_filterMap_eq_countP]
  exact List.countP_congr fun d _ => by rw [isSome_keep?]

theorem isWrapper_kept (s : Selection) (l : Layer) (ts : List Document) :
    Block.isWrapper (.node l.toBlock (ts.filterMap s.keep?)) = s.isWrapper (.node l ts) := by
  simp only [Block.isWrapper, Tree.item_node, Tree.children_node, length_filterMap_keep?,
    Layer.isPlainGroup_toBlock, isWrapper]

theorem finish_of_isWrapper {b : Block} {ts : List (Tree Block)}
    (h : (u && Block.isWrapper (.node b ts)) = true) :
    ∃ t, ts = [t] ∧ finish u (.node b ts) = finish u t := by
  obtain ⟨rfl, hw⟩ := Bool.and_eq_true_iff.mp h
  rw [← Block.isWrapper_map_unwrap] at hw
  obtain ⟨t, ht, he⟩ := Block.wrap_of_isWrapper hw
  obtain ⟨t', rfl, rfl⟩ := List.map_eq_singleton_iff.mp ht
  exact ⟨t', rfl, by simp only [finish, if_true, Block.unwrap_node, he]⟩

theorem finish_of_not_isWrapper {b : Block} {ts : List (Tree Block)}
    (h : (u && Block.isWrapper (.node b ts)) = false) :
    finish u (.node b ts) = .node b (ts.map (finish u)) := by
  cases u with
  | false =>
      have hid : finish false = id := rfl
      rw [hid, List.map_id, id]
  | true =>
      have hw : Block.isWrapper (.node b (ts.map Block.unwrap)) = false := by
        rw [Block.isWrapper_map_unwrap]
        exact h
      calc finish true (.node b ts) = b.wrap (ts.map Block.unwrap) := Block.unwrap_node b ts
        _ = .node b (ts.map Block.unwrap) := Block.wrap_of_not_isWrapper hw

def entry {α : Type} (o : Occurrence α) : α × List α := (o.tree.item, o.around.map Tree.item)

/-- What is left of the occurrence of a layer: the block made of it and the survivors around it. -/
def keptEntry (s : Selection) (u : Bool) (o : Occurrence Layer) : Block × List Block :=
  (o.tree.item.toBlock, s.survivors u o.around)

theorem survives_of_admits_false {d : Document} {around : List Document}
    (h : s.admits d = false) {o : Occurrence Layer} (ho : o ∈ d.occurrencesIn around) :
    s.survives u o = false := by
  obtain ⟨hd, -⟩ := Tree.mem_of_mem_occurrencesIn ho
  have hk : s.keeps o = false := List.all_eq_false.mpr ⟨d, hd, by simp [h]⟩
  simp [survives, hk]

/-- Selecting trees one by one selects the occurrences in them. The omitted ones among them hold no
survivor. -/
theorem flatMap_filterMap_keep? {β : Type} (f : Tree Block → List β) (g : Document → List β)
    (ts : List Document) (hsome : ∀ d ∈ ts, ∀ b, s.keep? d = some b → f b = g d)
    (hnone : ∀ d ∈ ts, s.admits d = false → g d = []) :
    (ts.filterMap s.keep?).flatMap f = ts.flatMap g := by
  induction ts with
  | nil => rfl
  | cons d ts ih =>
      have ih := ih (fun d hd => hsome d (List.mem_cons_of_mem _ hd))
        (fun d hd => hnone d (List.mem_cons_of_mem _ hd))
      rw [List.filterMap_cons, List.flatMap_cons, ← ih]
      cases h : s.keep? d with
      | none =>
          rw [hnone d List.mem_cons_self (by rw [← isSome_keep?, h]; rfl)]
          rfl
      | some b => rw [← hsome d List.mem_cons_self b h, List.flatMap_cons]

/-- The survivors below siblings are the nodes of the trees made of those that are kept. -/
theorem entries_siblings {ts : List Document} {around : List Document} {above : List (Tree Block)}
    (h : ∀ d ∈ ts, ∀ b, s.keep? d = some b → ((finish u b).occurrencesIn above).map entry =
      ((d.occurrencesIn around).filter (s.survives u)).map (s.keptEntry u)) :
    (((ts.filterMap s.keep?).map (finish u)).flatMap (Tree.occurrencesIn above)).map entry =
      ((ts.flatMap (Tree.occurrencesIn around)).filter (s.survives u)).map (s.keptEntry u) := by
  rw [List.flatMap_map, List.map_flatMap, List.filter_flatMap, List.map_flatMap]
  apply flatMap_filterMap_keep?
  · exact h
  · intro d _ hd
    rw [List.map_eq_nil_iff, List.filter_eq_nil_iff]
    intro o ho
    simp [survives_of_admits_false hd ho]

/-- The survivors of a kept tree are the nodes of the tree made of it. The trees around it on either
side have to correspond, which a wrapper preserves because it is no survivor. -/
theorem entries_finish {d : Document} {b : Tree Block} (h : s.keep? d = some b)
    (around : List Document) (hk : around.all s.admits = true) (above : List (Tree Block))
    (ha : above.map Tree.item = s.survivors u around) :
    ((finish u b).occurrencesIn above).map entry =
      ((d.occurrencesIn around).filter (s.survives u)).map (s.keptEntry u) := by
  induction d using Tree.induct generalizing b around above with
  | node l ts ih =>
      rw [keep?_node] at h
      split at h
      · rename_i hl
        cases h
        have hall : (Tree.node l ts :: around).all s.admits = true := by
          rw [List.all_cons, hl, hk]
          rfl
        have hkeeps : s.keeps ⟨.node l ts, around⟩ = true := hall
        rw [Tree.occurrencesIn_node]
        cases hw : u && s.isWrapper (.node l ts) with
        | true =>
            have hs : s.survives u ⟨.node l ts, around⟩ = false := by
              simp only [survives, hkeeps, hw]
              rfl
            have habove : above.map Tree.item = s.survivors u (.node l ts :: around) := by
              rw [ha, survivors, hs]
              rfl
            rw [← isWrapper_kept] at hw
            obtain ⟨t, ht, he⟩ := finish_of_isWrapper hw
            have hc := entries_siblings fun d hd b hb => ih d hd hb _ hall above habove
            rw [ht] at hc
            rw [he, List.filter_cons_of_neg (by simp [hs]), ← hc]
            simp
        | false =>
            have hs : s.survives u ⟨.node l ts, around⟩ = true := by
              simp only [survives, hkeeps, hw]
              rfl
            rw [← isWrapper_kept] at hw
            rw [finish_of_not_isWrapper hw, Tree.occurrencesIn_node,
              List.filter_cons_of_pos hs, List.map_cons, List.map_cons]
            congr 1
            · simp [entry, keptEntry, ha]
            · apply entries_siblings
              intro d hd b hb
              apply ih d hd hb _ hall
              rw [List.map_cons, ha, survivors, hs]
              rfl
      · cases h

theorem apply_eq (s : Selection) (u : Bool) (d : Document) :
    s.apply u d = (s.keep? d).map (finish u) := rfl

theorem apply_eq_none_iff (s : Selection) (u : Bool) (d : Document) :
    s.apply u d = none ↔ s.omission? d.item ≠ none := by
  rw [apply_eq, Option.map_eq_none_iff, ← Option.not_isSome_iff_eq_none, isSome_keep?]
  simp [admits]

theorem entries_apply {d : Document} {t : Tree Block} (h : s.apply u d = some t) :
    t.occurrences.map entry = (d.occurrences.filter (s.survives u)).map (s.keptEntry u) := by
  rw [apply_eq] at h
  obtain ⟨b, hb, rfl⟩ := Option.map_eq_some_iff.mp h
  exact entries_finish hb [] rfl [] rfl

theorem preorder_apply {d : Document} {t : Tree Block} (h : s.apply u d = some t) :
    t.preorder = (d.occurrences.filter (s.survives u)).map fun o => o.tree.item.toBlock := by
  have hf := congrArg (List.map Prod.fst) (entries_apply h)
  rw [List.map_map, List.map_map] at hf
  rw [← Tree.map_item_occurrences]
  exact hf

theorem exists_layer_of_mem_apply {d : Document} {t : Tree Block} (h : s.apply u d = some t)
    {b : Block} (hb : b ∈ t.preorder) : ∃ l ∈ d.preorder, s.omission? l = none ∧ l.Becomes b := by
  rw [preorder_apply h] at hb
  obtain ⟨o, ho, rfl⟩ := List.mem_map.mp hb
  obtain ⟨ho, hs⟩ := List.mem_filter.mp ho
  refine ⟨o.tree.item, ?_, ?_, Layer.becomes_toBlock _⟩
  · rw [← Tree.map_item_occurrences]
    exact List.mem_map_of_mem ho
  · simp only [survives, keeps, List.all_cons, Bool.and_eq_true, admits,
      Option.isNone_iff_eq_none] at hs
    exact hs.1.1

theorem not_isWrapper_of_mem_apply {d : Document} {t v : Tree Block} (h : s.apply true d = some t)
    (hv : v ∈ t.subtrees) : Block.isWrapper v = false := by
  rw [apply_eq] at h
  obtain ⟨b, -, rfl⟩ := Option.map_eq_some_iff.mp h
  exact Block.not_isWrapper_of_mem_unwrap hv

/-- Nothing is left exactly when the root is omitted. Otherwise the surviving layers are left, in
their order, each with the survivors around it and with its own fields. Unwrapped, the tree holds no
wrapper, and unwrapping it once more changes nothing. -/
theorem apply_leaves_survivors (s : Selection) (unwrapGroups : Bool) (d : Document) :
    (s.apply unwrapGroups d = none ↔ s.omission? d.item ≠ none) ∧
      ∀ t, s.apply unwrapGroups d = some t →
        (t.preorder = (d.occurrences.filter (s.survives unwrapGroups)).map fun o =>
          o.tree.item.toBlock) ∧
        t.occurrences.map entry =
          (d.occurrences.filter (s.survives unwrapGroups)).map (s.keptEntry unwrapGroups) ∧
        (∀ b ∈ t.preorder, ∃ l ∈ d.preorder, s.omission? l = none ∧ l.Becomes b) ∧
        (∀ l : Layer, l.Becomes l.toBlock) ∧
        (unwrapGroups = true →
          (∀ v ∈ t.subtrees, Block.isWrapper v = false) ∧ Block.unwrap t = t) := by
  refine ⟨apply_eq_none_iff s unwrapGroups d, fun t h => ⟨preorder_apply h, entries_apply h,
    fun b hb => exists_layer_of_mem_apply h hb, Layer.becomes_toBlock, ?_⟩⟩
  rintro rfl
  have hw : ∀ v ∈ t.subtrees, Block.isWrapper v = false :=
    fun v hv => not_isWrapper_of_mem_apply h hv
  exact ⟨hw, Block.unwrap_eq_self hw⟩

def nestedGroups : Document :=
  let layer (id name kind : String) (visible : Bool) : Layer :=
    { id := some id, name := some name, kind := some kind, visible }
  .node (layer "1" "Home" "FRAME" true) [.node (layer "2" "Group 1" "GROUP" true) [
    .node (layer "3" "Note" "TEXT" false) [],
    .node (layer "4" "Group 2" "GROUP" true) [.node (layer "5" "Title" "TEXT" true) []]]]

theorem apply_leaves_survivors_nestedGroups :
    ∃ t, ({} : Selection).apply true nestedGroups = some t ∧
      t.preorder.map (fun b => b.id) = [some "1", some "5"] ∧ Block.unwrap t = t := by
  obtain ⟨t, ht⟩ : ∃ t, ({} : Selection).apply true nestedGroups = some t :=
    Option.isSome_iff_exists.mp (by decide +kernel)
  obtain ⟨ho, -, -, -, hw⟩ := (apply_leaves_survivors {} true nestedGroups).2 t ht
  refine ⟨t, ht, ?_, (hw rfl).2⟩
  rw [ho]
  decide +kernel

end Selection

end Mockup
