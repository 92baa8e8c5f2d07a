import Mockup.Proofs.Agreement
import Mockup.Proofs.Element.Positions
import Mockup.Proofs.Element.Rejection
import Mockup.Proofs.List
import Mockup.Proofs.Naming.Fresh
import Mockup.Proofs.Number.Numeral
import Mockup.Proofs.Value.Fields

namespace Mockup

def Element.wording? : Element → Option (String × String)
  | leaf _ (.text t) => some ("text", t.text)
  | leaf _ (.button b) => some ("label", b.label)
  | _ => none

namespace Repetition

open Element

def keyOf (path : List Nat) (word : String) : String := path.foldr childKey word

def textsOf (e : Element) : List (String × String) :=
  e.positions.filterMap fun p => p.2.wording?.map fun v => (keyOf p.1 v.1, v.2)

theorem filterMap_positionsFrom (index : Nat) (es : List Element) :
    ((positionsFrom index es).filterMap fun p => p.2.wording?.map fun v => (keyOf p.1 v.1, v.2)) =
      (es.zipIdx index).flatMap fun part =>
        (textsOf part.1).map fun t => (childKey part.2 t.1, t.2) := by
  rw [positionsFrom_eq, List.filterMap_flatMap]
  refine List.flatMap_congr fun part _ => ?_
  rw [textsOf, List.filterMap_map, List.map_filterMap]
  refine List.filterMap_congr fun p _ => ?_
  cases h : p.2.wording? <;> simp [h, keyOf]

theorem textsOf_branch (i : Identity) (r : Branch) (l : Layout) (es : List Element) :
    textsOf (branch i r l es) = es.zipIdx.flatMap fun part =>
      (textsOf part.1).map fun t => (childKey part.2 t.1, t.2) := by
  rw [textsOf, positions, List.filterMap_cons_none (by rfl), filterMap_positionsFrom]

theorem variableTexts_eq_ok {e : Element} (h : ∀ x ∈ e.nodes, x.isForeign = false) :
    variableTexts e = .ok (textsOf e) := by
  induction e with
  | leaf i c => cases c <;> rfl
  | foreign i v => exact absurd (h _ (mem_nodes_self _)) (by simp [isForeign])
  | branch i r l es ih =>
      have hall : ∀ es' ⊆ es, ∀ index, variableTextsFrom index es' =
          .ok ((es'.zipIdx index).flatMap fun part =>
            (textsOf part.1).map fun t => (childKey part.2 t.1, t.2)) := by
        intro es' hsub
        induction es' with
        | nil => exact fun _ => rfl
        | cons e es' ihl =>
            intro index
            obtain ⟨he, hes⟩ := List.cons_subset.mp hsub
            rw [variableTextsFrom, ih e he fun x hx => h x (nodes_subset_of_child he hx),
              ihl hes (index + 1), List.zipIdx_cons, List.flatMap_cons]
            rfl
      rw [variableTexts, hall es (List.Subset.refl es), textsOf_branch]

theorem childKey_inj {i j : Nat} {key key' : String} (h : childKey i key = childKey j key') :
    i = j ∧ key = key' := by
  have hlist : Number.numeral i ++ '_' :: key.toList = Number.numeral j ++ '_' :: key'.toList := by
    simpa [childKey] using congrArg String.toList h
  have hmark : ∀ (rest : List Char), ∀ c ∈ ('_' :: rest).head?, c.isDigit = false := by
    intro rest c hc
    cases hc
    rfl
  obtain ⟨hnumeral, hrest⟩ := append_inj_of_head (Number.isDigit_numeral i)
    (Number.isDigit_numeral j) (hmark _) (hmark _) hlist
  exact ⟨Naming.numeral_injective (congrArg String.ofList hnumeral),
    String.toList_inj.mp (List.cons.inj hrest).2⟩

def words : List String := ["text", "label"]

theorem word_mem_words {e : Element} {v : String × String} (h : e.wording? = some v) :
    v.1 ∈ words := by
  revert h
  rw [wording?.eq_def]
  split
  · rintro ⟨⟩
    exact List.mem_cons_self
  · rintro ⟨⟩
    exact List.mem_cons_of_mem _ List.mem_cons_self
  · rintro ⟨⟩

theorem childKey_not_mem_words (index : Nat) (key : String) : childKey index key ∉ words := by
  intro h
  have hhead : (childKey index key).toList.head? = some 'c' := by
    simp [childKey]
  rcases List.mem_cons.mp h with h | h
  · rw [h] at hhead
    cases hhead
  · rw [List.mem_singleton.mp h] at hhead
    cases hhead

/-- A key tells the place and the word. -/
theorem keyOf_inj {path path' : List Nat} {word word' : String} (hword : word ∈ words)
    (hword' : word' ∈ words) (h : keyOf path word = keyOf path' word') :
    path = path' ∧ word = word' := by
  induction path generalizing path' with
  | nil =>
      cases path' with
      | nil => exact ⟨rfl, h⟩
      | cons j path' =>
          have heq : word = childKey j (keyOf path' word') := h
          exact absurd (heq ▸ hword) (childKey_not_mem_words _ _)
  | cons i path ih =>
      cases path' with
      | nil =>
          have heq : childKey i (keyOf path word) = word' := h
          exact absurd (heq ▸ hword') (childKey_not_mem_words _ _)
      | cons j path' =>
          obtain ⟨hindex, hkey⟩ := childKey_inj h
          obtain ⟨hpath, heq⟩ := ih hkey
          exact ⟨by rw [hindex, hpath], heq⟩

theorem nodup_names_textsOf (e : Element) : (Fields.names (textsOf e)).Nodup := by
  rw [Fields.names, textsOf, List.Nodup, List.pairwise_map, List.pairwise_filterMap]
  refine (pairwise_positions e).imp fun hne t ht t' ht' heq => ?_
  obtain ⟨v, hv, rfl⟩ := Option.map_eq_some_iff.mp ht
  obtain ⟨v', hv', rfl⟩ := Option.map_eq_some_iff.mp ht'
  exact hne (keyOf_inj (word_mem_words hv) (word_mem_words hv') heq).1

theorem names_textsOf_branch (i : Identity) (r : Branch) (l : Layout) (es : List Element) :
    Fields.names (textsOf (branch i r l es)) =
      (es.map fun e => Fields.names (textsOf e)).zipIdx.flatMap fun part =>
        part.1.map (childKey part.2) := by
  rw [textsOf_branch, Fields.names, List.map_flatMap, List.zipIdx_map, List.flatMap_map]
  refine List.flatMap_congr fun part _ => ?_
  simp [Fields.names, Function.comp_def]

/-- Of a leaf the variant tells the word. -/
theorem names_textsOf_leaf (i : Identity) (c : Leaf) : Fields.names (textsOf (leaf i c)) =
    if c.variant = "Text" then ["text"] else if c.variant = "Button" then ["label"] else [] := by
  cases c <;> simp [Leaf.variant, textsOf, positions, wording?, keyOf, Fields.names]

theorem names_textsOf_of_shape {a b : Element} (ha : ∀ x ∈ a.nodes, x.isForeign = false)
    (hb : ∀ x ∈ b.nodes, x.isForeign = false) (h : a.shape = b.shape) :
    Fields.names (textsOf a) = Fields.names (textsOf b) := by
  induction a generalizing b with
  | foreign i v => exact absurd (ha _ (mem_nodes_self _)) (by simp [isForeign])
  | leaf i c =>
      cases b with
      | leaf j d => rw [names_textsOf_leaf, names_textsOf_leaf, (Tree.node.inj h).1]
      | foreign j v => exact absurd (hb _ (mem_nodes_self _)) (by simp [isForeign])
      | branch j s l es => exact absurd (Tree.node.inj h).1 (leaf_variant_ne c s)
  | branch i r l es ih =>
      cases b with
      | leaf j d => exact absurd (Tree.node.inj h).1.symm (leaf_variant_ne d r)
      | foreign j v => exact absurd (hb _ (mem_nodes_self _)) (by simp [isForeign])
      | branch j s l' fs =>
          rw [shape_branch, shape_branch] at h
          have hshapes := (Tree.node.inj h).2
          rw [← List.forall₂_eq_eq_eq, List.forall₂_map_left_iff,
            List.forall₂_map_right_iff] at hshapes
          have hclosed : List.Forall₂
              (fun f g => f = g ∧ ∀ x ∈ f.nodes, x.isForeign = false) fs fs :=
            List.forall₂_same.mpr fun f hf => ⟨rfl, fun x hx => hb x (nodes_subset_of_child hf hx)⟩
          have hnames : List.Forall₂
              (fun e f => Fields.names (textsOf e) = Fields.names (textsOf f)) es fs := by
            refine Related.comp_mem hshapes hclosed fun e he f g hshape hfg => ?_
            rw [← hfg.1]
            exact ih e he (fun x hx => ha x (nodes_subset_of_child he hx)) hfg.2 hshape
          rw [names_textsOf_branch, names_textsOf_branch, Related.map_eq hnames fun _ _ h => h]

variable {variations : List (String × List String)} {key value : String} {es : List Element}

def valuesUnder (key : String) (es : List Element) : List String :=
  es.filterMap fun e => Fields.get? key (textsOf e)

def variationsOf (es : List Element) : List (String × List String) :=
  es.foldl (fun variations e => (textsOf e).foldl addVariation variations) []

theorem merge_eq_ok (h : ∀ e ∈ es, ∀ x ∈ e.nodes, x.isForeign = false) :
    merge es = .ok (variationsOf es) := by
  rw [merge, variationsOf]
  generalize [] = variations
  induction es generalizing variations with
  | nil => rfl
  | cons e es ih =>
      rw [List.foldlM_cons, variableTexts_eq_ok (h e List.mem_cons_self)]
      exact ih (fun e he => h e (List.mem_cons_of_mem _ he)) _

theorem get?_foldl_addVariation_of_not_mem {texts : List (String × String)}
    (h : key ∉ Fields.names texts) :
    Fields.get? key (texts.foldl addVariation variations) = Fields.get? key variations := by
  induction texts generalizing variations with
  | nil => rfl
  | cons t texts ih =>
      obtain ⟨hne, hrest⟩ := not_or.mp (mt List.mem_cons.mpr h)
      rw [List.foldl_cons, ih hrest, addVariation, Fields.get?_put_of_ne hne]

/-- A value is added to those under its key unless it is there. -/
theorem get?_foldl_addVariation {texts : List (String × String)}
    (htexts : (Fields.names texts).Nodup) (h : Fields.get? key texts = some value)
    {values : List String} (hvalues : (Fields.get? key variations).getD [] = values.eraseDups) :
    Fields.get? key (texts.foldl addVariation variations) =
      some (values ++ [value]).eraseDups := by
  induction texts generalizing variations with
  | nil => cases h
  | cons t texts ih =>
      obtain ⟨hhead, htail⟩ := List.nodup_cons.mp htexts
      rw [List.foldl_cons]
      rw [Fields.get?] at h
      split at h
      · next heq =>
          subst heq
          cases h
          rw [get?_foldl_addVariation_of_not_mem hhead, addVariation, Fields.get?_put_self, hvalues,
            eraseDups_concat, List.contains_eq_mem]
          simp [List.mem_eraseDups]
      · next hne =>
          refine ih htail h ?_
          rw [addVariation, Fields.get?_put_of_ne (Ne.symm hne), hvalues]

theorem getD_variationsOf (key : String) (es : List Element) :
    (Fields.get? key (variationsOf es)).getD [] = (valuesUnder key es).eraseDups := by
  induction es using List.reverseRecOn with
  | nil => rfl
  | append_singleton es e ih =>
      rw [variationsOf, List.foldl_append, ← variationsOf, List.foldl_cons, List.foldl_nil,
        valuesUnder, List.filterMap_append, ← valuesUnder]
      cases h : Fields.get? key (textsOf e) with
      | none =>
          rw [get?_foldl_addVariation_of_not_mem (Fields.get?_eq_none_iff.mp h), ih]
          simp [h]
      | some value =>
          rw [get?_foldl_addVariation (nodup_names_textsOf e) h ih]
          simp [h]

theorem names_foldl_of_subset {texts : List (String × String)}
    (h : Fields.names texts ⊆ Fields.names variations) :
    Fields.names (texts.foldl addVariation variations) = Fields.names variations := by
  induction texts generalizing variations with
  | nil => rfl
  | cons t texts ih =>
      obtain ⟨hhead, htail⟩ := List.cons_subset.mp h
      have hnames : Fields.names (addVariation variations t) = Fields.names variations :=
        Fields.names_put_of_mem hhead _
      rw [List.foldl_cons, ih (hnames.symm ▸ htail), hnames]

theorem names_foldl_of_nodup {texts : List (String × String)}
    (h : (Fields.names variations ++ Fields.names texts).Nodup) :
    Fields.names (texts.foldl addVariation variations) =
      Fields.names variations ++ Fields.names texts := by
  induction texts generalizing variations with
  | nil => exact (List.append_nil _).symm
  | cons t texts ih =>
      have hnew : t.1 ∉ Fields.names variations := fun hmem =>
        (List.nodup_append.mp h).2.2 _ hmem _ List.mem_cons_self rfl
      have hnames : Fields.names (addVariation variations t) =
          Fields.names variations ++ [t.1] := by
        rw [addVariation, Fields.put_of_not_mem hnew, Fields.names, List.map_append]
        rfl
      have happend : Fields.names variations ++ Fields.names (t :: texts) =
          Fields.names (addVariation variations t) ++ Fields.names texts := by
        rw [hnames, List.append_assoc]
        rfl
      rw [happend] at h ⊢
      exact ih h

/-- Elements with the same keys have variations under these keys, in the same order. -/
theorem names_variationsOf {keys : List String} (hne : es ≠ [])
    (h : ∀ e ∈ es, Fields.names (textsOf e) = keys) : Fields.names (variationsOf es) = keys := by
  have hmore (fs : List Element) (hfs : fs ⊆ es) (variations : List (String × List String))
      (hkeys : Fields.names variations = keys) : Fields.names (fs.foldl
        (fun variations e => (textsOf e).foldl addVariation variations) variations) = keys := by
    induction fs generalizing variations with
    | nil => exact hkeys
    | cons f fs ih =>
        obtain ⟨hf, hfs⟩ := List.cons_subset.mp hfs
        refine ih hfs _ ?_
        rw [names_foldl_of_subset (by rw [h f hf, hkeys]; exact List.Subset.refl keys), hkeys]
  cases es with
  | nil => exact absurd rfl hne
  | cons e es =>
      refine hmore es (List.subset_cons_self e es) _ ?_
      have hfirst : (Fields.names ([] : List (String × List String)) ++
          Fields.names (textsOf e)).Nodup := nodup_names_textsOf e
      rw [names_foldl_of_nodup hfirst]
      exact h e List.mem_cons_self

theorem closed_of_detect {e : Element} {found : List Repetition} (h : detect e = .ok found) :
    ∀ x ∈ e.nodes, x.isForeign = false := by
  intro x hx
  by_contra hforeign
  obtain ⟨v, hv⟩ := (unknown_iff_of_failsFirst (detect_failsFirst e)).mpr
    ⟨x, hx, by simpa using hforeign⟩
  rw [hv] at h
  cases h

theorem ofGroup_eq_some {r : Repetition} (h : ofGroup? es = .ok (some r)) :
    2 ≤ es.length ∧ r.instanceIds = es.map Element.id ∧ merge es = .ok r.variations := by
  rw [ofGroup?.eq_def] at h
  split at h
  · obtain ⟨variations, hmerge, h⟩ := Result.bind_eq_ok_iff.mp h
    cases h
    exact ⟨by simp, rfl, hmerge⟩
  · cases h

/-- Every repetition that is found is made of a class of candidates with one shape. -/
theorem exists_class_of_mem_detect {e : Element} {found : List Repetition}
    (h : detect e = .ok found) {r : Repetition} (hr : r ∈ found) :
    ∃ es ∈ classes (candidates e), ofGroup? es = .ok (some r) := by
  have hclosed := closed_of_detect h
  obtain ⟨groups, hgroups, h⟩ := Result.bind_eq_ok_iff.mp h
  obtain ⟨all, hall, h⟩ := Result.bind_eq_ok_iff.mp h
  cases h
  obtain ⟨r', hr', rfl⟩ := List.mem_filterMap.mp hr
  obtain ⟨group, hgroup, hmade⟩ := Result.exists_of_mapM_eq_ok hall hr'
  have hcollect : collect [] e = .ok (grouped (fun x => shapeText x.shape) (candidates e)) :=
    (collect_eq hclosed []).trans (congrArg _ (foldl_add _ [] _))
  cases hgroups.symm.trans hcollect
  have hcandidates : ∀ x ∈ candidates e, ∀ y ∈ x.nodes, y.isForeign = false :=
    fun x hx => isForeign_of_mem_nodes hclosed (List.mem_filter.mp hx).1
  refine ⟨group.2, ?_, hmade⟩
  rw [← map_snd_grouped hcandidates]
  exact List.mem_map_of_mem hgroup

/-- The texts of an element: one for each text and button in it, under keys that spell their places
and are therefore distinct. -/
structure HasTexts (x : Element) (texts : List (String × String)) : Prop where
  given : variableTexts x = .ok texts
  oneEach : texts.length = (x.nodes.filter fun y => y.wording?.isSome).length
  distinct : (Fields.names texts).Nodup
  spelled : ∀ key value, (key, value) ∈ texts ↔ ∃ path y word,
    x.at? path = some y ∧ y.wording? = some (word, value) ∧ key = keyOf path word

/-- A repetition of some elements: all of them have the keys of the variations, and under a key are
their values, each where it first comes. -/
structure Describes (es : List Element) (r : Repetition) : Prop where
  several : 2 ≤ es.length
  instances : r.instanceIds = es.map Element.id
  keys : ∀ x ∈ es, ∃ texts, HasTexts x texts ∧ Fields.names texts = Fields.names r.variations
  values : ∀ key ∈ Fields.names r.variations, ∃ values,
    List.Forall₂ (fun x value => ∃ texts, HasTexts x texts ∧ Fields.get? key texts = some value)
      es values ∧
    Fields.get? key r.variations = some values.eraseDups ∧
    values.eraseDups ≠ [] ∧ values.eraseDups.length ≤ es.length

theorem hasTexts_textsOf {x : Element} (h : ∀ y ∈ x.nodes, y.isForeign = false) :
    HasTexts x (textsOf x) where
  given := variableTexts_eq_ok h
  oneEach := by
    rw [textsOf, List.length_filterMap_eq_countP, ← map_snd_positions,
      ← List.countP_eq_length_filter, List.countP_map]
    simp [Function.comp_def]
  distinct := nodup_names_textsOf x
  spelled key value := by
    simp only [textsOf, List.mem_filterMap, Option.map_eq_some_iff, Prod.mk.injEq]
    constructor
    · rintro ⟨⟨path, y⟩, hy, ⟨word, _⟩, hword, hkey, rfl⟩
      exact ⟨path, y, word, mem_positions_iff.mp hy, hword, hkey.symm⟩
    · rintro ⟨path, y, word, hy, hword, rfl⟩
      exact ⟨(path, y), mem_positions_iff.mpr hy, (word, value), hword, rfl, rfl⟩

/-- Elements that all have the same keys are described by what varies between them. -/
theorem describes_of_names {r : Repetition} {keys : List String} (hseveral : 2 ≤ es.length)
    (hinstances : r.instanceIds = es.map Element.id) (hvariations : r.variations = variationsOf es)
    (hclosed : ∀ x ∈ es, ∀ y ∈ x.nodes, y.isForeign = false)
    (hkeys : ∀ x ∈ es, Fields.names (textsOf x) = keys) : r.Describes es := by
  have hne : es ≠ [] := fun hnil => by simp [hnil] at hseveral
  have hnames : Fields.names r.variations = keys := by
    rw [hvariations, names_variationsOf hne hkeys]
  refine ⟨hseveral, hinstances, fun x hx => ?_, fun key hkey => ?_⟩
  · exact ⟨textsOf x, hasTexts_textsOf (hclosed x hx), by rw [hkeys x hx, hnames]⟩
  · have hhas : ∀ x ∈ es, (Fields.get? key (textsOf x)).isSome = true := by
      intro x hx
      rw [← Fields.has, Fields.has_eq_true_iff, hkeys x hx, ← hnames]
      exact hkey
    have hvalues : List.Forall₂ (fun x value => Fields.get? key (textsOf x) = some value) es
        (valuesUnder key es) := filterMap_forall₂ hhas
    have hlength := hvalues.length_eq
    obtain ⟨found, hfound⟩ := Option.isSome_iff_exists.mp (Fields.has_eq_true_iff.mpr hkey)
    have hget : found = (valuesUnder key es).eraseDups := by
      rw [← getD_variationsOf, ← hvariations, hfound]
      rfl
    refine ⟨valuesUnder key es, ?_, hget ▸ hfound, eraseDups_ne_nil ?_, ?_⟩
    · exact Related.imp_mem hvalues fun x hx value hvalue =>
        ⟨textsOf x, hasTexts_textsOf (hclosed x hx), hvalue⟩
    · exact List.ne_nil_of_length_pos (hlength ▸ List.length_pos_of_ne_nil hne)
    · exact hlength ▸ length_eraseDups_le _

/-- Every repetition that is found describes the elements of a class. -/
theorem describes_of_mem_detect {e : Element} {found : List Repetition}
    (h : detect e = .ok found) : ∀ r ∈ found, ∃ es ∈ classes (candidates e), r.Describes es := by
  intro r hr
  obtain ⟨es, hes, hmade⟩ := exists_class_of_mem_detect h hr
  obtain ⟨hseveral, hinstances, hmerge⟩ := ofGroup_eq_some hmade
  obtain ⟨a, ha, hclass⟩ := mem_classes_iff.mp hes
  have hcandidate : ∀ x ∈ candidates e, ∀ y ∈ x.nodes, y.isForeign = false := fun x hx =>
    isForeign_of_mem_nodes (closed_of_detect h) (List.mem_filter.mp hx).1
  have hmember : ∀ x ∈ es, x ∈ candidates e ∧ x.shape = a.shape := by
    intro x hx
    rw [hclass] at hx
    obtain ⟨hx, hshape⟩ := List.mem_filter.mp hx
    exact ⟨hx, of_decide_eq_true hshape⟩
  have hclosed : ∀ x ∈ es, ∀ y ∈ x.nodes, y.isForeign = false :=
    fun x hx => hcandidate x (hmember x hx).1
  have hvariations : r.variations = variationsOf es :=
    Except.ok.inj (hmerge.symm.trans (merge_eq_ok hclosed))
  exact ⟨es, hes, describes_of_names hseveral hinstances hvariations hclosed fun x hx =>
    names_textsOf_of_shape (hclosed x hx) (hcandidate a ha) (hmember x hx).2⟩

def shelf : Element :=
  let card (id : String) (es : List Element) : Element := .branch { id := some id } .card {} es
  let label (id text : String) : Element := .leaf { id := some id } (.text { text })
  let button (id label : String) : Element := .leaf { id := some id } (.button { label })
  .branch { id := some "1" } .container {}
    [card "2" [label "3" "Milk", button "4" "Buy"], card "5" [label "6" "Bread", button "7" "Buy"]]

theorem describes_of_mem_detect_shelf : ∃ found, detect shelf = .ok found ∧
    found.map Repetition.variations =
      [[("child0_text", ["Milk", "Bread"]), ("child1_label", ["Buy"])], [("label", ["Buy"])]] ∧
    ∀ r ∈ found, ∃ es ∈ classes (candidates shelf), r.Describes es := by
  have hrun : (detect shelf).map (fun found => found.map Repetition.variations) =
      .ok [[("child0_text", ["Milk", "Bread"]), ("child1_label", ["Buy"])],
        [("label", ["Buy"])]] := by
    decide
  obtain ⟨found, hfound, hvariations⟩ := Result.map_eq_ok_iff.mp hrun
  exact ⟨found, hfound, hvariations, describes_of_mem_detect hfound⟩

end Repetition

end Mockup
