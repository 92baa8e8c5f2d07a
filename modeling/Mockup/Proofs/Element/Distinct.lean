import Mockup.Proofs.Element.Linking
import Mockup.Proofs.Style.Distinct
import Mockup.Proofs.Style.Resolution

namespace Mockup

open Value

/-- The values that a layer declares for its properties give each name once. -/
def Traits.DeclaresProper (t : Traits) : Prop :=
  ∀ entry ∈ t.properties, ∀ v, entry.2.value = some v → v.Distinct

def Branch.IsProper (r : Branch) : Prop :=
  ∀ c, r.component? = some c →
    (Fields.names c.properties).Nodup ∧ ∀ entry ∈ c.properties, entry.2.value.Distinct

theorem Branch.isProper_of_component?_eq_none {r : Branch} (h : r.component? = none) :
    r.IsProper := by
  intro c hc
  rw [h] at hc
  cases hc

namespace Element

inductive IsProper : Element → Prop
  | leaf (i : Identity) (c : Leaf) : IsProper (.leaf i c)
  | branch (i : Identity) {r : Branch} (hr : r.IsProper) (l : Layout) {es : List Element}
      (hes : ∀ e ∈ es, IsProper e) : IsProper (.branch i r l es)
  | foreign (i : Identity) (v : String) : IsProper (.foreign i v)

variable {f : Identity → Identity} {g : Leaf → Leaf} {e e' : Element}

theorem isProper_relabel_iff : (e.relabel f g).IsProper ↔ e.IsProper := by
  induction e with
  | leaf i c => exact ⟨fun _ => .leaf i c, fun _ => .leaf (f i) (g c)⟩
  | foreign i v => exact ⟨fun _ => .foreign i v, fun _ => .foreign (f i) v⟩
  | branch i r l es ih =>
      rw [relabel_branch]
      constructor
      · rintro ⟨⟩
        next hr hes =>
          exact .branch i hr l fun e he => (ih e he).mp (hes _ (List.mem_map_of_mem he))
      · rintro ⟨⟩
        next hr hes =>
          exact .branch (f i) hr l (List.forall_mem_map.mpr fun e he => (ih e he).mpr (hes e he))

theorem IsProper.of_relabel_eq (he : e.IsProper) (h : e'.relabel f g = e.relabel f g) :
    e'.IsProper :=
  isProper_relabel_iff.mp (h ▸ isProper_relabel_iff.mpr he)

theorem itemValues_eq (es : List Element) : itemValues es = es.map toValue := by
  induction es with
  | nil => rfl
  | cons e es ih => rw [itemValues, ih, List.map_cons]

theorem distinct_leaf (i : Identity) (c : Leaf) : (toValue (.leaf i c)).Distinct := by
  cases c <;>
  exact distinct_record (by simp [identityParts, leafParts, Traits.textEntry])
    (by simp [identityParts, leafParts, Traits.textEntry, Box.distinct_toValue])

theorem distinct_propertyValue {p : Property} (h : p.value.Distinct) : (propertyValue p).Distinct :=
  .object (by simp [Fields.names]) (by simp [h])

theorem distinct_properties {properties : List (String × Property)}
    (hnames : (Fields.names properties).Nodup) (h : ∀ entry ∈ properties, entry.2.value.Distinct) :
    Distinct (.object (properties.map fun p => (p.1, propertyValue p.2))) := by
  refine .object ?_ (List.forall_mem_map.mpr fun entry he => distinct_propertyValue (h entry he))
  rw [Fields.names, List.map_map]
  exact hnames

theorem distinct_branch (i : Identity) {r : Branch} (hr : r.IsProper) (l : Layout)
    {es : List Element} (hes : ∀ e ∈ es, e.toValue.Distinct) :
    (toValue (.branch i r l es)).Distinct := by
  have hchildren : Distinct (.list (itemValues es)) := by
    rw [itemValues_eq]
    exact .list (List.forall_mem_map.mpr hes)
  cases r with
  | component c =>
      obtain ⟨hnames, hvalues⟩ := hr c rfl
      exact distinct_record (by simp [identityParts, branchParts, Traits.textEntry])
        (by simp [identityParts, branchParts, Traits.textEntry, Box.distinct_toValue,
          Layout.distinct_toValue, distinct_properties hnames hvalues, hchildren])
  | container | card | repeater r =>
      exact distinct_record (by simp [identityParts, branchParts, Traits.textEntry])
        (by simp [identityParts, branchParts, Traits.textEntry, Box.distinct_toValue,
          Layout.distinct_toValue, hchildren])

theorem IsProper.distinct_toValue (h : e.IsProper) : e.toValue.Distinct := by
  induction h with
  | leaf i c => exact distinct_leaf i c
  | branch i hr l _ ih => exact distinct_branch i hr l ih
  | foreign i v =>
      exact distinct_record (by simp [identityParts, Traits.textEntry])
        (by simp [identityParts, Traits.textEntry, Box.distinct_toValue])

end Element

namespace Recognition

variable {n : Naming} {e : Element}

theorem instanceProperties_isProper {p : Placed} (hp : p.DeclaresProper) :
    (Fields.names (instanceProperties n p)).Nodup ∧
      ∀ entry ∈ instanceProperties n p, entry.2.value.Distinct := by
  refine ⟨Fields.nodup_names_ofList _, fun entry hentry => ?_⟩
  have hmem := (Fields.mem_putAll hentry).resolve_left List.not_mem_nil
  obtain ⟨declared, hdeclared, hsome⟩ := List.mem_filterMap.mp hmem
  have hvalue : (declared.2.value.getD .null).Distinct := by
    cases hv : declared.2.value with
    | none => exact .null
    | some v => exact hp declared hdeclared v hv
  split at hsome
  · exact Option.some.inj hsome ▸ hvalue
  · exact Option.some.inj hsome ▸ hvalue
  · cases hsome

/-- A component has the properties that its layer declares and those of the texts in it. -/
theorem component_isProper {p : Placed} (hp : p.DeclaresProper) {table : Element.PropertyTable}
    (ht : table.Sound) (id name : String) : (Branch.component
      ⟨id, name, Fields.putAll (instanceProperties n p) table.properties⟩).IsProper := by
  rintro c hc
  cases hc
  obtain ⟨hnames, hvalues⟩ := instanceProperties_isProper (n := n) hp
  refine ⟨Fields.nodup_names_putAll hnames, fun entry hentry => ?_⟩
  rcases Fields.mem_putAll hentry with hentry | hentry
  · exact hvalues entry hentry
  · obtain ⟨s, hs⟩ := ht.texts entry hentry
    rw [hs]
    exact .text s

theorem isProper_foldRuns {ts : List (Tree Placed)} {es : List Element}
    (h : List.Forall₂ (fun t e => recognize n t = .ok e) ts es) (hes : ∀ e ∈ es, e.IsProper) :
    ∀ e ∈ foldRuns n ts es, e.IsProper := by
  intro e he
  rcases mem_foldRuns h he with he | ⟨-, first, -, -, items, -, -, -, -, -, hsub, rfl⟩
  · exact hes e he
  · exact .branch _ (Branch.isProper_of_component?_eq_none rfl) _ fun e he => hes e (hsub he)

/-- Recognition makes proper elements of layers that declare proper values. -/
theorem recognize_isProper {t : Tree Placed} (ht : ∀ p ∈ t.preorder, p.DeclaresProper)
    (h : recognize n t = .ok e) : e.IsProper := by
  induction t generalizing e with
  | node p ts ih =>
      rw [Tree.preorder_node] at ht
      obtain ⟨hp, hts⟩ := List.forall_mem_cons.mp ht
      have hall {es : List Element} (hes : recognizeAll n ts = .ok es) : ∀ e ∈ es, e.IsProper := by
        intro e he
        obtain ⟨t, ht, hrecognize⟩ := Related.exists_of_mem (recognizeAll_eq_ok_iff.mp hes) he
        exact ih t ht (fun p hp => hts p (List.mem_flatMap.mpr ⟨t, ht, hp⟩)) hrecognize
      obtain ⟨role, i, -, -, hmade⟩ := recognize_node h
      cases hmade with
      | text | icon | image | button => exact .leaf _ _
      | @component es es' table hes hlink c hc =>
          have hlinks := Element.linkAll_links (fun e _ => Element.link_links)
            Element.PropertyTable.sound_empty hlink
          rw [hc]
          refine .branch i (component_isProper hp hlinks.sound _ _) _ fun e' he' => ?_
          have hunlinked := List.mem_map_of_mem (f := Element.unlinked) he'
          rw [Element.map_unlinked_of_linkAll hlink] at hunlinked
          obtain ⟨e, he, heq⟩ := List.mem_map.mp hunlinked
          exact (hall hes e he).of_relabel_eq heq.symm
      | @group role r es hr hes =>
          have hplain : r.component? = none := by cases role <;> cases hr <;> rfl
          exact .branch i (Branch.isProper_of_component?_eq_none hplain) _
            (isProper_foldRuns (recognizeAll_eq_ok_iff.mp hes) (hall hes))

end Recognition

end Mockup
