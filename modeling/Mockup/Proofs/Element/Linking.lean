import Mathlib.Data.List.TakeWhile
import Mockup.Proofs.Element.Properties
import Mockup.Proofs.Element.Recognition

namespace Mockup

def Branch.isRepeater : Branch → Bool
  | .repeater _ => true
  | _ => false

theorem Branch.isRepeater_eq_false {r : Branch} (h : ∀ b, r ≠ .repeater b) :
    r.isRepeater = false := by
  cases r with
  | repeater b => exact absurd rfl (h b)
  | container | card | component => rfl

def Branch.component? : Branch → Option ComponentElement
  | .component c => some c
  | _ => none

def Branch.componentsOf (above : List Branch) : List ComponentElement :=
  (above.takeWhile fun r => !r.isRepeater).filterMap component?

namespace Element

open PropertyTable

mutual

/-- The leaves of a tree that stands in some branches, each with the branches above it, the nearest
first. -/
def leavesIn (above : List Branch) : Element → List (List Branch × Element)
  | leaf i c => [(above, leaf i c)]
  | branch _ r _ es => leavesInAll (r :: above) es
  | foreign .. => []

def leavesInAll (above : List Branch) : List Element → List (List Branch × Element)
  | [] => []
  | e :: es => leavesIn above e ++ leavesInAll above es

end

def leaves (e : Element) : List (List Branch × Element) := leavesIn [] e

theorem leavesInAll_eq (above : List Branch) (es : List Element) :
    leavesInAll above es = es.flatMap (leavesIn above) := by
  induction es with
  | nil => rfl
  | cons e es ih => rw [leavesInAll, ih, List.flatMap_cons]

theorem leavesIn_eq (above : List Branch) (e : Element) :
    leavesIn above e = e.leaves.map fun o => (o.1 ++ above, o.2) := by
  have hlist {above : List Branch} {es : List Element}
      (ih : ∀ e ∈ es, ∀ above, leavesIn above e = e.leaves.map fun o => (o.1 ++ above, o.2)) :
      es.flatMap (leavesIn above) = es.flatMap fun e => e.leaves.map fun o => (o.1 ++ above, o.2) :=
    List.flatMap_congr fun e he => ih e he above
  induction e generalizing above with
  | leaf i c => rfl
  | foreign i v => rfl
  | branch i r l es ih =>
      rw [leaves, leavesIn, leavesIn, leavesInAll_eq, leavesInAll_eq, hlist ih, hlist ih,
        List.map_flatMap]
      simp [List.map_map, Function.comp_def]

theorem leaves_leaf (i : Identity) (c : Leaf) : (leaf i c).leaves = [([], leaf i c)] := rfl

theorem leaves_branch (i : Identity) (r : Branch) (l : Layout) (es : List Element) :
    (branch i r l es).leaves = (es.flatMap leaves).map fun o => (o.1 ++ [r], o.2) := by
  rw [leaves, leavesIn, leavesInAll_eq, List.map_flatMap]
  exact List.flatMap_congr fun e _ => leavesIn_eq [r] e

/-- What linking makes of a leaf: nothing inside a repeater, and otherwise the leaf is linked. -/
structure Told (properties : List (String × Property)) (o o' : List Branch × Element) : Prop where
  above : o'.1 = o.1
  shown : o'.2.shown? = o.2.shown?
  kept : (∃ r ∈ o.1, r.isRepeater = true) → o'.2 = o.2
  linked : (∀ r ∈ o.1, r.isRepeater = false) → Linked properties o'.2

structure Links (t : PropertyTable) (os os' : List (List Branch × Element)) (t' : PropertyTable) :
    Prop where
  sound : t'.Sound
  grows : t.Extends t'
  told : List.Forall₂ (Told t'.properties) os os'

theorem Told.mono {t t' : PropertyTable} (h : t.Extends t') {o o' : List Branch × Element}
    (ho : Told t.properties o o') : Told t'.properties o o' :=
  ⟨ho.above, ho.shown, ho.kept, fun hr => h.linked (ho.linked hr)⟩

theorem Told.refl (properties : List (String × Property)) {o : List Branch × Element}
    (h : ∃ r ∈ o.1, r.isRepeater = true) : Told properties o o := by
  refine ⟨rfl, rfl, fun _ => rfl, fun hr => ?_⟩
  obtain ⟨r, hmem, hrep⟩ := h
  rw [hr r hmem] at hrep
  cases hrep

theorem Told.append {properties : List (String × Property)} {o o' : List Branch × Element}
    (ho : Told properties o o') {r : Branch} (hr : r.isRepeater = false) :
    Told properties (o.1 ++ [r], o.2) (o'.1 ++ [r], o'.2) := by
  refine ⟨by rw [ho.above], ho.shown, ?_, ?_⟩
  · rintro ⟨s, hs, hrep⟩
    rcases List.mem_append.mp hs with hs | hs
    · exact ho.kept ⟨s, hs, hrep⟩
    · rw [List.mem_singleton.mp hs, hr] at hrep
      cases hrep
  · exact fun h => ho.linked fun s hs => h s (List.mem_append_left _ hs)

/-- A leaf is told the property for what it shows. -/
theorem linkLeaf_links (n : Naming) (i : Identity) {t : PropertyTable} (ht : t.Sound) (c : Leaf) :
    Links t [([], leaf i c)] [([], leaf i (linkLeaf n i t c).1)] (linkLeaf n i t c).2 := by
  have hunshown (hc : (leaf i c).shown? = none) :
      Links t [([], leaf i c)] [([], leaf i c)] t := by
    refine ⟨ht, .refl t, .cons ⟨rfl, rfl, fun _ => rfl, fun _ value hvalue => ?_⟩ .nil⟩
    rw [hc] at hvalue
    cases hvalue
  cases c with
  | text c =>
      rw [linkLeaf]
      split
      · next hempty => exact hunshown (by rw [shown?, if_pos hempty])
      · next hempty =>
          obtain ⟨hsound, hextends, hholds⟩ := register_spec ht (nameOr i "text") "string" c.text
            (textPropertyName n (nameOr i "text"))
          refine ⟨hsound, hextends, .cons ⟨rfl, rfl, ?_, fun _ value hvalue => ?_⟩ .nil⟩
          · rintro ⟨r, hr, -⟩
            cases hr
          · rw [shown?, if_neg hempty] at hvalue
            cases hvalue
            exact ⟨_, rfl, hholds⟩
  | image c =>
      obtain ⟨hsound, hextends, hholds⟩ := register_spec ht (nameOr i "image") "image"
        (c.reference.getD "") (n.identifier (nameOr i "image"))
      refine ⟨hsound, hextends, .cons ⟨rfl, rfl, ?_, fun _ value hvalue => ?_⟩ .nil⟩
      · rintro ⟨r, hr, -⟩
        cases hr
      · cases hvalue
        exact ⟨_, rfl, hholds⟩
  | icon c => exact hunshown rfl
  | button c => exact hunshown rfl

theorem linkAll_links {n : Naming} {es : List Element}
    (ih : ∀ e ∈ es, ∀ {t : PropertyTable} {e' : Element} {t' : PropertyTable}, t.Sound →
      link n t e = .ok (e', t') → Links t e.leaves e'.leaves t')
    {t : PropertyTable} (ht : t.Sound) {es' : List Element} {t' : PropertyTable}
    (h : linkAll n t es = .ok (es', t')) :
    Links t (es.flatMap leaves) (es'.flatMap leaves) t' := by
  induction es generalizing t es' with
  | nil =>
      cases h
      exact ⟨ht, .refl _, .nil⟩
  | cons e es ihl =>
      obtain ⟨e', s, es'', he, hes, rfl⟩ := linkAll_cons_eq_ok h
      have hfirst := ih e List.mem_cons_self ht he
      have hrest := ihl (fun e he => ih e (List.mem_cons_of_mem _ he)) hfirst.sound hes
      refine ⟨hrest.sound, hfirst.grows.trans hrest.grows, ?_⟩
      rw [List.flatMap_cons, List.flatMap_cons]
      exact List.rel_append (hfirst.told.imp fun _ _ ho => ho.mono hrest.grows) hrest.told

theorem link_links {n : Naming} {e : Element} : ∀ {t : PropertyTable} {e' : Element}
    {t' : PropertyTable}, t.Sound → link n t e = .ok (e', t') →
    Links t e.leaves e'.leaves t' := by
  induction e with
  | leaf i c =>
      intro t e' t' ht h
      cases relinked_of_link h with
      | leaf => exact linkLeaf_links n i ht c
  | foreign i v =>
      intro t e' t' _ h
      cases relinked_of_link h
  | branch i r l es ih =>
      intro t e' t' ht h
      cases relinked_of_link h with
      | repeater _ b =>
          refine ⟨ht, .refl t, List.forall₂_same.mpr fun o ho => .refl _ ?_⟩
          rw [leaves_branch] at ho
          obtain ⟨o', -, rfl⟩ := List.mem_map.mp ho
          exact ⟨.repeater b, by simp, rfl⟩
      | branch _ hr _ hes =>
          have hall := linkAll_links ih ht hes
          refine ⟨hall.sound, hall.grows, ?_⟩
          rw [leaves_branch, leaves_branch, List.forall₂_map_left_iff,
            List.forall₂_map_right_iff]
          exact hall.told.imp fun _ _ ho => ho.append (Branch.isRepeater_eq_false hr)

end Element

namespace Branch

theorem takeWhile_of_free {above : List Branch} (h : ∀ r ∈ above, r.isRepeater = false) :
    above.takeWhile (fun r => !r.isRepeater) = above :=
  List.takeWhile_eq_self_iff.mpr fun r hr => by rw [h r hr]; rfl

/-- A branch above a repeater is not seen from below it. -/
theorem componentsOf_append_of_mem {above : List Branch} (h : ∃ r ∈ above, r.isRepeater = true)
    (r : Branch) : componentsOf (above ++ [r]) = componentsOf above := by
  obtain ⟨s, hs, hrepeater⟩ := h
  rw [componentsOf, componentsOf, List.takeWhile_append, if_neg]
  intro hlength
  have hall := List.takeWhile_eq_self_iff.mp ((List.takeWhile_prefix _).eq_of_length hlength) s hs
  rw [hrepeater] at hall
  cases hall

theorem componentsOf_append_of_free {above : List Branch} (h : ∀ r ∈ above, r.isRepeater = false)
    (c : ComponentElement) :
    componentsOf (above ++ [.component c]) = componentsOf above ++ [c] := by
  rw [componentsOf, componentsOf, List.takeWhile_append, takeWhile_of_free h, if_pos rfl,
    List.filterMap_append]
  rfl

theorem componentsOf_append_group (above : List Branch) {r : Branch} (hr : r.component? = none) :
    componentsOf (above ++ [r]) = componentsOf above := by
  by_cases h : ∀ s ∈ above, s.isRepeater = false
  · rw [componentsOf, componentsOf, List.takeWhile_append, takeWhile_of_free h, if_pos rfl,
      List.filterMap_append]
    cases r with
    | component c => cases hr
    | container | card | repeater => exact List.append_nil _
  · simp only [not_forall, Bool.not_eq_false] at h
    obtain ⟨s, hs, hrepeater⟩ := h
    exact componentsOf_append_of_mem ⟨s, hs, hrepeater⟩ r

end Branch

namespace Recognition

open Element

/-- All components around a leaf, up to a repeater, have what it shows, and the outermost of them
has it under the name that the leaf was told. -/
structure LinkedAbove (o : List Branch × Element) : Prop where
  held : ∀ c ∈ Branch.componentsOf o.1, ∀ value, o.2.shown? = some value →
    ∃ name, Holds c.properties name value
  linked : ∀ c, (Branch.componentsOf o.1).getLast? = some c → Linked c.properties o.2

theorem LinkedAbove.group {o : List Branch × Element} (h : LinkedAbove o) {r : Branch}
    (hr : r.component? = none) : LinkedAbove (o.1 ++ [r], o.2) := by
  obtain ⟨hheld, hlinked⟩ := h
  rw [← Branch.componentsOf_append_group o.1 hr] at hheld hlinked
  exact ⟨hheld, hlinked⟩

/-- Around a component that has linked its leaves. -/
theorem LinkedAbove.component {properties : List (String × Property)}
    {o o' : List Branch × Element} (h : LinkedAbove o) (ho : Told properties o o')
    {c : ComponentElement}
    (hc : ∀ name value, Holds properties name value → Holds c.properties name value) :
    LinkedAbove (o'.1 ++ [.component c], o'.2) := by
  have hcases : (∃ r ∈ o.1, r.isRepeater = true) ∨ ∀ r ∈ o.1, r.isRepeater = false := by
    by_cases h : ∃ r ∈ o.1, r.isRepeater = true
    · exact .inl h
    · exact .inr fun r hr => by simpa using fun hrep => h ⟨r, hr, hrep⟩
  rcases hcases with hrepeater | hfree
  · have habove : Branch.componentsOf (o'.1 ++ [.component c]) = Branch.componentsOf o.1 := by
      rw [ho.above, Branch.componentsOf_append_of_mem hrepeater]
    have hleaf := ho.kept hrepeater
    constructor
    · rw [habove, hleaf]
      exact h.held
    · rw [habove, hleaf]
      exact h.linked
  · have habove : Branch.componentsOf (o'.1 ++ [.component c]) =
        Branch.componentsOf o.1 ++ [c] := by
      rw [ho.above, Branch.componentsOf_append_of_free hfree]
    have hlinked : Linked c.properties o'.2 := by
      intro value hvalue
      obtain ⟨name, hname, hholds⟩ := ho.linked hfree value hvalue
      exact ⟨name, hname, hc name value hholds⟩
    constructor
    · intro d hd value hvalue
      rw [habove] at hd
      rcases List.mem_append.mp hd with hd | hd
      · exact h.held d hd value (ho.shown ▸ hvalue)
      · rw [List.mem_singleton.mp hd]
        obtain ⟨name, -, hholds⟩ := hlinked value hvalue
        exact ⟨name, hholds⟩
    · intro d hd
      rw [habove, List.getLast?_concat] at hd
      cases hd
      exact hlinked

theorem linkedAbove_leaf (i : Identity) (c : Leaf) : ∀ o ∈ (leaf i c).leaves, LinkedAbove o := by
  intro o ho
  rw [leaves_leaf] at ho
  rw [List.mem_singleton.mp ho]
  exact ⟨fun c hc => absurd hc List.not_mem_nil, fun c hc => by cases hc⟩

theorem linkedAbove_branch {i : Identity} {r : Branch} {l : Layout} {es : List Element}
    (hes : ∀ o ∈ es.flatMap leaves, LinkedAbove (o.1 ++ [r], o.2)) :
    ∀ o ∈ (branch i r l es).leaves, LinkedAbove o := by
  intro o ho
  rw [leaves_branch] at ho
  obtain ⟨o', ho', rfl⟩ := List.mem_map.mp ho
  exact hes o' ho'

/-- In every recognized tree each component has properties for the texts and images that are reached
from it without entering a repeater. The links of these lead to the outermost such component. -/
theorem recognize_links {n : Naming} {t : Tree Placed} {e : Element}
    (h : recognize n t = .ok e) : ∀ o ∈ e.leaves, LinkedAbove o := by
  induction t generalizing e with
  | node p ts ih =>
      have hall {es : List Element} (hes : recognizeAll n ts = .ok es) :
          ∀ o ∈ es.flatMap leaves, LinkedAbove o := by
        intro o ho
        obtain ⟨e, he, ho⟩ := List.mem_flatMap.mp ho
        obtain ⟨t, ht, hrecognize⟩ := Related.exists_of_mem (recognizeAll_eq_ok_iff.mp hes) he
        exact ih t ht hrecognize o ho
      obtain ⟨role, i, -, -, hmade⟩ := recognize_node h
      cases hmade with
      | text | icon | image | button => exact linkedAbove_leaf _ _
      | @component es es' table hes hlink c hc =>
          obtain ⟨hsound, -, htold⟩ :=
            linkAll_links (fun e _ => link_links) PropertyTable.sound_empty hlink
          refine linkedAbove_branch fun o' ho' => ?_
          obtain ⟨o, ho, ho'⟩ := Related.exists_of_mem htold ho'
          refine (hall hes o ho).component ho' fun name value ⟨p, hp, hvalue⟩ => ⟨p, ?_, hvalue⟩
          rw [hc]
          exact Fields.get?_putAll_of_nodup hsound.names hp
      | @group role r es hr hes =>
          have hplain : r.component? = none := by cases role <;> cases hr <;> rfl
          refine linkedAbove_branch fun o ho => LinkedAbove.group ?_ hplain
          obtain ⟨y, hy, ho⟩ := List.mem_flatMap.mp ho
          rcases mem_foldRuns (recognizeAll_eq_ok_iff.mp hes) hy with
            hy | ⟨_, _, _, _, items, _, _, _, _, _, hsub, rfl⟩
          · exact hall hes o (List.mem_flatMap.mpr ⟨y, hy, ho⟩)
          · refine linkedAbove_branch (fun o ho => LinkedAbove.group ?_ rfl) o ho
            obtain ⟨e, he, ho⟩ := List.mem_flatMap.mp ho
            exact hall hes o (List.mem_flatMap.mpr ⟨e, hsub he, ho⟩)

def nestedTitles : Tree Placed :=
  let title (id text : String) : Tree Placed :=
    .node { id := some id, name := some "Title", kind := some "TEXT", text := some text,
            box := {} } []
  .node { id := some "1", name := some "Panel", kind := some "INSTANCE", box := {} }
    [title "2" "Inbox",
      .node { id := some "3", name := some "Entry", kind := some "INSTANCE", box := {} }
        [title "4" "Hello"]]

def linkNames (o : List Branch × Element) :
    Option String × Option String × List (List String) :=
  (o.2.shown?, o.2.propName?, (Branch.componentsOf o.1).map fun c => Fields.names c.properties)

theorem recognize_nestedTitles : ((recognize {} nestedTitles).map fun e => e.leaves.map linkNames) =
    .ok [(some "Inbox", some "title", [["title", "title1"]]),
      (some "Hello", some "title1", [["title"], ["title", "title1"]])] := by
  decide +kernel

theorem recognize_links_nestedTitles : ∃ e, recognize {} nestedTitles = .ok e ∧
    e.leaves.length = 2 ∧ ∀ o ∈ e.leaves, LinkedAbove o := by
  obtain ⟨e, he, hleaves⟩ := Result.map_eq_ok_iff.mp recognize_nestedTitles
  exact ⟨e, he, by simpa using congrArg List.length hleaves, recognize_links he⟩

/-- Whether a leaf is linked with all components around it, up to a repeater. -/
def IsLinked (o : List Branch × Element) : Prop :=
  ∀ c ∈ Branch.componentsOf o.1, Linked c.properties o.2

/-- The title in the inner component goes by a name that only the outer one has. -/
theorem not_isLinked_nestedTitles : ∃ e, recognize {} nestedTitles = .ok e ∧
    ¬ ∀ o ∈ e.leaves, IsLinked o := by
  obtain ⟨e, he, hleaves⟩ := Result.map_eq_ok_iff.mp recognize_nestedTitles
  refine ⟨e, he, fun hlinked => ?_⟩
  obtain ⟨o, ho, hnames⟩ := List.mem_map.mp (hleaves ▸ List.mem_cons_of_mem _ List.mem_cons_self)
  obtain ⟨hshown, hname, hcomponents⟩ := by simpa only [linkNames, Prod.mk.injEq] using hnames
  obtain ⟨c, hc, hinner⟩ := List.mem_map.mp (hcomponents ▸ List.mem_cons_self)
  obtain ⟨name, hname', p, hp, -⟩ := hlinked o ho c hc "Hello" hshown
  cases hname.symm.trans hname'
  have hmem : "title1" ∈ Fields.names c.properties := by
    by_contra hmem
    rw [Fields.get?_eq_none_iff.mpr hmem] at hp
    cases hp
  rw [hinner] at hmem
  simp at hmem

end Recognition

end Mockup
