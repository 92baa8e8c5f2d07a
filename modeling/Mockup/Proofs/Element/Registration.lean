import Mathlib.Data.List.Induction
import Mockup.Proofs.Element.Linking
import Mockup.Proofs.Element.Totality

namespace Mockup.Element

open PropertyTable

/-- What a property is registered under: the name of the layer, the kind of the property and the
value. -/
abbrev PropertyKey := String × String × String

def PropertyKey.value (k : PropertyKey) : String := k.2.2

def key? : Element → Option PropertyKey
  | leaf i (.text t) => if t.text.isEmpty then none else some (nameOr i "text", "string", t.text)
  | leaf i (.image m) => some (nameOr i "image", "image", m.reference.getD "")
  | _ => none

def keyIn? (o : List Branch × Element) : Option PropertyKey :=
  if o.1.any Branch.isRepeater then none else o.2.key?

def keysOf (es : List Element) : List PropertyKey := (es.flatMap leaves).filterMap keyIn?

def baseOf (n : Naming) (k : PropertyKey) : String :=
  if k.2.1 = "string" then textPropertyName n k.1 else n.identifier k.1

def registerKey (n : Naming) (t : PropertyTable) (k : PropertyKey) : PropertyTable :=
  (t.register k.1 k.2.1 k.2.2 (baseOf n k)).2

def tableOf (n : Naming) (ks : List PropertyKey) : PropertyTable := ks.foldl (registerKey n) {}

def nameIn (t : PropertyTable) (k : PropertyKey) : String := (lookup k t.named).getD ""

def withPropName (name : String) : Element → Element
  | leaf i (.text t) => leaf i (.text { t with propName := some name })
  | leaf i (.image m) => leaf i (.image { m with propName := some name })
  | e => e

def told (name : PropertyKey → String) (o : List Branch × Element) : List Branch × Element :=
  match keyIn? o with
  | some k => (o.1, o.2.withPropName (name k))
  | none => o

variable {n : Naming} {t t' : PropertyTable} {k l : PropertyKey} {ks : List PropertyKey}
  {name : String}

theorem lookup_cons (k l : PropertyKey) (name : String)
    (named : List (PropertyKey × String)) :
    lookup l ((k, name) :: named) = if k = l then some name else lookup l named := rfl

theorem registerKey_of_known (h : lookup k t.named = some name) : registerKey n t k = t := by
  rw [registerKey, register, h]

/-- A new key gets the first of its names that is not that of another value. -/
theorem registerKey_of_new (h : lookup k t.named = none) : ∃ i,
    (registerKey n t k).named = (k, numbered (baseOf n k) i) :: t.named ∧
    isFree t.properties k.value (numbered (baseOf n k) i) = true ∧
    (∀ j < i, isFree t.properties k.value (numbered (baseOf n k) j) = false) ∧
    ((numbered (baseOf n k) i ∉ Fields.names t.properties ∧ (registerKey n t k).properties =
        t.properties ++ [(numbered (baseOf n k) i, ⟨k.2.1, .text k.value⟩)]) ∨
      (numbered (baseOf n k) i ∈ Fields.names t.properties ∧
        (registerKey n t k).properties = t.properties)) := by
  obtain ⟨i, heq, hfree, hleast⟩ := firstFree_numbered t.properties k.2.2 (baseOf n k)
  refine ⟨i, ?_, hfree, hleast, ?_⟩
  · rw [registerKey, register, h, heq]
  · rw [registerKey, register, h, heq]
    by_cases hmem : numbered (baseOf n k) i ∈ Fields.names t.properties
    · right
      exact ⟨hmem, if_pos (Fields.has_eq_true_iff.mpr hmem)⟩
    · left
      refine ⟨hmem, ?_⟩
      rw [PropertyKey.value, ← Fields.put_of_not_mem hmem]
      exact if_neg (by rw [Fields.has_eq_true_iff]; exact hmem)

/-- Properties that are there stay as they are, and in their places. -/
theorem prefix_registerKey (n : Naming) (t : PropertyTable) (k : PropertyKey) :
    t.properties <+: (registerKey n t k).properties := by
  cases h : lookup k t.named with
  | some name => exact ⟨[], by rw [registerKey_of_known h, List.append_nil]⟩
  | none =>
      obtain ⟨i, -, -, -, ⟨-, hprops⟩ | ⟨-, hprops⟩⟩ := registerKey_of_new (n := n) h
      · rw [hprops]
        exact List.prefix_append _ _
      · exact ⟨[], by rw [hprops, List.append_nil]⟩

theorem lookup_registerKey_of_some (h : lookup l t.named = some name) :
    lookup l (registerKey n t k).named = some name := by
  cases hk : lookup k t.named with
  | some other => rw [registerKey_of_known hk, h]
  | none =>
      obtain ⟨i, hnamed, -⟩ := registerKey_of_new (n := n) hk
      rw [hnamed, lookup_cons, if_neg, h]
      rintro rfl
      rw [hk] at h
      cases h

theorem lookup_registerKey_self (n : Naming) (t : PropertyTable) (k : PropertyKey) :
    lookup k (registerKey n t k).named = some (t.register k.1 k.2.1 k.2.2 (baseOf n k)).1 := by
  rw [registerKey, register]
  cases h : lookup (k.1, k.2.1, k.2.2) t.named with
  | some name => exact h
  | none => exact if_pos rfl

theorem prefix_foldl_registerKey (n : Naming) (ks : List PropertyKey) (t : PropertyTable) :
    t.properties <+: (ks.foldl (registerKey n) t).properties := by
  induction ks generalizing t with
  | nil => exact List.prefix_refl _
  | cons k ks ih => exact (prefix_registerKey n t k).trans (ih _)

theorem lookup_foldl_registerKey (h : lookup l t.named = some name) :
    lookup l (ks.foldl (registerKey n) t).named = some name := by
  induction ks generalizing t with
  | nil => exact h
  | cons k ks ih => exact ih (lookup_registerKey_of_some h)

theorem exists_lookup_of_mem (h : k ∈ ks) :
    ∃ name, lookup k (ks.foldl (registerKey n) t).named = some name := by
  induction ks generalizing t with
  | nil => cases h
  | cons l ks ih =>
      rcases List.mem_cons.mp h with rfl | h
      · have hself := lookup_registerKey_self n t k
        rw [List.foldl_cons]
        exact ⟨_, lookup_foldl_registerKey hself⟩
      · exact ih h

/-- A table that comes of registering some keys: these are the keys that have names, and their names
are the names of the properties. -/
structure Registers (ks : List PropertyKey) (t : PropertyTable) : Prop where
  sound : t.Sound
  known : ∀ k, k ∈ ks ↔ ∃ name, lookup k t.named = some name
  names : ∀ name, name ∈ Fields.names t.properties ↔ ∃ k, lookup k t.named = some name

theorem Registers.register (h : Registers ks t) (n : Naming) (k : PropertyKey) :
    Registers (ks ++ [k]) (registerKey n t k) := by
  have hsound : (registerKey n t k).Sound := (register_spec h.sound _ _ _ _).1
  cases hk : lookup k t.named with
  | some name =>
      rw [registerKey_of_known hk] at hsound ⊢
      refine ⟨hsound, fun l => ?_, h.names⟩
      rw [← h.known, List.mem_append, List.mem_singleton]
      exact or_iff_left_of_imp fun hl => hl ▸ (h.known k).mpr ⟨name, hk⟩
  | none =>
      obtain ⟨i, hnamed, -, -, hprops⟩ := registerKey_of_new (n := n) hk
      generalize numbered (baseOf n k) i = name at hnamed hprops
      refine ⟨hsound, fun l => ?_, fun other => ?_⟩
      · rw [List.mem_append, List.mem_singleton, h.known, hnamed, lookup_cons]
        by_cases hl : k = l
        · simp [hl]
        · simp [hl, Ne.symm hl]
      · have hlookup : (∃ l, lookup l (registerKey n t k).named = some other) ↔
            other = name ∨ ∃ l, lookup l t.named = some other := by
          simp only [hnamed, lookup_cons]
          constructor
          · rintro ⟨l, hl⟩
            split at hl
            · exact .inl (Option.some.inj hl).symm
            · exact .inr ⟨l, hl⟩
          · rintro (rfl | ⟨l, hl⟩)
            · exact ⟨k, if_pos rfl⟩
            · refine ⟨l, ?_⟩
              rw [if_neg, hl]
              rintro rfl
              rw [hk] at hl
              cases hl
        rw [hlookup, ← h.names]
        rcases hprops with ⟨-, hprops⟩ | ⟨hmem, hprops⟩
        · rw [hprops, Fields.names, List.map_append, List.mem_append]
          simp [Fields.names, or_comm]
        · rw [hprops]
          exact (or_iff_right_of_imp fun hother => hother ▸ hmem).symm

theorem registers_tableOf (n : Naming) (ks : List PropertyKey) :
    Registers ks (tableOf n ks) := by
  induction ks using List.reverseRecOn with
  | nil => exact ⟨sound_empty, by simp [tableOf, lookup], by simp [tableOf, lookup, Fields.names]⟩
  | append_singleton ks k ih =>
      rw [tableOf, List.foldl_append]
      exact ih.register n k

structure Runs (n : Naming) (t : PropertyTable) (os os' : List (List Branch × Element))
    (t' : PropertyTable) : Prop where
  table : t' = (os.filterMap keyIn?).foldl (registerKey n) t
  told : os' = os.map (told (nameIn t'))

theorem told_of_keyIn?_eq_none {names : PropertyKey → String} {o : List Branch × Element}
    (h : keyIn? o = none) : told names o = o := by
  rw [told, h]

theorem told_of_keyIn?_eq_some {names : PropertyKey → String} {o : List Branch × Element}
    (h : keyIn? o = some k) : told names o = (o.1, o.2.withPropName (names k)) := by
  rw [told, h]

theorem nameIn_of_lookup (h : lookup k t.named = some name) : nameIn t k = name := by
  rw [nameIn, h]
  rfl

theorem keyIn?_append_of_repeater {r : Branch} (hr : r.isRepeater = true)
    (o : List Branch × Element) : keyIn? (o.1 ++ [r], o.2) = none := by
  simp [keyIn?, hr]

theorem keyIn?_append_of_free {r : Branch} (hr : r.isRepeater = false)
    (o : List Branch × Element) : keyIn? (o.1 ++ [r], o.2) = keyIn? o := by
  simp [keyIn?, hr]

theorem told_append_of_free (names : PropertyKey → String) {r : Branch}
    (hr : r.isRepeater = false) (o : List Branch × Element) :
    told names (o.1 ++ [r], o.2) = ((told names o).1 ++ [r], (told names o).2) := by
  rw [told, told, keyIn?_append_of_free hr]
  cases keyIn? o <;> rfl

theorem linkLeaf_of_no_key {i : Identity} {c : Leaf} (h : (leaf i c).key? = none) :
    linkLeaf n i t c = (c, t) := by
  cases c with
  | text c =>
      rw [key?] at h
      split at h
      · next hempty => rw [linkLeaf, if_pos hempty]
      · cases h
  | image c => cases h
  | icon c => rfl
  | button c => rfl

theorem linkLeaf_of_key {i : Identity} {c : Leaf} (h : (leaf i c).key? = some k) :
    leaf i (linkLeaf n i t c).1 =
        (leaf i c).withPropName (t.register k.1 k.2.1 k.2.2 (baseOf n k)).1 ∧
      (linkLeaf n i t c).2 = registerKey n t k := by
  cases c with
  | text c =>
      rw [key?] at h
      split at h
      · cases h
      · next hempty =>
          cases h
          rw [linkLeaf, if_neg hempty, registerKey, baseOf, if_pos rfl]
          exact ⟨rfl, rfl⟩
  | image c =>
      cases h
      rw [linkLeaf, registerKey, baseOf, if_neg (by simp)]
      exact ⟨rfl, rfl⟩
  | icon c => cases h
  | button c => cases h

theorem linkLeaf_runs (n : Naming) (i : Identity) (t : PropertyTable) (c : Leaf) :
    Runs n t [([], leaf i c)] [([], leaf i (linkLeaf n i t c).1)] (linkLeaf n i t c).2 := by
  cases h : (leaf i c).key? with
  | none =>
      have hnone : keyIn? ([], leaf i c) = none := h
      rw [linkLeaf_of_no_key h]
      exact ⟨by simp [hnone], by simp [told_of_keyIn?_eq_none hnone]⟩
  | some k =>
      have hsome : keyIn? ([], leaf i c) = some k := h
      obtain ⟨hleaf, htable⟩ := linkLeaf_of_key (n := n) (t := t) h
      rw [hleaf, htable]
      refine ⟨by simp [hsome], ?_⟩
      rw [List.map_singleton, told_of_keyIn?_eq_some hsome,
        nameIn_of_lookup (lookup_registerKey_self n t k)]

theorem linkAll_runs {es : List Element}
    (ih : ∀ e ∈ es, ∀ {t : PropertyTable} {e' : Element} {t' : PropertyTable},
      link n t e = .ok (e', t') → Runs n t e.leaves e'.leaves t')
    {es' : List Element} (h : linkAll n t es = .ok (es', t')) :
    Runs n t (es.flatMap leaves) (es'.flatMap leaves) t' := by
  induction es generalizing t es' with
  | nil =>
      cases h
      exact ⟨rfl, rfl⟩
  | cons e es ihl =>
      obtain ⟨e', s, es'', he, hes, rfl⟩ := linkAll_cons_eq_ok h
      have hfirst := ih e List.mem_cons_self he
      have hrest := ihl (fun e he => ih e (List.mem_cons_of_mem _ he)) hes
      refine ⟨?_, ?_⟩
      · rw [List.flatMap_cons, List.filterMap_append, List.foldl_append, ← hfirst.table]
        exact hrest.table
      · rw [List.flatMap_cons, List.flatMap_cons, List.map_append, ← hrest.told, hfirst.told]
        congr 1
        refine List.map_congr_left fun o ho => ?_
        -- the names of the first part are not changed by the second one
        cases hkey : keyIn? o with
        | none => rw [told_of_keyIn?_eq_none hkey, told_of_keyIn?_eq_none hkey]
        | some k =>
            obtain ⟨name, hname⟩ := exists_lookup_of_mem (n := n) (t := t)
              (List.mem_filterMap.mpr ⟨o, ho, hkey⟩)
            rw [← hfirst.table] at hname
            have hlater : lookup k t'.named = some name := by
              rw [hrest.table]
              exact lookup_foldl_registerKey hname
            rw [told_of_keyIn?_eq_some hkey, told_of_keyIn?_eq_some hkey, nameIn_of_lookup hname,
              nameIn_of_lookup hlater]

theorem link_runs {e : Element} : ∀ {t : PropertyTable} {e' : Element} {t' : PropertyTable},
    link n t e = .ok (e', t') → Runs n t e.leaves e'.leaves t' := by
  induction e with
  | leaf i c =>
      intro t e' t' h
      cases relinked_of_link h with
      | leaf => exact linkLeaf_runs n i t c
  | foreign i v =>
      intro t e' t' h
      cases relinked_of_link h
  | branch i r l es ih =>
      intro t e' t' h
      cases relinked_of_link h with
      | repeater _ b =>
          have hnone : ∀ o ∈ (branch i (.repeater b) l es).leaves, keyIn? o = none := by
            intro o ho
            rw [leaves_branch] at ho
            obtain ⟨o, -, rfl⟩ := List.mem_map.mp ho
            exact keyIn?_append_of_repeater rfl o
          refine ⟨?_, ?_⟩
          · rw [List.filterMap_eq_nil_iff.mpr hnone]
            rfl
          · rw [List.map_congr_left fun o ho => told_of_keyIn?_eq_none (hnone o ho), List.map_id']
      | branch _ hr _ hes =>
          have hfree := Branch.isRepeater_eq_false hr
          have hall := linkAll_runs ih hes
          rw [leaves_branch, leaves_branch]
          refine ⟨?_, ?_⟩
          · rw [List.filterMap_map, hall.table]
            congr 1
            exact List.filterMap_congr fun o _ => (keyIn?_append_of_free hfree o).symm
          · rw [hall.told, List.map_map, List.map_map]
            exact List.map_congr_left fun o _ => (told_append_of_free _ hfree o).symm

theorem keyIn?_told (names : PropertyKey → String) (o : List Branch × Element) :
    keyIn? (told names o) = keyIn? o := by
  obtain ⟨above, e⟩ := o
  cases h : keyIn? (above, e) with
  | none => rw [told_of_keyIn?_eq_none h, h]
  | some k =>
      rw [told_of_keyIn?_eq_some h, ← h, keyIn?, keyIn?]
      cases e with
      | leaf i c => cases c <;> rfl
      | branch i r l es => rfl
      | foreign i v => rfl

theorem propName?_told {names : PropertyKey → String} {o : List Branch × Element}
    (h : keyIn? o = some k) : (told names o).2.propName? = some (names k) := by
  rw [told_of_keyIn?_eq_some h]
  obtain ⟨above, e⟩ := o
  rw [keyIn?] at h
  split at h
  · cases h
  · cases e with
    | leaf i c =>
        cases c with
        | text c => rfl
        | image c => rfl
        | icon c => cases h
        | button c => cases h
    | branch i r l es => cases h
    | foreign i v => cases h

/-- What extracting the properties of some elements comes to. The name that a text or an image is
told is that of its key. -/
structure Extracts (n : Naming) (es es' : List Element) (properties : List (String × Property))
    (name : PropertyKey → String) : Prop where
  /-- nothing but names of properties is changed -/
  outline : es'.map unlinked = es.map unlinked
  /-- and these only in leaves with a key -/
  told : es'.flatMap leaves = (es.flatMap leaves).map (told name)
  linked : ∀ o ∈ es'.flatMap leaves, ∀ k, keyIn? o = some k →
    k ∈ keysOf es ∧ o.2.propName? = some (name k)
  distinct : (Fields.names properties).Nodup
  held : ∀ k ∈ keysOf es, Holds properties (name k) k.value
  names : ∀ p, p ∈ Fields.names properties ↔ ∃ k ∈ keysOf es, name k = p
  apart : ∀ k ∈ keysOf es, ∀ l ∈ keysOf es, k.value ≠ l.value → name k ≠ name l
  /-- the properties come of registering the keys in order -/
  table : properties = (tableOf n (keysOf es)).properties
  grows : ∀ before after, keysOf es = before ++ after →
    (tableOf n before).properties <+: properties
  /-- the search for a name ends at the first one that is free -/
  found : ∀ before k after, keysOf es = before ++ k :: after → k ∉ before →
    ∃ i, name k = numbered (baseOf n k) i ∧
      isFree (tableOf n before).properties k.value (numbered (baseOf n k) i) = true ∧
      ∀ j < i, isFree (tableOf n before).properties k.value (numbered (baseOf n k) j) = false

theorem value_eq_of_holds {properties : List (String × Property)} {value value' : String}
    (h : Holds properties name value) (h' : Holds properties name value') : value = value' := by
  obtain ⟨p, hp, hvalue⟩ := h
  obtain ⟨p', hp', hvalue'⟩ := h'
  cases hp.symm.trans hp'
  exact Value.text.inj (hvalue.symm.trans hvalue')

/-- The search for the name of a new key, seen from the end of the run. -/
theorem nameIn_tableOf_of_new {before after : List PropertyKey} (hk : k ∉ before) :
    ∃ i, nameIn (tableOf n (before ++ k :: after)) k = numbered (baseOf n k) i ∧
      isFree (tableOf n before).properties k.value (numbered (baseOf n k) i) = true ∧
      ∀ j < i, isFree (tableOf n before).properties k.value (numbered (baseOf n k) j) = false := by
  have hnew : lookup k (tableOf n before).named = none := by
    cases hlookup : lookup k (tableOf n before).named with
    | none => rfl
    | some name => exact absurd (((registers_tableOf n before).known k).mpr ⟨name, hlookup⟩) hk
  obtain ⟨i, hnamed, hfree, hleast, -⟩ := registerKey_of_new (n := n) hnew
  refine ⟨i, nameIn_of_lookup ?_, hfree, hleast⟩
  rw [tableOf, List.foldl_append, List.foldl_cons, ← tableOf]
  refine lookup_foldl_registerKey ?_
  rw [hnamed, lookup_cons, if_pos rfl]

/-- The texts and images in elements of the closed set of variants have properties: each of them is
told the name of one that has its value, and there are no others. -/
theorem extracts_of_closed (n : Naming) {es : List Element}
    (h : ∀ e ∈ es, ∀ x ∈ e.nodes, x.isForeign = false) :
    ∃ properties es' name, extractProperties n es = .ok (properties, es') ∧
      Extracts n es es' properties name := by
  obtain ⟨⟨es', t⟩, hlink⟩ := linkAll_succeeds (n := n) (fun e he => link_succeeds (h e he)) {}
  have hruns := linkAll_runs (fun e _ => link_runs) hlink
  have htable : t = tableOf n (keysOf es) := hruns.table
  have hregisters := registers_tableOf n (keysOf es)
  rw [← htable] at hregisters
  have hlookup : ∀ k ∈ keysOf es, lookup k t.named = some (nameIn t k) := by
    intro k hk
    obtain ⟨name, hname⟩ := (hregisters.known k).mp hk
    rw [hname, nameIn_of_lookup hname]
  have hheld : ∀ k ∈ keysOf es, Holds t.properties (nameIn t k) k.value := fun k hk =>
    hregisters.sound.named _ (mem_of_lookup (hlookup k hk))
  refine ⟨t.properties, es', nameIn t, ?_, ?_⟩
  · rw [extractProperties, hlink]
    rfl
  · exact {
      outline := map_unlinked_of_linkAll hlink
      told := hruns.told
      linked := by
        intro o ho k hk
        rw [hruns.told] at ho
        obtain ⟨before, hbefore, rfl⟩ := List.mem_map.mp ho
        rw [keyIn?_told] at hk
        exact ⟨List.mem_filterMap.mpr ⟨before, hbefore, hk⟩, propName?_told hk⟩
      distinct := hregisters.sound.names
      held := hheld
      names := by
        intro p
        rw [hregisters.names]
        constructor
        · rintro ⟨k, hk⟩
          exact ⟨k, (hregisters.known k).mpr ⟨p, hk⟩, nameIn_of_lookup hk⟩
        · rintro ⟨k, hk, rfl⟩
          exact ⟨k, hlookup k hk⟩
      apart := fun k hk l hl hne heq =>
        hne (value_eq_of_holds (hheld k hk) (heq ▸ hheld l hl))
      table := by rw [htable]
      grows := by
        intro before after hkeys
        rw [htable, hkeys, tableOf, tableOf, List.foldl_append]
        exact prefix_foldl_registerKey n after _
      found := by
        intro before k after hkeys hk
        rw [htable, hkeys]
        exact nameIn_tableOf_of_new hk }

def people : List Element :=
  let named (id name text : String) : Element :=
    .leaf { id := some id, name := some name } (.text { text })
  [named "1" "Name" "Ann", named "2" "Name" "Bob",
    .branch { id := some "3" } .container {} [named "4" "Name1" "Cid", named "5" "Name" "Ann"],
    .branch { id := some "6" } (.repeater {}) {} [named "7" "Name" "Dan"]]

theorem extracts_of_closed_people : ∃ properties es' name,
    extractProperties {} people = .ok (properties, es') ∧
    properties.map (fun p => (p.1, p.2.value.text?)) =
      [("name", some "Ann"), ("name1", some "Bob"), ("name11", some "Cid")] ∧
    (es'.flatMap leaves).map (fun o => o.2.propName?) =
      [some "name", some "name1", some "name11", some "name", none] ∧
    Extracts {} people es' properties name := by
  have hclosed : ∀ e ∈ people, ∀ x ∈ e.nodes, x.isForeign = false := by
    simp [people, nodes, nodesAll, isForeign]
  have hrun : (extractProperties {} people).map (fun found =>
      (found.1.map fun p => (p.1, p.2.value.text?),
        (found.2.flatMap leaves).map fun o => o.2.propName?)) =
      .ok ([("name", some "Ann"), ("name1", some "Bob"), ("name11", some "Cid")],
        [some "name", some "name1", some "name11", some "name", none]) := by
    decide
  obtain ⟨properties, es', name, hextract, hextracts⟩ := extracts_of_closed {} hclosed
  rw [hextract] at hrun
  obtain ⟨hproperties, hnames⟩ := Prod.mk.inj (Except.ok.inj hrun)
  exact ⟨properties, es', name, hextract, hproperties, hnames, hextracts⟩

end Mockup.Element
