import Mathlib.Data.String.Basic
import Mockup.Proofs.List
import Mockup.Proofs.Number.Powers
import Mockup.Proofs.Value.Sameness
import Mockup.Screen.Variants

namespace Mockup.Variants

open Mockup.Result

variable {ts : List Document} {t : Document} {l : Layer} {s : Interaction}
  {style : StateStyle} {states : List StateStyle}

def spelled (ts : List Document) : List (String × String) :=
  (components ts).flatMap fun l => parseName l.label

theorem names_addValue (table : List (String × List String)) (entry : String × String) :
    Fields.names (addValue table entry) =
      if entry.1 ∈ Fields.names table then Fields.names table
      else Fields.names table ++ [entry.1] := by
  rw [addValue]
  split
  · next h => exact Fields.names_put_of_mem h _
  · next h => rw [Fields.put_of_not_mem h, Fields.names, List.map_append]; rfl

theorem names_foldl_addValue (entries : List (String × String)) :
    Fields.names (entries.foldl addValue []) = (entries.map Prod.fst).eraseDups := by
  induction entries using List.reverseRecOn with
  | nil => rfl
  | append_singleton entries entry ih =>
      rw [List.foldl_append, List.foldl_cons, List.foldl_nil, names_addValue, ih, List.map_append,
        List.map_cons, List.map_nil, eraseDups_concat]
      simp only [List.mem_eraseDups]

theorem mem_foldl_addValue_iff (entries : List (String × String)) {name value : String} :
    value ∈ (Fields.get? name (entries.foldl addValue [])).getD [] ↔ (name, value) ∈ entries := by
  induction entries using List.reverseRecOn with
  | nil => simp [Fields.get?]
  | append_singleton entries entry ih =>
      obtain ⟨n, v⟩ := entry
      rw [List.foldl_append, List.foldl_cons, List.foldl_nil, addValue, List.mem_append,
        List.mem_singleton, Prod.mk.injEq]
      by_cases h : name = n
      · subst h
        simp [Fields.get?_put_self, ih]
      · simp [Fields.get?_put_of_ne h, ih, h]

structure HasValuesOf (entries : List (String × String)) (p : VariantProperty) : Prop where
  ascending : p.values.Pairwise (· < ·)
  mem_iff : ∀ value, value ∈ p.values ↔ (p.name, value) ∈ entries
  default : ∃ first ∈ p.values.head?, p.default = .text first

theorem hasValuesOf_propertyOf {entries : List (String × String)} {entry : String × List String}
    (h : ∀ value, value ∈ entry.2 ↔ (entry.1, value) ∈ entries)
    (hsome : entry.1 ∈ entries.map Prod.fst) : HasValuesOf entries (propertyOf entry) where
  ascending := pairwise_lt_sorted entry.2
  mem_iff value := by
    rw [propertyOf, ← h]
    simp [List.mem_mergeSort, List.mem_eraseDups]
  default := by
    obtain ⟨⟨name, value⟩, hmem, rfl⟩ := List.mem_map.mp hsome
    have hvalue : value ∈ (propertyOf entry).values := by
      rw [propertyOf]
      simpa [List.mem_mergeSort, List.mem_eraseDups, h] using hmem
    obtain ⟨first, rest, hvalues⟩ := List.exists_cons_of_ne_nil (List.ne_nil_of_mem hvalue)
    refine ⟨first, by rw [hvalues]; rfl, ?_⟩
    rw [propertyOf] at hvalues ⊢
    dsimp only at hvalues ⊢
    rw [hvalues]
    rfl

theorem names_ofChildren (ts : List Document) :
    (ofChildren ts).map VariantProperty.name = ((spelled ts).map Prod.fst).eraseDups := by
  rw [← names_foldl_addValue, ofChildren, List.map_map]
  rfl

theorem hasValuesOf_of_mem_ofChildren {p : VariantProperty} (hp : p ∈ ofChildren ts) :
    HasValuesOf (spelled ts) p := by
  obtain ⟨entry, hentry, rfl⟩ := List.mem_map.mp hp
  have hnames := names_foldl_addValue (spelled ts)
  have hnodup := hnames ▸ nodup_eraseDups ((spelled ts).map Prod.fst)
  have hget := Fields.get?_of_mem hnodup hentry
  refine hasValuesOf_propertyOf (fun value => ?_) ?_
  · rw [← mem_foldl_addValue_iff, hget]
    rfl
  · rw [← List.mem_eraseDups, ← hnames]
    exact List.mem_map_of_mem hentry

def shown? (t : Document) : Option Interaction :=
  if t.item.isKind ["COMPONENT"] then stateOf? t.item else none

inductive Sets (l : Layer) : String → Value → Prop
  | opacity {o : Number} (h : l.opacity = some o) (hfaded : o.lt 1 = true) :
      Sets l "opacity" (.number o)
  | display (h : l.visible = false) : Sets l "display" (.text "none")
  | background {c : Color} {text : String} (h : firstColor? l.fills = some c)
      (htext : rgbaText c = .ok text) : Sets l "backgroundColor" (.text text)

/-- A component that is faded far, or has something in it that is named like an indicator. -/
def HasIndicator (t : Document) : Prop :=
  (∃ o ∈ t.item.opacity, o.lt 1 = true ∧ o.le disabledOpacity = true) ∨
    ∃ child ∈ t.children, isIndicator child.item = true

/-- The first fill can be written as a colour: its alpha is given, and in the range of reals. -/
def IsPaintable (l : Layer) : Prop := ∀ c ∈ firstColor? l.fills, ∃ a ∈ c.alpha, a.InRange

theorem succeeds_rgbaText_iff {c : Color} :
    Succeeds (rgbaText c) ↔ ∃ a ∈ c.alpha, a.InRange := by
  rw [rgbaText]
  cases c.alpha with
  | none =>
      refine iff_of_false (fun h => h.ne_error rfl) ?_
      rintro ⟨a, h, -⟩
      cases h
  | some a =>
      simp only [Option.mem_some_iff, exists_eq_left', Number.InRange]
      cases h : a.toReal with
      | ok x =>
          refine iff_of_true ?_ ⟨x, rfl⟩
          rw [Number.known, ok_bind, alphaText, h]
          exact succeeds_ok _
      | error fault =>
          refine iff_of_false ?_ (by simp)
          rw [Number.known, ok_bind, alphaText, h]
          exact fun h => h.ne_error rfl

theorem succeeds_analyze_iff (ts : List Document) : Succeeds (analyze l ts) ↔ IsPaintable l := by
  constructor
  · rintro ⟨look, h⟩ c hc
    obtain ⟨background, hbackground, -⟩ := bind_eq_ok_iff.mp h
    obtain ⟨hnone, -⟩ | ⟨c', text, hc', -, htext⟩ := mapM_option_eq_ok_iff.mp hbackground
    · rw [hnone] at hc
      cases hc
    · rw [hc'] at hc
      cases hc
      exact succeeds_rgbaText_iff.mp ⟨text, htext⟩
  · intro h
    have hcolor := succeeds_mapM_option fun c hc => succeeds_rgbaText_iff.mpr (h c hc)
    exact hcolor.bind fun _ _ => succeeds_ok _

theorem analyze_spec {overrides : Fields} {hasIndicator : Bool}
    (h : analyze t.item t.children = .ok (overrides, hasIndicator)) :
    (Fields.names overrides).Nodup ∧
    (∀ key value, Fields.get? key overrides = some value ↔ Sets t.item key value) ∧
    (hasIndicator = true ↔ HasIndicator t) := by
  obtain ⟨background, hbackground, h⟩ := Result.bind_eq_ok_iff.mp h
  cases h
  have hpainted {text : String} := eq_some_iff_of_mapM_option hbackground (b := text)
  have hnodup : (["opacity", "display", "backgroundColor"]).Nodup := by decide
  refine ⟨(Value.names_sublist_parts _).nodup hnodup, fun key value => ?_, ?_⟩
  · refine (Fields.get?_parts_eq_some_iff (by exact hnodup)).trans ?_
    simp only [List.mem_cons, Prod.mk.injEq, List.not_mem_nil, or_false]
    constructor
    · rintro (⟨rfl, h⟩ | ⟨rfl, h⟩ | ⟨rfl, h⟩)
      · obtain ⟨o, ho, rfl⟩ := Option.map_eq_some_iff.mp h.symm
        obtain ⟨ho, hfaded⟩ := Option.filter_eq_some_iff.mp ho
        exact .opacity ho hfaded
      · split at h
        · cases h
        · next hvisible =>
            cases h
            exact .display (by simpa using hvisible)
      · obtain ⟨text, hsome, rfl⟩ := Option.map_eq_some_iff.mp h.symm
        obtain ⟨c, hc, htext⟩ := hpainted.mp hsome
        exact .background hc htext
    · rintro (⟨ho, hfaded⟩ | hvisible | ⟨hc, htext⟩)
      · rw [ho, Option.filter_some, if_pos hfaded]
        exact .inl ⟨rfl, rfl⟩
      · rw [hvisible]
        exact .inr (.inl ⟨rfl, rfl⟩)
      · rw [hpainted.mpr ⟨_, hc, htext⟩]
        exact .inr (.inr ⟨rfl, rfl⟩)
  · rw [HasIndicator, Bool.or_eq_true, List.any_eq_true, Option.any_eq_true]
    simp only [Option.mem_def, Option.filter_eq_some_iff, and_assoc]

/-- The value that the last of those components sets that show a state and set the key at all. -/
def LastSets (ts : List Document) (s : Interaction) (key : String) (value : Value) : Prop :=
  ∃ before t after, ts = before ++ t :: after ∧ shown? t = some s ∧ Sets t.item key value ∧
    ∀ u ∈ after, shown? u = some s → ∀ w, ¬Sets u.item key w

structure Gathers (ts : List Document) (style : StateStyle) : Prop where
  distinct : (Fields.names style.overrides).Nodup
  indicator : style.hasIndicator = true ↔
    ∃ t ∈ ts, shown? t = some style.state ∧ HasIndicator t
  overrides : ∀ key value,
    Fields.get? key style.overrides = some value ↔ LastSets ts style.state key value

theorem lastSets_concat_iff {key : String} {value : Value} :
    LastSets (ts ++ [t]) s key value ↔
      (shown? t = some s ∧ Sets t.item key value) ∨
      ((shown? t = some s → ∀ w, ¬Sets t.item key w) ∧ LastSets ts s key value) := by
  constructor
  · rintro ⟨before, u, after, heq, hshown, hsets, hlast⟩
    -- the component that sets the value is the last one, or the last one comes after it
    cases after using List.reverseRecOn with
    | nil =>
        obtain ⟨-, hlast'⟩ := List.append_inj' heq rfl
        cases hlast'
        exact .inl ⟨hshown, hsets⟩
    | append_singleton after x =>
        rw [← List.cons_append, ← List.append_assoc] at heq
        obtain ⟨rfl, hx⟩ := List.append_inj' heq rfl
        cases hx
        obtain ⟨hafter, hx⟩ := List.forall_mem_append.mp hlast
        exact .inr ⟨hx t List.mem_cons_self, before, u, after, rfl, hshown, hsets, hafter⟩
  · rintro (⟨hshown, hsets⟩ | ⟨hnone, before, u, after, rfl, hshown, hsets, hlast⟩)
    · exact ⟨ts, t, [], rfl, hshown, hsets, nofun⟩
    · refine ⟨before, u, after ++ [t], by simp, hshown, hsets, ?_⟩
      exact List.forall_mem_append.mpr ⟨hlast, List.forall_mem_singleton.mpr hnone⟩

namespace Gathers

theorem fresh (h : ∀ t ∈ ts, shown? t ≠ some s) : Gathers ts { state := s } where
  distinct := List.nodup_nil
  indicator := by
    refine iff_of_false Bool.false_ne_true ?_
    rintro ⟨t, ht, hshown, -⟩
    exact h t ht hshown
  overrides key value := by
    refine iff_of_false (fun h => by cases h) ?_
    rintro ⟨before, t, after, rfl, hshown, -⟩
    exact h t (List.mem_append_right _ List.mem_cons_self) hshown

/-- A component that shows another state changes nothing. -/
theorem concat_of_ne (h : Gathers ts style) (ht : shown? t ≠ some style.state) :
    Gathers (ts ++ [t]) style where
  distinct := h.distinct
  indicator := by simp [h.indicator, or_and_right, exists_or, ht]
  overrides key value := by simp [lastSets_concat_iff, h.overrides, ht]

/-- The looks of one more component are merged into those that are there. -/
theorem concat_of_eq (h : Gathers ts style) (ht : shown? t = some style.state)
    {overrides : Fields} {hasIndicator : Bool}
    (hlook : analyze t.item t.children = .ok (overrides, hasIndicator)) :
    Gathers (ts ++ [t]) (merge style overrides hasIndicator) := by
  obtain ⟨hnodup, hsets, hindicator⟩ := analyze_spec hlook
  refine ⟨Fields.nodup_names_putAll h.distinct, ?_, fun key value => ?_⟩
  · rw [merge, Bool.or_eq_true, h.indicator, hindicator]
    simp [or_and_right, exists_or, ht]
  · have hnone : Fields.get? key overrides = none ↔ ∀ w, ¬Sets t.item key w := by
      simp only [Option.eq_none_iff_forall_ne_some, ne_eq, hsets]
    rw [merge, Fields.get?_putAll_eq_some_iff hnodup, lastSets_concat_iff, h.overrides, hsets,
      hnone]
    simp [ht]

end Gathers

theorem isSome_findState_iff :
    (findState states s).isSome = true ↔ s ∈ states.map StateStyle.state := by
  simp [findState, List.find?_isSome]

theorem map_state_addState {found : List Interaction}
    (h : states.map StateStyle.state = found.eraseDups) (s : Interaction) :
    (addState states s).map StateStyle.state = (found ++ [s]).eraseDups := by
  rw [addState, eraseDups_concat, ← h]
  simp only [isSome_findState_iff, h, List.mem_eraseDups]
  split
  · exact h
  · rw [List.map_append, h]
    rfl

theorem map_state_mergeState (states : List StateStyle) (s : Interaction) (overrides : Fields)
    (hasIndicator : Bool) :
    (mergeState states s overrides hasIndicator).map StateStyle.state =
      (addState states s).map StateStyle.state := by
  rw [mergeState, List.map_map]
  refine List.map_congr_left fun style _ => ?_
  dsimp only [Function.comp_apply]
  split <;> rfl

theorem addComponent_of_eq_none (h : shown? t = none) : addComponent states t = .ok states := by
  rw [addComponent, ← shown?, h]

theorem addComponent_of_eq_some (h : shown? t = some s) :
    addComponent states t = do
      let look ← analyze t.item t.children
      return mergeState states s look.1 look.2 := by
  rw [addComponent, ← shown?, h]

structure Sums (named : List Interaction) (ts : List Document) (states : List StateStyle) :
    Prop where
  found : states.map StateStyle.state = (named ++ ts.filterMap shown?).eraseDups
  gathers : ∀ style ∈ states, Gathers ts style

namespace Sums

variable {named : List Interaction}

/-- A state that is added has not been shown. -/
theorem gathers_addState (h : Sums named ts states) (s : Interaction) :
    ∀ style ∈ addState states s, Gathers ts style := by
  rw [addState]
  split
  · exact h.gathers
  · next hnew =>
      rw [isSome_findState_iff, h.found, List.mem_eraseDups, List.mem_append] at hnew
      have hfresh : Gathers ts { state := s } := .fresh fun t ht hshown =>
        hnew (.inr (List.mem_filterMap.mpr ⟨t, ht, hshown⟩))
      exact List.forall_mem_append.mpr ⟨h.gathers, List.forall_mem_singleton.mpr hfresh⟩

theorem foldl_addState (named : List Interaction) :
    Sums (.default :: named) [] (named.foldl addState [{ state := .default }]) := by
  induction named using List.reverseRecOn with
  | nil => exact ⟨rfl, List.forall_mem_singleton.mpr (.fresh nofun)⟩
  | append_singleton named s ih =>
      rw [List.foldl_append, List.foldl_cons, List.foldl_nil]
      refine ⟨?_, ih.gathers_addState s⟩
      rw [map_state_addState ih.found]
      simp

/-- One more component adds its state, unless that is there, and its looks to those of the state. -/
theorem step (h : Sums named ts states) {next : List StateStyle}
    (hnext : addComponent states t = .ok next) : Sums named (ts ++ [t]) next := by
  cases hshown : shown? t with
  | none =>
      rw [addComponent_of_eq_none hshown] at hnext
      cases hnext
      refine ⟨?_, fun style hstyle => (h.gathers style hstyle).concat_of_ne (by simp [hshown])⟩
      rw [h.found, List.filterMap_append, List.filterMap_cons_none hshown, List.filterMap_nil,
        List.append_nil]
  | some s =>
      rw [addComponent_of_eq_some hshown] at hnext
      obtain ⟨⟨overrides, hasIndicator⟩, hlook, hnext⟩ := bind_eq_ok_iff.mp hnext
      cases hnext
      refine ⟨?_, List.forall_mem_map.mpr fun style hstyle => ?_⟩
      · rw [map_state_mergeState, map_state_addState h.found, List.filterMap_append,
          List.filterMap_cons_some hshown, List.filterMap_nil, List.append_assoc]
      · have hgathers := h.gathers_addState s style hstyle
        split
        · next heq => exact hgathers.concat_of_eq (heq ▸ hshown) hlook
        · next hne =>
            refine hgathers.concat_of_ne fun heq => hne ?_
            exact Option.some.inj (heq.symm.trans hshown)

/-- All components, from the left. -/
theorem foldlM_addComponent (h : Sums named [] states) {all : List StateStyle}
    (hall : ts.foldlM addComponent states = .ok all) : Sums named ts all := by
  induction ts using List.reverseRecOn generalizing all with
  | nil =>
      cases hall
      exact h
  | append_singleton ts t ih =>
      rw [List.foldlM_append] at hall
      obtain ⟨before, hbefore, hall⟩ := bind_eq_ok_iff.mp hall
      obtain ⟨next, hnext, hall⟩ := bind_eq_ok_iff.mp hall
      cases hall
      exact (ih hbefore).step hnext

end Sums

theorem succeeds_addComponent_iff (states : List StateStyle) :
    Succeeds (addComponent states t) ↔ ∀ s, shown? t = some s → IsPaintable t.item := by
  cases hshown : shown? t with
  | none =>
      rw [addComponent_of_eq_none hshown]
      exact iff_of_true (succeeds_ok _) nofun
  | some s =>
      rw [addComponent_of_eq_some hshown, ← succeeds_analyze_iff t.children]
      constructor
      · rintro ⟨next, h⟩ _ _
        obtain ⟨look, hlook, -⟩ := bind_eq_ok_iff.mp h
        exact ⟨look, hlook⟩
      · intro h
        exact (h s rfl).bind fun _ _ => succeeds_ok _

theorem succeeds_foldlM_addComponent_iff :
    Succeeds (ts.foldlM addComponent states) ↔
      ∀ t ∈ ts, ∀ s, shown? t = some s → IsPaintable t.item := by
  induction ts generalizing states with
  | nil => exact iff_of_true (succeeds_ok _) nofun
  | cons t ts ih =>
      rw [List.foldlM_cons, List.forall_mem_cons, ← succeeds_addComponent_iff states]
      constructor
      · rintro ⟨all, h⟩
        obtain ⟨next, hnext, h⟩ := bind_eq_ok_iff.mp h
        exact ⟨⟨next, hnext⟩, ih.mp ⟨all, h⟩⟩
      · rintro ⟨hhead, htail⟩
        exact hhead.bind fun next _ => ih.mpr htail

theorem succeeds_statesOf_iff (properties : List VariantProperty) :
    Succeeds (statesOf ts properties) ↔
      ∀ t ∈ ts, ∀ s, shown? t = some s → IsPaintable t.item :=
  succeeds_foldlM_addComponent_iff

theorem exists_spelled_of_shown (ht : t ∈ ts) (h : shown? t = some s) :
    ∃ entry ∈ spelled ts, interactionOf? entry.1 entry.2 = some s := by
  rw [shown?] at h
  split at h
  · next hkind =>
      obtain ⟨entry, hentry, hstate⟩ := List.exists_of_findSome?_eq_some h
      refine ⟨entry, List.mem_flatMap.mpr ⟨t.item, ?_, hentry⟩, hstate⟩
      exact List.mem_filter.mpr ⟨List.mem_map_of_mem ht, hkind⟩
  · cases h

theorem exists_property_iff :
    (∃ p ∈ ofChildren ts, ∃ value ∈ p.values, interactionOf? p.name value = some s) ↔
      ∃ entry ∈ spelled ts, interactionOf? entry.1 entry.2 = some s := by
  constructor
  · rintro ⟨p, hp, value, hvalue, h⟩
    exact ⟨(p.name, value), ((hasValuesOf_of_mem_ofChildren hp).mem_iff value).mp hvalue, h⟩
  · rintro ⟨⟨name, value⟩, hentry, h⟩
    have hname : name ∈ (ofChildren ts).map VariantProperty.name := by
      rw [names_ofChildren, List.mem_eraseDups]
      exact List.mem_map_of_mem hentry
    obtain ⟨p, hp, rfl⟩ := List.mem_map.mp hname
    exact ⟨p, hp, value, ((hasValuesOf_of_mem_ofChildren hp).mem_iff value).mpr hentry, h⟩

/-- The summary of a set: every property once, in the order in which they are first spelled, with
its values; and every state once, the default one first, with the looks of the components that show
it. Another state is there if and only if it is spelled. -/
structure Summarizes (ts : List Document) (v : Variants) : Prop where
  isSet : v.isComponentSet = true
  names : v.properties.map VariantProperty.name = ((spelled ts).map Prod.fst).eraseDups
  values : ∀ p ∈ v.properties, HasValuesOf (spelled ts) p
  distinct : (v.states.map StateStyle.state).Nodup
  first : (v.states.map StateStyle.state).head? = some .default
  listed : ∀ s ≠ .default, s ∈ v.states.map StateStyle.state ↔
    ∃ entry ∈ spelled ts, interactionOf? entry.1 entry.2 = some s
  gathers : ∀ style ∈ v.states, Gathers ts style

theorem sums_statesOf {properties : List VariantProperty}
    (h : statesOf ts properties = .ok states) :
    Sums (.default :: properties.flatMap fun p => p.values.filterMap (interactionOf? p.name)) ts
      states :=
  (Sums.foldl_addState _).foldlM_addComponent h

theorem detect_eq_of_set (hset : l.isKind ["COMPONENT_SET"] = true) (hne : ts ≠ []) :
    detect (.node l ts) = do
      return ⟨true, ofChildren ts, ← statesOf ts (ofChildren ts)⟩ := by
  have hsome : (true && !ts.isEmpty) = true := by simpa using hne
  rw [detect, hset]
  simp only [if_pos hsome]

theorem succeeds_detect_iff (hset : l.isKind ["COMPONENT_SET"] = true) (hne : ts ≠ []) :
    Succeeds (detect (.node l ts)) ↔
      ∀ t ∈ ts, ∀ s, shown? t = some s → IsPaintable t.item := by
  rw [detect_eq_of_set hset hne, ← succeeds_statesOf_iff (ofChildren ts)]
  constructor
  · rintro ⟨v, h⟩
    obtain ⟨states, hstates, -⟩ := bind_eq_ok_iff.mp h
    exact ⟨states, hstates⟩
  · exact fun h => h.bind fun _ _ => succeeds_ok _

theorem summarizes_of_detect {v : Variants} (hset : l.isKind ["COMPONENT_SET"] = true)
    (hne : ts ≠ []) (h : detect (.node l ts) = .ok v) : Summarizes ts v := by
  rw [detect_eq_of_set hset hne] at h
  obtain ⟨states, hstates, h⟩ := bind_eq_ok_iff.mp h
  cases h
  have hsums := sums_statesOf hstates
  exact {
    isSet := rfl
    names := names_ofChildren ts
    values := fun p hp => hasValuesOf_of_mem_ofChildren hp
    distinct := hsums.found ▸ nodup_eraseDups _
    first := by
      dsimp only
      rw [hsums.found, List.cons_append, List.eraseDups_cons]
      rfl
    listed := fun s hs => by
      dsimp only
      rw [hsums.found, List.mem_eraseDups, List.cons_append, List.mem_cons, List.mem_append,
        or_iff_right hs, ← exists_property_iff, or_iff_left_of_imp]
      -- what is shown is spelled, so that the components add no state to those that are named
      · simp only [List.mem_flatMap, List.mem_filterMap]
      · intro hmem
        obtain ⟨t, ht, hshown⟩ := List.mem_filterMap.mp hmem
        have h := exists_property_iff.mpr (exists_spelled_of_shown ht hshown)
        simpa only [List.mem_flatMap, List.mem_filterMap] using h
    gathers := hsums.gathers }

/-- A set with children is summarized, unless a component that shows a state cannot be painted. -/
theorem detect_summarizes (hset : l.isKind ["COMPONENT_SET"] = true) (hne : ts ≠ []) :
    (∀ v, detect (.node l ts) = .ok v → Summarizes ts v) ∧
    (Succeeds (detect (.node l ts)) ↔
      ∀ t ∈ ts, ∀ s, shown? t = some s → IsPaintable t.item) :=
  ⟨fun _ h => summarizes_of_detect hset hne h, succeeds_detect_iff hset hne⟩

def pressedSet (alpha : Number) : Document :=
  let button (id name : String) (fills : List Fill) : Document :=
    .node { id := some id, name := some name, kind := some "COMPONENT", fills } []
  .node { id := some "1", name := some "Button", kind := some "COMPONENT_SET" }
    [button "2" "Size=Large, State=Pressed" [⟨.solid { red := 255, alpha := some alpha }, some 1⟩],
      button "3" "Size=Large, State=Pressed" [⟨.solid {}, some 1⟩],
      button "4" "Size=Small, State=Hover" []]

theorem detect_summarizes_pressedSet : ∃ v, detect (pressedSet 1) = .ok v ∧
    Summarizes (pressedSet 1).children v ∧
    v.properties.map VariantProperty.name = ["Size", "State"] := by
  have hset : (pressedSet 1).item.isKind ["COMPONENT_SET"] = true := by decide
  have hne : (pressedSet 1).children ≠ [] := List.cons_ne_nil _ _
  have hpaintable : ∀ t ∈ (pressedSet 1).children, IsPaintable t.item := by
    refine List.forall_mem_cons.mpr ⟨?_, List.forall_mem_cons.mpr ⟨?_, ?_⟩⟩
    · rintro _ ⟨⟩
      exact ⟨1, rfl, Number.inRange_int (by decide)⟩
    · rintro _ ⟨⟩
      exact ⟨_, rfl, Number.IsReal.inRange ⟨_, rfl⟩⟩
    · refine List.forall_mem_singleton.mpr ?_
      rintro _ ⟨⟩
  obtain ⟨hsummarizes, hsucceeds⟩ := detect_summarizes hset hne
  obtain ⟨v, hv⟩ := hsucceeds.mpr fun t ht _ _ => hpaintable t ht
  have hsummary := hsummarizes v hv
  refine ⟨v, hv, hsummary, hsummary.names.trans ?_⟩
  decide

/-- An alpha that is too large for a real cannot be written, and then nothing is told of the set,
not even of the two buttons that can be painted. -/
theorem not_detected_pressedSet :
    (pressedSet (.int (2 ^ 1024 : Nat))).item.isKind ["COMPONENT_SET"] = true ∧
    ("State", "Pressed") ∈ spelled (pressedSet (.int (2 ^ 1024 : Nat))).children ∧
    ∀ v, detect (pressedSet (.int (2 ^ 1024 : Nat))) ≠ .ok v := by
  have hset : (pressedSet (.int (2 ^ 1024 : Nat))).item.isKind ["COMPONENT_SET"] = true := rfl
  refine ⟨hset, by decide, fun v hv => ?_⟩
  have hpaintable := (succeeds_detect_iff hset (List.cons_ne_nil _ _)).mp ⟨v, hv⟩ _
    List.mem_cons_self .pressed (by decide)
  obtain ⟨a, ha, hrange⟩ := hpaintable _ rfl
  cases ha
  exact absurd (Number.inRange_two_pow_iff.mp hrange) (lt_irrefl 1024)

end Mockup.Variants
