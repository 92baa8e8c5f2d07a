import Mockup.Proofs.Element.Rejection
import Mockup.Proofs.Pattern.Likeness
import Mockup.Proofs.Search

namespace Mockup.Listing

open Element Mockup.Result

/-- A container or a card of three or more elements that all look like the first of them. -/
structure IsUniform (e : Element) : Prop where
  group : e.isGroup = true
  several : 3 ≤ e.parts.length
  alike : ∀ first ∈ e.parts.head?, ∀ c ∈ e.parts, Resembles first c

instance (e : Element) : Decidable (IsUniform e) :=
  decidable_of_iff (e.isGroup = true ∧ 3 ≤ e.parts.length ∧
      ∀ first ∈ e.parts.head?, ∀ c ∈ e.parts, Resembles first c)
    ⟨fun ⟨hgroup, hseveral, halike⟩ => ⟨hgroup, hseveral, halike⟩,
      fun h => ⟨h.group, h.several, h.alike⟩⟩

def outermost (e : Element) : List Element :=
  (e.places.filter fun p => IsUniform p.2 ∧ ∀ a ∈ p.1, ¬IsUniform a).map Prod.snd

/-- What is said of a list: which element it is and which ones are in it, how they stand and what
they are called. -/
def Reports (e : Element) (l : Listing) : Prop :=
  match e with
  | .branch i _ layout es =>
    l.containerId = i.id ∧ l.itemIds = es.map Element.id ∧
      (l.orientation = .horizontal ↔ layout.flow = .row) ∧
      ∃ first ∈ es.head?, itemTypeOf first = .ok l.itemType
  | _ => False

variable {e first : Element}

theorem isUniform_branch_iff {i : Identity} {r : Branch} {l : Layout} {es : List Element} :
    IsUniform (.branch i r l es) ↔
      r.isGroup = true ∧ ∃ first second third rest, es = first :: second :: third :: rest ∧
        ∀ c ∈ es, Resembles first c := by
  constructor
  · rintro ⟨hgroup, hseveral, halike⟩
    refine ⟨hgroup, ?_⟩
    match es, hseveral with
    | first :: second :: third :: rest, _ =>
        exact ⟨first, second, third, rest, rfl, halike first rfl⟩
  · rintro ⟨hgroup, first, second, third, rest, rfl, halike⟩
    refine ⟨hgroup, by simp [parts], ?_⟩
    rintro _ ⟨⟩
    exact halike

/-- Why it cannot be told of a group of several elements what is to be reported: the size of one
cannot be compared with that of the first, or the first gives no name to all. -/
def IsUndecided (e : Element) (fault : Mockup.Fault) : Prop :=
  e.isGroup = true ∧ 3 ≤ e.parts.length ∧ ∃ first ∈ e.parts.head?,
    (∃ c ∈ e.parts, ∃ f, similarSize c.box first.box = .error f ∧ fault = .number f) ∨
      IsUniform e ∧ itemTypeOf first = .error fault

theorem listOf?_of_isGroup_eq_false (h : e.isGroup = false) : listOf? e = .ok none := by
  cases e with
  | leaf i c => rfl
  | foreign i v => rfl
  | branch i r l es => rw [listOf?, if_neg (by rw [← isGroup, h]; exact Bool.false_ne_true)]

def IsListed (e : Element) (l : Listing) : Prop := IsUniform e ∧ Reports e l

section Several

variable {i : Identity} {r : Branch} {layout : Layout} {second third : Element}
  {rest : List Element}

/-- Of three or more elements it is asked whether they look alike, and then what they are called. -/
theorem listOf?_several (hgroup : r.isGroup = true) :
    listOf? (.branch i r layout (first :: second :: third :: rest)) = (do
      if ← (first :: second :: third :: rest).allM (isLike first) then
        return some ⟨i.id, (first :: second :: third :: rest).map Element.id,
          if layout.flow = .row then .horizontal else .vertical, ← itemTypeOf first⟩
      else return none) := by
  rw [listOf?, if_pos hgroup, of?]

theorem allM_isLike_iff (i : Identity) (layout : Layout) (hgroup : r.isGroup = true)
    (hclosed : ∀ c ∈ first :: second :: third :: rest, c.isForeign = false) :
    (first :: second :: third :: rest).allM (isLike first) = .ok true ↔
      IsUniform (.branch i r layout (first :: second :: third :: rest)) := by
  rw [allM_eq_ok_true_iff, isUniform_branch_iff]
  have hlike (c : Element) (hc : c ∈ first :: second :: third :: rest) :=
    isLike_eq_ok_true_iff (hclosed c hc) (hclosed first List.mem_cons_self)
  constructor
  · exact fun h => ⟨hgroup, first, second, third, rest, rfl, fun c hc => (hlike c hc).mp (h c hc)⟩
  · rintro ⟨-, _, _, _, _, ⟨⟩, h⟩
    exact fun c hc => (hlike c hc).mpr (h c hc)

theorem finds_several (hgroup : r.isGroup = true)
    (hclosed : ∀ c ∈ first :: second :: third :: rest, c.isForeign = false) :
    Finds (IsListed (.branch i r layout (first :: second :: third :: rest)))
      (¬IsUniform (.branch i r layout (first :: second :: third :: rest)))
      (listOf? (.branch i r layout (first :: second :: third :: rest))) := by
  have hiff := allM_isLike_iff i layout hgroup hclosed
  intro found h
  rw [listOf?_several hgroup] at h
  obtain ⟨alike, halike, h⟩ := bind_eq_ok_iff.mp h
  cases alike with
  | false =>
      cases h
      refine ⟨nofun, fun _ huniform => ?_⟩
      cases halike.symm.trans (hiff.mpr huniform)
  | true =>
      obtain ⟨itemType, htype, h⟩ := bind_eq_ok_iff.mp h
      cases h
      refine ⟨?_, nofun⟩
      rintro _ ⟨⟩
      refine ⟨hiff.mp halike, rfl, rfl, ?_, first, rfl, htype⟩
      by_cases hrow : layout.flow = .row <;> simp [hrow]

theorem several_blames (hgroup : r.isGroup = true)
    (hclosed : ∀ c ∈ first :: second :: third :: rest, c.isForeign = false) :
    Blames (IsUndecided (.branch i r layout (first :: second :: third :: rest)))
      (listOf? (.branch i r layout (first :: second :: third :: rest))) := by
  intro fault h
  refine ⟨hgroup, by simp [parts], first, rfl, ?_⟩
  rw [listOf?_several hgroup] at h
  rcases bind_eq_error_iff.mp h with halike | ⟨alike, halike, h⟩
  · obtain ⟨c, hc, hfault⟩ := exists_mem_of_allM_eq_error halike
    exact .inl ⟨c, hc, exists_of_isLike_eq_error hfault⟩
  · cases alike with
    | false => cases h
    | true =>
        refine .inr ⟨(allM_isLike_iff i layout hgroup hclosed).mp halike, ?_⟩
        rcases bind_eq_error_iff.mp h with htype | ⟨_, _, h⟩
        · exact htype
        · cases h

end Several

/-- Fewer than three elements are no list, and neither is what is no group. -/
theorem listOf?_eq_none_or_several (e : Element) : (listOf? e = .ok none ∧ ¬IsUniform e) ∨
    ∃ i r l first second third rest, r.isGroup = true ∧
      e = .branch i r l (first :: second :: third :: rest) := by
  by_cases hgroup : e.isGroup = true
  · cases e with
    | leaf i c => cases hgroup
    | foreign i v => cases hgroup
    | branch i r l es =>
        match es with
        | [] | [_] | [_, _] =>
            rw [listOf?, if_pos (show r.isGroup = true from hgroup)]
            exact .inl ⟨rfl, fun h => absurd h.several (by simp [parts])⟩
        | first :: second :: third :: rest =>
            exact .inr ⟨i, r, l, first, second, third, rest, hgroup, rfl⟩
  · exact .inl ⟨listOf?_of_isGroup_eq_false (Bool.eq_false_iff.mpr hgroup), fun h => hgroup h.group⟩

theorem finds_listOf? (hclosed : ∀ c ∈ e.parts, c.isForeign = false) :
    Finds (IsListed e) (¬IsUniform e) (listOf? e) := by
  rcases listOf?_eq_none_or_several e with ⟨h, hnot⟩ | ⟨i, r, l, _, _, _, _, hgroup, rfl⟩
  · rw [h]
    exact finds_none hnot
  · exact finds_several hgroup hclosed

theorem listOf?_blames (hclosed : ∀ c ∈ e.parts, c.isForeign = false) :
    Blames (IsUndecided e) (listOf? e) := by
  rcases listOf?_eq_none_or_several e with ⟨h, -⟩ | ⟨i, r, l, _, _, _, _, hgroup, rfl⟩
  · rw [h]
    exact blames_ok _
  · exact several_blames hgroup hclosed

theorem outermost_eq (e : Element) : outermost e =
    (e.reached fun x => IsUniform x).filter fun x => IsUniform x := by
  rw [outermost, reached, List.filter_map, List.filter_filter]
  refine congrArg _ (List.filter_congr fun p _ => ?_)
  rw [Bool.eq_iff_iff]
  simp [isOutside]

theorem outermost_of_isUniform (h : IsUniform e) : outermost e = [e] := by
  cases e with
  | leaf i c => exact absurd h.group Bool.false_ne_true
  | foreign i v => exact absurd h.group Bool.false_ne_true
  | branch i r l es =>
      rw [outermost_eq, reached_branch_of_closed (by simpa using h)]
      simp [h]

theorem outermost_branch {i : Identity} {r : Branch} {l : Layout} {es : List Element}
    (h : ¬IsUniform (.branch i r l es)) : outermost (.branch i r l es) = es.flatMap outermost := by
  rw [outermost_eq, reached_branch_of_open (by simpa using h), List.filter_cons_of_neg (by simpa),
    List.filter_flatMap]
  exact List.flatMap_congr fun e _ => (outermost_eq e).symm

/-- Every list is reported or stands in one that is. -/
theorem mem_outermost_or_exists {p : List Element × Element} (hp : p ∈ e.places)
    (h : IsUniform p.2) : p.2 ∈ outermost e ∨ ∃ a ∈ p.1, a ∈ outermost e := by
  induction e generalizing p with
  | leaf i c =>
      obtain rfl := List.mem_singleton.mp hp
      exact absurd h.group Bool.false_ne_true
  | foreign i v =>
      obtain rfl := List.mem_singleton.mp hp
      exact absurd h.group Bool.false_ne_true
  | branch i r l es ih =>
      rw [places_branch] at hp
      by_cases huniform : IsUniform (.branch i r l es)
      · rw [outermost_of_isUniform huniform]
        rcases List.mem_cons.mp hp with rfl | hp
        · exact .inl List.mem_cons_self
        · obtain ⟨e, -, hp⟩ := List.mem_flatMap.mp hp
          obtain ⟨q, -, rfl⟩ := List.mem_map.mp hp
          exact .inr ⟨_, List.mem_append_right _ List.mem_cons_self, List.mem_cons_self⟩
      · rw [outermost_branch huniform]
        rcases List.mem_cons.mp hp with rfl | hp
        · exact absurd h huniform
        · obtain ⟨e, he, hp⟩ := List.mem_flatMap.mp hp
          obtain ⟨q, hq, rfl⟩ := List.mem_map.mp hp
          rcases ih e he hq h with hmem | ⟨a, ha, hmem⟩
          · exact .inl (List.mem_flatMap.mpr ⟨e, he, hmem⟩)
          · exact .inr ⟨a, List.mem_append_left _ ha, List.mem_flatMap.mpr ⟨e, he, hmem⟩⟩

theorem walksAll_detectAll : WalksAll detect detectAll := ⟨rfl, fun _ _ => rfl⟩

theorem selects_detect (hclosed : ∀ x ∈ e.nodes, x.isForeign = false) {found : List Listing}
    (h : detect e = .ok found) :
    Selects IsListed (fun x => ¬IsUniform x) (e.reached fun x => IsUniform x) found := by
  induction e generalizing found with
  | leaf i c =>
      cases h
      exact .skip (fun h => absurd h.group Bool.false_ne_true) .nil
  | foreign i v => cases h
  | branch i r l es ih =>
      have hparts : ∀ e ∈ es, ∀ x ∈ e.nodes, x.isForeign = false :=
        fun e he x hx => hclosed x (nodes_subset_of_child he hx)
      rw [detect_branch] at h
      obtain ⟨list, hlist, h⟩ := bind_eq_ok_iff.mp h
      obtain ⟨hsome, hnone⟩ := finds_listOf? (e := .branch i r l es)
        (fun e he => hparts e he e (mem_nodes_self e)) list hlist
      cases list with
      | some list =>
          cases h
          have hlisted := hsome list rfl
          rw [reached_branch_of_closed (by simpa using hlisted.1)]
          exact .take hlisted .nil
      | none =>
          have hother := hnone rfl
          rw [reached_branch_of_open (by simpa using hother)]
          exact .skip hother (walksAll_detectAll.selects
            (fun e he found h => ih e he (hparts e he) h) h)

theorem detect_blames (hclosed : ∀ x ∈ e.nodes, x.isForeign = false) :
    Blames (fun fault => ∃ x ∈ e.reached fun x => IsUniform x, IsUndecided x fault)
      (detect e) := by
  induction e with
  | leaf i c => exact blames_ok _
  | foreign i v => exact absurd (hclosed _ (mem_nodes_self _)) (by simp [isForeign])
  | branch i r l es ih =>
      have hparts : ∀ e ∈ es, ∀ x ∈ e.nodes, x.isForeign = false :=
        fun e he x hx => hclosed x (nodes_subset_of_child he hx)
      have hpart : ∀ c ∈ (branch i r l es).parts, c.isForeign = false :=
        fun c hc => hparts c hc c (mem_nodes_self c)
      rw [detect_branch]
      intro fault h
      rcases bind_eq_error_iff.mp h with h | ⟨list, hlist, h⟩
      · refine ⟨_, mem_reached_iff.mpr ⟨([], _), ?_, rfl, rfl⟩, listOf?_blames hpart fault h⟩
        rw [places_branch]
        exact List.mem_cons_self
      · cases list with
        | some list => cases h
        | none =>
            have hother := (finds_listOf? hpart none hlist).2 rfl
            have hbelow : Blames (fun fault => ∃ e ∈ es, ∃ x ∈ e.reached fun x => IsUniform x,
                IsUndecided x fault) (detectAll es) :=
              walksAll_detectAll.blames fun e he =>
                (ih e he (hparts e he)).mono fun _ h => ⟨e, he, h⟩
            obtain ⟨e, he, x, hx, hfault⟩ := hbelow fault h
            rw [reached_branch_of_open (by simpa using hother)]
            exact ⟨x, List.mem_cons_of_mem _ (List.mem_flatMap.mpr ⟨e, he, hx⟩), hfault⟩

/-- What the name of an element gives to call others by: its letters and digits, those digits left
out that it begins with. -/
def calling (e : Element) : List Char :=
  Text.skip Char.isDigit (e.identity.label.toList.filter Text.isPlain)

theorem missingId_of_itemTypeOf_eq_error {fault : Mockup.Fault}
    (h : itemTypeOf first = .error fault) :
    fault = .missingId ∧ first.id = none ∧ (calling first).length < 3 := by
  have hbyId (h : itemTypeById first = .error fault) : fault = .missingId ∧ first.id = none := by
    rw [itemTypeById] at h
    split at h
    · cases h
    · next hid => exact ⟨(Except.error.inj h).symm, hid⟩
  rw [itemTypeOf] at h
  rw [calling]
  split at h
  · next hname =>
      split at h
      · cases h
      · next hshort =>
          obtain ⟨rfl, hid⟩ := hbyId h
          exact ⟨rfl, hid, by omega⟩
  · next hname =>
      obtain ⟨rfl, hid⟩ := hbyId h
      exact ⟨rfl, hid, by simp [hname]⟩

/-- The lists that stand in no other one are reported, in order and once each, so that every list is
reported or stands in one that is. Nothing is reported only if, of some group that stands in no
list, the sizes of two children cannot be compared because an extent is too large, or if such a list
cannot be named because its first element has neither an id nor a name of three letters. -/
theorem detects_outermost (hclosed : ∀ x ∈ e.nodes, x.isForeign = false)
    (hextents : ∀ x ∈ e.nodes, ∀ axis, Succeeds (x.box.extent axis)) :
    (∀ found, detect e = .ok found → List.Forall₂ Reports (outermost e) found) ∧
    (∀ p ∈ e.places, IsUniform p.2 → p.2 ∈ outermost e ∨ ∃ a ∈ p.1, a ∈ outermost e) ∧
    ∀ fault, detect e = .error fault →
      ∃ x ∈ e.reached fun x => IsUniform x, x.isGroup = true ∧ 3 ≤ x.parts.length ∧
        ((fault = .number .tooLarge ∧
            ∃ c ∈ x.parts, ∃ axis n, c.box.extent axis = .ok n ∧ ¬n.InRange) ∨
          (fault = .missingId ∧ IsUniform x ∧ ∃ first ∈ x.parts.head?,
            first.id = none ∧ (calling first).length < 3)) := by
  refine ⟨fun found h => ?_, fun p hp => mem_outermost_or_exists hp, fun fault h => ?_⟩
  · have hlisted := (selects_detect hclosed h).forall₂_filter (fun _ _ h => h.1) fun _ h => h
    rw [outermost_eq]
    exact hlisted.imp fun _ _ h => h.2
  · obtain ⟨x, hx, hgroup, hseveral, first, hfirst, hcause⟩ := detect_blames hclosed fault h
    have hnodes : x.parts ⊆ e.nodes := by
      obtain ⟨p, hp, -, rfl⟩ := mem_reached_iff.mp hx
      have hp : p.2 ∈ e.nodes := map_snd_places e ▸ List.mem_map_of_mem hp
      refine List.Subset.trans (fun c hc => ?_) (nodes_sublist hp).subset
      rw [nodes_eq]
      exact List.mem_cons_of_mem _ (List.mem_flatMap.mpr ⟨c, hc, mem_nodes_self c⟩)
    have hfirst' : first ∈ x.parts := List.mem_of_head? hfirst
    refine ⟨x, hx, hgroup, hseveral, ?_⟩
    rcases hcause with ⟨c, hc, f, hsize, rfl⟩ | ⟨huniform, htype⟩
    · obtain ⟨rfl, b, hb, axis, n, hn, hrange⟩ := tooLarge_of_similarSize_eq_error
        (hextents c (hnodes hc)) (hextents first (hnodes hfirst')) hsize
      refine .inl ⟨rfl, ?_⟩
      rcases List.mem_pair.mp hb with rfl | rfl
      · exact ⟨c, hc, axis, n, hn, hrange⟩
      · exact ⟨first, hfirst', axis, n, hn, hrange⟩
    · obtain ⟨rfl, hmissing⟩ := missingId_of_itemTypeOf_eq_error htype
      exact .inr ⟨rfl, huniform, first, hfirst, hmissing⟩

/-- Below a title and a component with three labels in a card, three rows of three icons. -/
def pantry : Element :=
  let box : Box := ⟨some 0, some 0, some 40, some 20⟩
  let label (id : String) : Element := .leaf { id := some id, box } (.text {})
  let icon (id : String) : Element := .leaf { id := some id, box } (.icon {})
  let group (id : String) (es : List Element) : Element :=
    .branch { id := some id, box } .container {} es
  group "1" [label "2",
    .branch { id := some "3", box } (.component {}) {}
      [.branch { id := some "4", box } .card {} [label "5", label "6", label "7"]],
    group "8" [group "9" [icon "10", icon "11", icon "12"],
      group "13" [icon "14", icon "15", icon "16"], group "17" [icon "18", icon "19", icon "20"]]]

theorem detects_outermost_pantry : ∃ found, detect pantry = .ok found ∧
    List.Forall₂ Reports (outermost pantry) found ∧
    found.map Listing.containerId = [some "4", some "8"] := by
  have hclosed : ∀ x ∈ pantry.nodes, x.isForeign = false := by decide
  have hextents : ∀ x ∈ pantry.nodes, ∀ axis, Succeeds (x.box.extent axis) := by
    have hboxes : ∀ x ∈ pantry.nodes, x.box = ⟨some 0, some 0, some 40, some 20⟩ := by
      decide
    intro x hx axis
    rw [hboxes x hx]
    cases axis <;> exact succeeds_ok _
  have hrun : (detect pantry).map (fun found => found.map Listing.containerId) =
      .ok [some "4", some "8"] := by decide +kernel
  obtain ⟨found, hfound, hcontainers⟩ := map_eq_ok_iff.mp hrun
  exact ⟨found, hfound, (detects_outermost hclosed hextents).1 found hfound, hcontainers⟩

def unevenRow : Element :=
  let text (id : String) (width : Int) : Element :=
    .leaf { id := some id, box := ⟨some 0, some 0, some (.int width), some 20⟩ } (.text {})
  .branch { id := some "1" } .container {} [text "2" 0, text "3" (Int.pow 10 400), text "4" 0]

/-- A row of different sizes is no list, but that cannot be told. -/
theorem not_detected_unevenRow : (∀ x ∈ unevenRow.nodes, x.isForeign = false) ∧
    outermost unevenRow = [] ∧ ∀ found, detect unevenRow ≠ .ok found := by
  have hrun : (detect unevenRow).map (fun found => found.map Listing.containerId) =
      .error (.number .tooLarge) := by decide +kernel
  refine ⟨by decide, ?_, fun found hfound => ?_⟩
  · have hother : ¬IsUniform unevenRow := by decide +kernel
    rw [unevenRow, outermost_branch hother]
    rfl
  · rw [hfound] at hrun
    cases hrun

end Mockup.Listing
