import Mockup.Pattern.Listing
import Mockup.Proofs.Element.Places
import Mockup.Proofs.Pattern.Grouping

namespace Mockup.Element

open Result

def rejection? : Element → Option Fault
  | leaf .. => none
  | branch .. => none
  | foreign _ v => some (.unknownVariant v)

def rejections (e : Element) : List Fault := e.nodes.filterMap rejection?

theorem rejection?_eq_some_iff {e : Element} {fault : Fault} :
    e.rejection? = some fault ↔ e.isForeign = true ∧ fault = .unknownVariant e.variant := by
  cases e <;> simp [rejection?, isForeign, variant, eq_comm]

theorem rejection?_eq_none_iff {e : Element} : e.rejection? = none ↔ e.isForeign = false := by
  cases e <;> simp [rejection?, isForeign]

theorem rejections_branch (i : Identity) (r : Branch) (l : Layout) (es : List Element) :
    (branch i r l es).rejections = es.flatMap rejections := by
  rw [rejections, nodes_branch, List.filterMap_cons, rejection?, List.filterMap_flatMap]
  rfl

theorem exists_head?_rejection?_iff {xs : List Element} :
    (∃ v, (xs.filterMap rejection?).head? = some (.unknownVariant v)) ↔
      ∃ x ∈ xs, x.isForeign = true := by
  rw [List.head?_filterMap]
  constructor
  · rintro ⟨v, h⟩
    obtain ⟨x, hx, hv⟩ := List.exists_of_findSome?_eq_some h
    exact ⟨x, hx, (rejection?_eq_some_iff.mp hv).1⟩
  · rintro ⟨x, hx, hforeign⟩
    cases h : xs.findSome? rejection? with
    | none =>
        have hnone := List.findSome?_eq_none_iff.mp h x hx
        rw [rejection?_eq_some_iff.mpr ⟨hforeign, rfl⟩] at hnone
        cases hnone
    | some fault =>
        obtain ⟨y, -, hy⟩ := List.exists_of_findSome?_eq_some h
        exact ⟨y.variant, congrArg some (rejection?_eq_some_iff.mp hy).2⟩

theorem unknown_iff_of_failsFirst {α : Type} {e : Element} {x : Mockup.Result α}
    (h : FailsFirst e.rejections x) :
    (∃ v, x = .error (.unknownVariant v)) ↔ ∃ y ∈ e.nodes, y.isForeign = true := by
  rw [← exists_head?_rejection?_iff]
  exact exists_congr fun v => h.eq_error_iff

theorem preorder_failsFirst (e : Element) : FailsFirst e.rejections e.preorder := by
  induction e with
  | leaf i c => exact .succeeds _
  | foreign i v => exact .fails _ _
  | branch i r l es ih =>
      have hall : FailsFirst (es.flatMap rejections) (preorderAll es) := by
        refine failsFirst_flatMap (fun _ : Unit => preorderAll) (fun _ => succeeds_ok []) ?_ ()
        intro e he rest hrest _
        exact (ih e he).bind fun _ _ => (hrest ()).bind_ok fun _ _ => succeeds_ok _
      rw [preorder, rejections_branch]
      exact hall.bind_ok fun _ _ => succeeds_ok _

section Repetition

open Repetition

theorem fingerprintChars_failsFirst (e : Element) :
    FailsFirst e.rejections (fingerprintChars e) := by
  induction e with
  | leaf i c => exact .succeeds _
  | foreign i v => exact .fails _ _
  | branch i r l es ih =>
      have hall : FailsFirst (es.flatMap rejections) (fingerprintsOf es) := by
        refine failsFirst_flatMap (fun _ : Unit => fingerprintsOf) (fun _ => succeeds_ok []) ?_ ()
        intro e he rest hrest _
        exact (ih e he).bind fun _ _ => (hrest ()).bind_ok fun _ _ => succeeds_ok _
      rw [fingerprintChars, rejections_branch]
      refine hall.bind_ok fun shapes _ => ?_
      exact .ite (fun _ => succeeds_ok _) fun _ => succeeds_ok _

theorem fingerprint_failsFirst (e : Element) : FailsFirst e.rejections (fingerprint e) :=
  (fingerprintChars_failsFirst e).bind_ok fun _ _ => succeeds_ok _

theorem variableTexts_failsFirst (e : Element) : FailsFirst e.rejections (variableTexts e) := by
  induction e with
  | leaf i c => cases c <;> exact .succeeds _
  | foreign i v => exact .fails _ _
  | branch i r l es ih =>
      rw [variableTexts, rejections_branch]
      refine failsFirst_flatMap variableTextsFrom (fun _ => succeeds_ok []) ?_ 0
      intro e he rest hrest index
      exact (ih e he).bind fun _ _ => (hrest _).bind_ok fun _ _ => succeeds_ok _

theorem collect_failsFirst (groups : Groups) (e : Element) :
    FailsFirst e.rejections (collect groups e) := by
  have hcandidate (groups : Groups) (e : Element) (h : isCandidate e = true) :
      FailsFirst e.rejections (addCandidate groups e) := by
    rw [addCandidate, if_pos h]
    exact (fingerprintChars_failsFirst e).bind_ok fun _ _ => succeeds_ok _
  have hother (groups : Groups) (e : Element) (h : ¬isCandidate e = true) :
      addCandidate groups e = .ok groups := by
    rw [addCandidate, if_neg h]
    rfl
  induction e generalizing groups with
  | leaf i c =>
      rw [collect]
      by_cases h : isCandidate (leaf i c) = true
      · exact hcandidate groups _ h
      · rw [hother groups _ h]
        exact .succeeds _
  | foreign i v => exact .fails _ _
  | branch i r l es ih =>
      have hbelow (groups : Groups) : FailsFirst (branch i r l es).rejections
          (collectAll groups es) := by
        rw [rejections_branch]
        refine failsFirst_flatMap collectAll (fun groups => succeeds_ok groups) ?_ groups
        intro e he rest hrest groups
        exact (ih e he groups).bind fun groups _ => hrest groups
      rw [collect]
      by_cases h : isCandidate (branch i r l es) = true
      · -- What is below a candidate was walked through before, for its shape.
        exact failsFirst_append_self.mp ((hcandidate groups _ h).bind fun groups _ => hbelow groups)
      · rw [hother groups _ h]
        exact hbelow groups

theorem detect_failsFirst (e : Element) : FailsFirst e.rejections (Repetition.detect e) := by
  rw [Repetition.detect]
  refine (collect_failsFirst [] e).bind_ok fun groups hgroups => ?_
  -- After the walk that collects the candidates nothing foreign is left to be met.
  have hclosed : ∀ x ∈ e.nodes, x.isForeign = false := by
    intro x hx
    by_contra hforeign
    obtain ⟨v, hv⟩ := (unknown_iff_of_failsFirst (collect_failsFirst [] e)).mpr
      ⟨x, hx, by simpa using hforeign⟩
    rw [hgroups] at hv
    cases hv
  obtain ⟨found, hfound, -⟩ := Repetition.detect_eq_ok hclosed
  rw [Repetition.detect, hgroups] at hfound
  exact ⟨found, hfound⟩

end Repetition

section Properties

def linkRejections (e : Element) : List Fault := (e.reached isRepeater).filterMap rejection?

theorem linkAll_failsFirst {n : Naming} {es : List Element}
    (h : ∀ e ∈ es, ∀ t, FailsFirst e.linkRejections (link n t e)) (t : PropertyTable) :
    FailsFirst (es.flatMap linkRejections) (linkAll n t es) := by
  refine failsFirst_flatMap (linkAll n) (fun t => succeeds_ok ([], t)) ?_ t
  intro e he rest hrest t
  exact (h e he t).bind fun _ _ => (hrest _).bind_ok fun _ _ => succeeds_ok _

theorem link_failsFirst (n : Naming) (t : PropertyTable) (e : Element) :
    FailsFirst e.linkRejections (link n t e) := by
  induction e generalizing t with
  | leaf i c => exact .succeeds _
  | foreign i v => exact .fails _ _
  | branch i r l es ih =>
      cases r with
      | repeater r =>
          rw [linkRejections, reached_branch_of_closed rfl, link]
          exact .succeeds _
      | container | card | component =>
          rw [linkRejections, reached_branch_of_open rfl, List.filterMap_cons, rejection?,
            List.filterMap_flatMap, link]
          · exact (linkAll_failsFirst ih t).bind_ok fun _ _ => succeeds_ok _
          · intro r hr
            cases hr

theorem extractProperties_failsFirst (n : Naming) (es : List Element) :
    FailsFirst (es.flatMap linkRejections) (extractProperties n es) :=
  (linkAll_failsFirst (fun e _ t => link_failsFirst n t e) {}).bind_ok fun _ _ => succeeds_ok _

theorem extractProperties_unknown_iff {n : Naming} {es : List Element} :
    (∃ v, extractProperties n es = .error (.unknownVariant v)) ↔
      ∃ e ∈ es, ∃ p ∈ e.places, p.2.isForeign = true ∧ isOutside isRepeater p = true := by
  have hfaults : es.flatMap linkRejections =
      (es.flatMap (reached isRepeater)).filterMap rejection? := by
    rw [List.filterMap_flatMap]
    rfl
  simp only [(extractProperties_failsFirst n es).eq_error_iff, hfaults, exists_head?_rejection?_iff,
    List.mem_flatMap, mem_reached_iff]
  constructor
  · rintro ⟨x, ⟨e, he, p, hp, houtside, rfl⟩, hforeign⟩
    exact ⟨e, he, p, hp, hforeign, houtside⟩
  · rintro ⟨e, he, p, hp, hforeign, houtside⟩
    exact ⟨p.2, ⟨e, he, p, hp, houtside, rfl⟩, hforeign⟩

end Properties

end Mockup.Element

namespace Mockup.Listing

open Element Result

def listOf? : Element → Mockup.Result (Option Listing)
  | .branch i r l es => if r.isGroup then of? i l es else .ok none
  | _ => .ok none

def isList (e : Element) : Bool :=
  match listOf? e with
  | .ok (some _) => true
  | _ => false

def isUndecided (e : Element) : Bool :=
  match listOf? e with
  | .ok _ => false
  | .error _ => true

def trouble? (e : Element) : Option Fault :=
  match listOf? e with
  | .ok _ => e.rejection?
  | .error fault => some fault

def troubles (e : Element) : List Fault := (e.reached isList).filterMap trouble?

theorem detect_branch (i : Identity) (r : Branch) (l : Layout) (es : List Element) :
    detect (.branch i r l es) = (do
      match ← listOf? (.branch i r l es) with
      | some found => return [found]
      | none => detectAll es) := by
  rw [detect, listOf?]
  split <;> rfl

theorem detect_failsFirst (e : Element) : FailsFirst (troubles e) (detect e) := by
  induction e with
  | leaf i c => exact .succeeds _
  | foreign i v => exact .fails _ _
  | branch i r l es ih =>
      have hall : FailsFirst (es.flatMap troubles) (detectAll es) := by
        refine failsFirst_flatMap (fun _ : Unit => detectAll) (fun _ => succeeds_ok []) ?_ ()
        intro e he rest hrest _
        exact (ih e he).bind fun _ _ => (hrest ()).bind_ok fun _ _ => succeeds_ok _
      rw [detect_branch, troubles]
      cases h : listOf? (.branch i r l es) with
      | error fault =>
          have hclosed : isList (.branch i r l es) = false := by rw [isList, h]
          rw [reached_branch_of_open hclosed, List.filterMap_cons, trouble?, h]
          exact .fails _ _
      | ok found =>
          cases found with
          | some found =>
              have hclosed : isList (.branch i r l es) = true := by rw [isList, h]
              rw [reached_branch_of_closed hclosed, List.filterMap_cons, trouble?, h]
              exact .succeeds _
          | none =>
              have hclosed : isList (.branch i r l es) = false := by rw [isList, h]
              rw [reached_branch_of_open hclosed, List.filterMap_cons, trouble?, h,
                List.filterMap_flatMap]
              exact hall

/-- Whether some children are a list is told without asking for theirs. -/
theorem of?_ne_unknown {i : Identity} {l : Layout} {es : List Element} {v : String} :
    of? i l es ≠ .error (.unknownVariant v) := by
  have hlift {α : Type} {x : Number.Result α} : x.lift ≠ .error (.unknownVariant v) := by
    cases x <;> simp [Number.Result.lift, Except.mapError]
  have hlike (a b : Element) : isLike a b ≠ .error (.unknownVariant v) := by
    rw [isLike]
    split
    · exact hlift
    · simp
  have hid (e : Element) : itemTypeById e ≠ .error (.unknownVariant v) := by
    rw [itemTypeById]
    split <;> simp
  have htype (e : Element) : itemTypeOf e ≠ .error (.unknownVariant v) := by
    rw [itemTypeOf]
    repeat' split
    · simp
    · exact hid e
    · exact hid e
  intro h
  rw [of?.eq_def] at h
  split at h
  · rcases bind_eq_error_iff.mp h with h | ⟨alike, -, h⟩
    · obtain ⟨a, -, ha⟩ := exists_mem_of_allM_eq_error h
      exact hlike _ _ ha
    · cases alike with
      | false => cases h
      | true =>
          rcases bind_eq_error_iff.mp h with h | ⟨itemType, -, h⟩
          · exact htype _ h
          · cases h
  · cases h

theorem trouble?_eq_unknown_iff {e : Element} {v : String} :
    trouble? e = some (.unknownVariant v) ↔ e.isForeign = true ∧ v = e.variant := by
  have hlist : listOf? e ≠ .error (.unknownVariant v) := by
    cases e with
    | leaf i c => simp [listOf?]
    | foreign i v => simp [listOf?]
    | branch i r l es =>
        rw [listOf?]
        split
        · exact of?_ne_unknown
        · simp
  rw [trouble?]
  cases h : listOf? e with
  | ok found => simp [rejection?_eq_some_iff]
  | error fault =>
      have hforeign : e.isForeign = false := by
        cases e with
        | foreign i v => cases h
        | leaf i c => rfl
        | branch i r l es => rfl
      rw [hforeign]
      simp only [Option.some.injEq, Bool.false_eq_true, false_and, iff_false]
      rintro rfl
      exact hlist h

theorem trouble?_eq_rejection? {e : Element} (h : isUndecided e = false) :
    trouble? e = e.rejection? := by
  rw [isUndecided] at h
  rw [trouble?]
  split at h
  · rfl
  · cases h

theorem isUndecided_of_trouble?_eq_none {e : Element} (h : trouble? e = none) :
    isUndecided e = false := by
  rw [trouble?] at h
  rw [isUndecided]
  split at h
  · rfl
  · cases h

/-- A foreign element is rejected if it is in no list and all before it, as far as they are in none,
can be decided. -/
theorem unknown_iff {e : Element} :
    (∃ v, detect e = .error (.unknownVariant v)) ↔
      ∃ before p after, e.places = before ++ p :: after ∧ p.2.isForeign = true ∧
        isOutside isList p = true ∧
        ∀ q ∈ before, isOutside isList q = true → isUndecided q.2 = false := by
  -- The search goes on below all elements but lists, so a place is met if it is in no list.
  let met (p : List Element × Element) := if isOutside isList p then trouble? p.2 else none
  have hmet {p : List Element × Element} {fault : Fault} :
      met p = some fault ↔ isOutside isList p = true ∧ trouble? p.2 = some fault :=
    Option.ite_none_right_eq_some
  have hhead : (troubles e).head? = e.places.findSome? met := by
    rw [troubles, reached, List.filterMap_map, List.filterMap_filter, List.head?_filterMap]
    rfl
  simp only [(detect_failsFirst e).eq_error_iff, hhead]
  constructor
  · rintro ⟨v, h⟩
    obtain ⟨before, p, after, hplaces, hp, hbefore⟩ := List.findSome?_eq_some_iff.mp h
    obtain ⟨houtside, hp⟩ := hmet.mp hp
    exact ⟨before, p, after, hplaces, (trouble?_eq_unknown_iff.mp hp).1, houtside,
      fun q hq hq' => isUndecided_of_trouble?_eq_none ((if_pos hq').symm.trans (hbefore q hq))⟩
  · rintro ⟨before, p, after, hplaces, hforeign, houtside, hdecided⟩
    rw [hplaces, List.findSome?_append, List.findSome?_cons,
      hmet.mpr ⟨houtside, trouble?_eq_unknown_iff.mpr ⟨hforeign, rfl⟩⟩]
    cases hbefore : before.findSome? met with
    | none => exact ⟨_, rfl⟩
    | some fault =>
        obtain ⟨q, hq, hfault⟩ := List.exists_of_findSome?_eq_some hbefore
        obtain ⟨hq', hfault⟩ := hmet.mp hfault
        rw [trouble?_eq_rejection? (hdecided q hq hq'), rejection?_eq_some_iff] at hfault
        exact ⟨q.2.variant, congrArg some hfault.2⟩

end Mockup.Listing

namespace Mockup.Element

open Result

/-- An element of a foreign variant is rejected where a walk reaches it. The whole tree is walked
through in order, for a shape, for the texts in it and for repetitions. A search for lists does not
go into a list, and ends at an element of which it cannot tell whether it is one. The properties of
a component are not looked for in repeaters. -/
theorem unknownVariant_iff_reached :
    (∀ e : Element,
      ((∃ v, e.preorder = .error (.unknownVariant v)) ↔ ∃ x ∈ e.nodes, x.isForeign = true) ∧
      ((∃ v, Repetition.fingerprint e = .error (.unknownVariant v)) ↔
        ∃ x ∈ e.nodes, x.isForeign = true) ∧
      ((∃ v, Repetition.variableTexts e = .error (.unknownVariant v)) ↔
        ∃ x ∈ e.nodes, x.isForeign = true) ∧
      ((∃ v, Repetition.detect e = .error (.unknownVariant v)) ↔
        ∃ x ∈ e.nodes, x.isForeign = true) ∧
      ((∃ v, Listing.detect e = .error (.unknownVariant v)) ↔
        ∃ before p after, e.places = before ++ p :: after ∧ p.2.isForeign = true ∧
          isOutside Listing.isList p = true ∧
          ∀ q ∈ before, isOutside Listing.isList q = true → Listing.isUndecided q.2 = false)) ∧
    ∀ (n : Naming) (es : List Element),
      (∃ v, extractProperties n es = .error (.unknownVariant v)) ↔
        ∃ e ∈ es, ∃ p ∈ e.places, p.2.isForeign = true ∧ isOutside isRepeater p = true :=
  ⟨fun e => ⟨unknown_iff_of_failsFirst (preorder_failsFirst e),
      unknown_iff_of_failsFirst (fingerprint_failsFirst e),
      unknown_iff_of_failsFirst (variableTexts_failsFirst e),
      unknown_iff_of_failsFirst (detect_failsFirst e), Listing.unknown_iff⟩,
    fun _ _ => extractProperties_unknown_iff⟩

def wideRow : Element :=
  let box (width : Int) : Box := ⟨some 0, some 0, some (.int width), some 20⟩
  let text (id : String) (width : Int) : Element :=
    .leaf { id := some id, box := box width } (.text {})
  .branch { id := some "1" } .container {}
    [.branch { id := some "2" } .card {} [text "3" (Int.pow 10 400), text "4" 0, text "5" 0],
      .foreign { id := some "6" } "Mystery"]

/-- The foreign element is in no list, and the search for lists does not come so far. -/
theorem not_rejected_wideRow :
    (∃ p ∈ wideRow.places, p.2.isForeign = true ∧ isOutside Listing.isList p = true) ∧
      ¬∃ v, Listing.detect wideRow = .error (.unknownVariant v) := by
  have hhead : (Listing.troubles wideRow).head? = some (.number .tooLarge) := by decide +kernel
  have hfails := Listing.detect_failsFirst wideRow
  have hdetect := hfails.eq_error_iff.mpr hhead
  refine ⟨by decide, ?_⟩
  rw [hdetect]
  simp

end Mockup.Element
