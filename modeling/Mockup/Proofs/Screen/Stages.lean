import Mockup.Proofs.Layout.Blocks
import Mockup.Proofs.Style.Content
import Mockup.Screen

namespace Mockup

namespace Screen

variable {o : Options} {d : Document} {s : Screen}

theorem lowerTree_eq_ok {n : Naming} {t : Tree Block} {e' : Element} {b : StyleBundle}
    {found : Detection} (h : lowerTree n t = .ok (e', b, found)) :
    ∃ placed e registry, Layout.place none none t = .ok placed ∧
      Recognition.recognize n placed = .ok e ∧ Style.assign placed {} e = .ok (e', registry) ∧
      registry.bundle placed = .ok b := by
  obtain ⟨placed, hplaced, h⟩ := Result.bind_eq_ok_iff.mp h
  obtain ⟨e, he, h⟩ := Result.bind_eq_ok_iff.mp h
  obtain ⟨⟨e'', registry⟩, ha, h⟩ := Result.bind_eq_ok_iff.mp h
  obtain ⟨b', hb, h⟩ := Result.bind_eq_ok_iff.mp h
  obtain ⟨listings, -, h⟩ := Result.bind_eq_ok_iff.mp h
  obtain ⟨repetitions, -, h⟩ := Result.bind_eq_ok_iff.mp h
  cases h
  exact ⟨placed, e, registry, Result.lift_eq_ok_iff.mp hplaced, he, ha, hb⟩

theorem repetitions_of_lowerTree {n : Naming} {t : Tree Block} {e : Element} {b : StyleBundle}
    {found : Detection} (h : lowerTree n t = .ok (e, b, found)) :
    Repetition.detect e = .ok found.repetitions := by
  obtain ⟨placed, -, h⟩ := Result.bind_eq_ok_iff.mp h
  obtain ⟨e', -, h⟩ := Result.bind_eq_ok_iff.mp h
  obtain ⟨⟨e'', registry⟩, -, h⟩ := Result.bind_eq_ok_iff.mp h
  obtain ⟨b', -, h⟩ := Result.bind_eq_ok_iff.mp h
  obtain ⟨listings, -, h⟩ := Result.bind_eq_ok_iff.mp h
  obtain ⟨repetitions, hrepetitions, h⟩ := Result.bind_eq_ok_iff.mp h
  cases h
  exact hrepetitions

/-- Nothing that is lowered is taken for the placeholder, whose only style is empty. -/
theorem lowerTree_ne_placeholder {n : Naming} {t : Tree Block} {e : Element} {b : StyleBundle}
    {found : Detection} (h : lowerTree n t = .ok (e, b, found)) (root : Layer) :
    (e, b) ≠ placeholder root := by
  obtain ⟨placed, e', registry, -, he, ha, hb⟩ := lowerTree_eq_ok h
  obtain ⟨name, s, hs, hfirst⟩ := Style.exists_first_style he ha
  rw [← Style.styles_of_bundle hb] at hfirst
  intro heq
  rw [(Prod.mk.inj heq).2] at hfirst
  have hmem := hfirst.subset List.mem_cons_self
  exact hs (congrArg Prod.snd (List.mem_singleton.mp hmem))

theorem ne_placeholder_of_names (h : Fields.names s.bundle.styles ≠ [emptyStyleRef])
    (root : Layer) : (s.root, s.bundle) ≠ placeholder root := by
  intro heq
  rw [(Prod.mk.inj heq).2] at h
  exact h rfl

theorem effectiveRoot_mem_subtrees (d : Document) (modal : Option (Option Modal)) :
    effectiveRoot d modal ∈ d.subtrees := by
  rw [effectiveRoot.eq_def]
  split
  · next m =>
      cases h : Modal.contentWith? d m.contentId with
      | none => exact d.mem_subtrees_self
      | some t => exact List.mem_of_find?_eq_some h
  · exact d.mem_subtrees_self

def safeArea? (o : Options) (d : Document) : Result (Option SafeArea) :=
  if o.detectSafeArea then some <$> (SafeArea.detect d).lift else pure none

def modal? (o : Options) (d : Document) : Result (Option (Option Modal)) :=
  if o.detectModal then some <$> (Modal.detect? d).lift else pure none

def content (o : Options) (safeArea : Option SafeArea) (d root : Document) :
    Result (Element × StyleBundle × Detection) :=
  match (selectionOf o safeArea).apply o.unwrapGroups root with
  | some t => lower o t
  | none => pure ((placeholder d.item).1, (placeholder d.item).2, {})

def assemble (d : Document) (safeArea : Option SafeArea) (modal : Option (Option Modal))
    (shown : Element × StyleBundle × Detection) : Result Screen := do
  let variants ← (Variants.detect (effectiveRoot d modal)).lift
  return ⟨d.item.id, d.item.name, shown.1, shown.2.1,
    { shown.2.2 with modal, variants := some variants, safeArea }⟩

theorem ofDocument_eq (o : Options) (d : Document) : ofDocument o d = (do
    let safeArea ← safeArea? o d
    let modal ← modal? o d
    let shown ← content o safeArea d (effectiveRoot d modal)
    assemble d safeArea modal shown) := by
  -- the branches for a document with and without content each go on to the end
  have hafter (safeArea : Option SafeArea) (modal : Option (Option Modal)) :
      (match (selectionOf o safeArea).apply o.unwrapGroups (effectiveRoot d modal) with
        | some t => lower o t >>= assemble d safeArea modal
        | none => pure ((placeholder d.item).1, (placeholder d.item).2, {}) >>=
            assemble d safeArea modal) =
      content o safeArea d (effectiveRoot d modal) >>= assemble d safeArea modal := by
    rw [content]
    cases (selectionOf o safeArea).apply o.unwrapGroups (effectiveRoot d modal) <;> rfl
  rw [ofDocument, safeArea?, modal?]
  cases o.detectSafeArea <;> cases o.detectModal
  all_goals exact bind_congr fun safeArea => bind_congr fun modal => hafter safeArea modal

theorem content_eq_ok {safeArea : Option SafeArea} {root : Document}
    {shown : Element × StyleBundle × Detection} (h : content o safeArea d root = .ok shown) :
    (∃ t, (selectionOf o safeArea).apply o.unwrapGroups root = some t ∧
      lowerTree o.naming t = .ok shown) ∨
    shown = ((placeholder d.item).1, (placeholder d.item).2, {}) := by
  rw [content] at h
  split at h
  · next t ht =>
      rw [lower] at h
      split at h
      · cases h
      · exact .inl ⟨t, ht, h⟩
  · cases h
    exact .inr rfl

/-- What was noticed on a screen, stage by stage. -/
theorem detection_of_ofDocument (h : ofDocument o d = .ok s) :
    (∀ safeArea, s.detection.safeArea = some safeArea → SafeArea.detect d = .ok safeArea) ∧
    (s.detection.repetitions = [] ∨ Repetition.detect s.root = .ok s.detection.repetitions) ∧
    ∃ variants, s.detection.variants = some variants ∧
      Variants.detect (effectiveRoot d s.detection.modal) = .ok variants := by
  rw [ofDocument_eq] at h
  obtain ⟨safeArea, hsafeArea, h⟩ := Result.bind_eq_ok_iff.mp h
  obtain ⟨modal, -, h⟩ := Result.bind_eq_ok_iff.mp h
  obtain ⟨⟨e, b, found⟩, hcontent, h⟩ := Result.bind_eq_ok_iff.mp h
  obtain ⟨variants, hvariants, h⟩ := Result.bind_eq_ok_iff.mp h
  cases h
  refine ⟨fun area harea => ?_, ?_, variants, rfl, Result.lift_eq_ok_iff.mp hvariants⟩
  · rw [safeArea?] at hsafeArea
    split at hsafeArea
    · obtain ⟨found, hfound, hsome⟩ := Result.map_eq_ok_iff.mp hsafeArea
      cases hsome.trans harea
      exact Result.lift_eq_ok_iff.mp hfound
    · cases hsafeArea
      cases harea
  · rcases content_eq_ok hcontent with ⟨t, -, hlower⟩ | hempty
    · have hrepetitions := repetitions_of_lowerTree hlower
      exact .inr hrepetitions
    · cases hempty
      exact .inl rfl

/-- A screen shows what is selected of the effective root of its document, or it is the
placeholder. -/
theorem ofDocument_eq_ok (h : ofDocument o d = .ok s) :
    (∃ t found, (selectionOf o s.detection.safeArea).apply o.unwrapGroups
        (effectiveRoot d s.detection.modal) = some t ∧
      lowerTree o.naming t = .ok (s.root, s.bundle, found)) ∨
    (s.root, s.bundle) = placeholder d.item := by
  rw [ofDocument_eq] at h
  obtain ⟨safeArea, -, h⟩ := Result.bind_eq_ok_iff.mp h
  obtain ⟨modal, -, h⟩ := Result.bind_eq_ok_iff.mp h
  obtain ⟨⟨e, b, found⟩, hcontent, h⟩ := Result.bind_eq_ok_iff.mp h
  obtain ⟨variants, -, h⟩ := Result.bind_eq_ok_iff.mp h
  cases h
  rcases content_eq_ok hcontent with ⟨t, ht, hlower⟩ | hempty
  · exact .inl ⟨t, found, ht, hlower⟩
  · cases hempty
    exact .inr rfl

end Screen

end Mockup
