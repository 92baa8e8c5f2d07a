import Mockup.Proofs.Screen.Bars

namespace Mockup

namespace Tree

variable {α : Type}

/-- A tree with and without one of the subtrees below its root. -/
inductive Removes (u : Tree α) : Tree α → Tree α → Prop
  | child (a : α) (before after : List (Tree α)) :
      Removes u (node a (before ++ u :: after)) (node a (before ++ after))
  | inside (a : α) {t t' : Tree α} (before after : List (Tree α)) (h : Removes u t t') :
      Removes u (node a (before ++ t :: after)) (node a (before ++ t' :: after))

variable {u t t' : Tree α}

theorem Removes.item_eq (h : Removes u t t') : t'.item = t.item := by
  cases h with
  | child a before after => rfl
  | inside a before after h => rfl

theorem Removes.mem_subtrees (h : Removes u t t') : u ∈ t.children.flatMap subtrees := by
  induction h with
  | child a before after =>
      exact List.mem_flatMap.mpr ⟨u, List.mem_append_cons_self, mem_subtrees_self u⟩
  | @inside a t t' before after h ih =>
      obtain ⟨v, hv, hu⟩ := List.mem_flatMap.mp ih
      exact List.mem_flatMap.mpr ⟨t, List.mem_append_cons_self,
        subtrees_subset (mem_subtrees_child hv) hu⟩

end Tree

namespace SafeArea

open Result
open Modal (idsOf)

variable {screen : Box} {direct : Bool} {u : Document}

theorem id_of_chromeOf {layer : Layer} {c : Chrome}
    (h : chromeOf? screen direct layer = .ok (some c)) : c.id = layer.id := by
  have hmade {kind : Option ChromeKind} {box : Box}
      (h : kind.map (fun k => (⟨layer.id, layer.name, k, box⟩ : Chrome)) = some c) :
      c.id = layer.id := by
    obtain ⟨k, -, rfl⟩ := Option.map_eq_some_iff.mp h
    rfl
  rw [chromeOf?.eq_def] at h
  split at h
  · cases h
  · split at h
    · exact hmade (pure_eq_ok_iff.mp h)
    · split at h
      · obtain ⟨kind, -, h⟩ := bind_eq_ok_iff.mp h
        exact hmade (pure_eq_ok_iff.mp h)
      · exact hmade (pure_eq_ok_iff.mp h)

theorem chromeInAll_cons_eq_ok_iff {t : Document} {ts : List Document} {cs : List Chrome} :
    chromeInAll screen direct (t :: ts) = .ok cs ↔ ∃ as bs, chromeIn screen direct t = .ok as ∧
      chromeInAll screen direct ts = .ok bs ∧ cs = as ++ bs := by
  rw [chromeInAll]
  constructor
  · intro h
    obtain ⟨as, has, h⟩ := bind_eq_ok_iff.mp h
    obtain ⟨bs, hbs, h⟩ := bind_eq_ok_iff.mp h
    exact ⟨as, bs, has, hbs, (pure_eq_ok_iff.mp h).symm⟩
  · rintro ⟨as, bs, has, hbs, rfl⟩
    rw [has, hbs]
    rfl

theorem chromeInAll_append_eq_ok_iff {ts us : List Document} {cs : List Chrome} :
    chromeInAll screen direct (ts ++ us) = .ok cs ↔ ∃ as bs, chromeInAll screen direct ts = .ok as ∧
      chromeInAll screen direct us = .ok bs ∧ cs = as ++ bs := by
  induction ts generalizing cs with
  | nil => simp [chromeInAll]
  | cons t ts ih =>
      rw [List.cons_append, chromeInAll_cons_eq_ok_iff]
      simp only [chromeInAll_cons_eq_ok_iff, ih]
      constructor
      · rintro ⟨as, _, hs, ⟨bs, es, hts, hus, rfl⟩, rfl⟩
        exact ⟨as ++ bs, es, ⟨as, bs, hs, hts, rfl⟩, hus, (List.append_assoc _ _ _).symm⟩
      · rintro ⟨_, es, ⟨as, bs, hs, hts, rfl⟩, hus, rfl⟩
        exact ⟨as, bs ++ es, hs, ⟨bs, es, hts, hus, rfl⟩, List.append_assoc _ _ _⟩

theorem id_mem_of_chromeInAll {ts : List Document} {cs : List Chrome}
    (h : ∀ t ∈ ts, ∀ cs, chromeIn screen direct t = .ok cs → ∀ c ∈ cs, c.id ∈ idsOf t)
    (hcs : chromeInAll screen direct ts = .ok cs) : ∀ c ∈ cs, c.id ∈ ts.flatMap idsOf := by
  induction ts generalizing cs with
  | nil =>
      cases hcs
      simp
  | cons t ts ih =>
      obtain ⟨ht, hts⟩ := List.forall_mem_cons.mp h
      obtain ⟨as, bs, has, hbs, rfl⟩ := chromeInAll_cons_eq_ok_iff.mp hcs
      rw [List.flatMap_cons, List.forall_mem_append]
      exact ⟨fun c hc => List.mem_append_left _ (ht as has c hc),
        fun c hc => List.mem_append_right _ (ih hts hbs c hc)⟩

/-- Chrome that is found in a tree is a layer of that tree. -/
theorem id_mem_of_chromeIn {t : Document} {cs : List Chrome}
    (h : chromeIn screen direct t = .ok cs) : ∀ c ∈ cs, c.id ∈ idsOf t := by
  induction t using Tree.induct generalizing direct cs with
  | node layer ts ih =>
      rw [Modal.idsOf_eq]
      rw [chromeIn] at h
      obtain ⟨found, hfound, h⟩ := bind_eq_ok_iff.mp h
      cases found with
      | some c =>
          cases h
          rw [List.forall_mem_singleton, id_of_chromeOf hfound]
          exact List.mem_cons_self
      | none =>
          intro c hc
          exact List.mem_cons_of_mem _ (id_mem_of_chromeInAll (fun t ht _ h => ih t ht h) h c hc)

def outside (u : Document) (cs : List Chrome) : List Chrome := cs.filter fun c => c.id ∉ idsOf u

theorem outside_eq_self {cs : List Chrome} (h : ∀ c ∈ cs, c.id ∉ idsOf u) : outside u cs = cs :=
  List.filter_eq_self.mpr fun c hc => decide_eq_true (h c hc)

theorem outside_eq_nil {cs : List Chrome} (h : ∀ c ∈ cs, c.id ∈ idsOf u) : outside u cs = [] :=
  List.filter_eq_nil_iff.mpr fun c hc => by simpa using h c hc

theorem outside_append (u : Document) (as bs : List Chrome) :
    outside u (as ++ bs) = outside u as ++ outside u bs :=
  List.filter_append ..

/-- Chrome in other trees is not that of a tree within one of them. -/
theorem outside_siblings {before after ts : List Document} {t : Document} {cs : List Chrome}
    (hids : ((before ++ t :: after).flatMap idsOf).Nodup) (hu : idsOf u ⊆ idsOf t)
    (hts : ts ⊆ before ++ after) (h : chromeInAll screen direct ts = .ok cs) :
    outside u cs = cs := by
  refine outside_eq_self fun c hc hid => ?_
  obtain ⟨v, hv, hmem⟩ := List.mem_flatMap.mp
    (id_mem_of_chromeInAll (fun _ _ _ h => id_mem_of_chromeIn h) h c hc)
  exact Modal.disjoint_idsOf hids (hu hid) (List.mem_flatMap.mpr ⟨v, hts hv, hmem⟩)

theorem Removes.idsOf_subset {t t' : Document} (h : Tree.Removes u t t') :
    idsOf u ⊆ t.children.flatMap idsOf := by
  obtain ⟨v, hv, hu⟩ := List.mem_flatMap.mp h.mem_subtrees
  intro id hid
  exact List.mem_flatMap.mpr ⟨v, hv, SafeArea.idsOf_subset hu hid⟩

/-- Among siblings the search finds in a changed tree what it found there before, but for the chrome
of a tree within it. -/
theorem chromeInAll_removed {before after : List Document} {t : Document} {cs : List Chrome}
    (hids : ((before ++ t :: after).flatMap idsOf).Nodup) (hu : idsOf u ⊆ idsOf t)
    {ts' : List Document} (ht : ∀ cs, chromeIn screen direct t = .ok cs →
      chromeInAll screen direct ts' = .ok (outside u cs))
    (h : chromeInAll screen direct (before ++ t :: after) = .ok cs) :
    chromeInAll screen direct (before ++ ts' ++ after) = .ok (outside u cs) := by
  obtain ⟨bs, _, hbs, htail, rfl⟩ := chromeInAll_append_eq_ok_iff.mp h
  obtain ⟨ms, as, hms, has, rfl⟩ := chromeInAll_cons_eq_ok_iff.mp htail
  rw [outside_append, outside_append,
    outside_siblings hids hu (List.subset_append_left _ _) hbs,
    outside_siblings hids hu (List.subset_append_right _ _) has, ← List.append_assoc]
  exact chromeInAll_append_eq_ok_iff.mpr ⟨_, as,
    chromeInAll_append_eq_ok_iff.mpr ⟨bs, _, hbs, ht ms hms, rfl⟩, has, rfl⟩

/-- A layer is chrome or not whatever lies below it. -/
theorem chromeIn_removed {t t' : Document} (hids : (idsOf t).Nodup) (h : Tree.Removes u t t')
    (hchildren : ∀ cs, chromeInAll screen false t.children = .ok cs →
      chromeInAll screen false t'.children = .ok (outside u cs))
    {cs : List Chrome} (hcs : chromeIn screen direct t = .ok cs) :
    chromeIn screen direct t' = .ok (outside u cs) := by
  have hitem := h.item_eq
  rw [Modal.idsOf_eq, List.nodup_cons] at hids
  have hroot : t.item.id ∉ idsOf u := fun hid => hids.1 (Removes.idsOf_subset h hid)
  obtain ⟨a, ts⟩ := t
  obtain ⟨a', ts'⟩ := t'
  obtain rfl : a' = a := hitem
  rw [chromeIn] at hcs
  obtain ⟨found, hfound, hcs⟩ := bind_eq_ok_iff.mp hcs
  rw [chromeIn, hfound, ok_bind]
  cases found with
  | some c =>
      cases hcs
      have houtside : outside u [c] = [c] := outside_eq_self (by
        rw [List.forall_mem_singleton, id_of_chromeOf hfound]
        exact hroot)
      rw [houtside]
      rfl
  | none => exact hchildren cs hcs

theorem chromeInAll_children_removed {t t' : Document} (hids : (idsOf t).Nodup)
    (h : Tree.Removes u t t') {cs : List Chrome}
    (hcs : chromeInAll screen direct t.children = .ok cs) :
    chromeInAll screen direct t'.children = .ok (outside u cs) := by
  induction h generalizing direct cs with
  | child a before after =>
      rw [Modal.idsOf_eq, List.nodup_cons] at hids
      have hnone (cs : List Chrome) (h : chromeIn screen direct u = .ok cs) :
          chromeInAll screen direct [] = .ok (outside u cs) := by
        rw [outside_eq_nil (id_mem_of_chromeIn h), chromeInAll]
      have hall := chromeInAll_removed hids.2 (List.Subset.refl _) hnone hcs
      rwa [List.append_nil] at hall
  | @inside a t t' before after h ih =>
      rw [Modal.idsOf_eq, List.nodup_cons] at hids
      have hids := hids.2
      have ht : (idsOf t).Nodup :=
        (List.nodup_flatMap.mp hids).1 t List.mem_append_cons_self
      have hone (cs : List Chrome) (h' : chromeIn screen direct t = .ok cs) :
          chromeInAll screen direct [t'] = .ok (outside u cs) := by
        have hremoved := chromeIn_removed ht h (fun cs => ih ht) h'
        rw [chromeInAll, hremoved, chromeInAll, ok_bind, ok_bind, List.append_nil]
        rfl
      have hall := chromeInAll_removed hids (fun id hid => ?_) hone hcs
      · rwa [List.append_assoc] at hall
      · rw [Modal.idsOf_eq]
        exact List.mem_cons_of_mem _ (Removes.idsOf_subset h hid)

/-- A document with and without one of the subtrees below its root, hidden or not: the chrome that
is left is that of the layers that are left, and the insets are those of that chrome. So none of
them grows, and nothing changes if there was no chrome in the subtree. -/
theorem detect_removed (d d' u : Document) (hids : (d.preorder.map fun l => l.id).Nodup)
    (h : Tree.Removes u d d') (s : SafeArea) (hs : detect d = .ok s) :
    ∃ s', detect d' = .ok s' ∧ s'.chrome = s.chrome.filter (fun c => c.id ∉ idsOf u) ∧
      insetsOf (screenOf d) s'.chrome = .ok s'.insets ∧
      (∀ side, (s'.insets.at side).le (s.insets.at side) = true) ∧
      (s'.hasLayout = true → s.hasLayout = true) ∧
      ((∀ c ∈ s.chrome, c.id ∉ idsOf u) →
        s'.insets = s.insets ∧ s'.hasLayout = s.hasLayout) := by
  obtain ⟨hchrome, hinsets, -⟩ := detect_eq_ok hs
  have hscreen : screenOf d' = screenOf d := by rw [screenOf, screenOf, h.item_eq]
  have hsub : outside u s.chrome ⊆ s.chrome := fun c hc => List.mem_of_mem_filter hc
  have hsucceeds := insetsOf_succeeds_iff.mp ⟨s.insets, hinsets⟩
  obtain ⟨insets, hinsets'⟩ : Succeeds (insetsOf (screenOf d) (outside u s.chrome)) :=
    insetsOf_succeeds_iff.mpr fun c hc => hsucceeds c (hsub hc)
  have hle := insetsOf_le hinsets' hinsets hsub
  have hchrome' := chromeInAll_children_removed hids h hchrome
  rw [← hscreen] at hchrome'
  obtain ⟨s', hs', hleft, hmeasured⟩ := exists_detect hchrome' (hscreen ▸ hinsets')
  rw [← hleft, ← hmeasured] at hinsets'
  rw [← hmeasured] at hle
  refine ⟨s', hs', hleft, hinsets', hle, fun h => ?_, fun hnone => ?_⟩
  · rw [hasLayout_iff hs]
    rcases (hasLayout_iff hs').mp h with hne | htop | hbottom
    · refine .inl fun hnil => hne ?_
      rw [hleft, hnil]
      rfl
    · exact .inr (.inl (Number.lt_of_lt_of_le htop (hle .top)))
    · exact .inr (.inr (Number.lt_of_lt_of_le hbottom (hle .bottom)))
  · have hsame : s'.chrome = s.chrome := hleft.trans (outside_eq_self hnone)
    rw [hsame, hinsets, Except.ok.injEq] at hinsets'
    refine ⟨hinsets'.symm, ?_⟩
    rw [Bool.eq_iff_iff, hasLayout_iff hs', hasLayout_iff hs, hsame, hinsets']

def hiddenBar : Document :=
  .node { barAt "2" "Status Bar" (some ⟨some 0, some 0, some 375, some 44⟩) with visible := false }
    [.node (barAt "3" "Note" none) []]

def indicator : Document :=
  .node (barAt "4" "Home Indicator" (some ⟨some 0, some 778, some 375, some 34⟩)) []

def screenWith (ts : List Document) : Document :=
  .node (barAt "1" "Home" (some ⟨some 0, some 0, some 375, some 812⟩)) ts

theorem detect_removed_hiddenBar :
    ((screenWith [hiddenBar, indicator]).preorder.map fun l => l.id).Nodup ∧
    Tree.Removes hiddenBar (screenWith [hiddenBar, indicator]) (screenWith [indicator]) ∧
    ∃ s s', detect (screenWith [hiddenBar, indicator]) = .ok s ∧
      detect (screenWith [indicator]) = .ok s' ∧
      s'.chrome = s.chrome.filter fun c => c.id ∉ idsOf hiddenBar := by
  have hids : ((screenWith [hiddenBar, indicator]).preorder.map fun l => l.id).Nodup := by decide
  have hremoves : Tree.Removes hiddenBar (screenWith [hiddenBar, indicator])
      (screenWith [indicator]) := .child _ [] [indicator]
  have hsome : (detect (screenWith [hiddenBar, indicator])).toOption.isSome = true := by
    decide
  obtain ⟨s, hs⟩ := Option.isSome_iff_exists.mp hsome
  have hs := toOption_eq_some_iff.mp hs
  obtain ⟨s', hs', hchrome, -⟩ := detect_removed _ _ hiddenBar hids hremoves s hs
  exact ⟨hids, hremoves, s, s', hs, hs', hchrome⟩

/-- A hidden status bar takes room. -/
theorem not_unchanged_hiddenBar :
    ((screenWith [hiddenBar]).preorder.map fun l => l.id).Nodup ∧
    Tree.Removes hiddenBar (screenWith [hiddenBar]) (screenWith []) ∧
    hiddenBar.item.visible = false ∧
    ∃ s s', detect (screenWith [hiddenBar]) = .ok s ∧ detect (screenWith []) = .ok s' ∧
      s.insets ≠ s'.insets ∧ s.hasLayout ≠ s'.hasLayout := by
  have htaken : (detect (screenWith [hiddenBar])).toOption.map (fun s => (s.insets, s.hasLayout)) =
      some ({ top := 44 }, true) := by decide +kernel
  have hfree : (detect (screenWith [])).toOption.map (fun s => (s.insets, s.hasLayout)) =
      some ({}, false) := by decide +kernel
  obtain ⟨s, hs, htop⟩ := Option.map_eq_some_iff.mp htaken
  obtain ⟨s', hs', hzero⟩ := Option.map_eq_some_iff.mp hfree
  rw [Prod.mk.injEq] at htop hzero
  refine ⟨by decide, .child _ [] [], rfl, s, s', toOption_eq_some_iff.mp hs,
    toOption_eq_some_iff.mp hs', ?_, ?_⟩
  · rw [htop.1, hzero.1]
    decide
  · rw [htop.2, hzero.2]
    decide

end SafeArea

end Mockup
