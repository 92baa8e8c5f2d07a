import Mockup.Pattern.Repetition
import Mockup.Proofs.Element.Alike
import Mockup.Proofs.Value.Fields

namespace Mockup

structure Fields.AlikeEntries {α : Type} (c : Change) (xs ys : List (String × α)) : Prop where
  names : Fields.names xs = Fields.names ys
  same : c ≠ .texts → xs = ys

structure Repetition.Alike (c : Change) (a b : Repetition) : Prop where
  name : a.name = b.name
  instanceIds : a.instanceIds = b.instanceIds
  variations : Fields.AlikeEntries c a.variations b.variations

namespace Repetition

open Fields (AlikeEntries)

variable {c : Change} {e f : Element} {es fs : List Element}

theorem fingerprintsOf_eq
    (h : List.Forall₂ (fun e f => fingerprintChars e = fingerprintChars f) es fs) :
    fingerprintsOf es = fingerprintsOf fs := by
  induction h with
  | nil => rfl
  | cons h _ ih => rw [fingerprintsOf, fingerprintsOf, h, ih]

theorem fingerprintChars_eq (h : e.Alike c f) : fingerprintChars e = fingerprintChars f := by
  induction e generalizing f with
  | leaf i l =>
      cases h with
      | leaf _ hl => rw [fingerprintChars, fingerprintChars, hl.variant_eq]
  | foreign i v => cases h
  | branch i r layout es ih =>
      cases h with
      | branch _ hr hes =>
          rw [fingerprintChars, fingerprintChars, hr.variant_eq, hr.isGroup_eq,
            fingerprintsOf_eq (Related.imp_mem hes ih)]

theorem nameFor_eq (h : e.Alike c f) : nameFor e = nameFor f := by
  rw [nameFor, nameFor, h.identity.label_eq, h.variant_eq]

theorem isCandidate_leaf (i : Identity) (l : Leaf) :
    isCandidate (.leaf i l) = (l.variant == "Button") := by
  cases l <;> rfl

theorem isCandidate_eq (h : e.Alike c f) : isCandidate e = isCandidate f := by
  cases h with
  | leaf _ hl => rw [isCandidate_leaf, isCandidate_leaf, hl.variant_eq]
  | branch _ hr hes => rw [isCandidate, isCandidate, hr.isGroup_eq, Related.isEmpty_eq hes]

theorem map_childKey {xs ys : List (String × String)} (h : AlikeEntries c xs ys) (index : Nat) :
    AlikeEntries c (xs.map fun t => (childKey index t.1, t.2))
      (ys.map fun t => (childKey index t.1, t.2)) where
  names := by
    have hkeys := congrArg (List.map (childKey index)) h.names
    simpa [Fields.names, Function.comp_def] using hkeys
  same := fun hc => by rw [h.same hc]

theorem AlikeEntries.append {xs xs' ys ys' : List (String × String)} (h : AlikeEntries c xs ys)
    (h' : AlikeEntries c xs' ys') : AlikeEntries c (xs ++ xs') (ys ++ ys') where
  names := by
    have hnames := h.names
    have hnames' := h'.names
    simp only [Fields.names] at hnames hnames' ⊢
    rw [List.map_append, List.map_append, hnames, hnames']
  same := fun hc => by rw [h.same hc, h'.same hc]

theorem leafTexts_agree {i j : Identity} {l m : Leaf} (hl : l.Alike c m) :
    Result.Agree (AlikeEntries c) (variableTexts (.leaf i l)) (variableTexts (.leaf j m)) := by
  obtain ⟨a, b, rfl, rfl⟩ | ⟨a, b, rfl, rfl⟩ | ⟨a, rfl, rfl⟩ | ⟨a, b, rfl, rfl⟩ := hl.cases
  · exact .ok ⟨rfl, fun hc => by rw [Leaf.text.inj (hl.same hc)]⟩
  · exact .ok ⟨rfl, fun _ => rfl⟩
  · exact .ok ⟨rfl, fun _ => rfl⟩
  · exact .ok ⟨rfl, fun hc => by rw [Leaf.button.inj (hl.same hc)]⟩

theorem variableTextsFrom_agree
    (h : List.Forall₂ (fun e f => Result.Agree (AlikeEntries c) (variableTexts e)
      (variableTexts f)) es fs) (index : Nat) :
    Result.Agree (AlikeEntries c) (variableTextsFrom index es) (variableTextsFrom index fs) := by
  induction h generalizing index with
  | nil => exact .ok ⟨rfl, fun _ => rfl⟩
  | cons h _ ih =>
      rw [variableTextsFrom, variableTextsFrom]
      exact h.bind fun xs ys hxy => (ih _).bind fun xs' ys' hxy' =>
        .ok (AlikeEntries.append (map_childKey hxy index) hxy')

theorem variableTexts_agree (h : e.Alike c f) :
    Result.Agree (AlikeEntries c) (variableTexts e) (variableTexts f) := by
  induction e generalizing f with
  | leaf i l =>
      cases h with
      | leaf _ hl => exact leafTexts_agree hl
  | foreign i v => cases h
  | branch i r layout es ih =>
      cases h with
      | branch _ _ hes =>
          exact variableTextsFrom_agree (Related.imp_mem hes ih) 0

theorem names_addVariation {vs ws : List (String × List String)}
    (h : Fields.names vs = Fields.names ws) {t u : String × String} (ht : t.1 = u.1) :
    Fields.names (addVariation vs t) = Fields.names (addVariation ws u) := by
  rw [addVariation, addVariation, ht]
  exact Fields.names_put_congr h _ _ _

theorem names_foldl_addVariation {texts texts' : List (String × String)}
    (ht : Fields.names texts = Fields.names texts') {vs ws : List (String × List String)}
    (h : Fields.names vs = Fields.names ws) :
    Fields.names (texts.foldl addVariation vs) = Fields.names (texts'.foldl addVariation ws) := by
  have hkeys : List.Forall₂ (fun t u => t.1 = u.1) texts texts' := by
    rwa [← List.forall₂_eq_eq_eq, Fields.names, Fields.names, List.forall₂_map_left_iff,
      List.forall₂_map_right_iff] at ht
  clear ht
  induction hkeys generalizing vs ws with
  | nil => exact h
  | cons hkey _ ih => exact ih (names_addVariation h hkey)

theorem merge_agree (h : List.Forall₂ (Element.Alike c) es fs) :
    Result.Agree (AlikeEntries c) (merge es) (merge fs) :=
  Result.agree_foldlM h ⟨rfl, fun _ => rfl⟩ fun _ _ _ _ hvw he =>
    (variableTexts_agree he).bind fun _ _ hxy =>
      .ok ⟨names_foldl_addVariation hxy.names hvw.names, fun hc => by rw [hxy.same hc, hvw.same hc]⟩

def AlikeGroups (c : Change) (a b : List Char × List Element) : Prop :=
  a.1 = b.1 ∧ List.Forall₂ (Element.Alike c) a.2 b.2

theorem add_alike {gs hs : Groups} (h : List.Forall₂ (AlikeGroups c) gs hs) (shape : List Char)
    (he : e.Alike c f) : List.Forall₂ (AlikeGroups c) (gs.add shape e) (hs.add shape f) := by
  induction h with
  | nil => exact .cons ⟨rfl, .cons he .nil⟩ .nil
  | @cons a b gs hs hab h ih =>
      obtain ⟨s, as⟩ := a
      obtain ⟨s', bs⟩ := b
      obtain ⟨hs, has⟩ := hab
      simp only at hs has
      subst hs
      rw [Groups.add, Groups.add]
      split
      · exact .cons ⟨rfl, List.rel_append has (.cons he .nil)⟩ h
      · exact .cons ⟨rfl, has⟩ ih

theorem addCandidate_agree {gs hs : Groups} (h : List.Forall₂ (AlikeGroups c) gs hs)
    (he : e.Alike c f) :
    Result.Agree (List.Forall₂ (AlikeGroups c)) (addCandidate gs e) (addCandidate hs f) := by
  rw [addCandidate, addCandidate, isCandidate_eq he, fingerprintChars_eq he]
  split
  · exact Result.agree_bind_of_eq rfl fun shape => .ok (add_alike h shape he)
  · exact .ok h

theorem collectAll_agree {gs hs : Groups}
    (h : List.Forall₂ (fun e f => ∀ {gs hs : Groups}, List.Forall₂ (AlikeGroups c) gs hs →
      Result.Agree (List.Forall₂ (AlikeGroups c)) (collect gs e) (collect hs f)) es fs)
    (hg : List.Forall₂ (AlikeGroups c) gs hs) :
    Result.Agree (List.Forall₂ (AlikeGroups c)) (collectAll gs es) (collectAll hs fs) := by
  induction h generalizing gs hs with
  | nil => exact .ok hg
  | cons h _ ih =>
      rw [collectAll, collectAll]
      exact (h hg).bind fun gs hs hg => ih hg

theorem collect_agree (h : e.Alike c f) :
    ∀ {gs hs : Groups}, List.Forall₂ (AlikeGroups c) gs hs →
      Result.Agree (List.Forall₂ (AlikeGroups c)) (collect gs e) (collect hs f) := by
  -- the groups on both sides have the same shapes in the same order, whatever has been collected
  induction e generalizing f with
  | leaf i l =>
      intro gs hs hg
      cases h with
      | leaf hi hl => exact addCandidate_agree hg (.leaf hi hl)
  | foreign i v => cases h
  | branch i r layout es ih =>
      intro gs hs hg
      cases h with
      | branch hi hr hes =>
          exact (addCandidate_agree hg (.branch hi hr hes)).bind fun gs hs hg =>
            collectAll_agree (Related.imp_mem hes ih) hg

theorem ofGroup_agree (h : List.Forall₂ (Element.Alike c) es fs) :
    Result.Agree (Option.Rel (Repetition.Alike c)) (ofGroup? es) (ofGroup? fs) := by
  cases h with
  | nil => exact .ok .none
  | cons ha h =>
      cases h with
      | nil => exact .ok .none
      | cons hb h =>
          have hall := List.Forall₂.cons ha (.cons hb h)
          exact (merge_agree hall).bind fun vs ws hvw =>
            .ok (.some ⟨nameFor_eq ha, Related.map_eq hall fun _ _ he => he.id_eq, hvw⟩)

theorem detect_agree (h : e.Alike c f) :
    Result.Agree (List.Forall₂ (Repetition.Alike c)) (detect e) (detect f) := by
  refine (collect_agree h .nil).bind fun gs hs hg => ?_
  refine (Result.agree_mapM hg fun a b hab => ofGroup_agree hab.2).bind fun as bs hab => ?_
  exact .ok (List.rel_filterMap (fun _ _ h => h) hab)

end Repetition

end Mockup
